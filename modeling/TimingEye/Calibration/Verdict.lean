import TimingEye.Phase

/-!
# Limits and outcomes of a calibration

`Params` bounds the search.  A calibration ends with a `Verdict`: the operating point it left the
hardware at (`Calibrated`), or the news that no setting was good enough (`Exhausted`).  Each has a
sentence for people (`text`) and a line with all its fields (`detailed`).
-/

namespace TimingEye

/-! ## Limits -/

structure Params where
  coarseSteps : UInt8 := 128
  /-- How many probes are issued at each setting. -/
  probes : UInt32 := 64
  /-- A failure after this many passes in a row ends the probing of a setting. -/
  breakWindow : UInt32 := 6
  /-- The shortest window that is accepted. -/
  acceptWindow : UInt32 := 5
  deriving DecidableEq, Repr

namespace Params

/-- The limits a board is brought up with. -/
def standard : Params := {}

def detailed (params : Params) : String :=
  namedFields "Params"
    [("coarse_steps", decimal params.coarseSteps.toNat),
      ("probes", decimal params.probes.toNat),
      ("break_window", decimal params.breakWindow.toNat),
      ("accept_window", decimal params.acceptWindow.toNat)]

end Params

/-! ## The clock delay of a setting -/

/-- The taps of the clock delay line at a coarse setting: four settings share a tap count. -/
def clockTaps (coarse : UInt8) : UInt8 :=
  coarse >>> 2

/-! ## Outcomes -/

/-- The operating point the hardware was left at. -/
structure Calibrated where
  coarse : UInt8
  clkDelay : UInt8
  subPhase : SubPhase
  /-- The passes in a row for which the setting was accepted. -/
  window : UInt32
  /-- Phase steps issued to move into the middle of the window. -/
  centeringSteps : UInt32
  deriving DecidableEq, Repr

namespace Calibrated

def text (point : Calibrated) : String :=
  "coarse " ++ decimal point.coarse.toNat
    ++ " (clk delay " ++ decimal point.clkDelay.toNat
    ++ ", slip " ++ point.subPhase.text
    ++ "), window " ++ decimal point.window.toNat
    ++ ", centered by " ++ decimal point.centeringSteps.toNat ++ " steps"

def detailed (point : Calibrated) : String :=
  namedFields "Calibrated"
    [("coarse", decimal point.coarse.toNat),
      ("clk_delay", decimal point.clkDelay.toNat),
      ("sub_phase", point.subPhase.detailed),
      ("window", decimal point.window.toNat),
      ("centering_steps", decimal point.centeringSteps.toNat)]

end Calibrated

/-- No setting of the sweep was good enough. -/
structure Exhausted where
  coarseSteps : UInt8
  /-- The longest run of passes seen anywhere in the sweep. -/
  longestRun : UInt32
  deriving DecidableEq, Repr

namespace Exhausted

def text (sweep : Exhausted) : String :=
  "no stable window in " ++ decimal sweep.coarseSteps.toNat
    ++ " coarse delay steps (longest run " ++ decimal sweep.longestRun.toNat ++ " passes)"

def detailed (sweep : Exhausted) : String :=
  namedFields "Exhausted"
    [("coarse_steps", decimal sweep.coarseSteps.toNat),
      ("longest_run", decimal sweep.longestRun.toNat)]

end Exhausted

inductive Verdict where
  | calibrated (point : Calibrated)
  | exhausted (sweep : Exhausted)
  deriving DecidableEq, Repr

end TimingEye
