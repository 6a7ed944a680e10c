import TimingEye.Calibration.Procedure
import TimingEye.Calibration.Verdict

/-!
# The sweep

The coarse settings are tried in increasing order and never revisited.  At each of them the memory
is probed a number of times, each probe followed by a null phase step, while a window counts the
passes in a row.  A failure within a long enough window ends the probing of the setting and keeps
the window; any other failure starts the count anew.  The first setting whose final window is long
enough is accepted, and the phase is moved up by half of that window.

* `probing`: the probes of one setting;
* `measuring`: one setting, from its delays to its line of progress;
* `centering`: the way to the middle of the window;
* `sweeping`, `calibrate`: the whole search.
-/

namespace TimingEye

/-- Taps of the data delay line during the whole sweep: only the clock is searched. -/
def ioTaps : UInt8 := 0

/-- The part of the program that the log records of a calibration name. -/
def calibrationTarget : String := "hyperram_cal::calibrate"

def calibrationRecord (severity : Severity) (message : String) : Action :=
  .log { severity, target := calibrationTarget, message }

/-! ## One setting -/

/-- The passes in a row at one setting: those that lead up to now, and the longest run so far. -/
structure Streak where
  window : UInt32 := 0
  longest : UInt32 := 0
  deriving DecidableEq, Repr

/-- One more pass. -/
def Streak.extended (streak : Streak) : Except Overflow Streak := do
  let window ← nextWord streak.window
  return { window, longest := max streak.longest window }

/-- A failure within a window that is not worth keeping. -/
def Streak.restarted (streak : Streak) : Streak :=
  { streak with window := 0 }

def probeMark (passed : Bool) : String :=
  if passed then "0" else "-"

/-- The remaining probes of a setting.  Every second one leaves its mark in the progress text. -/
def probing (params : Params) :
    (remaining : Nat) → (marked : Bool) → Streak → Procedure Streak
  | 0, _, streak => pure streak
  | remaining + 1, marked, streak => do
    let passed ← Procedure.ask
    Procedure.perform (.stepPhase .null)
    -- Showing every other probe keeps the line of a setting within a terminal's width.
    if marked then
      Procedure.perform (.report [probeMark passed])
    if passed then
      let streak ← Procedure.checked streak.extended
      probing params remaining (!marked) streak
    else if params.breakWindow ≤ streak.window then
      -- The trailing edge of a window that is worth keeping.
      return streak
    else
      probing params remaining (!marked) streak.restarted

/-- The log message about a setting that has been measured. -/
def measuredMessage (coarse : UInt8) (window : UInt32) : String :=
  "coarse " ++ decimal coarse.toNat
    ++ ": clk delay " ++ decimal (clockTaps coarse).toNat
    ++ ", slip " ++ (SubPhase.ofCoarse coarse).text
    ++ ", window " ++ decimal window.toNat

/-- Takes one setting: sets its delays, probes it, and reports its window. -/
def measuring (params : Params) (coarse : UInt8) : Procedure Streak := do
  Procedure.perform (.setDelay .clock (clockTaps coarse))
  Procedure.perform (.setDelay .io ioTaps)
  Procedure.perform (.report
    ([decimal (clockTaps coarse).toNat, ","] ++ (SubPhase.ofCoarse coarse).pieces ++ [" |"]))
  let streak ← probing params params.probes.toNat false {}
  Procedure.perform (.report ["| ", decimal streak.window.toNat, "    \n"])
  Procedure.perform (calibrationRecord .debug (measuredMessage coarse streak.window))
  return streak

/-! ## The whole search -/

/-- A number of phase steps towards the middle of the window. -/
def stepping : (steps : Nat) → Procedure Unit
  | 0 => pure ()
  | steps + 1 => do
    Procedure.perform (.stepPhase .up)
    stepping steps

/-- Moves from the edge of the window, where it was measured, to its middle. -/
def centering (coarse : UInt8) (window : UInt32) : Procedure Calibrated := do
  stepping (window / 2).toNat
  return {
    coarse
    clkDelay := clockTaps coarse
    subPhase := SubPhase.ofCoarse coarse
    window
    centeringSteps := window / 2 }

/-- The remaining settings, from `coarse` on; `longest` is the longest run of passes so far. -/
def sweeping (params : Params) :
    (remaining : Nat) → (coarse : UInt8) → (longest : UInt32) → Procedure Verdict
  | 0, _, longest => do
    let sweep : Exhausted := { coarseSteps := params.coarseSteps, longestRun := longest }
    Procedure.perform (calibrationRecord .error ("HyperRAM calibration failed: " ++ sweep.text))
    return .exhausted sweep
  | remaining + 1, coarse, longest => do
    let streak ← measuring params coarse
    if params.acceptWindow ≤ streak.window then
      let point ← centering coarse streak.window
      Procedure.perform (calibrationRecord .info ("HyperRAM calibrated: " ++ point.text))
      return .calibrated point
    else
      -- The slips lead from this setting to the next one, also when it will not be tried.
      let next ← Procedure.checked (nextOctet coarse)
      Procedure.perform (.slip (SubPhase.ofCoarse next))
      sweeping params remaining next (max longest streak.longest)

/-- Searches for the first coarse setting at which the memory reads back reliably, and leaves the
hardware in the middle of its window. -/
def calibrate (params : Params) : Procedure Verdict :=
  sweeping params params.coarseSteps.toNat 0 0

end TimingEye
