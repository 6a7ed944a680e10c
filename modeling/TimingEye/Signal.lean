/-!
# Control lines

The memory interface and its clock generator are steered through eleven control lines, each of
them write-only and one octet wide.  This file names the lines (`Signal`) and the levels they
are held at (`LineLevels`).
-/

namespace TimingEye

/-- A write-only control line of the memory interface or of its clock generator. -/
inductive Signal where
  | clkLoadn
  | clkDirection
  | clkMove
  | ioLoadn
  | ioDirection
  | ioMove
  | phaseSel
  | phaseDir
  | phaseStep
  | slipHr2x90
  | slipHr2x
  deriving DecidableEq, Repr

namespace Signal

def all : List Signal :=
  [clkLoadn, clkDirection, clkMove, ioLoadn, ioDirection, ioMove, phaseSel, phaseDir, phaseStep,
    slipHr2x90, slipHr2x]

/-- The number of a line: its place in the order above. -/
def index (signal : Signal) : Fin 11 :=
  ⟨signal.ctorIdx, by cases signal <;> decide⟩

def token : Signal → String
  | clkLoadn => "clk_loadn"
  | clkDirection => "clk_direction"
  | clkMove => "clk_move"
  | ioLoadn => "io_loadn"
  | ioDirection => "io_direction"
  | ioMove => "io_move"
  | phaseSel => "phase_sel"
  | phaseDir => "phase_dir"
  | phaseStep => "phase_step"
  | slipHr2x90 => "slip_hr2x90"
  | slipHr2x => "slip_hr2x"

def title : Signal → String
  | clkLoadn => "ClkLoadn"
  | clkDirection => "ClkDirection"
  | clkMove => "ClkMove"
  | ioLoadn => "IoLoadn"
  | ioDirection => "IoDirection"
  | ioMove => "IoMove"
  | phaseSel => "PhaseSel"
  | phaseDir => "PhaseDir"
  | phaseStep => "PhaseStep"
  | slipHr2x90 => "SlipHr2x90"
  | slipHr2x => "SlipHr2x"

def ofToken? (name : String) : Option Signal :=
  all.find? fun signal => signal.token == name

theorem index_injective {s t : Signal} (h : s.index = t.index) : s = t := by
  have hidx : s.ctorIdx = t.ctorIdx := congrArg Fin.val h
  rw [← Signal.ofNat_ctorIdx s, ← Signal.ofNat_ctorIdx t, hidx]

end Signal

/-! ## Levels -/

/-- The level each line was last driven to. -/
structure LineLevels where
  octets : Vector UInt8 11

namespace LineLevels

def low : LineLevels := ⟨Vector.replicate 11 0⟩

def level (lines : LineLevels) (signal : Signal) : UInt8 :=
  lines.octets[signal.index]

/-- Drives one line and leaves the others alone. -/
def drive (lines : LineLevels) (signal : Signal) (value : UInt8) : LineLevels :=
  ⟨lines.octets.set signal.index value⟩

@[simp] theorem level_low (signal : Signal) : low.level signal = 0 := by
  simp [low, level]

@[simp] theorem level_drive_self (lines : LineLevels) (signal : Signal) (value : UInt8) :
    (lines.drive signal value).level signal = value := by
  simp [drive, level]

@[simp] theorem level_drive_of_ne (lines : LineLevels) {driven other : Signal} (value : UInt8)
    (h : other ≠ driven) : (lines.drive driven value).level other = lines.level other := by
  have hindex : (driven.index : Nat) ≠ other.index := fun heq =>
    h (Signal.index_injective (Fin.ext heq)).symm
  simp [drive, level, hindex]

end LineLevels

end TimingEye
