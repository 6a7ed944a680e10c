import TimingEye.Text.Layout

/-!
# Phase of the clock generator

The clock generator moves its output by fine phase steps (`PhaseDirection`) and by coarse slips
of two of its clocks (`SubPhase`).  The slips that belong to a coarse setting are the two low bits
of its number (`SubPhase.ofCoarse`).
-/

namespace TimingEye

/-! ## Fine steps -/

inductive PhaseDirection where
  /-- Strobes the stepper and leaves the output where it is. -/
  | null
  /-- Shifts the output later by one step. -/
  | up
  deriving DecidableEq, Repr

namespace PhaseDirection

/-- The level of the direction line that selects a direction. -/
def level : PhaseDirection → UInt8
  | null => 0
  | up => 1

def ofToken? : String → Option PhaseDirection
  | "null" => some null
  | "up" => some up
  | _ => none

end PhaseDirection

/-! ## Slips -/

/-- Which of the two slip lines are pulsed. -/
structure SubPhase where
  /-- Slips the half-rate clock by a quarter period. -/
  hr2x90 : Bool
  /-- Slips the half-rate clock. -/
  hr2x : Bool
  deriving DecidableEq, Repr

namespace SubPhase

/-- The slips of a coarse setting: its two low bits. -/
def ofCoarse (coarse : UInt8) : SubPhase where
  hr2x90 := coarse &&& 1 != 0
  hr2x := coarse &&& 2 != 0

/-- The slips in a report, cut into the pieces that are written one after another. -/
def pieces (subPhase : SubPhase) : List String :=
  [truthDigit subPhase.hr2x90, ", ", truthDigit subPhase.hr2x]

def text (subPhase : SubPhase) : String :=
  String.join subPhase.pieces

def detailed (subPhase : SubPhase) : String :=
  namedFields "SubPhase" [("hr2x90", truthWord subPhase.hr2x90), ("hr2x", truthWord subPhase.hr2x)]

end SubPhase

end TimingEye
