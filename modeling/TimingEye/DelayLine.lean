import TimingEye.Signal

/-!
# Delay lines

A delay line skews a signal by a number of equal taps.  The interface has two of them, one on the
memory clock and one on the data inputs, and each is steered by three control lines.
-/

namespace TimingEye

/-- One of the two tapped delay lines. -/
inductive DelayLine where
  /-- Skews the memory clock. -/
  | clock
  /-- Skews the data and strobe inputs. -/
  | io
  deriving DecidableEq, Repr

namespace DelayLine

/-- Driven low, this line drops all taps. -/
def loadn : DelayLine → Signal
  | clock => .clkLoadn
  | io => .ioLoadn

/-- This line selects whether a pulse adds a tap or removes one. -/
def direction : DelayLine → Signal
  | clock => .clkDirection
  | io => .ioDirection

/-- Each rising edge of this line moves the delay by one tap. -/
def move : DelayLine → Signal
  | clock => .clkMove
  | io => .ioMove

def ofToken? : String → Option DelayLine
  | "clock" => some clock
  | "io" => some io
  | _ => none

end DelayLine

end TimingEye
