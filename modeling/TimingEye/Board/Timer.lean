import TimingEye.Board.Platform
import TimingEye.Board.Soc

/-!
# Time

The timer counts down from its largest value and wraps.  The firmware reads it as cycles since it
was started (`Timer.elapsed`), as microseconds (`Timer.microseconds`), and waits on it
(`Timer.wait`).
-/

namespace TimingEye
namespace Board
namespace Timer

def start : UInt32 := 0xFFFFFFFF

/-- Timer cycles in a microsecond. -/
def cyclesPerMicrosecond : Nat := clockFrequency / 1000000

/-- Starts the timer from its largest value, whatever it did before. -/
def restart : Bus Unit := do
  Soc.write .timerEn 0
  Soc.write .timerLoad start
  Soc.write .timerReload start
  Soc.write .timerEn 1

/-- Samples the timer: cycles since it was started. -/
def elapsed : Bus UInt32 := do
  Soc.write .timerUpdateValue 1
  let value ← Soc.read .timerValue
  return start - value

def toMicroseconds (cycles : UInt32) : Nat :=
  cycles.toNat / cyclesPerMicrosecond

/-- Microseconds since the timer was started, from zero again whenever it wraps. -/
def microseconds : Bus Nat :=
  return toMicroseconds (← elapsed)

/-- Samples the timer until `cycles` have passed since `since`, at most `attempts` times. -/
def await (since : UInt32) (cycles : UInt64) : (attempts : Nat) → Bus Unit
  | 0 => throw (.stalled .timer)
  | attempts + 1 => do
    let now ← elapsed
    -- The difference wraps with the timer, so one wrap in between does no harm.
    if (now - since).toUInt64 < cycles then
      await since cycles attempts

/-- The cycles of an interval, if their number fits into its word. -/
def cyclesOf (interval : UInt64) : Bus UInt64 :=
  match scaledLong interval (UInt64.ofNat cyclesPerMicrosecond) with
  | .ok cycles => pure cycles
  | .error cause => throw (.fault cause)

/-- Waits for a number of microseconds.  The polls left bound the number of samplings. -/
def wait (interval : UInt64) : Bus Unit := do
  let since ← elapsed
  -- An interval too long to count is only noticed after the first sampling.
  let cycles ← cyclesOf interval
  let soc ← get
  await since cycles (soc.pollsLeft + 1)

end Timer
end Board
end TimingEye
