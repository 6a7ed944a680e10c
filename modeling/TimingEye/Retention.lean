/-!
# Which writes a memory keeps

A memory under test keeps a write or drops it.  `Retention` says which: always, never, only while
the clock delay lies in an eye, or as a script tells.
-/

namespace TimingEye

inductive Retention where
  | healthy
  | stuck
  /-- Writes are kept while the clock delay line holds `lo` to `hi` taps. -/
  | eye (lo hi : Nat)
  /-- Runs of kept or dropped writes, one after another, then a fixed fate for all others. -/
  | scripted (runs : List (Bool × Nat)) (rest : Bool)
  deriving DecidableEq, Repr

namespace Retention

/-- The fate of the next write in a script, and the script after it. -/
def nextScripted (rest : Bool) : List (Bool × Nat) → Bool × List (Bool × Nat)
  | [] => (rest, [])
  | (_, 0) :: runs => nextScripted rest runs
  | (kept, count + 1) :: runs => (kept, (kept, count) :: runs)

/-- Whether a write at some clock delay is kept, and what becomes of the writes after it. -/
def decide (taps : Nat) : Retention → Bool × Retention
  | healthy => (true, healthy)
  | stuck => (false, stuck)
  | eye lo hi => (lo ≤ taps && taps ≤ hi, eye lo hi)
  | scripted runs rest =>
    let (kept, runs) := nextScripted rest runs
    (kept, scripted runs rest)

theorem decide_eye (taps lo hi : Nat) :
    decide taps (eye lo hi) = (lo ≤ taps && taps ≤ hi, eye lo hi) := rfl

end Retention

end TimingEye
