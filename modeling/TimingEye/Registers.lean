import TimingEye.DelayLine
import TimingEye.Phase

/-!
# Register sequences

`Registers m` is raw access to the control lines and to the memory word under test, in whatever
monad `m` the accesses happen.  Every operation of the timing hardware is a fixed sequence of
such accesses:

* `delayWrites`, `stepWrites`, `slipWrites`: the control-line writes of one operation, as data;
* `Registers.drive`: performs a sequence of writes in order;
* `Registers.probe`: writes the test patterns and reads them back.
-/

namespace TimingEye

/-- Raw access to the control lines and to the memory word under test. -/
structure Registers (m : Type → Type) where
  write : Signal → UInt8 → m Unit
  /-- Stores a word at the base of the memory under test. -/
  writeWord : UInt32 → m Unit
  /-- Loads the word at the base of the memory under test. -/
  readWord : m UInt32
  /-- Empties the cache shared by all masters. -/
  flushSharedCache : m Unit
  /-- Empties the data cache of the processor. -/
  flushDataCache : m Unit

/-! ## The writes of each operation -/

/-- One pulse of a line: high, then low. -/
def pulse (signal : Signal) : List (Signal × UInt8) :=
  [(signal, 1), (signal, 0)]

/-- Drops all taps of a delay line and leaves it ready to add some. -/
def reloadWrites (line : DelayLine) : List (Signal × UInt8) :=
  [(line.loadn, 0), (line.loadn, 1), (line.direction, 0)]

/-- Sets a delay line: reloads it, then adds one tap by each pulse of its move line. -/
def delayWrites (line : DelayLine) (taps : UInt8) : List (Signal × UInt8) :=
  reloadWrites line ++ (List.replicate taps.toNat (pulse line.move)).flatten

/-- One phase step on the first output of the clock generator. -/
def stepWrites (direction : PhaseDirection) : List (Signal × UInt8) :=
  [(.phaseSel, 0), (.phaseDir, direction.level), (.phaseStep, 0), (.phaseStep, 1)]

/-- Pulses the selected slip lines; both are left low. -/
def slipWrites (subPhase : SubPhase) : List (Signal × UInt8) :=
  [(.slipHr2x90, subPhase.hr2x90.toUInt8), (.slipHr2x, subPhase.hr2x.toUInt8),
    (.slipHr2x90, 0), (.slipHr2x, 0)]

/-- The pattern a probe writes first. -/
def firstPattern : UInt32 := 0xFF55AACD

/-- The pattern a probe writes second.  It catches a cell that ignores writes but still holds the
first one. -/
def secondPattern : UInt32 := 0xA3112233

/-- The patterns written and read back by a probe, in order. -/
def testPatterns : List UInt32 :=
  [firstPattern, secondPattern]

theorem firstPattern_ne_secondPattern : firstPattern ≠ secondPattern := by decide

/-! ## Performing them -/

namespace Registers

variable {m : Type → Type} [Monad m]

def drive (registers : Registers m) : List (Signal × UInt8) → m Unit
  | [] => pure ()
  | (signal, value) :: rest => do
    registers.write signal value
    registers.drive rest

/-- Writes each pattern past both caches and reads it back, up to the first mismatch. -/
def check (registers : Registers m) : List UInt32 → m Bool
  | [] => pure true
  | pattern :: rest => do
    registers.writeWord pattern
    registers.flushSharedCache
    registers.flushDataCache
    let found ← registers.readWord
    if found = pattern then registers.check rest else pure false

/-- Tells whether the memory word reads back both patterns at the current timing. -/
def probe (registers : Registers m) : m Bool :=
  registers.check testPatterns

end Registers

/-! ## Lengths of the sequences -/

theorem length_delayWrites (line : DelayLine) (taps : UInt8) :
    (delayWrites line taps).length = 3 + 2 * taps.toNat := by
  simp [delayWrites, reloadWrites, pulse]
  omega

end TimingEye
