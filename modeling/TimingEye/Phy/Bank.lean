import TimingEye.Hardware
import TimingEye.Overflow
import TimingEye.Retention

/-!
# A simulated register bank

`Phy.Bank` models the memory interface at the level of its registers: the level of each control
line, the counters that rising edges move, and the memory word.  Every access is recorded.  A
counter that would leave its word stops the access with a fault; the access itself and the new
level of the line have been noted by then.
-/

namespace TimingEye
namespace Phy

/-! ## Accesses -/

inductive Access where
  | write (signal : Signal) (value : UInt8)
  | writeWord (value : UInt32)
  | readWord (value : UInt32)
  | flushSharedCache
  | flushDataCache
  deriving DecidableEq, Repr

namespace Access

def isWrite : Access → Bool
  | write _ _ => true
  | _ => false

def token : Access → String
  | write signal value => signal.token ++ "=" ++ decimal value.toNat
  | writeWord value => "ww=" ++ hexWord value
  | readWord value => "rw=" ++ hexWord value
  | flushSharedCache => "l2"
  | flushDataCache => "dc"

end Access

/-! ## The bank -/

structure Bank where
  retention : Retention := .healthy
  cell : UInt32 := 0
  lines : LineLevels := .low
  clockTaps : UInt8 := 0
  ioTaps : UInt8 := 0
  nullSteps : UInt32 := 0
  upSteps : UInt32 := 0
  hr2x90Slips : UInt32 := 0
  hr2xSlips : UInt32 := 0
  /-- Answers forced upon the next reads of the memory word, where given. -/
  forced : List (Option UInt32) := []
  accesses : Array Access := #[]

/-- Accesses to a bank; a fault keeps the bank as it was when the counter would have moved. -/
abbrev BankM := EStateM Overflow Bank

namespace Bank

/-- What a bank does when a line has been driven to `value`, `rising` from low to high or not. -/
def react (bank : Bank) (value : UInt8) (rising : Bool) : Signal → Except Overflow Bank
  | .clkLoadn => .ok (if value = 0 then { bank with clockTaps := 0 } else bank)
  | .ioLoadn => .ok (if value = 0 then { bank with ioTaps := 0 } else bank)
  | .clkMove =>
    if rising then (nextOctet bank.clockTaps).map ({ bank with clockTaps := · }) else .ok bank
  | .ioMove =>
    if rising then (nextOctet bank.ioTaps).map ({ bank with ioTaps := · }) else .ok bank
  | .phaseStep =>
    if rising then
      if bank.lines.level .phaseDir = 0 then
        (nextWord bank.nullSteps).map ({ bank with nullSteps := · })
      else
        (nextWord bank.upSteps).map ({ bank with upSteps := · })
    else .ok bank
  | .slipHr2x90 =>
    if rising then (nextWord bank.hr2x90Slips).map ({ bank with hr2x90Slips := · }) else .ok bank
  | .slipHr2x =>
    if rising then (nextWord bank.hr2xSlips).map ({ bank with hr2xSlips := · }) else .ok bank
  | .clkDirection | .ioDirection | .phaseSel | .phaseDir => .ok bank

def noted (bank : Bank) (access : Access) : Bank :=
  { bank with accesses := bank.accesses.push access }

/-- Notes a write and drives its line. -/
def driven (bank : Bank) (signal : Signal) (value : UInt8) : Bank :=
  { bank with lines := bank.lines.drive signal value }.noted (.write signal value)

/-- Whether driving a line to `value` is a rising edge. -/
def rises (bank : Bank) (signal : Signal) (value : UInt8) : Bool :=
  bank.lines.level signal == 0 && value != 0

def write (signal : Signal) (value : UInt8) : BankM Unit := fun bank =>
  let rising := bank.rises signal value
  -- The edge is judged by the old level; a fault comes after the line has changed.
  let bank := bank.driven signal value
  match bank.react value rising signal with
  | .ok moved => .ok () moved
  | .error cause => .error cause bank

/-- The bank after a word has been offered to its memory. -/
def stored (bank : Bank) (value : UInt32) : Bank :=
  -- What the memory keeps depends on the taps in force at this very write.
  let (kept, retention) := bank.retention.decide bank.clockTaps.toNat
  { bank with retention, cell := if kept then value else bank.cell }

def writeWord (value : UInt32) : BankM Unit :=
  modify fun bank => (bank.noted (.writeWord value)).stored value

/-- What the next read of the memory word answers. -/
def reading (bank : Bank) : UInt32 :=
  (bank.forced.head?.join).getD bank.cell

/-- Reads the memory word, or what has been forced upon the read. -/
def readWord : BankM UInt32 :=
  modifyGet fun bank =>
    let value := bank.reading
    (value, { bank with forced := bank.forced.tail }.noted (.readWord value))

def registers : Registers BankM where
  write := write
  writeWord := writeWord
  readWord := readWord
  flushSharedCache := modify (·.noted .flushSharedCache)
  flushDataCache := modify (·.noted .flushDataCache)

def hardware : Hardware BankM :=
  registers.hardware

end Bank

end Phy
end TimingEye
