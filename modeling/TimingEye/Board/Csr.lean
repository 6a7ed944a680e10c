import TimingEye.Signal

/-!
# Control and status registers

The registers of the board, their names, and the accesses its firmware has to each of them.  All
words are 32 bits wide on the bus; an octet register is accessed through its low octet.  The
eleven control lines of the timing hardware are registers too (`Csr.ofSignal`).
-/

namespace TimingEye
namespace Board

inductive Csr where
  | ctrlReset
  | ctrlScratch
  | ctrlBusErrors
  | crgPhaseSel
  | crgPhaseDir
  | crgPhaseStep
  | crgSlipHr2x
  | crgSlipHr2x90
  | hyperramIoLoadn
  | hyperramIoMove
  | hyperramIoDirection
  | hyperramClkLoadn
  | hyperramClkMove
  | hyperramClkDirection
  | timerLoad
  | timerReload
  | timerEn
  | timerUpdateValue
  | timerValue
  | timerEvStatus
  | timerEvPending
  | timerEvEnable
  | uartRxtx
  | uartTxfull
  | uartRxempty
  | uartEvStatus
  | uartEvPending
  | uartEvEnable
  deriving DecidableEq, Repr

namespace Csr

/-- All registers, in the order of their addresses within each module. -/
def all : List Csr :=
  [ctrlReset, ctrlScratch, ctrlBusErrors,
    crgPhaseSel, crgPhaseDir, crgPhaseStep, crgSlipHr2x, crgSlipHr2x90,
    hyperramIoLoadn, hyperramIoMove, hyperramIoDirection,
    hyperramClkLoadn, hyperramClkMove, hyperramClkDirection,
    timerLoad, timerReload, timerEn, timerUpdateValue, timerValue,
    timerEvStatus, timerEvPending, timerEvEnable,
    uartRxtx, uartTxfull, uartRxempty, uartEvStatus, uartEvPending, uartEvEnable]

def token : Csr → String
  | ctrlReset => "ctrl.reset"
  | ctrlScratch => "ctrl.scratch"
  | ctrlBusErrors => "ctrl.bus_errors"
  | crgPhaseSel => "crg.phase_sel"
  | crgPhaseDir => "crg.phase_dir"
  | crgPhaseStep => "crg.phase_step"
  | crgSlipHr2x => "crg.slip_hr2x"
  | crgSlipHr2x90 => "crg.slip_hr2x90"
  | hyperramIoLoadn => "hyperram.io_loadn"
  | hyperramIoMove => "hyperram.io_move"
  | hyperramIoDirection => "hyperram.io_direction"
  | hyperramClkLoadn => "hyperram.clk_loadn"
  | hyperramClkMove => "hyperram.clk_move"
  | hyperramClkDirection => "hyperram.clk_direction"
  | timerLoad => "timer0.load"
  | timerReload => "timer0.reload"
  | timerEn => "timer0.en"
  | timerUpdateValue => "timer0.update_value"
  | timerValue => "timer0.value"
  | timerEvStatus => "timer0.ev_status"
  | timerEvPending => "timer0.ev_pending"
  | timerEvEnable => "timer0.ev_enable"
  | uartRxtx => "uart.rxtx"
  | uartTxfull => "uart.txfull"
  | uartRxempty => "uart.rxempty"
  | uartEvStatus => "uart.ev_status"
  | uartEvPending => "uart.ev_pending"
  | uartEvEnable => "uart.ev_enable"

def ofToken? (name : String) : Option Csr :=
  all.find? fun csr => csr.token == name

def ofSignal : Signal → Csr
  | .clkLoadn => hyperramClkLoadn
  | .clkDirection => hyperramClkDirection
  | .clkMove => hyperramClkMove
  | .ioLoadn => hyperramIoLoadn
  | .ioDirection => hyperramIoDirection
  | .ioMove => hyperramIoMove
  | .phaseSel => crgPhaseSel
  | .phaseDir => crgPhaseDir
  | .phaseStep => crgPhaseStep
  | .slipHr2x90 => crgSlipHr2x90
  | .slipHr2x => crgSlipHr2x

/-- The control line that a register drives, if it drives one. -/
def toSignal? : Csr → Option Signal
  | hyperramClkLoadn => some .clkLoadn
  | hyperramClkDirection => some .clkDirection
  | hyperramClkMove => some .clkMove
  | hyperramIoLoadn => some .ioLoadn
  | hyperramIoDirection => some .ioDirection
  | hyperramIoMove => some .ioMove
  | crgPhaseSel => some .phaseSel
  | crgPhaseDir => some .phaseDir
  | crgPhaseStep => some .phaseStep
  | crgSlipHr2x90 => some .slipHr2x90
  | crgSlipHr2x => some .slipHr2x
  | _ => none

@[simp] theorem toSignal?_ofSignal (signal : Signal) :
    (ofSignal signal).toSignal? = some signal := by
  cases signal <;> rfl

/-! ## What the firmware may access -/

/-- How much of a register an access covers. -/
inductive Width where
  | octet
  | word
  deriving DecidableEq, Repr

/-- The part of a word that an access of some width covers. -/
def Width.clip : Width → UInt32 → UInt32
  | octet, value => value.toUInt8.toUInt32
  | word, value => value

def width : Csr → Width
  | ctrlScratch | ctrlBusErrors | timerLoad | timerReload | timerValue => .word
  | _ => .octet

def readable : Csr → Bool
  | ctrlReset
  | crgPhaseSel | crgPhaseDir | crgPhaseStep | crgSlipHr2x | crgSlipHr2x90
  | hyperramIoLoadn | hyperramIoMove | hyperramIoDirection
  | hyperramClkLoadn | hyperramClkMove | hyperramClkDirection => false
  | _ => true

def writable : Csr → Bool
  | ctrlBusErrors | timerValue | timerEvStatus | uartTxfull | uartRxempty | uartEvStatus => false
  | _ => true

/-! ## A word for each register -/

def index (csr : Csr) : Fin 28 :=
  ⟨csr.ctorIdx, by cases csr <;> decide⟩

theorem index_injective {r s : Csr} (h : r.index = s.index) : r = s := by
  have hidx : r.ctorIdx = s.ctorIdx := congrArg Fin.val h
  rw [← Csr.ofNat_ctorIdx r, ← Csr.ofNat_ctorIdx s, hidx]

/-- No two control lines share a register. -/
theorem ofSignal_injective {s t : Signal} (h : ofSignal s = ofSignal t) : s = t := by
  have hsome : some s = some t := by
    rw [← toSignal?_ofSignal s, ← toSignal?_ofSignal t, h]
  exact Option.some.inj hsome

end Csr

structure CsrWords where
  words : Vector UInt32 28

namespace CsrWords

def zero : CsrWords := ⟨Vector.replicate 28 0⟩

def word (bank : CsrWords) (csr : Csr) : UInt32 :=
  bank.words[csr.index]

def assign (bank : CsrWords) (csr : Csr) (value : UInt32) : CsrWords :=
  ⟨bank.words.set csr.index value⟩

@[simp] theorem word_zero (csr : Csr) : zero.word csr = 0 := by
  simp [zero, word]

@[simp] theorem word_assign_self (bank : CsrWords) (csr : Csr) (value : UInt32) :
    (bank.assign csr value).word csr = value := by
  simp [assign, word]

@[simp] theorem word_assign_of_ne (bank : CsrWords) {assigned other : Csr} (value : UInt32)
    (h : other ≠ assigned) : (bank.assign assigned value).word other = bank.word other := by
  have hindex : (assigned.index : Nat) ≠ other.index := fun heq =>
    h (Csr.index_injective (Fin.ext heq)).symm
  simp [assign, word, hindex]

end CsrWords

end Board
end TimingEye
