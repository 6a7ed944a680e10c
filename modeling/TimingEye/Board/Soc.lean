import TimingEye.Board.Csr
import TimingEye.Overflow
import TimingEye.Registers
import TimingEye.Retention

/-!
# The system on chip

`Soc` is the hardware as its bus sees it: a word for each register, a timer that advances by a
fixed tick at each sampling, a serial line that may be busy, and the memory word under test.  Each
access is recorded.  A run on it may come to a halt (`Halt`): the chip is reset, a counter leaves
its word, or a poll goes on for longer than anybody is willing to watch.
-/

namespace TimingEye
namespace Board

/-! ## Accesses -/

inductive BusAccess where
  | write (csr : Csr) (value : UInt32)
  | read (csr : Csr) (value : UInt32)
  | store (value : UInt32)
  | load (value : UInt32)
  deriving DecidableEq, Repr

def BusAccess.token : BusAccess → String
  | write csr value => csr.token ++ "=" ++ decimal value.toNat
  | read csr value => csr.token ++ "?" ++ decimal value.toNat
  | store value => "mem=" ++ hexWord value
  | load value => "mem?" ++ hexWord value

inductive Poll where
  | timer
  | uart
  deriving DecidableEq, Repr

inductive Halt where
  | reset
  | fault (cause : Overflow)
  /-- The poll goes on for good. -/
  | stalled (poll : Poll)
  deriving DecidableEq, Repr

/-! ## The busy flag of the serial line -/

/-- The words that the busy register of the serial line reads as. -/
structure BusyScript where
  pending : List UInt32 := []
  /-- What follows, again and again. -/
  again : List UInt32 := []
  deriving DecidableEq, Repr

namespace BusyScript

/-- The next word, unless the script is over. -/
def next (script : BusyScript) : Option (UInt32 × BusyScript) :=
  match script.pending, script.again with
  | word :: rest, _ => some (word, { script with pending := rest })
  | [], word :: rest => some (word, { script with pending := rest })
  | [], [] => none

end BusyScript

/-! ## State -/

structure Soc where
  csrs : CsrWords := .zero
  /-- The running count of the timer. -/
  counter : UInt32 := 0
  /-- The count that was last sampled. -/
  latch : UInt32 := 0
  /-- What the timer counts down between two samplings. -/
  tick : UInt32 := 0
  clockTaps : Nat := 0
  retention : Retention := .healthy
  cell : UInt32 := 0
  busy : BusyScript := {}
  /-- How many polls in a row are watched. -/
  patience : Nat
  pollsLeft : Nat := patience
  accesses : Array BusAccess := #[]
  /-- The octets that left through the serial line. -/
  sent : Array UInt8 := #[]

abbrev Bus := EStateM Halt Soc

namespace Soc

def noted (soc : Soc) (access : BusAccess) : Soc :=
  { soc with accesses := soc.accesses.push access }

/-- Samples the timer: it advances by a tick if it is enabled and stands at its load otherwise. -/
def sampled (soc : Soc) : Soc :=
  if soc.csrs.word .timerEn = 0 then
    { soc with latch := soc.csrs.word .timerLoad }
  else
    { soc with counter := soc.counter - soc.tick, latch := soc.counter - soc.tick }

/-- What a write brings about, beside the new word of its register.  `before` is the old word. -/
def react (soc : Soc) (before value : UInt32) : Csr → Soc
  | .uartRxtx =>
    { soc with sent := soc.sent.push value.toUInt8, pollsLeft := soc.patience }
  | .timerEn =>
    -- The count is loaded when the timer starts, not when it is kept running.
    if before = 0 ∧ value ≠ 0 then { soc with counter := soc.csrs.word .timerLoad } else soc
  | .timerUpdateValue => { soc.sampled with pollsLeft := soc.pollsLeft - 1 }
  | .hyperramClkLoadn => if value = 0 then { soc with clockTaps := 0 } else soc
  | .hyperramClkMove =>
    if before = 0 ∧ value ≠ 0 then { soc with clockTaps := soc.clockTaps + 1 } else soc
  | _ => soc

/-- Whether a write brings the run to a halt. -/
def halts (soc : Soc) (value : UInt32) : Csr → Option Halt
  | .ctrlReset => if value = 0 then none else some .reset
  | .timerUpdateValue => if soc.pollsLeft = 0 then some (.stalled .timer) else none
  | _ => none

/-- Notes a write and replaces the word of its register. -/
def assigned (soc : Soc) (csr : Csr) (value : UInt32) : Soc :=
  { soc with csrs := soc.csrs.assign csr value }.noted (.write csr value)

def write (csr : Csr) (value : UInt32) : Bus Unit := fun soc =>
  let before := soc.csrs.word csr
  -- Even the access that halts the run is noted.
  match soc.halts value csr with
  | none => .ok () ((soc.assigned csr value).react before value csr)
  | some halt => .error halt (soc.assigned csr value)

def readBusy : Bus UInt32 := fun soc =>
  -- A poll too many is cut off before it reaches the bus.
  if soc.pollsLeft = 0 then
    .error (.stalled .uart) soc
  else
    let soc := { soc with pollsLeft := soc.pollsLeft - 1 }
    match soc.busy.next with
    | some (word, rest) => .ok word ({ soc with busy := rest }.noted (.read .uartTxfull word))
    | none =>
      let word := soc.csrs.word .uartTxfull
      .ok word (soc.noted (.read .uartTxfull word))

def read (csr : Csr) : Bus UInt32 :=
  match csr with
  | .uartTxfull => readBusy
  | .timerValue => modifyGet fun soc => (soc.latch, soc.noted (.read .timerValue soc.latch))
  | csr => modifyGet fun soc => (soc.csrs.word csr, soc.noted (.read csr (soc.csrs.word csr)))

/-- The hardware after a word has been offered to its memory. -/
def stored (soc : Soc) (value : UInt32) : Soc :=
  let (kept, retention) := soc.retention.decide soc.clockTaps
  { soc with retention, cell := if kept then value else soc.cell }

def store (value : UInt32) : Bus Unit :=
  modify fun soc => (soc.noted (.store value)).stored value

def load : Bus UInt32 :=
  modifyGet fun soc => (soc.cell, soc.noted (.load soc.cell))

/-- The timing hardware, reached through the bus.  There are no caches to empty. -/
def registers : Registers Bus where
  write signal value := write (Csr.ofSignal signal) value.toUInt32
  writeWord := store
  readWord := load
  flushSharedCache := pure ()
  flushDataCache := pure ()

end Soc

end Board
end TimingEye
