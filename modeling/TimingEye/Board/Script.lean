import TimingEye.Board.BringUp

/-!
# Scripts for a board

A script is a list of steps on one board.  Each step is answered by its result, the octets it sent
and the accesses it made; when the board comes to a halt the script is over.  What code without
interrupts yields is handed through and never looked at, so its type `α` is the caller's choice.
-/

namespace TimingEye
namespace Board

inductive Step (α : Type) where
  | bringUp
  | restartTimer
  | microseconds
  | wait (interval : UInt64)
  | print (text : String)
  | register (threshold : Threshold)
  /-- Hands a record to the console logger, past the facade. -/
  | direct (record : Record)
  /-- Installs a logger that drops everything. -/
  | otherLogger (threshold : Threshold)
  | issue (record : Record)
  | setThreshold (threshold : Threshold)
  | askThreshold
  | readCsr (csr : Csr)
  | writeCsr (csr : Csr) (value : UInt32)
  /-- Accesses a register that does not exist. -/
  | strayCsr
  /-- Runs without interrupts what merely yields a value. -/
  | uninterrupted (value : α)
  /-- Replaces the word of a register without an access. -/
  | pokeCsr (csr : Csr) (value : UInt32)
  | setTick (tick : UInt32)
  | idle
  | unknown

inductive Result (α : Type) where
  | quiet
  | flag (value : Bool)
  | number (value : Nat)
  | threshold (value : Threshold)
  | yielded (value : α)
  /-- The firmware has no such access to the register. -/
  | noAccessor
  /-- The variant has no such step. -/
  | absent
  | halted (halt : Halt)
  deriving DecidableEq, Repr

variable {α : Type}

/-- Performs a step only where the variant has it. -/
def whenPresent (present : Bool) (act : Firmware (Result α)) : Firmware (Result α) :=
  if present then act else pure .absent

/-- Replaces the word of a register without an access; of the timer's value, the running count. -/
def Soc.poked (soc : Soc) (csr : Csr) (value : UInt32) : Soc :=
  match csr with
  | .timerValue => { soc with counter := value }
  | csr => { soc with csrs := soc.csrs.assign csr value }

def Step.perform (variant : Variant) : Step α → Firmware (Result α)
  | bringUp => do
    Board.bringUp variant
    return .quiet
  | restartTimer => whenPresent variant.timer do
    onBus Timer.restart
    return .quiet
  | microseconds => whenPresent variant.timer do
    return .number (← onBus Timer.microseconds)
  | wait interval => whenPresent variant.timer do
    onBus (Timer.wait interval)
    return .quiet
  | print text => whenPresent variant.console do
    onBus (Console.print variant text)
    return .flag true
  | register threshold => whenPresent variant.consoleLogger do
    return .flag (← installLogger .console threshold)
  | direct record => whenPresent variant.consoleLogger do
    onBus (printRecord variant record)
    return .flag true
  | otherLogger threshold => return .flag (← installLogger .silent threshold)
  | issue record => do
    Board.issue variant record
    return .quiet
  | setThreshold threshold => do
    Board.setThreshold threshold
    return .quiet
  | askThreshold => return .threshold (← get).log.threshold
  | readCsr csr =>
    if csr.readable then return .number (csr.width.clip (← onBus (Soc.read csr))).toNat
    else return .noAccessor
  | writeCsr csr value =>
    if csr.writable then do
      onBus (Soc.write csr (csr.width.clip value))
      return .quiet
    else return .noAccessor
  | strayCsr => return .noAccessor
  | uninterrupted value => return .yielded value
  | pokeCsr csr value => do
    onBus (modify (·.poked csr value))
    return .quiet
  | setTick tick => do
    onBus (modify ({ · with tick }))
    return .quiet
  | idle => return .quiet
  | unknown => return .absent

structure Report (α : Type) where
  result : Result α
  sent : Array UInt8
  accesses : Array BusAccess

/-- A board whose records are empty and whose polls are watched afresh. -/
def State.fresh (board : State) : State :=
  let ⟨soc, log⟩ := board
  ⟨{ soc with accesses := #[], sent := #[], pollsLeft := soc.patience }, log⟩

/-- Performs steps in order until the board comes to a halt. -/
def runScript (variant : Variant) : List (Step α) → State → List (Report α)
  | [], _ => []
  | step :: rest, board =>
    match step.perform variant board.fresh with
    | .ok result after =>
      ⟨result, after.soc.sent, after.soc.accesses⟩ :: runScript variant rest after
    | .error halt after => [⟨.halted halt, after.soc.sent, after.soc.accesses⟩]

end Board
end TimingEye
