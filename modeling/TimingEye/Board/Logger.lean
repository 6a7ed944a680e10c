import TimingEye.Board.Console
import TimingEye.Board.Timer
import TimingEye.Logging.Record

/-!
# Logging on the board

All parts of the firmware log through one facade.  A logger is installed at most once, and the
facade lets records through up to a threshold that can be changed at any time.  The console logger
prints each record on a line of its own, with the time at which it was issued.
-/

namespace TimingEye
namespace Board

/-! ## The facade -/

/-- A logger that can be installed. -/
inductive Logger where
  | console
  | silent
  deriving DecidableEq, Repr

structure LogFacade where
  logger : Option Logger := none
  threshold : Threshold := .off
  deriving DecidableEq, Repr

namespace LogFacade

/-- Installs a logger with a threshold, unless there is a logger already. -/
def install (facade : LogFacade) (logger : Logger) (threshold : Threshold) : Bool × LogFacade :=
  match facade.logger with
  | none => (true, { logger := some logger, threshold })
  | some _ => (false, facade)

/-- Whether a record of some severity is printed on the console. -/
def prints (facade : LogFacade) (severity : Severity) : Bool :=
  facade.threshold.admits severity && facade.logger == some .console

end LogFacade

/-! ## The console logger -/

/-- The line of a record issued at some time, in microseconds. -/
def logLine (time : Nat) (record : Record) : List String :=
  ["[", alignRight 6 ' ' (decimal (time / 1000000)), ".",
    alignRight 6 '0' (decimal (time % 1000000)), "s] ",
    alignRight 5 ' ' record.severity.label, "(", record.target, "): ", record.message, "\n"]

/-- Prints a record with the time of its printing. -/
def printRecord (variant : Variant) (record : Record) : Bus Unit := do
  let time ← Timer.microseconds
  Console.printAll variant (logLine time record)

/-! ## Firmware -/

/-- The board: its hardware and the state of its firmware. -/
structure State where
  soc : Soc
  log : LogFacade := {}

abbrev Firmware := EStateM Halt State

def onBus {α : Type} (act : Bus α) : Firmware α := fun ⟨soc, log⟩ =>
  match act soc with
  | .ok value soc => .ok value ⟨soc, log⟩
  | .error halt soc => .error halt ⟨soc, log⟩

/-- Installs a logger, and tells whether it was the first. -/
def installLogger (logger : Logger) (threshold : Threshold) : Firmware Bool :=
  modifyGet fun ⟨soc, log⟩ =>
    let (installed, log) := log.install logger threshold
    (installed, ⟨soc, log⟩)

def setThreshold (threshold : Threshold) : Firmware Unit :=
  modify fun ⟨soc, log⟩ => ⟨soc, { log with threshold }⟩

def issue (variant : Variant) (record : Record) : Firmware Unit := do
  let board ← get
  if board.log.prints record.severity then
    onBus (printRecord variant record)

end Board
end TimingEye
