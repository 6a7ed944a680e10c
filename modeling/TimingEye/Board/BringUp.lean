import TimingEye.Board.Logger
import TimingEye.Calibration.Sweep

/-!
# Bringing up the memory

Before anything is placed in the memory, the firmware calibrates it.  It reports on the console
and, if there is none yet, installs the console logger.  When no timing works it says so, counts
down, and resets the chip.
-/

namespace TimingEye
namespace Board

/-- Where the bring-up starts to count down. -/
def restartCountdown : Nat := 5

/-- The first line of the bring-up. -/
def banner : String :=
  "--==========-- \x1b[1mHyperRAM Init\x1b[0m ===========--\n"

/-- What is said when no timing works. -/
def failureNotice : String :=
  "\n\n Error: RAM Init failed :(\n Restarting in... "

/-- One count: it takes the place of the count before. -/
def countPieces (count : Nat) : List String :=
  ["\x08", decimal count]

/-- Adds to the progress text, if the firmware has a console. -/
def announce (variant : Variant) (pieces : List String) : Firmware Unit :=
  if variant.console then onBus (Console.printAll variant pieces) else pure ()

/-- Reports of a calibration: progress goes to the console, records to the facade. -/
def reporter (variant : Variant) : Reporter Firmware where
  report := announce variant
  log := issue variant

/-- The control lines and the memory word, as the firmware reaches them. -/
def registers : Registers Firmware where
  write signal value := onBus (Soc.registers.write signal value)
  writeWord value := onBus (Soc.registers.writeWord value)
  readWord := onBus Soc.registers.readWord
  flushSharedCache := onBus Soc.registers.flushSharedCache
  flushDataCache := onBus Soc.registers.flushDataCache

/-- The timing hardware, as the firmware drives it. -/
def hardware : Hardware Firmware :=
  registers.hardware

/-- Installs the console logger and starts the timer for it, unless there is a logger already. -/
def prepareLogging (variant : Variant) : Firmware Unit := do
  if variant.consoleLogger then
    -- Whoever installed a logger before also owns the timer.
    if (← installLogger .console (.upTo .info)) then
      onBus Timer.restart

theorem prepareLogging_of_first {variant : Variant} {board : State}
    (h : variant.consoleLogger = true ∧ board.log.logger = none) :
    prepareLogging variant board =
      onBus Timer.restart ⟨board.soc, ⟨some .console, .upTo .info⟩⟩ := by
  rcases board with ⟨soc, ⟨logger, threshold⟩⟩
  rcases h with ⟨hlogger, hnone⟩
  cases hnone
  rw [prepareLogging, if_pos hlogger]
  rfl

theorem prepareLogging_of_later {variant : Variant} {board : State}
    (h : ¬(variant.consoleLogger = true ∧ board.log.logger = none)) :
    prepareLogging variant board = .ok () board := by
  rcases board with ⟨soc, ⟨logger, threshold⟩⟩
  by_cases hlogger : variant.consoleLogger = true
  · rw [prepareLogging, if_pos hlogger]
    cases logger with
    | none => exact absurd ⟨hlogger, rfl⟩ h
    | some logger => rfl
  · rw [prepareLogging, if_neg hlogger]
    rfl

/-- Waits a second.  The timer may never have been started, so it is restarted. -/
def waitSecond (variant : Variant) : Firmware Unit :=
  if variant.timer then
    onBus do
      Timer.restart
      Timer.wait 1000000
  else
    pure ()

/-- Counts down from `count`, a second before each count. -/
def countDown (variant : Variant) : (count : Nat) → Firmware Unit
  | 0 => pure ()
  | count + 1 => do
    waitSecond variant
    announce variant (countPieces (count + 1))
    countDown variant count

def resetChip : Firmware Unit :=
  onBus (Soc.write .ctrlReset 1)

/-- Says that no timing works, counts down, and resets the chip. -/
def giveUp (variant : Variant) : Firmware Unit := do
  announce variant [failureNotice]
  countDown variant restartCountdown
  resetChip

def calibrateMemory (variant : Variant) : Firmware (Except Overflow Verdict) :=
  (calibrate .standard).run hardware (reporter variant)

/-- Calibrates the memory and returns with it usable, or resets the chip. -/
def bringUp (variant : Variant) : Firmware Unit := do
  if variant.hyperram then
    prepareLogging variant
    announce variant [banner]
    match ← calibrateMemory variant with
    | .ok (.calibrated _) => pure ()
    | .ok (.exhausted _) => giveUp variant
    | .error cause => throw (.fault cause)

end Board
end TimingEye
