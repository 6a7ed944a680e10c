import TimingEye.Calibration.Sweep
import TimingEye.Calibration.Transcript
import TimingEye.Phy.Bank

/-!
# Scripts for a register bank

A script is a list of steps on one bank, from single accesses to whole calibrations.  Each step
is answered by its result and the bank it leaves behind; a fault is the last thing to happen.
-/

namespace TimingEye
namespace Phy

inductive Step where
  | setDelay (line : DelayLine) (taps : UInt8)
  | stepPhase (direction : PhaseDirection)
  | slip (subPhase : SubPhase)
  | probe
  /-- A whole calibration; its reports are added to the transcript. -/
  | calibrate (params : Params) (transcript : Transcript)
  | write (signal : Signal) (value : UInt8)
  | writeWord (value : UInt32)
  | readWord
  /-- Looks at the memory word without an access. -/
  | cell
  /-- Looks at the taps of the clock delay line. -/
  | clockTaps
  | unknown

inductive Result where
  | quiet
  | passed (answer : Bool)
  | number (value : Nat)
  | verdict (verdict : Verdict) (transcript : Transcript)
  | unknown
  | fault (cause : Overflow)

def Step.perform : Step → BankM Result
  | setDelay line taps => do
    Bank.hardware.setDelay line taps
    return .quiet
  | stepPhase direction => do
    Bank.hardware.stepPhase direction
    return .quiet
  | slip subPhase => do
    Bank.hardware.slip subPhase
    return .quiet
  | probe => return .passed (← Bank.hardware.probe)
  | calibrate params transcript => do
    let (outcome, transcript) ← (TimingEye.calibrate params).watch Bank.hardware transcript
    match outcome with
    | .ok verdict => return .verdict verdict transcript
    | .error cause => throw cause
  | write signal value => do
    Bank.write signal value
    return .quiet
  | writeWord value => do
    Bank.writeWord value
    return .quiet
  | readWord => return .number (← Bank.readWord).toNat
  | cell => return .number (← get).cell.toNat
  | clockTaps => return .number (← get).clockTaps.toNat
  | unknown => return .unknown

/-- Performs steps in order, each on a fresh record, up to the first fault. -/
def runScript : List Step → Bank → List (Result × Bank)
  | [], _ => []
  | step :: rest, bank =>
    match step.perform { bank with accesses := #[] } with
    | .ok result after => (result, after) :: runScript rest after
    | .error cause after => [(.fault cause, after)]

end Phy
end TimingEye
