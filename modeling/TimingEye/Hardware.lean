import TimingEye.Registers

/-!
# Timing hardware

The four operations a calibration needs (`Hardware`), the way they are built from raw register
access (`Registers.hardware`), and the calls by which they are known (`Call`).
-/

namespace TimingEye

/-- The operations a calibration needs, in whatever monad they take effect. -/
structure Hardware (m : Type → Type) where
  setDelay : DelayLine → UInt8 → m Unit
  stepPhase : PhaseDirection → m Unit
  slip : SubPhase → m Unit
  /-- Tells whether the memory word read back correctly. -/
  probe : m Bool

def Registers.hardware {m : Type → Type} [Monad m] (registers : Registers m) : Hardware m where
  setDelay line taps := registers.drive (delayWrites line taps)
  stepPhase direction := registers.drive (stepWrites direction)
  slip subPhase := registers.drive (slipWrites subPhase)
  probe := registers.probe

/-- One operation as seen from outside, a probe with its answer. -/
inductive Call where
  | setDelay (line : DelayLine) (taps : UInt8)
  | stepPhase (direction : PhaseDirection)
  | slip (subPhase : SubPhase)
  | probe (passed : Bool)
  deriving DecidableEq, Repr

namespace Call

def token : Call → String
  | setDelay .clock taps => "C" ++ decimal taps.toNat
  | setDelay .io taps => "I" ++ decimal taps.toNat
  | stepPhase .null => "SN"
  | stepPhase .up => "SU"
  | slip subPhase => "L" ++ truthDigit subPhase.hr2x90 ++ truthDigit subPhase.hr2x
  | probe passed => "P" ++ truthDigit passed

end Call

end TimingEye
