import TimingEye.Calibration.Procedure
import TimingEye.Logging.Sink

/-!
# Transcripts of a calibration

A run can be watched: the calls the hardware received, the progress text, and the log records.
`Hardware.watched` and `Transcript.reporter` put a transcript around any hardware without changing
what it does.
-/

namespace TimingEye

/-- What was seen of a run so far. -/
structure Transcript where
  calls : Array Call := #[]
  /-- The progress text, if anybody reads it. -/
  progress : Option Sink := some { room := none }
  /-- The log records that are let through. -/
  threshold : Threshold := .upTo .debug
  records : Array Record := #[]

namespace Transcript

def called (transcript : Transcript) (call : Call) : Transcript :=
  { transcript with calls := transcript.calls.push call }

def reported (transcript : Transcript) (pieces : List String) : Transcript :=
  { transcript with progress := transcript.progress.map (·.write pieces) }

/-- Adds a log record, unless its severity is not let through. -/
def logged (transcript : Transcript) (record : Record) : Transcript :=
  if transcript.threshold.admits record.severity then
    { transcript with records := transcript.records.push record }
  else
    transcript

/-- Reports that go into the transcript. -/
def reporter {m : Type → Type} [Monad m] : Reporter (StateT Transcript m) where
  report pieces := modify (·.reported pieces)
  log record := modify (·.logged record)

end Transcript

/-- The same hardware, its calls being written down. -/
def Hardware.watched {m : Type → Type} [Monad m] (hardware : Hardware m) :
    Hardware (StateT Transcript m) where
  setDelay line taps := do
    modify (·.called (.setDelay line taps))
    hardware.setDelay line taps
  stepPhase direction := do
    modify (·.called (.stepPhase direction))
    hardware.stepPhase direction
  slip subPhase := do
    modify (·.called (.slip subPhase))
    hardware.slip subPhase
  probe := do
    let passed ← hardware.probe
    modify (·.called (.probe passed))
    return passed

@[specialize] def Procedure.watch {m : Type → Type} [Monad m] {α : Type}
    (procedure : Procedure α) (hardware : Hardware m) (transcript : Transcript) :
    m (Except Overflow α × Transcript) :=
  procedure.run hardware.watched Transcript.reporter transcript

end TimingEye
