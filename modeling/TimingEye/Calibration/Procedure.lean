import TimingEye.Hardware
import TimingEye.Logging.Record
import TimingEye.Overflow

/-!
# Procedures

A procedure is a decision tree over the timing hardware: it acts, reports, and branches on the
answer of each probe.  It is data, so that one procedure can be run on any hardware and with any
audience, and two runs of it can be compared.

* `Action`: what a procedure does without awaiting an answer;
* `Procedure α`: the trees that end with an `α`, a monad;
* `Procedure.run`: a tree run on some hardware, its reports going to some reporter.
-/

namespace TimingEye

/-- What a procedure does without awaiting an answer. -/
inductive Action where
  | setDelay (line : DelayLine) (taps : UInt8)
  | stepPhase (direction : PhaseDirection)
  | slip (subPhase : SubPhase)
  /-- Adds to the progress text, piece by piece. -/
  | report (pieces : List String)
  | log (record : Record)
  deriving DecidableEq, Repr

/-- A decision tree over the timing hardware. -/
inductive Procedure (α : Type) where
  | done (result : α)
  /-- A counter left its word. -/
  | overflow (cause : Overflow)
  | act (action : Action) (next : Procedure α)
  /-- Probes the memory and branches on the answer. -/
  | probe (next : Bool → Procedure α)

namespace Procedure

variable {α β : Type}

/-! ## Sequencing -/

/-- Continues a procedure where it ends. -/
def andThen : Procedure α → (α → Procedure β) → Procedure β
  | done result, next => next result
  | overflow cause, _ => overflow cause
  | act action rest, next => act action (rest.andThen next)
  | probe rest, next => probe fun passed => (rest passed).andThen next

instance : Monad Procedure where
  pure := done
  bind := andThen

def perform (action : Action) : Procedure Unit :=
  act action (done ())

def ask : Procedure Bool :=
  probe done

def checked : Except Overflow α → Procedure α
  | .ok value => done value
  | .error cause => overflow cause

@[simp] theorem pure_eq (result : α) : (pure result : Procedure α) = done result := rfl

@[simp] theorem bind_eq (first : Procedure α) (next : α → Procedure β) :
    first >>= next = first.andThen next := rfl

@[simp] theorem andThen_done (first : Procedure α) : first.andThen done = first := by
  induction first with
  | done _ => rfl
  | overflow _ => rfl
  | act action rest ih => simp [andThen, ih]
  | probe rest ih => simp [andThen, ih]

theorem andThen_assoc {γ : Type} (first : Procedure α) (second : α → Procedure β)
    (third : β → Procedure γ) :
    (first.andThen second).andThen third =
      first.andThen fun value => (second value).andThen third := by
  induction first with
  | done _ => rfl
  | overflow _ => rfl
  | act action rest ih => simp [andThen, ih]
  | probe rest ih => simp [andThen, ih]

instance : LawfulMonad Procedure :=
  LawfulMonad.mk' Procedure
    (fun first => andThen_done first)
    (fun _ _ => rfl)
    (fun first second third => andThen_assoc first second third)

end Procedure

/-! ## Running a procedure -/

/-- Where the reports of a procedure go. -/
structure Reporter (m : Type → Type) where
  /-- Receives the pieces of one addition to the progress text. -/
  report : List String → m Unit
  log : Record → m Unit

@[inline] def Action.perform {m : Type → Type} (hardware : Hardware m) (reporter : Reporter m) :
    Action → m Unit
  | setDelay line taps => hardware.setDelay line taps
  | stepPhase direction => hardware.stepPhase direction
  | slip subPhase => hardware.slip subPhase
  | report pieces => reporter.report pieces
  | log record => reporter.log record

@[specialize] def Procedure.run {m : Type → Type} [Monad m] {α : Type} (hardware : Hardware m)
    (reporter : Reporter m) : Procedure α → m (Except Overflow α)
  | done result => pure (.ok result)
  | overflow cause => pure (.error cause)
  | act action next => do
    action.perform hardware reporter
    next.run hardware reporter
  | probe next => do
    let passed ← hardware.probe
    (next passed).run hardware reporter

end TimingEye
