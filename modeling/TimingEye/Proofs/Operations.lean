import TimingEye.Proofs.Simulation

/-!
# Operations as they are asked for

An operation of the timing hardware may be asked for at the hardware itself, or at the registers
beneath it, which do the same.  Operations in a row come to calls, one for each, and fault where a
call does.

* `Operation`, `Call.operation`: what is asked for, and that calls tell what was;
* `Operation.perform`, `performAll`: operations at their places, and many of them in a row;
* `performAll_eq_ok_iff`, `exists_faults_of_performAll`: how operations in a row end;
* `exists_performAll_cut`: where they stood between two of them.
-/

namespace TimingEye

/-- An operation of the timing hardware, as it is asked for. -/
inductive Operation where
  | setDelay (line : DelayLine) (taps : UInt8)
  | stepPhase (direction : PhaseDirection)
  | slip (subPhase : SubPhase)
  | probe
  deriving DecidableEq, Repr

/-- What a call has asked for. -/
def Call.operation : Call → Operation
  | setDelay line taps => .setDelay line taps
  | stepPhase direction => .stepPhase direction
  | slip subPhase => .slip subPhase
  | probe _ => .probe

/-- Where an operation is asked for: at the timing hardware, or at the registers beneath it. -/
inductive Place where
  | hardware
  | registers
  deriving DecidableEq, Repr

namespace Operation

section Performing

variable {m : Type → Type} [Monad m]

/-- Asks the timing hardware; what comes back is the call with its answer. -/
def ofHardware (hardware : Hardware m) : Operation → m Call
  | setDelay line taps => do
    hardware.setDelay line taps
    return .setDelay line taps
  | stepPhase direction => do
    hardware.stepPhase direction
    return .stepPhase direction
  | slip subPhase => do
    hardware.slip subPhase
    return .slip subPhase
  | probe => return .probe (← hardware.probe)

/-- Does without the timing hardware: drives the lines and tries the word. -/
def ofRegisters (registers : Registers m) : Operation → m Call
  | setDelay line taps => do
    registers.drive (delayWrites line taps)
    return .setDelay line taps
  | stepPhase direction => do
    registers.drive (stepWrites direction)
    return .stepPhase direction
  | slip subPhase => do
    registers.drive (slipWrites subPhase)
    return .slip subPhase
  | probe => return .probe (← registers.probe)

def perform (registers : Registers m) (operation : Operation) : Place → m Call
  | .hardware => operation.ofHardware registers.hardware
  | .registers => operation.ofRegisters registers

/-- It is all the same where an operation is asked for. -/
theorem perform_eq_ofHardware (registers : Registers m) (operation : Operation) (place : Place) :
    operation.perform registers place = operation.ofHardware registers.hardware := by
  cases place with
  | hardware => rfl
  | registers => cases operation <;> rfl

end Performing

section Faulting

variable {ε σ : Type} {registers : Registers (EStateM ε σ)} {operation : Operation} {place : Place}
  {before after : σ}

/-- An operation goes through as a call, which does what the call does to the hardware. -/
theorem perform_eq_ok_iff {call : Call} :
    operation.perform registers place before = .ok call after ↔
      call.operation = operation ∧ registers.hardware.Acts call before after := by
  rw [perform_eq_ofHardware]
  constructor
  · intro h
    cases operation <;> rcases bind_eq_ok_iff.mp h with ⟨_, _, hacts, hdone⟩ <;> cases hdone <;>
      exact ⟨rfl, hacts⟩
  · rintro ⟨rfl, hacts⟩
    cases call <;> exact bind_eq_ok_iff.mpr ⟨_, _, hacts, rfl⟩

/-- An operation faults where a call does. -/
theorem faults_of_perform {cause : ε}
    (h : operation.perform registers place before = .error cause after) :
    ∃ call, registers.hardware.Faults cause call before after := by
  rw [perform_eq_ofHardware] at h
  have hcall : ∀ {α : Type} {work : EStateM ε σ α} {answered : α → Call},
      (do return answered (← work)) before = .error cause after →
        work before = .error cause after := by
    intro α work answered hwork
    rcases bind_eq_error_iff.mp hwork with hfault | ⟨_, _, _, hdone⟩
    · exact hfault
    · cases hdone
  cases operation with
  | setDelay line taps => exact ⟨.setDelay line taps, hcall h⟩
  | stepPhase direction => exact ⟨.stepPhase direction, hcall h⟩
  | slip subPhase => exact ⟨.slip subPhase, hcall h⟩
  | probe => exact ⟨.probe false, hcall h⟩

end Faulting

end Operation

/-! ## Operations in a row -/

/-- Performs operations in order, each at its place. -/
def performAll {m : Type → Type} [Monad m] (registers : Registers m)
    (asked : List (Operation × Place)) : m (List Call) :=
  asked.mapM fun (operation, place) => operation.perform registers place

section Rows

variable {ε σ : Type} {registers : Registers (EStateM ε σ)} {asked : List (Operation × Place)}
  {start final : σ}

/-- Operations go through as calls of what was asked for, one after another. -/
theorem performAll_eq_ok_iff {calls : List Call} :
    performAll registers asked start = .ok calls final ↔
      calls.map Call.operation = asked.map Prod.fst ∧
        Trail registers.hardware.Acts start calls final := by
  induction asked generalizing calls start with
  | nil =>
    constructor
    · intro h
      cases h
      exact ⟨rfl, .nil final⟩
    · rintro ⟨hoperations, htrail⟩
      cases List.map_eq_nil_iff.mp hoperations
      cases htrail
      rfl
  | cons first rest ih =>
    rw [performAll, List.mapM_cons]
    constructor
    · intro h
      rcases bind_eq_ok_iff.mp h with ⟨call, middle, hcall, hlater⟩
      rcases bind_eq_ok_iff.mp hlater with ⟨later, _, hrest, hdone⟩
      cases hdone
      rcases Operation.perform_eq_ok_iff.mp hcall with ⟨hoperation, hacts⟩
      rcases ih.mp hrest with ⟨hoperations, htrail⟩
      exact ⟨List.cons_eq_cons.mpr ⟨hoperation, hoperations⟩, .cons hacts htrail⟩
    · rintro ⟨hoperations, htrail⟩
      rcases List.map_eq_cons_iff.mp hoperations with ⟨call, later, rfl, hoperation, hlater⟩
      rcases Trail.cons_iff.mp htrail with ⟨middle, hacts, hrest⟩
      have hcall : first.1.perform registers first.2 start = .ok call middle :=
        Operation.perform_eq_ok_iff.mpr ⟨hoperation, hacts⟩
      exact bind_eq_ok_iff.mpr
        ⟨call, middle, hcall, bind_eq_ok_iff.mpr ⟨later, final, ih.mpr ⟨hlater, hrest⟩, rfl⟩⟩

/-- Where the calls can be cut, the operations can be. -/
theorem exists_performAll_cut {earlier later : List Call}
    (h : performAll registers asked start = .ok (earlier ++ later) final) :
    ∃ reached, performAll registers (asked.take earlier.length) start = .ok earlier reached ∧
      performAll registers (asked.drop earlier.length) reached = .ok later final := by
  rcases performAll_eq_ok_iff.mp h with ⟨hoperations, htrail⟩
  rcases Trail.append_iff.mp htrail with ⟨reached, hearlier, hlater⟩
  have hlength : (earlier.map Call.operation).length = earlier.length := List.length_map _
  have hfirst : earlier.map Call.operation = (asked.take earlier.length).map Prod.fst := by
    rw [List.map_take, ← hoperations, List.map_append, List.take_left' hlength]
  have hrest : later.map Call.operation = (asked.drop earlier.length).map Prod.fst := by
    rw [List.map_drop, ← hoperations, List.map_append, List.drop_left' hlength]
  exact ⟨reached, performAll_eq_ok_iff.mpr ⟨hfirst, hearlier⟩,
    performAll_eq_ok_iff.mpr ⟨hrest, hlater⟩⟩

/-- Operations that do not go through end with a call that faults. -/
theorem exists_faults_of_performAll {cause : ε}
    (h : performAll registers asked start = .error cause final) :
    ∃ call middle, registers.hardware.Faults cause call middle final := by
  induction asked generalizing start with
  | nil => cases h
  | cons first rest ih =>
    rw [performAll, List.mapM_cons] at h
    rcases bind_eq_error_iff.mp h with hfault | ⟨_, middle, _, hlater⟩
    · rcases Operation.faults_of_perform hfault with ⟨call, hcall⟩
      exact ⟨call, start, hcall⟩
    · rcases bind_eq_error_iff.mp hlater with hrest | ⟨_, _, _, hdone⟩
      · exact ih hrest
      · cases hdone

end Rows

end TimingEye
