import TimingEye.Proofs.Calibration.Path

/-!
# Registers that stand in for others

Where each access to some registers can be made to others as well, with the same answer and from
one pair of related states to the next, so can each operation of the timing hardware.

* `bind_eq_ok_iff`, `bind_eq_error_iff`: sequences, cut where their first part ends;
* `Registers.Simulates`: registers that follow each access to others;
* `Simulates.acts`: they follow each operation.
-/

namespace TimingEye

/-! ## Sequences -/

section Sequences

variable {ε σ α β : Type} {first : EStateM ε σ α} {next : α → EStateM ε σ β} {before middle : σ}

theorem bind_of_ok {value : α} (h : first before = .ok value middle) :
    (first >>= next) before = next value middle := by
  change EStateM.bind first next before = next value middle
  simp only [EStateM.bind, h]

theorem bind_of_error {cause : ε} (h : first before = .error cause middle) :
    (first >>= next) before = .error cause middle := by
  change EStateM.bind first next before = .error cause middle
  simp only [EStateM.bind, h]

/-- A sequence goes through if both parts do. -/
theorem bind_eq_ok_iff {after : σ} {result : β} :
    (first >>= next) before = .ok result after ↔
      ∃ value middle, first before = .ok value middle ∧ next value middle = .ok result after := by
  constructor
  · intro h
    cases hfirst : first before with
    | ok value middle =>
      rw [bind_of_ok hfirst] at h
      exact ⟨value, middle, rfl, h⟩
    | error cause middle =>
      rw [bind_of_error hfirst] at h
      cases h
  · rintro ⟨value, middle, hfirst, hnext⟩
    rw [bind_of_ok hfirst]
    exact hnext

/-- A sequence faults if its first part does, or its second part after the first one. -/
theorem bind_eq_error_iff {after : σ} {cause : ε} :
    (first >>= next) before = .error cause after ↔
      first before = .error cause after ∨
      ∃ value middle, first before = .ok value middle ∧ next value middle = .error cause after := by
  constructor
  · intro h
    cases hfirst : first before with
    | ok value middle =>
      rw [bind_of_ok hfirst] at h
      exact .inr ⟨value, middle, rfl, h⟩
    | error cause' middle =>
      rw [bind_of_error hfirst] at h
      cases h
      exact .inl rfl
  · rintro (hfirst | ⟨value, middle, hfirst, hnext⟩)
    · exact bind_of_error hfirst
    · rw [bind_of_ok hfirst]
      exact hnext

end Sequences

/-! ## Registers -/

namespace Registers

variable {ε ε' σ σ' : Type}

/-- Every access that goes through with some registers goes through with others in a related state,
with the same answer, and leads to a related state again. -/
structure Simulates (concrete : Registers (EStateM ε σ)) (abstract : Registers (EStateM ε' σ'))
    (related : σ → σ' → Prop) : Prop where
  write : ∀ {signal value state before after}, related state before →
    abstract.write signal value before = .ok () after →
      ∃ final, concrete.write signal value state = .ok () final ∧ related final after
  writeWord : ∀ {value state before after}, related state before →
    abstract.writeWord value before = .ok () after →
      ∃ final, concrete.writeWord value state = .ok () final ∧ related final after
  readWord : ∀ {value state before after}, related state before →
    abstract.readWord before = .ok value after →
      ∃ final, concrete.readWord state = .ok value final ∧ related final after
  flushSharedCache : ∀ {state before after}, related state before →
    abstract.flushSharedCache before = .ok () after →
      ∃ final, concrete.flushSharedCache state = .ok () final ∧ related final after
  flushDataCache : ∀ {state before after}, related state before →
    abstract.flushDataCache before = .ok () after →
      ∃ final, concrete.flushDataCache state = .ok () final ∧ related final after

namespace Simulates

variable {concrete : Registers (EStateM ε σ)} {abstract : Registers (EStateM ε' σ')}
  {related : σ → σ' → Prop} {state : σ} {before after : σ'}

theorem drive (h : concrete.Simulates abstract related) {writes : List (Signal × UInt8)}
    (hrelated : related state before) (hdrive : abstract.drive writes before = .ok () after) :
    ∃ final, concrete.drive writes state = .ok () final ∧ related final after := by
  induction writes generalizing state before with
  | nil =>
    cases hdrive
    exact ⟨state, rfl, hrelated⟩
  | cons write rest ih =>
    rcases bind_eq_ok_iff.mp hdrive with ⟨_, middle, hwrite, hrest⟩
    rcases h.write hrelated hwrite with ⟨reached, hfirst, hreached⟩
    rcases ih hreached hrest with ⟨final, hfinal, hafter⟩
    exact ⟨final, bind_eq_ok_iff.mpr ⟨(), reached, hfirst, hfinal⟩, hafter⟩

theorem check (h : concrete.Simulates abstract related) {patterns : List UInt32} {passed : Bool}
    (hrelated : related state before) (hcheck : abstract.check patterns before = .ok passed after) :
    ∃ final, concrete.check patterns state = .ok passed final ∧ related final after := by
  induction patterns generalizing state before with
  | nil =>
    cases hcheck
    exact ⟨state, rfl, hrelated⟩
  | cons pattern rest ih =>
    rcases bind_eq_ok_iff.mp hcheck with ⟨_, written, hwrite, hcheck⟩
    rcases bind_eq_ok_iff.mp hcheck with ⟨_, shared, hshared, hcheck⟩
    rcases bind_eq_ok_iff.mp hcheck with ⟨_, flushed, hdata, hcheck⟩
    rcases bind_eq_ok_iff.mp hcheck with ⟨found, middle, hread, hrest⟩
    rcases h.writeWord hrelated hwrite with ⟨_, hwrite', hwritten⟩
    rcases h.flushSharedCache hwritten hshared with ⟨_, hshared', hemptied⟩
    rcases h.flushDataCache hemptied hdata with ⟨_, hdata', hflushed⟩
    rcases h.readWord hflushed hread with ⟨reached, hread', hmiddle⟩
    -- Both have read the same word, so both go on or both stop.
    have hend : ∃ final,
        (if found = pattern then concrete.check rest else pure false) reached =
          .ok passed final ∧ related final after := by
      by_cases hfound : found = pattern
      · rw [if_pos hfound] at hrest ⊢
        exact ih hmiddle hrest
      · rw [if_neg hfound] at hrest ⊢
        cases hrest
        exact ⟨reached, rfl, hmiddle⟩
    rcases hend with ⟨final, hfinal, hafter⟩
    refine ⟨final, ?_, hafter⟩
    apply bind_eq_ok_iff.mpr
    refine ⟨_, _, hwrite', bind_eq_ok_iff.mpr ⟨_, _, hshared', ?_⟩⟩
    exact bind_eq_ok_iff.mpr ⟨_, _, hdata', bind_eq_ok_iff.mpr ⟨_, _, hread', hfinal⟩⟩

/-- Registers that follow each access follow each operation. -/
theorem acts (h : concrete.Simulates abstract related) {call : Call}
    (hrelated : related state before) (hacts : abstract.hardware.Acts call before after) :
    ∃ final, concrete.hardware.Acts call state final ∧ related final after := by
  cases call with
  | setDelay line taps => exact h.drive hrelated hacts
  | stepPhase direction => exact h.drive hrelated hacts
  | slip subPhase => exact h.drive hrelated hacts
  | probe passed => exact h.check hrelated hacts

end Simulates

end Registers

/-! ## Actions -/

/-- An action that is a call does what the call does, whoever receives the reports. -/
theorem perform_of_acts {ε σ : Type} {hardware : Hardware (EStateM ε σ)}
    {reporter : Reporter (EStateM ε σ)} {action : Action} {call : Call} {before after : σ}
    (hcall : (Event.act action).call? = some call) (h : hardware.Acts call before after) :
    action.perform hardware reporter before = .ok () after := by
  cases action <;> cases hcall <;> exact h

end TimingEye
