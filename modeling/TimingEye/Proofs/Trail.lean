/-!
# Trails

A trail is a finite run of a step relation that carries the labels of its steps.  Trails compose
at a shared state, they can be cut wherever their labels can, and whatever every step keeps holds
at their end.
-/

namespace TimingEye

/-- A run from one state to another whose steps carry exactly the given labels. -/
inductive Trail {ι σ : Type} (step : ι → σ → σ → Prop) : σ → List ι → σ → Prop where
  | nil (state : σ) : Trail step state [] state
  | cons {label : ι} {rest : List ι} {start middle final : σ} :
      step label start middle → Trail step middle rest final →
        Trail step start (label :: rest) final

namespace Trail

variable {ι σ : Type} {step : ι → σ → σ → Prop} {start middle final : σ}

/-- An entry of two lists in a row is an entry of the first one or of the second one. -/
theorem cut_append {first second before after : List ι} {entry : ι}
    (h : first ++ second = before ++ entry :: after) :
    (∃ middle, first = before ++ entry :: middle) ∨
    (∃ middle, before = first ++ middle ∧ second = middle ++ entry :: after) := by
  rcases List.append_eq_append_iff.mp h with ⟨middle, hbefore, hsecond⟩ | ⟨middle, hfirst, hafter⟩
  · exact .inr ⟨middle, hbefore, hsecond⟩
  · cases middle with
    | nil => exact .inr ⟨[], by rw [hfirst, List.append_nil, List.append_nil], hafter.symm⟩
    | cons head rest =>
      rcases List.cons_eq_cons.mp hafter with ⟨rfl, _⟩
      exact .inl ⟨rest, hfirst⟩

theorem single {label : ι} (h : step label start final) : Trail step start [label] final :=
  .cons h (.nil final)

/-- Trails compose at a shared state. -/
theorem append {first second : List ι} (hfirst : Trail step start first middle)
    (hsecond : Trail step middle second final) : Trail step start (first ++ second) final := by
  -- The induction is on the first trail; the second one waits at its end.
  induction hfirst with
  | nil _ => exact hsecond
  | cons hstep _ ih => exact .cons hstep (ih hsecond)

/-- A trail can be cut between any two of its labels. -/
theorem append_iff {first second : List ι} :
    Trail step start (first ++ second) final ↔
      ∃ middle, Trail step start first middle ∧ Trail step middle second final := by
  constructor
  · intro h
    -- Each label of the first part takes one step off the trail.
    induction first generalizing start with
    | nil => exact ⟨start, .nil start, h⟩
    | cons label rest ih =>
      cases h with
      | cons hstep hrest =>
        rcases ih hrest with ⟨middle, hleft, hright⟩
        exact ⟨middle, .cons hstep hleft, hright⟩
  · rintro ⟨middle, hleft, hright⟩
    exact hleft.append hright

theorem cons_iff {label : ι} {rest : List ι} :
    Trail step start (label :: rest) final ↔
      ∃ middle, step label start middle ∧ Trail step middle rest final := by
  constructor
  · intro h
    cases h with
    | cons hstep hrest => exact ⟨_, hstep, hrest⟩
  · rintro ⟨middle, hstep, hrest⟩
    exact .cons hstep hrest

/-- Where every step has one outcome, so has a trail. -/
theorem unique {labels : List ι} {other : σ} (h : Trail step start labels final)
    (h' : Trail step start labels other)
    (hstep : ∀ label before after other, step label before after → step label before other →
      after = other) : final = other := by
  induction h with
  | nil _ =>
    cases h'
    rfl
  | cons hfirst _ ih =>
    rcases cons_iff.mp h' with ⟨_, hfirst', hrest'⟩
    cases hstep _ _ _ _ hfirst hfirst'
    exact ih hrest'

/-- The last step of a trail, split off. -/
theorem concat_iff {labels : List ι} {last : ι} :
    Trail step start (labels ++ [last]) final ↔
      ∃ middle, Trail step start labels middle ∧ step last middle final := by
  rw [append_iff]
  constructor
  · rintro ⟨middle, hlabels, hlast⟩
    rcases cons_iff.mp hlast with ⟨_, hstep, hnil⟩
    cases hnil
    exact ⟨middle, hlabels, hstep⟩
  · rintro ⟨middle, hlabels, hstep⟩
    exact ⟨middle, hlabels, single hstep⟩

end Trail

end TimingEye
