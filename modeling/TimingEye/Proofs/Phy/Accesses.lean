import TimingEye.Proofs.Phy.Timing
import TimingEye.Proofs.Trail

/-!
# The accesses of a register bank

Whatever is computed on a bank is a sequence of single accesses, each of which leads from one state
of the bank to the next.  The only thing that can fail is a control-line write.

* `Bank.Does`: what a single access does, so that `Trail Bank.Does` is a sequence of them;
* `Bank.Traced`: the accesses of a computation, up to its end or to the write that faults;
* `Checked`: the accesses by which patterns are written and read back.
-/

namespace TimingEye
namespace Phy

/-! ## Single accesses -/

/-- A control-line write as an access. -/
def Access.ofWrite (write : Signal × UInt8) : Access :=
  .write write.1 write.2

theorem isWrite_of_mem_map_ofWrite {writes : List (Signal × UInt8)} {access : Access}
    (h : access ∈ writes.map Access.ofWrite) : access.isWrite = true := by
  rcases List.mem_map.mp h with ⟨_, _, rfl⟩
  rfl

namespace Bank

/-- What an access does where it goes through, a read with its answer. -/
def Does : Access → Bank → Bank → Prop
  | .write signal value, before, after => registers.write signal value before = .ok () after
  | .writeWord value, before, after => registers.writeWord value before = .ok () after
  | .readWord value, before, after => registers.readWord before = .ok value after
  | .flushSharedCache, before, after => registers.flushSharedCache before = .ok () after
  | .flushDataCache, before, after => registers.flushDataCache before = .ok () after

theorem does_unique {access : Access} {before after other : Bank} (h : Does access before after)
    (h' : Does access before other) : after = other := by
  cases access <;>
    · have heq := h.symm.trans h'
      injection heq

/-- Only control-line writes change the timing. -/
theorem timing_of_does {access : Access} {before after : Bank} (h : Does access before after)
    (hread : access.isWrite = false) : after.timing = before.timing := by
  cases access with
  | write signal value => cases hread
  | _ =>
    cases h
    rfl

theorem timing_of_trail {trace : List Access} {before after : Bank}
    (h : Trail Does before trace after) (hreads : ∀ access ∈ trace, access.isWrite = false) :
    after.timing = before.timing := by
  induction h with
  | nil bank => rfl
  | cons hstep _ ih =>
    have hrest := ih fun access hmem => hreads access (List.mem_cons_of_mem _ hmem)
    exact hrest.trans (timing_of_does hstep (hreads _ List.mem_cons_self))

/-- Writes in order change the timing one after another. -/
theorem timing_of_writes {writes : List (Signal × UInt8)} {before after : Bank}
    (h : Trail Does before (writes.map Access.ofWrite) after) :
    after.timing = before.timing.driven writes := by
  induction writes generalizing before with
  | nil =>
    cases h
    rfl
  | cons write rest ih =>
    rcases Trail.cons_iff.mp h with ⟨middle, hwrite, hrest⟩
    have hwritten : Written write.1 write.2 before middle := written_of_write hwrite
    rw [ih hrest, hwritten.timing]
    rfl

/-- A bank records the accesses that go through. -/
theorem accesses_of_does {access : Access} {before after : Bank} (h : Does access before after) :
    after.accesses = before.accesses.push access := by
  cases access with
  | write signal value =>
    have hwritten : Written signal value before after := written_of_write h
    exact hwritten.same.accesses
  | _ => cases h; rfl

theorem accesses_of_trail {trace : List Access} {before after : Bank}
    (h : Trail Does before trace after) :
    after.accesses.toList = before.accesses.toList ++ trace := by
  induction h with
  | nil bank => exact (List.append_nil _).symm
  | cons hstep _ ih =>
    rw [ih, accesses_of_does hstep, Array.toList_push, List.append_assoc]
    rfl

/-- The word of a bank is what it was, or it has been written. -/
theorem cell_of_does {access : Access} {before after : Bank} (h : Does access before after) :
    after.cell = before.cell ∨ access = .writeWord after.cell := by
  cases access with
  | write signal value =>
    have hwritten : Written signal value before after := written_of_write h
    exact .inl hwritten.same.cell
  | writeWord value =>
    cases h
    by_cases hkept : (before.retention.decide before.clockTaps.toNat).1 = true
    · exact .inr (by simp [stored, noted, hkept])
    · exact .inl (by simp [stored, noted, hkept])
  | _ =>
    cases h
    exact .inl rfl

theorem cell_of_trail {trace : List Access} {before after : Bank}
    (h : Trail Does before trace after) :
    after.cell = before.cell ∨ .writeWord after.cell ∈ trace := by
  induction h with
  | nil bank => exact .inl rfl
  | cons hstep _ ih =>
    rcases ih with hkept | hmem
    · -- What is there in the end was there after the first access.
      rcases cell_of_does hstep with hfirst | rfl
      · exact .inl (hkept.trans hfirst)
      · exact .inr (hkept ▸ List.mem_cons_self)
    · exact .inr (List.mem_cons_of_mem _ hmem)

/-! ## Computations as accesses -/

/-- The accesses of a computation that go through, and the bank after them.  There the
computation ends, or a control-line write faults. -/
inductive Traced {α : Type} (start : Bank) :
    EStateM.Result Overflow Bank α → List Access → Bank → Prop where
  | ended (result : α) {trace : List Access} {last : Bank} (htrail : Trail Does start trace last) :
      Traced start (.ok result last) trace last
  | faulted (signal : Signal) (value : UInt8) {cause : Overflow} {trace : List Access}
      {last final : Bank} (htrail : Trail Does start trace last)
      (hfault : registers.write signal value last = .error cause final) :
      Traced start (.error cause final) trace last

theorem Traced.trail {α : Type} {start last : Bank} {trace : List Access}
    {outcome : EStateM.Result Overflow Bank α} (h : Traced start outcome trace last) :
    Trail Does start trace last := by
  cases h with
  | ended _ htrail => exact htrail
  | faulted _ _ htrail _ => exact htrail

/-- Accesses before a computation are traced along with it. -/
theorem Traced.after {α : Type} {start middle last : Bank} {earlier trace : List Access}
    {outcome : EStateM.Result Overflow Bank α} (h : Traced middle outcome trace last)
    (hearlier : Trail Does start earlier middle) :
    Traced start outcome (earlier ++ trace) last := by
  cases h with
  | ended result htrail => exact .ended result (hearlier.append htrail)
  | faulted signal value htrail hfault =>
    exact .faulted signal value (hearlier.append htrail) hfault

theorem drive_cons (write : Signal × UInt8) (rest : List (Signal × UInt8)) (start : Bank) :
    registers.drive (write :: rest) start =
      match registers.write write.1 write.2 start with
      | .ok _ middle => registers.drive rest middle
      | .error cause final => .error cause final := by
  rcases write with ⟨signal, value⟩
  change EStateM.bind (registers.write signal value) _ start = _
  rw [EStateM.bind]
  cases registers.write signal value start <;> rfl

/-- Writes that are performed in order are accesses. -/
theorem trail_of_drive {writes : List (Signal × UInt8)} {before after : Bank}
    (h : registers.drive writes before = .ok () after) :
    Trail Does before (writes.map Access.ofWrite) after := by
  induction writes generalizing before with
  | nil =>
    cases h
    exact .nil after
  | cons write rest ih =>
    rw [drive_cons] at h
    cases hwrite : registers.write write.1 write.2 before with
    | error cause final =>
      rw [hwrite] at h
      cases h
    | ok _ middle =>
      rw [hwrite] at h
      exact .cons hwrite (ih h)

/-- Writes of which one faults are accesses up to that one. -/
theorem exists_traced_of_drive {α : Type} {writes : List (Signal × UInt8)} {before final : Bank}
    {cause : Overflow} (h : registers.drive writes before = .error cause final) :
    ∃ trace last, (∀ access ∈ trace, access.isWrite = true) ∧
      Traced before (.error cause final : EStateM.Result Overflow Bank α) trace last := by
  induction writes generalizing before with
  | nil => cases h
  | cons write rest ih =>
    rw [drive_cons] at h
    cases hwrite : registers.write write.1 write.2 before with
    | error cause' final' =>
      rw [hwrite] at h
      cases h
      refine ⟨[], before, ?_, .faulted write.1 write.2 (.nil before) hwrite⟩
      intro access hmem
      cases hmem
    | ok _ middle =>
      rw [hwrite] at h
      rcases ih h with ⟨trace, last, hwrites, htraced⟩
      have hstep : Does (Access.ofWrite write) before middle := hwrite
      refine ⟨Access.ofWrite write :: trace, last, ?_, htraced.after (.single hstep)⟩
      intro access hmem
      rcases List.mem_cons.mp hmem with rfl | hmem
      · rfl
      · exact hwrites access hmem

end Bank

/-! ## Checking patterns -/

/-- The accesses by which a pattern is written past both caches and read back as `found`. -/
def patternBlock (pattern found : UInt32) : List Access :=
  [.writeWord pattern, .flushSharedCache, .flushDataCache, .readWord found]

/-- The accesses by which patterns are checked, up to the first mismatch, and the answer. -/
inductive Checked : List UInt32 → List Access → Bool → Prop where
  | nil : Checked [] [] true
  | matched (pattern : UInt32) {rest : List UInt32} {accesses : List Access} {passed : Bool}
      (h : Checked rest accesses passed) :
      Checked (pattern :: rest) (patternBlock pattern pattern ++ accesses) passed
  | mismatched {pattern found : UInt32} (rest : List UInt32) (h : found ≠ pattern) :
      Checked (pattern :: rest) (patternBlock pattern found) false

theorem Checked.isWrite_eq_false {patterns : List UInt32} {accesses : List Access} {passed : Bool}
    (h : Checked patterns accesses passed) : ∀ access ∈ accesses, access.isWrite = false := by
  have hblock : ∀ pattern found, ∀ access ∈ patternBlock pattern found,
      access.isWrite = false := by
    simp [patternBlock, Access.isWrite]
  induction h with
  | nil => intro access hmem; cases hmem
  | matched pattern _ ih =>
    intro access hmem
    rcases List.mem_append.mp hmem with hmem | hmem
    · exact hblock pattern pattern access hmem
    · exact ih access hmem
  | mismatched _ _ => exact hblock _ _

/-- A check writes patterns only. -/
theorem Checked.mem_of_writeWord {patterns : List UInt32} {accesses : List Access} {passed : Bool}
    {value : UInt32} (h : Checked patterns accesses passed) (hmem : .writeWord value ∈ accesses) :
    value ∈ patterns := by
  have hblock : ∀ {pattern found}, .writeWord value ∈ patternBlock pattern found →
      value = pattern := by
    simp [patternBlock]
  induction h with
  | nil => cases hmem
  | matched pattern _ ih =>
    rcases List.mem_append.mp hmem with hmem | hmem
    · rw [hblock hmem]
      exact List.mem_cons_self
    · exact List.mem_cons_of_mem _ (ih hmem)
  | mismatched rest _ =>
    rw [hblock hmem]
    exact List.mem_cons_self

/-- A check that passes has found each pattern. -/
theorem Checked.eq_of_passed {patterns : List UInt32} {accesses : List Access}
    (h : Checked patterns accesses true) :
    accesses = patterns.flatMap fun pattern => patternBlock pattern pattern := by
  generalize hpassed : true = passed at h
  induction h with
  | nil => rfl
  | matched pattern _ ih => rw [ih hpassed, List.flatMap_cons]
  | mismatched _ _ => cases hpassed

namespace Bank

/-- A pattern is written past both caches and read back, and what was read decides how to go on. -/
theorem exists_check_cons (pattern : UInt32) (rest : List UInt32) (start : Bank) :
    ∃ found middle, Trail Does start (patternBlock pattern found) middle ∧
      registers.check (pattern :: rest) start =
        (if found = pattern then registers.check rest else pure false) middle :=
  ⟨_, _, .cons rfl (.cons rfl (.cons rfl (.single rfl))), rfl⟩

/-- Checking patterns always comes to an answer. -/
theorem exists_checked (patterns : List UInt32) (start : Bank) :
    ∃ passed accesses final, registers.check patterns start = .ok passed final ∧
      Checked patterns accesses passed ∧ Trail Does start accesses final := by
  induction patterns generalizing start with
  | nil => exact ⟨true, [], start, rfl, .nil, .nil start⟩
  | cons pattern rest ih =>
    rcases exists_check_cons pattern rest start with ⟨found, middle, hblock, hrun⟩
    -- Only a match goes on to the other patterns.
    by_cases hfound : found = pattern
    · rcases ih middle with ⟨passed, accesses, final, hrest, hchecked, htrail⟩
      rw [hfound] at hblock
      rw [hrun, if_pos hfound]
      exact ⟨passed, _, final, hrest, .matched pattern hchecked, hblock.append htrail⟩
    · rw [hrun, if_neg hfound]
      exact ⟨false, _, middle, rfl, .mismatched rest hfound, hblock⟩

end Bank

end Phy
end TimingEye
