import TimingEye.Proofs.Calibration.Calls

/-!
# Calibrating a memory that loses writes

A lossy memory stores each write or drops it, by any rule on everything that has happened to it,
and its reads return its content.  A probe may pass although its first write was dropped, namely
where the word still held the first pattern.  In a row of passing probes this can happen to the
very first write only, because every passing probe leaves the second pattern behind.

* `LossyMemory`, `KeepRule`: the memory and the rules by which it drops writes;
* `LossyMemory.probe_passes_iff`: when a probe passes;
* `LossyMemory.accepted_window_stored`: the window of an accepted setting was really stored.
-/

namespace TimingEye

/-! ## The memory -/

/-- One thing that happens to the memory under test. -/
inductive MemoryEvent where
  | driven (signal : Signal) (value : UInt8)
  | offered (word : UInt32) (kept : Bool)
  | sharedFlushed
  | dataFlushed
  | loaded (word : UInt32)

/-- A rule that keeps or drops a word, given everything that happened before. -/
abbrev KeepRule := List MemoryEvent → UInt32 → Bool

/-- A memory word and everything that happened to it. -/
structure LossyMemory where
  cell : UInt32
  history : List MemoryEvent := []

namespace LossyMemory

def noted (memory : LossyMemory) (event : MemoryEvent) : LossyMemory :=
  { memory with history := memory.history ++ [event] }

/-- Offers a word to the memory, which keeps or drops it. -/
def offer (memory : LossyMemory) (keeps : KeepRule) (word : UInt32) : LossyMemory :=
  let kept := keeps memory.history word
  { memory with cell := if kept then word else memory.cell }.noted (.offered word kept)

/-- The memory as something that can be driven. -/
def registers (keeps : KeepRule) : Registers (StateM LossyMemory) where
  write signal value := modify (·.noted (.driven signal value))
  writeWord word := modify (·.offer keeps word)
  readWord := modifyGet fun memory => (memory.cell, memory.noted (.loaded memory.cell))
  flushSharedCache := modify (·.noted .sharedFlushed)
  flushDataCache := modify (·.noted .dataFlushed)

/-- The memory as timing hardware. -/
def hardware (keeps : KeepRule) : Hardware (StateM LossyMemory) :=
  (registers keeps).hardware

/-! ## Writes and their fate -/

/-- The words that were offered, each with its fate. -/
def offers (events : List MemoryEvent) : List (UInt32 × Bool) :=
  events.filterMap fun event =>
    match event with
    | .offered word kept => some (word, kept)
    | _ => none

/-- From one state to a later one, exactly the given words were offered, with the given fates. -/
def Offered (before : LossyMemory) (fates : List (UInt32 × Bool)) (after : LossyMemory) : Prop :=
  ∃ events, after.history = before.history ++ events ∧ offers events = fates

theorem Offered.trans {first second third : LossyMemory} {early late : List (UInt32 × Bool)}
    (hearly : Offered first early second) (hlate : Offered second late third) :
    Offered first (early ++ late) third := by
  rcases hearly with ⟨events, hevents, rfl⟩
  rcases hlate with ⟨others, hothers, rfl⟩
  refine ⟨events ++ others, ?_, List.filterMap_append⟩
  rw [hothers, hevents, List.append_assoc]

/-- The memory after one pattern has been offered, flushed and loaded. -/
def tried (memory : LossyMemory) (keeps : KeepRule) (word : UInt32) : LossyMemory :=
  let flushed := ((memory.offer keeps word).noted .sharedFlushed).noted .dataFlushed
  flushed.noted (.loaded flushed.cell)

variable {keeps : KeepRule} {before after : LossyMemory}

@[simp] theorem cell_tried (memory : LossyMemory) (word : UInt32) :
    (memory.tried keeps word).cell = if keeps memory.history word then word else memory.cell :=
  rfl

theorem offered_tried (keeps : KeepRule) (memory : LossyMemory) (word : UInt32) :
    Offered memory [(word, keeps memory.history word)] (memory.tried keeps word) := by
  refine ⟨[.offered word (keeps memory.history word), .sharedFlushed, .dataFlushed,
    .loaded (memory.tried keeps word).cell], ?_, rfl⟩
  simp [tried, offer, noted]

theorem check_cons (memory : LossyMemory) (pattern : UInt32) (rest : List UInt32) :
    ((registers keeps).check (pattern :: rest)).run memory =
      if (memory.tried keeps pattern).cell = pattern then
        ((registers keeps).check rest).run (memory.tried keeps pattern)
      else
        (false, memory.tried keeps pattern) := by
  change StateT.run (if (memory.tried keeps pattern).cell = pattern then _ else _)
    (memory.tried keeps pattern) = _
  split <;> rfl

/-! ## Probes -/

/-- What the writes of a probe met with. -/
inductive ProbeFate (before after : LossyMemory) : Bool → Prop where
  /-- The first pattern did not read back. -/
  | firstLost (hoffered : Offered before [(firstPattern, false)] after)
      (hcell : before.cell ≠ firstPattern) : ProbeFate before after false
  /-- The first pattern read back, the second one did not. -/
  | secondLost (first : Bool)
      (hoffered : Offered before [(firstPattern, first), (secondPattern, false)] after) :
      ProbeFate before after false
  /-- Both patterns read back. -/
  | bothFound (first : Bool)
      (hoffered : Offered before [(firstPattern, first), (secondPattern, true)] after)
      (hfirst : first = true ∨ before.cell = firstPattern)
      (hcell : after.cell = secondPattern) : ProbeFate before after true

theorem fate_of_probe {passed : Bool}
    (h : (hardware keeps).Performs (.probe passed) before after) :
    ProbeFate before after passed := by
  have hrun : ((registers keeps).check [firstPattern, secondPattern]).run before =
      (passed, after) := h
  rw [check_cons] at hrun
  have hfirst := offered_tried keeps before firstPattern
  have hsecond := offered_tried keeps (before.tried keeps firstPattern) secondPattern
  -- The probe goes on to the second pattern only if the first one reads back.
  by_cases hread : (before.tried keeps firstPattern).cell = firstPattern
  · rw [if_pos hread, check_cons, cell_tried, hread] at hrun
    have hboth := hfirst.trans hsecond
    cases hkept : keeps (before.tried keeps firstPattern).history secondPattern with
    | true =>
      rw [hkept] at hrun hboth
      cases hrun
      refine .bothFound _ hboth ?_ (by simp [hkept])
      cases hfate : keeps before.history firstPattern with
      | true => exact .inl rfl
      | false => exact .inr (by simpa [hfate] using hread)
    | false =>
      rw [hkept] at hrun hboth
      rw [if_neg Bool.false_ne_true, if_neg firstPattern_ne_secondPattern] at hrun
      cases hrun
      exact .secondLost _ hboth
  · rw [if_neg hread] at hrun
    cases hrun
    cases hfate : keeps before.history firstPattern with
    | true => simp [hfate] at hread
    | false =>
      rw [hfate] at hfirst
      exact .firstLost hfirst (by simpa [hfate] using hread)

/-- A probe passes exactly when its second write was stored and the first pattern was in the word,
from its first write or from before. -/
theorem probe_passes_iff {passed : Bool}
    (h : (hardware keeps).Performs (.probe passed) before after) :
    ∃ fates, Offered before fates after ∧
      (passed = true ↔ (secondPattern, true) ∈ fates ∧
        ((firstPattern, true) ∈ fates ∨ before.cell = firstPattern)) := by
  cases fate_of_probe h with
  | firstLost hoffered hcell => exact ⟨_, hoffered, by simp [firstPattern_ne_secondPattern.symm]⟩
  | secondLost first hoffered => exact ⟨_, hoffered, by simp [firstPattern_ne_secondPattern.symm]⟩
  | bothFound first hoffered hfirst hcell =>
    refine ⟨_, hoffered, fun _ => ⟨by simp, ?_⟩, fun _ => rfl⟩
    rcases hfirst with rfl | hbefore
    · exact .inl (by simp)
    · exact .inr hbefore

/-! ## Rows of passing probes -/

theorem drive_run (memory : LossyMemory) (writes : List (Signal × UInt8)) :
    ((registers keeps).drive writes).run memory =
      ((), { memory with
        history := memory.history ++ writes.map fun (signal, value) => .driven signal value }) := by
  induction writes generalizing memory with
  | nil =>
    change ((), memory) = _
    simp
  | cons write rest ih =>
    change ((registers keeps).drive rest).run (memory.noted (.driven write.1 write.2)) = _
    rw [ih]
    simp [noted]

theorem offered_of_stepPhase {direction : PhaseDirection}
    (h : (hardware keeps).Performs (.stepPhase direction) before after) :
    Offered before [] after ∧ after.cell = before.cell := by
  have hrun : ((registers keeps).drive (stepWrites direction)).run before = ((), after) := h
  rw [drive_run] at hrun
  cases hrun
  exact ⟨⟨_, rfl, rfl⟩, rfl⟩

/-- The fates of a number of probes all of whose writes were stored. -/
def storedProbes (count : Nat) : List (UInt32 × Bool) :=
  (List.replicate count [(firstPattern, true), (secondPattern, true)]).flatten

theorem offered_of_pass {rest : List Call}
    (h : Trail (hardware keeps).Performs before (.probe true :: .stepPhase .null :: rest) after) :
    ∃ middle first, Offered before [(firstPattern, first), (secondPattern, true)] middle ∧
      (first = true ∨ before.cell = firstPattern) ∧ middle.cell = secondPattern ∧
      Trail (hardware keeps).Performs middle rest after := by
  rcases Trail.cons_iff.mp h with ⟨probed, hprobe, hsteps⟩
  rcases Trail.cons_iff.mp hsteps with ⟨middle, hstep, hrest⟩
  rcases offered_of_stepPhase hstep with ⟨hnone, hcell⟩
  cases fate_of_probe hprobe with
  | bothFound first hoffered hfirst hsecond =>
    exact ⟨middle, first, hoffered.trans hnone, hfirst, hcell.trans hsecond, hrest⟩

theorem offered_of_passes {count : Nat} (hcell : before.cell = secondPattern)
    (h : Trail (hardware keeps).Performs before (probeCalls (List.replicate count true)) after) :
    Offered before (storedProbes count) after := by
  -- Every passing probe leaves the second pattern for the next one, which carries the induction.
  induction count generalizing before with
  | zero =>
    cases h
    exact ⟨[], (List.append_nil _).symm, rfl⟩
  | succ count ih =>
    rcases offered_of_pass h with
      ⟨middle, first, hoffered, hfirst, hmiddle, hrest⟩
    -- The word held the second pattern, so the first write cannot have been dropped.
    have hstored : first = true := by
      rcases hfirst with hstored | hstale
      · exact hstored
      · exact absurd (hstale.symm.trans hcell) firstPattern_ne_secondPattern
    subst hstored
    exact hoffered.trans (ih hmiddle hrest)

theorem offered_of_window {count : Nat}
    (h : Trail (hardware keeps).Performs before (probeCalls (List.replicate (count + 1) true))
      after) :
    ∃ first, Offered before
        ([(firstPattern, first), (secondPattern, true)] ++ storedProbes count) after ∧
      (first = true ∨ before.cell = firstPattern) := by
  rcases offered_of_pass h with
    ⟨middle, first, hoffered, hfirst, hmiddle, hrest⟩
  exact ⟨first, hoffered.trans (offered_of_passes hmiddle hrest), hfirst⟩

/-! ## The accepted window -/

/-- The probes of an accepted window come in a row at the accepted setting, and every one of their
writes was stored, except perhaps the very first: that one may have been dropped if the word held
the first pattern already.  Each probe, at whatever time, passes exactly when its second write was
stored and the first pattern was in the word. -/
theorem accepted_window_stored (keeps : KeepRule) (params : Params) (progress : Option Sink)
    (threshold : Threshold) (start : LossyMemory) :
    let run := calibrationRun (hardware keeps) params progress threshold start
    (∀ point, run.1.1 = .ok (.calibrated point) → 1 ≤ point.window.toNat →
      ∃ rejected earlier tail opening closing first,
        rejected.length = point.coarse.toNat ∧ (tail = [] ∨ tail = [false]) ∧
        run.1.2.calls.toList =
          (rejectedCalls rejected ++ settingCalls rejected.length earlier) ++
            (probeCalls (List.replicate point.window.toNat true) ++
              (probeCalls tail ++ List.replicate (point.window.toNat / 2) (.stepPhase .up))) ∧
        Trail (hardware keeps).Performs start
          (rejectedCalls rejected ++ settingCalls rejected.length earlier) opening ∧
        Trail (hardware keeps).Performs opening
          (probeCalls (List.replicate point.window.toNat true)) closing ∧
        Trail (hardware keeps).Performs closing
          (probeCalls tail ++ List.replicate (point.window.toNat / 2) (.stepPhase .up)) run.2 ∧
        Offered opening
          ([(firstPattern, first), (secondPattern, true)] ++
            storedProbes (point.window.toNat - 1)) closing ∧
        (first = true ∨ opening.cell = firstPattern)) ∧
    (∀ passed before after, (hardware keeps).Performs (.probe passed) before after →
      ∃ fates, Offered before fates after ∧
        (passed = true ↔ (secondPattern, true) ∈ fates ∧
          ((firstPattern, true) ∈ fates ∨ before.cell = firstPattern))) := by
  intro run
  refine ⟨?_, fun passed before after hprobe => probe_passes_iff hprobe⟩
  intro point hpoint hwindow
  have hoctet : params.coarseSteps.toNat < 256 := params.coarseSteps.toNat_lt
  rcases exists_course_calibrationRun (hardware keeps) params progress threshold start with
    ⟨events, verdict, hcourse, htrail, hverdict, hcalls⟩
  change run.1.1 = .ok verdict at hverdict
  rw [hverdict] at hpoint
  rcases hcourse.exists_rows with
    ⟨rejected, row, _, haccepted, hlength, rfl, heq⟩ | ⟨_, _, _, _, rfl, _⟩
  · cases hpoint
    have hcoarse : (operatingPoint rejected.length (params.window row)).coarse.toNat =
        rejected.length := UInt8.toNat_ofNat_of_lt' (hlength.trans hoctet)
    have hvalue : (operatingPoint rejected.length (params.window row)).window.toNat =
        params.window row := UInt32.toNat_ofNat_of_lt' haccepted.window_lt
    rw [hvalue] at hwindow ⊢
    rcases params.exists_window_split row with ⟨earlier, tail, hsplit, htail⟩
    have hsetting : settingCalls rejected.length row =
        settingCalls rejected.length earlier ++
          (probeCalls (List.replicate (params.window row) true) ++ probeCalls tail) := by
      conv_lhs => rw [hsplit]
      simp [settingCalls]
    -- The calls fall into those before the window, those of the window and those after it.
    have hparts : calls events =
        (rejectedCalls rejected ++ settingCalls rejected.length earlier) ++
          (probeCalls (List.replicate (params.window row) true) ++
            (probeCalls tail ++ List.replicate (params.window row / 2) (.stepPhase .up))) := by
      rw [heq, hsetting]
      simp only [List.append_assoc]
    rw [hparts] at htrail
    rcases Trail.append_iff.mp htrail with ⟨opening, hbefore, hrest⟩
    rcases Trail.append_iff.mp hrest with ⟨closing, hduring, hafter⟩
    have hcount : params.window row - 1 + 1 = params.window row := Nat.sub_add_cancel hwindow
    have hfates := hduring
    rw [← hcount] at hfates
    rcases offered_of_window hfates with ⟨first, hoffered, hfirst⟩
    exact ⟨rejected, earlier, tail, opening, closing, first, hcoarse.symm, htail,
      hcalls.trans hparts, hbefore, hduring, hafter, hoffered, hfirst⟩
  · cases hpoint

end LossyMemory

end TimingEye
