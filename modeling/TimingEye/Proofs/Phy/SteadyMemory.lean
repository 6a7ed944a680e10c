import TimingEye.Proofs.Calibration.Uniform
import TimingEye.Proofs.Phy.ProbeTiming
import TimingEye.Proofs.Phy.Room

/-!
# Calibrating a steady memory

A memory is steady if the clock delay alone decides whether it keeps a write.  All probes at a
setting then have the same answer, whatever the word holds, and the verdict of a calibration is
known in advance.

* `Retention.keeps`, `Retention.firstKept`: where a memory keeps writes, and from which setting on;
* `Bank.answer_of_probe`: the answer of a probe;
* `Params.forecast`: the verdict, worked out from the limits and the memory;
* `forecast_of_fresh_bank`: every calibration of a fresh bank ends with it.
-/

namespace TimingEye

/-! ## Steady memories -/

namespace Retention

/-- Whether a write is kept at some clock delay. -/
def keeps (retention : Retention) (taps : Nat) : Bool :=
  (retention.decide taps).1

/-- What becomes of a write has no influence on the writes after it. -/
def Steady (retention : Retention) : Prop :=
  ∀ taps, (retention.decide taps).2 = retention

theorem steady_of_unscripted {retention : Retention}
    (h : ∀ runs rest, retention ≠ .scripted runs rest) : retention.Steady := by
  intro taps
  cases retention with
  | scripted runs rest => exact absurd rfl (h runs rest)
  | _ => rfl

/-- The first coarse setting at which writes are kept, if there is one. -/
def firstKept : Retention → Option Nat
  | .healthy => some 0
  | .stuck => none
  | .eye lo hi => if lo ≤ hi then some (4 * lo) else none
  | .scripted _ _ => none

theorem isLeast_firstKept {retention : Retention} {coarse : Nat}
    (h : retention.firstKept = some coarse) :
    IsLeast {d | retention.keeps (d / 4) = true} coarse := by
  cases retention with
  | healthy =>
    cases h
    exact ⟨rfl, fun d _ => Nat.zero_le d⟩
  | eye lo hi =>
    by_cases hopen : lo ≤ hi
    · have hcoarse : 4 * lo = coarse := by
        simpa [firstKept, hopen] using h
      subst hcoarse
      constructor
      · simpa [keeps, decide_eye] using hopen
      · intro d hd
        have hlo : lo ≤ d / 4 ∧ d / 4 ≤ hi := by
          simpa [keeps, decide_eye] using hd
        omega
    · simp [firstKept, hopen] at h
  | stuck => cases h
  | scripted runs rest => cases h

theorem keeps_eq_false_of_firstKept {retention : Retention}
    (hunscripted : ∀ runs rest, retention ≠ .scripted runs rest) (h : retention.firstKept = none)
    (taps : Nat) : retention.keeps taps = false := by
  cases retention with
  | healthy => cases h
  | stuck => rfl
  | eye lo hi =>
    by_cases hopen : lo ≤ hi
    · simp [firstKept, hopen] at h
    · have hnever : ¬(lo ≤ taps ∧ taps ≤ hi) := fun hboth => hopen (hboth.1.trans hboth.2)
      simpa [keeps, decide_eye] using hnever
  | scripted runs rest => exact absurd rfl (hunscripted runs rest)

theorem firstKept_of_isLeast {retention : Retention} {coarse : Nat}
    (hunscripted : ∀ runs rest, retention ≠ .scripted runs rest)
    (h : IsLeast {d | retention.keeps (d / 4) = true} coarse) :
    retention.firstKept = some coarse := by
  cases hfirst : retention.firstKept with
  | none =>
    have hlost := keeps_eq_false_of_firstKept hunscripted hfirst (coarse / 4)
    cases h.1.symm.trans hlost
  | some first => exact congrArg some ((isLeast_firstKept hfirst).unique h)

end Retention

/-! ## The verdict in advance -/

namespace Params

/-- The verdict that a steady memory leads to. -/
def forecast (params : Params) (retention : Retention) : Verdict :=
  if params.coarseSteps = 0 then
    .exhausted { coarseSteps := 0, longestRun := 0 }
  else if params.acceptWindow = 0 then
    .calibrated (operatingPoint 0 (if retention.keeps 0 then params.probes.toNat else 0))
  else if params.acceptWindow ≤ params.probes then
    match retention.firstKept with
    | some coarse =>
      if coarse < params.coarseSteps.toNat then
        .calibrated (operatingPoint coarse params.probes.toNat)
      else
        .exhausted { coarseSteps := params.coarseSteps, longestRun := 0 }
    | none => .exhausted { coarseSteps := params.coarseSteps, longestRun := 0 }
  else
    .exhausted {
      coarseSteps := params.coarseSteps
      longestRun :=
        if ∃ d < params.coarseSteps.toNat, retention.keeps (d / 4) = true then params.probes
        else 0 }

end Params

namespace Verdict

/-- The steps taken towards the middle of the window. -/
def stepsUp : Verdict → UInt32
  | calibrated point => point.centeringSteps
  | exhausted _ => 0

end Verdict

/-- The steps up among the calls are those of the verdict. -/
theorem Course.count_up {params : Params} {events : List Event} {verdict : Verdict}
    (h : Course params events verdict) :
    (calls events).count (.stepPhase .up) = verdict.stepsUp.toNat := by
  rcases h.exists_rows with
    ⟨rejected, row, _, haccepted, hlength, rfl, heq⟩ | ⟨rejected, _, _, _, rfl, _, _, heq⟩
  · have hoctet : rejected.length < 256 := hlength.trans params.coarseSteps.toNat_lt
    rw [heq]
    exact (leftAt_operatingPoint hoctet haccepted.window_lt).centeringSteps
  · rw [heq]
    exact List.count_eq_zero.mpr (up_not_mem_rejectedCalls rejected)

/-- A calibration that visits no setting makes no calls. -/
theorem Course.calls_eq_nil {params : Params} {events : List Event} {verdict : Verdict}
    (h : Course params events verdict) (hnone : answerRows (calls events) = []) :
    calls events = [] := by
  rcases h.exists_rows with ⟨rejected, row, _, _, _, _, heq⟩ | ⟨rejected, _, _, _, _, _, _, heq⟩
  · rw [heq, answerRows_accepted] at hnone
    exact absurd hnone (List.concat_ne_nil row rejected)
  · rw [heq, answerRows_rejectedCalls] at hnone
    rw [heq, hnone]
    rfl

/-- A calibration that may visit a setting visits one. -/
theorem Course.visited_pos {params : Params} {events : List Event} {verdict : Verdict}
    (h : Course params events verdict) (hsteps : params.coarseSteps ≠ 0) :
    0 < (answerRows (calls events)).length := by
  rcases h.exists_rows with ⟨rejected, row, _, _, _, _, heq⟩ |
    ⟨rejected, _, _, hlength, _, _, _, heq⟩
  · rw [heq, answerRows_accepted, List.length_append]
    exact Nat.succ_pos _
  · rw [heq, answerRows_rejectedCalls, hlength]
    apply Nat.pos_of_ne_zero
    intro hnone
    exact hsteps (UInt8.toNat_inj.mp hnone)

namespace UniformOutcome

variable {params : Params} {retention : Retention} {visited : Nat} {verdict : Verdict}

theorem visited_eq {answer : Nat → Bool} (h : UniformOutcome params answer visited verdict) :
    verdict.visited = visited := by
  cases h with
  | accepted coarse hlt _ _ =>
    have hoctet : coarse < 256 := hlt.trans params.coarseSteps.toNat_lt
    exact congrArg (· + 1) (UInt8.toNat_ofNat_of_lt' hoctet)
  | exhausted sweep _ hsteps _ => exact congrArg UInt8.toNat hsteps

/-- Where a setting is accepted, it is the first one at which writes are kept, unless any window is
long enough. -/
theorem forecast_of_accepted {coarse : Nat}
    (hunscripted : ∀ runs rest, retention ≠ .scripted runs rest)
    (hlt : coarse < params.coarseSteps.toNat)
    (hbefore : ∀ d < coarse,
      params.uniformWindow (retention.keeps (d / 4)) < params.acceptWindow.toNat)
    (haccepted : params.acceptWindow.toNat ≤ params.uniformWindow (retention.keeps (coarse / 4))) :
    params.forecast retention = .calibrated
      (operatingPoint coarse (params.uniformWindow (retention.keeps (coarse / 4)))) := by
  have hsteps : params.coarseSteps ≠ 0 := by
    intro hnone
    rw [hnone] at hlt
    cases hlt
  rw [Params.forecast, if_neg hsteps]
  by_cases haccept : params.acceptWindow = 0
  · -- Any window is long enough, even at the first setting.
    have hfirst : coarse = 0 := by
      by_contra hlater
      have hshort := hbefore 0 (Nat.pos_of_ne_zero hlater)
      rw [haccept] at hshort
      cases hshort
    subst hfirst
    rw [if_pos haccept]
    rfl
  · have hpositive : 0 < params.acceptWindow.toNat := by
      apply Nat.pos_of_ne_zero
      intro hnone
      exact haccept (UInt32.toNat_inj.mp hnone)
    rcases (Params.le_uniformWindow_iff hpositive).mp haccepted with ⟨hkept, hprobes⟩
    -- An earlier setting that keeps writes would have been accepted before this one.
    have hleast : IsLeast {d | retention.keeps (d / 4) = true} coarse := by
      refine ⟨hkept, ?_⟩
      intro d hd
      by_contra hearlier
      have hshort := hbefore d (Nat.lt_of_not_le hearlier)
      have hlong := (Params.le_uniformWindow_iff hpositive).mpr ⟨hd, hprobes⟩
      exact absurd hlong (Nat.not_le_of_lt hshort)
    have hfirst := Retention.firstKept_of_isLeast hunscripted hleast
    rw [if_neg haccept, if_pos (UInt32.le_iff_toNat_le.mpr hprobes), hfirst, hkept]
    exact if_pos hlt

/-- Where no setting is accepted, none is visited, or none keeps writes, or the probes are not
enough for any. -/
theorem forecast_of_exhausted {sweep : Exhausted}
    (hbefore : ∀ d < params.coarseSteps.toNat,
      params.uniformWindow (retention.keeps (d / 4)) < params.acceptWindow.toNat)
    (hsteps : sweep.coarseSteps = params.coarseSteps)
    (hlongest : sweep.longestRun.toNat =
      if ∃ d < params.coarseSteps.toNat, retention.keeps (d / 4) = true then params.probes.toNat
      else 0) : params.forecast retention = .exhausted sweep := by
  have hsweep : ∀ longest : UInt32, sweep.longestRun.toNat = longest.toNat →
      Verdict.exhausted { coarseSteps := params.coarseSteps, longestRun := longest } =
        Verdict.exhausted sweep := by
    intro longest hruns
    rw [← hsteps, ← UInt32.toNat_inj.mp hruns]
  rw [Params.forecast]
  by_cases hnone : params.coarseSteps = 0
  · have hruns : sweep.longestRun.toNat = (0 : UInt32).toNat := by
      simpa [hnone] using hlongest
    have hverdict := hsweep 0 hruns
    rw [hnone] at hverdict
    rw [if_pos hnone]
    exact hverdict
  · have hsome : 0 < params.coarseSteps.toNat := by
      apply Nat.pos_of_ne_zero
      intro heq
      exact hnone (UInt8.toNat_inj.mp heq)
    have hpositive : 0 < params.acceptWindow.toNat := (Nat.zero_le _).trans_lt (hbefore 0 hsome)
    have haccept : params.acceptWindow ≠ 0 := by
      intro haccept
      rw [haccept] at hpositive
      cases hpositive
    rw [if_neg hnone, if_neg haccept]
    by_cases hprobes : params.acceptWindow ≤ params.probes
    · -- A setting that keeps writes would have been accepted.
      have hlost : ∀ d < params.coarseSteps.toNat, ¬retention.keeps (d / 4) = true := by
        intro d hd hkept
        have hlong := (Params.le_uniformWindow_iff hpositive).mpr
          ⟨hkept, UInt32.le_iff_toNat_le.mp hprobes⟩
        exact absurd hlong (Nat.not_le_of_lt (hbefore d hd))
      have hruns : sweep.longestRun.toNat = (0 : UInt32).toNat := by
        rw [hlongest]
        apply if_neg
        rintro ⟨d, hd, hkept⟩
        exact hlost d hd hkept
      rw [if_pos hprobes]
      cases hfirst : retention.firstKept with
      | none => exact hsweep 0 hruns
      | some coarse =>
        have hkept := (Retention.isLeast_firstKept hfirst).1
        have hbeyond : ¬coarse < params.coarseSteps.toNat := by
          intro hlt
          exact hlost coarse hlt hkept
        simpa [hbeyond] using hsweep 0 hruns
    · rw [if_neg hprobes]
      apply hsweep
      rw [hlongest]
      split <;> rfl

/-- The answers of a steady memory lead to the verdict that was worked out. -/
theorem forecast_eq (hunscripted : ∀ runs rest, retention ≠ .scripted runs rest)
    (h : UniformOutcome params (fun d => retention.keeps (d / 4)) visited verdict) :
    params.forecast retention = verdict := by
  cases h with
  | accepted coarse hlt hbefore haccepted =>
    exact forecast_of_accepted hunscripted hlt hbefore haccepted
  | exhausted sweep hbefore hsteps hlongest => exact forecast_of_exhausted hbefore hsteps hlongest

end UniformOutcome

namespace Phy

/-! ## Probes of a steady memory -/

namespace Bank

/-- The memory of a bank is as given, and no answers are forced upon its reads. -/
structure Holds (retention : Retention) (bank : Bank) : Prop where
  retention : bank.retention = retention
  forced : bank.forced = []

variable {retention : Retention} {before after : Bank}

theorem Holds.of_does {access : Access} (hsteady : retention.Steady) (h : before.Holds retention)
    (hdoes : Does access before after) : after.Holds retention := by
  cases access with
  | write signal value =>
    have hwritten : Written signal value before after := written_of_write hdoes
    exact ⟨hwritten.same.retention.trans h.retention, hwritten.same.forced.trans h.forced⟩
  | writeWord value =>
    cases hdoes
    refine ⟨?_, h.forced⟩
    change (before.retention.decide _).2 = retention
    rw [h.retention, hsteady]
  | readWord value =>
    cases hdoes
    refine ⟨h.retention, ?_⟩
    change before.forced.tail = []
    rw [h.forced]
    rfl
  | flushSharedCache =>
    cases hdoes
    exact ⟨h.retention, h.forced⟩
  | flushDataCache =>
    cases hdoes
    exact ⟨h.retention, h.forced⟩

theorem Holds.of_trail {trace : List Access} (hsteady : retention.Steady)
    (h : before.Holds retention) (htrail : Trail Does before trace after) :
    after.Holds retention := by
  induction htrail with
  | nil bank => exact h
  | cons hstep _ ih => exact ih (h.of_does hsteady hstep)

theorem Holds.of_calls {calls : List Call} (hsteady : retention.Steady)
    (h : before.Holds retention) (htrail : Trail hardware.Acts before calls after) :
    after.Holds retention := by
  induction htrail with
  | nil bank => exact h
  | cons hstep _ ih =>
    rcases exists_uses hstep with ⟨_, _, haccesses⟩
    exact ih (h.of_trail hsteady haccesses)

/-- A pattern that is tried is found if it is kept, or if the word held it already. -/
theorem exists_check_cons_of_holds (hsteady : retention.Steady) (h : before.Holds retention)
    (pattern : UInt32) (rest : List UInt32) :
    ∃ middle, registers.check (pattern :: rest) before =
        (if middle.cell = pattern then registers.check rest else pure false) middle ∧
      middle.cell = (if retention.keeps before.clockTaps.toNat then pattern else before.cell) ∧
      middle.Holds retention ∧ middle.clockTaps = before.clockTaps := by
  rcases exists_check_cons pattern rest before with ⟨found, middle, htrail, hrun⟩
  have hholds := h.of_trail hsteady htrail
  have htiming : middle.timing = before.timing := by
    apply timing_of_trail htrail
    simp [patternBlock, Access.isWrite]
  have htaps : middle.clockTaps = before.clockTaps := by
    have hmeter := congrFun (congrArg Timing.meter htiming) (.taps .clock)
    exact UInt8.toNat_inj.mp hmeter
  rcases Trail.cons_iff.mp htrail with ⟨_, hwrite, hflushes⟩
  rcases Trail.cons_iff.mp hflushes with ⟨_, hshared, hflush⟩
  rcases Trail.cons_iff.mp hflush with ⟨_, hdata, hload⟩
  rcases Trail.cons_iff.mp hload with ⟨_, hread, hnil⟩
  have hcell : middle.cell =
      if before.retention.keeps before.clockTaps.toNat then pattern else before.cell := by
    cases hwrite
    cases hshared
    cases hdata
    cases hread
    cases hnil
    rfl
  -- What is read is the word itself, since no answer is forced.
  have hfound : found = middle.cell := by
    cases hwrite
    cases hshared
    cases hdata
    cases hread
    cases hnil
    change (before.forced.head?.join).getD _ = _
    rw [h.forced]
    rfl
  rw [h.retention] at hcell
  rw [hfound] at hrun
  exact ⟨middle, hrun, hcell, hholds, htaps⟩

/-- A probe passes exactly where the memory keeps writes, whatever the word held before. -/
theorem answer_of_probe {passed : Bool} (hsteady : retention.Steady) (h : before.Holds retention)
    (hprobe : hardware.Acts (.probe passed) before after) :
    passed = retention.keeps before.clockTaps.toNat := by
  have hrun : registers.check [firstPattern, secondPattern] before = .ok passed after := hprobe
  rcases exists_check_cons_of_holds hsteady h firstPattern [secondPattern] with
    ⟨middle, hfirst, hfirstCell, hmiddle, htaps⟩
  rcases exists_check_cons_of_holds hsteady hmiddle secondPattern [] with
    ⟨last, hsecond, hsecondCell, _, _⟩
  rw [htaps] at hsecondCell
  rw [hfirst] at hrun
  cases hkeeps : retention.keeps before.clockTaps.toNat with
  | true =>
    have hread : middle.cell = firstPattern := by
      simpa [hkeeps] using hfirstCell
    have hread' : last.cell = secondPattern := by
      simpa [hkeeps] using hsecondCell
    rw [if_pos hread, hsecond, if_pos hread'] at hrun
    cases hrun
    rfl
  | false =>
    -- The word stays what it was, and cannot be both patterns.
    have hsame : last.cell = middle.cell := by
      simpa [hkeeps] using hsecondCell
    by_cases hread : middle.cell = firstPattern
    · have hlost : last.cell ≠ secondPattern := by
        intro hfound
        exact firstPattern_ne_secondPattern (hread.symm.trans (hsame.symm.trans hfound))
      rw [if_pos hread, hsecond, if_neg hlost] at hrun
      cases hrun
      rfl
    · rw [if_neg hread] at hrun
      cases hrun
      rfl

/-- In a calibration of a steady memory each probe is answered by its setting. -/
theorem answeredBy_of_course {params : Params} {events : List Event} {verdict : Verdict}
    {start final : Bank} (hcourse : Course params events verdict) (hrest : start.timing.AtRest)
    (hsteady : retention.Steady) (h : start.Holds retention)
    (htrail : Trail hardware.Acts start (calls events) final) :
    AnsweredBy (fun d => retention.keeps (d / 4)) (calls events) := by
  intro earlier passed later hcut
  rw [hcut] at htrail
  rcases Trail.append_iff.mp htrail with ⟨bank, hearlier, hprobe⟩
  rcases Trail.cons_iff.mp hprobe with ⟨_, hpassed, _⟩
  have htimed := timedAt_before_probe hcourse hcut hrest hearlier
  have hanswer := answer_of_probe hsteady (h.of_calls hsteady hearlier) hpassed
  rwa [htimed.clockTaps] at hanswer

/-- The delays of a bank after all calls are those of the last setting. -/
theorem delays_of_course {params : Params} {events : List Event} {verdict : Verdict}
    {start final : Bank} (hcourse : Course params events verdict) (hrest : start.timing.AtRest)
    (htrail : Trail hardware.Acts start (calls events) final)
    (hvisited : 0 < (answerRows (calls events)).length) :
    final.clockTaps.toNat = ((answerRows (calls events)).length - 1) / 4 ∧ final.ioTaps = 0 := by
  rcases hcourse.delaysOf_calls with ⟨hclock, hio⟩
  have hsettings := hcourse.withinLimits.settings
  have hoctet := params.coarseSteps.toNat_lt
  generalize (answerRows (calls events)).length = visited at *
  obtain ⟨last, rfl⟩ : ∃ last, visited = last + 1 := ⟨visited - 1, by omega⟩
  have hclockLast : (delaysOf .clock (calls events)).getLast? = some (UInt8.ofNat (last / 4)) := by
    rw [hclock, List.range_succ, List.map_append]
    exact List.getLast?_concat
  have hioLast : (delaysOf .io (calls events)).getLast? = some 0 := by
    rw [hio, List.replicate_succ']
    exact List.getLast?_concat
  have htiming := (timing_of_calls hrest htrail).1
  rcases Timing.delayLine_afterAll start.timing hclockLast with ⟨hctaps, _, _⟩
  rcases Timing.delayLine_afterAll start.timing hioLast with ⟨hitaps, _, _⟩
  rw [← htiming] at hctaps hitaps
  have hquarter : last / 4 < 256 := by omega
  constructor
  · exact hctaps.trans (UInt8.toNat_ofNat_of_lt' hquarter)
  · exact UInt8.toNat_inj.mp hitaps

end Bank

/-! ## Calibrations of a fresh bank -/

/-- Every calibration of a fresh bank with a steady memory ends with the verdict that was worked out,
and each setting is answered alike at all its probes. -/
theorem exists_course_of_fresh (params : Params) {retention : Retention} (cell : UInt32)
    (transcript : Transcript) (hunscripted : ∀ runs rest, retention ≠ .scripted runs rest)
    (hcount : params.coarseSteps.toNat * params.probes.toNat < 4294967296) :
    ∃ events final, Course params events (params.forecast retention) ∧
      Trail Bank.hardware.Acts { retention, cell } (calls events) final ∧
      (calibrate params).watch Bank.hardware transcript { retention, cell } =
        .ok (.ok (params.forecast retention), events.foldl Transcript.seen transcript) final ∧
      answerRows (calls events) = (List.range (params.forecast retention).visited).map
        (fun d => params.uniformRow (retention.keeps (d / 4))) := by
  have hsteady := Retention.steady_of_unscripted hunscripted
  have hrest := Bank.atRest_of_fresh retention cell
  have hroom := Bank.hasRoomFor_of_fresh retention cell hcount
  rcases Bank.exists_course_of_room params transcript hrest hroom with
    ⟨events, verdict, final, _, hcourse, htrail, hrun⟩
  have hanswers := Bank.answeredBy_of_course hcourse hrest hsteady ⟨rfl, rfl⟩ htrail
  rcases hcourse.uniform hanswers with ⟨visited, houtcome, hrows⟩
  obtain rfl : params.forecast retention = verdict := houtcome.forecast_eq hunscripted
  obtain rfl : (params.forecast retention).visited = visited := houtcome.visited_eq
  exact ⟨events, final, hcourse, htrail, hrun, hrows⟩

/-- Every calibration of a fresh bank with a steady memory ends with the verdict that was worked
out.  It leaves the taps of the last setting it visited, the steps up of the verdict, and one null
step for each probe; and each setting is probed as often as its answer asks for. -/
theorem forecast_of_fresh_bank (params : Params) (retention : Retention) (cell : UInt32)
    (transcript : Transcript) (hunscripted : ∀ runs rest, retention ≠ .scripted runs rest)
    (hcount : params.coarseSteps.toNat * params.probes.toNat < 4294967296) :
    let verdict := params.forecast retention
    ∃ made seen final,
      (calibrate params).watch Bank.hardware transcript { retention, cell } =
        .ok (.ok verdict, seen) final ∧
      seen.calls.toList = transcript.calls.toList ++ made ∧
      (params.coarseSteps = 0 → final = { retention, cell }) ∧
      final.clockTaps.toNat = (verdict.visited - 1) / 4 ∧ final.ioTaps = 0 ∧
      final.upSteps = verdict.stepsUp ∧ final.nullSteps.toNat = probeCount made ∧
      answerRows made =
        (List.range verdict.visited).map (fun d => params.uniformRow (retention.keeps (d / 4))) ∧
      probeCount made = ((List.range verdict.visited).map fun d =>
        params.uniformProbes (retention.keeps (d / 4))).sum := by
  intro verdict
  have hrest := Bank.atRest_of_fresh retention cell
  obtain ⟨events, final, hcourse, htrail, hrun, hrows⟩ :=
    exists_course_of_fresh params cell transcript hunscripted hcount
  have hlimits := hcourse.withinLimits
  have htiming := (Bank.timing_of_calls hrest htrail).1
  have hmeter : ∀ direction, final.timing.meter (.steps direction) =
      (calls events).count (.stepPhase direction) := by
    intro direction
    rw [htiming, Timing.steps_afterAll]
    cases direction <;> exact Nat.zero_add _
  have hlength : (answerRows (calls events)).length = verdict.visited := by
    rw [hrows, List.length_map, List.length_range]
  have huntouched : verdict.visited = 0 → final = { retention, cell } := by
    intro hnone
    have hcalls := hcourse.calls_eq_nil (List.length_eq_zero_iff.mp (hlength.trans hnone))
    rw [hcalls] at htrail
    cases htrail
    rfl
  have hidle : params.coarseSteps = 0 → final = { retention, cell } := by
    intro hnone
    have hsettings := hlimits.settings
    rw [hlength, hnone] at hsettings
    exact huntouched (Nat.le_zero.mp hsettings)
  have hdelays : final.clockTaps.toNat = (verdict.visited - 1) / 4 ∧ final.ioTaps = 0 := by
    rcases Nat.eq_zero_or_pos verdict.visited with hnone | hsome
    · rw [huntouched hnone, hnone]
      exact ⟨rfl, rfl⟩
    · have hreached := Bank.delays_of_course hcourse hrest htrail (hlength ▸ hsome)
      rwa [hlength] at hreached
  refine ⟨calls events, _, final, hrun, Transcript.calls_foldl_seen events transcript, hidle,
    hdelays.1, hdelays.2, ?_, ?_, hrows, hlimits.probeCount_of_uniform hrows⟩
  · exact UInt32.toNat_inj.mp ((hmeter .up).trans hcourse.count_up)
  · exact (hmeter .null).trans hlimits.nullSteps

/-- A calibration of a fresh bank whose memory keeps writes from three to five taps ends at the
first setting with three taps. -/
theorem forecast_of_open_eye :
    (∀ runs rest, Retention.eye 3 5 ≠ .scripted runs rest) ∧
    Params.standard.coarseSteps.toNat * Params.standard.probes.toNat < 4294967296 ∧
    ∃ seen final,
      (calibrate .standard).watch Bank.hardware {} { retention := .eye 3 5, cell := firstPattern } =
        .ok (.ok (.calibrated (operatingPoint 12 64)), seen) final ∧
      final.clockTaps.toNat = 3 ∧ final.ioTaps = 0 ∧ final.upSteps = 32 ∧
      final.nullSteps.toNat = 832 := by
  have hunscripted : ∀ runs rest, Retention.eye 3 5 ≠ .scripted runs rest := by
    intro runs rest h
    cases h
  have hcount : Params.standard.coarseSteps.toNat * Params.standard.probes.toNat < 4294967296 := by
    decide
  rcases forecast_of_fresh_bank .standard (.eye 3 5) firstPattern {} hunscripted hcount with
    ⟨made, seen, final, hrun, _, _, hclock, hio, hups, hnulls, _, hprobes⟩
  have hverdict : Params.standard.forecast (.eye 3 5) = .calibrated (operatingPoint 12 64) := by
    decide
  rw [hverdict] at hrun hclock hups hprobes
  have hsum : ((List.range (Verdict.calibrated (operatingPoint 12 64)).visited).map fun d =>
      Params.standard.uniformProbes ((Retention.eye 3 5).keeps (d / 4))).sum = 832 := by
    decide
  exact ⟨hunscripted, hcount, seen, final, hrun, hclock, hio, hups,
    hnulls.trans (hprobes.trans hsum)⟩

end Phy
end TimingEye
