import TimingEye.Proofs.Calibration.Calls

/-!
# The order of the calls

The calls of a calibration come in a fixed order, setting by setting, and they leave the hardware
at the very operating point that is reported.

* `delaysOf`, `slipsOf`: the delays and the slips among some calls, in order;
* `LeadsTo`: the setting that some calls lead into, as those before each probe do;
* `LeftAt`: the operating point that some calls lead to;
* `calls_of_calibration`: the complete sequence of calls of every calibration.
-/

namespace TimingEye

/-! ## Delays and slips among the calls -/

/-- The taps of a delay line that a call asks for. -/
def Call.delay? (line : DelayLine) : Call → Option UInt8
  | .setDelay other taps => if other = line then some taps else none
  | .stepPhase _ | .slip _ | .probe _ => none

/-- The slips that a call asks for. -/
def Call.slip? : Call → Option SubPhase
  | .slip subPhase => some subPhase
  | .setDelay _ _ | .stepPhase _ | .probe _ => none

/-- All taps that were asked for, in order. -/
def delaysOf (line : DelayLine) (calls : List Call) : List UInt8 :=
  calls.filterMap (Call.delay? line)

/-- All slips that were asked for, in order. -/
def slipsOf (calls : List Call) : List SubPhase :=
  calls.filterMap Call.slip?

@[simp] theorem delaysOf_append (line : DelayLine) (first second : List Call) :
    delaysOf line (first ++ second) = delaysOf line first ++ delaysOf line second := by
  simp [delaysOf]

@[simp] theorem slipsOf_append (first second : List Call) :
    slipsOf (first ++ second) = slipsOf first ++ slipsOf second := by
  simp [slipsOf]

/-- The slips into the settings after the first one, up to the given one. -/
def slipsUpTo (coarse : Nat) : List SubPhase :=
  (List.range coarse).map fun d => SubPhase.ofCoarse (UInt8.ofNat (d + 1))

@[simp] theorem length_slipsUpTo (coarse : Nat) : (slipsUpTo coarse).length = coarse := by
  simp [slipsUpTo]

theorem slipsUpTo_succ (coarse : Nat) :
    slipsUpTo (coarse + 1) =
      slipsUpTo coarse ++ [SubPhase.ofCoarse (UInt8.ofNat (coarse + 1))] := by
  rw [slipsUpTo, List.range_succ, List.map_append]
  rfl

theorem delaysOf_probes (line : DelayLine) (row : List Bool) :
    delaysOf line (probeCalls row) = [] := by
  induction row with
  | nil => rfl
  | cons passed rest ih => simpa [delaysOf, Call.delay?] using ih

theorem slipsOf_probes (row : List Bool) :
    slipsOf (probeCalls row) = [] := by
  induction row with
  | nil => rfl
  | cons passed rest ih => simpa [slipsOf, Call.slip?] using ih

theorem delaysOf_clock_settingCalls (coarse : Nat) (row : List Bool) :
    delaysOf .clock (settingCalls coarse row) = [UInt8.ofNat (coarse / 4)] := by
  simpa [delaysOf, settingCalls, Call.delay?] using delaysOf_probes .clock row

theorem delaysOf_io_settingCalls (coarse : Nat) (row : List Bool) :
    delaysOf .io (settingCalls coarse row) = [0] := by
  simpa [delaysOf, settingCalls, Call.delay?] using delaysOf_probes .io row

theorem slipsOf_settingCalls (coarse : Nat) (row : List Bool) :
    slipsOf (settingCalls coarse row) = [] := by
  simpa [slipsOf, settingCalls, Call.slip?] using slipsOf_probes row

theorem slipsOf_rejectedCalls (rows : List (List Bool)) :
    slipsOf (rejectedCalls rows) = slipsUpTo rows.length := by
  induction rows using List.reverseRecOn with
  | nil => rfl
  | append_singleton rows row ih =>
    have hslip : slipsOf (rejectedSettingCalls rows.length row) =
        [SubPhase.ofCoarse (UInt8.ofNat (rows.length + 1))] := by
      rw [rejectedSettingCalls, slipsOf_append, slipsOf_settingCalls]
      rfl
    calc
      slipsOf (rejectedCalls (rows ++ [row]))
          = slipsOf (rejectedCalls rows) ++ slipsOf (rejectedSettingCalls rows.length row) := by
        rw [rejectedCalls_concat, slipsOf_append]
      _ = slipsUpTo rows.length ++ [SubPhase.ofCoarse (UInt8.ofNat (rows.length + 1))] := by
        rw [ih, hslip]
      _ = slipsUpTo (rows.length + 1) := (slipsUpTo_succ rows.length).symm
      _ = slipsUpTo (rows ++ [row]).length := by
        rw [List.length_append, List.length_singleton]

theorem delaysOf_rejectedCalls (rows : List (List Bool)) :
    delaysOf .clock (rejectedCalls rows) =
        (List.range rows.length).map (fun d => UInt8.ofNat (d / 4)) ∧
      delaysOf .io (rejectedCalls rows) = List.replicate rows.length 0 := by
  induction rows using List.reverseRecOn with
  | nil => exact ⟨rfl, rfl⟩
  | append_singleton rows row ih =>
    rcases ih with ⟨hclock, hio⟩
    have hslip : ∀ line subPhase, delaysOf line [.slip subPhase] = [] := fun _ _ => rfl
    constructor
    · simp [rejectedCalls_concat, rejectedSettingCalls, hclock, hslip, delaysOf_clock_settingCalls,
        List.range_succ]
    · simp [rejectedCalls_concat, rejectedSettingCalls, hio, hslip, delaysOf_io_settingCalls,
        List.replicate_succ']

/-- The delays of a calibration are those of the settings it visits, one after another. -/
theorem Course.delaysOf_calls {params : Params} {events : List Event} {verdict : Verdict}
    (h : Course params events verdict) :
    delaysOf .clock (calls events) =
        (List.range (answerRows (calls events)).length).map (fun d => UInt8.ofNat (d / 4)) ∧
      delaysOf .io (calls events) = List.replicate (answerRows (calls events)).length 0 := by
  rcases h.exists_rows with ⟨rejected, row, _, _, _, _, heq⟩ | ⟨rejected, _, _, _, _, _, _, heq⟩
  · have hups : ∀ line,
        delaysOf line (List.replicate (params.window row / 2) (.stepPhase .up)) = [] := by
      intro line
      exact List.filterMap_replicate_of_none rfl
    rcases delaysOf_rejectedCalls rejected with ⟨hclock, hio⟩
    rw [heq, answerRows_accepted]
    constructor
    · simp [hclock, hups, delaysOf_clock_settingCalls, List.range_succ]
    · simp [hio, hups, delaysOf_io_settingCalls, List.replicate_succ']
  · rw [heq, answerRows_rejectedCalls]
    exact delaysOf_rejectedCalls rejected

/-- Some calls lead into a setting: they slip up to it, and set the delays it asks for. -/
structure LeadsTo (calls : List Call) (coarse : Nat) : Prop where
  slips : slipsOf calls = slipsUpTo coarse
  clockDelay : (delaysOf .clock calls).getLast? = some (UInt8.ofNat (coarse / 4))
  ioDelay : (delaysOf .io calls).getLast? = some 0

theorem leadsTo_settingCalls (rejected : List (List Bool)) (row : List Bool) :
    LeadsTo (rejectedCalls rejected ++ settingCalls rejected.length row) rejected.length := by
  constructor
  case slips =>
    rw [slipsOf_append, slipsOf_rejectedCalls, slipsOf_settingCalls, List.append_nil]
  case clockDelay =>
    rw [delaysOf_append, delaysOf_clock_settingCalls, List.getLast?_concat]
  case ioDelay =>
    rw [delaysOf_append, delaysOf_io_settingCalls, List.getLast?_concat]

/-! ## Steps among the calls -/

theorem up_not_mem_settingCalls (coarse : Nat) (row : List Bool) :
    Call.stepPhase .up ∉ settingCalls coarse row := by
  simp [settingCalls, probeCalls]

theorem up_not_mem_rejectedCalls (rows : List (List Bool)) :
    Call.stepPhase .up ∉ rejectedCalls rows := by
  intro hmem
  rcases List.mem_flatMap.mp hmem with ⟨⟨row, coarse⟩, _, hcall⟩
  rcases List.mem_append.mp hcall with hcall | hcall
  · exact up_not_mem_settingCalls coarse row hcall
  · cases List.mem_singleton.mp hcall

/-! ## Before a probe -/

theorem cut_probeCalls {row : List Bool} {earlier later : List Call} {passed : Bool}
    (h : probeCalls row = earlier ++ .probe passed :: later) :
    ∃ before, earlier = probeCalls before := by
  -- The calls come in pairs, and a probe is the first of its pair.
  induction row generalizing earlier with
  | nil => cases earlier <;> cases h
  | cons first rest ih =>
    rcases earlier with _ | ⟨probe, _ | ⟨step, earlier⟩⟩
    · exact ⟨[], rfl⟩
    · cases h
    · rw [probeCalls_cons] at h
      injection h with hprobe h
      injection h with hstep h
      rcases ih h with ⟨before, rfl⟩
      subst hprobe hstep
      exact ⟨first :: before, rfl⟩

theorem cut_settingCalls {coarse : Nat} {row : List Bool} {earlier later : List Call}
    {passed : Bool} (h : settingCalls coarse row = earlier ++ .probe passed :: later) :
    ∃ before, earlier = settingCalls coarse before := by
  rcases earlier with _ | ⟨clock, _ | ⟨io, earlier⟩⟩
  · cases h
  · cases h
  · rw [settingCalls] at h
    injection h with hclock h
    injection h with hio h
    rcases cut_probeCalls h with ⟨before, rfl⟩
    subst hclock hio
    exact ⟨before, rfl⟩

theorem cut_rejectedCalls {rows : List (List Bool)} {earlier later : List Call} {passed : Bool}
    (h : rejectedCalls rows = earlier ++ .probe passed :: later) :
    ∃ rejected before, rejected.length < rows.length ∧
      earlier = rejectedCalls rejected ++ settingCalls rejected.length before := by
  induction rows using List.reverseRecOn generalizing later with
  | nil => cases earlier <;> cases h
  | append_singleton rows row ih =>
    have hlonger : rows.length < (rows ++ [row]).length := by simp
    rw [rejectedCalls_concat] at h
    -- The probe lies at an earlier setting or at the last one; the slip after it is none.
    rcases Trail.cut_append h with ⟨middle, hrows⟩ | ⟨middle, rfl, hrow⟩
    · rcases ih hrows with ⟨rejected, before, hshorter, hearlier⟩
      exact ⟨rejected, before, hshorter.trans hlonger, hearlier⟩
    · rw [rejectedSettingCalls] at hrow
      rcases Trail.cut_append hrow with ⟨_, hsetting⟩ | ⟨rest, _, hslip⟩
      · rcases cut_settingCalls hsetting with ⟨before, rfl⟩
        exact ⟨rows, before, hlonger, rfl⟩
      · rcases rest with _ | ⟨_, _ | ⟨_, _⟩⟩ <;> cases hslip

/-- The calls before each probe of a calibration lead to a setting. -/
theorem Course.before_probe {params : Params} {events : List Event} {verdict : Verdict}
    {earlier later : List Call} {passed : Bool} (h : Course params events verdict)
    (hcalls : calls events = earlier ++ .probe passed :: later) :
    ∃ coarse < params.coarseSteps.toNat, LeadsTo earlier coarse := by
  rcases h.exists_rows with
    ⟨rejected, row, _, _, hlength, _, heq⟩ | ⟨rejected, sweep, _, hlength, _, _, _, heq⟩
  · rw [heq] at hcalls
    rcases Trail.cut_append hcalls with ⟨_, hsettings⟩ | ⟨middle, _, hups⟩
    · rcases Trail.cut_append hsettings with ⟨_, hrejected⟩ | ⟨_, rfl, hsetting⟩
      · rcases cut_rejectedCalls hrejected with ⟨rejected', before, hshorter, rfl⟩
        exact ⟨rejected'.length, hshorter.trans hlength, leadsTo_settingCalls rejected' before⟩
      · rcases cut_settingCalls hsetting with ⟨before, rfl⟩
        exact ⟨rejected.length, hlength, leadsTo_settingCalls rejected before⟩
    · have hmem : Call.probe passed ∈
          List.replicate (params.window row / 2) (Call.stepPhase .up) := by
        rw [hups]
        exact List.mem_append_right _ List.mem_cons_self
      cases List.eq_of_mem_replicate hmem
  · rw [heq] at hcalls
    rcases cut_rejectedCalls hcalls with ⟨rejected', before, hshorter, rfl⟩
    exact ⟨rejected'.length, hlength ▸ hshorter, leadsTo_settingCalls rejected' before⟩

/-! ## The whole sequence -/

/-- Some calls lead to an operating point: they slip into its setting, leave the clock delay and
the slip lines as it says, and step up as often as it says. -/
structure LeftAt (calls : List Call) (point : Calibrated) : Prop where
  coarse : (slipsOf calls).length = point.coarse.toNat
  clkDelay : (delaysOf .clock calls).getLast? = some point.clkDelay
  subPhase : (slipsOf calls).getLast? = if point.coarse = 0 then none else some point.subPhase
  centeringSteps : calls.count (.stepPhase .up) = point.centeringSteps.toNat

theorem leftAt_operatingPoint {rejected : List (List Bool)} {row : List Bool} {window : Nat}
    (hlength : rejected.length < 256) (hwindow : window < 4294967296) :
    LeftAt (rejectedCalls rejected ++ settingCalls rejected.length row ++
      List.replicate (window / 2) (.stepPhase .up)) (operatingPoint rejected.length window) := by
  have hslips : slipsOf (List.replicate (window / 2) (.stepPhase .up)) = [] :=
    List.filterMap_replicate_of_none rfl
  have hdelays : delaysOf .clock (List.replicate (window / 2) (.stepPhase .up)) = [] :=
    List.filterMap_replicate_of_none rfl
  have hcoarse : (UInt8.ofNat rejected.length).toNat = rejected.length :=
    UInt8.toNat_ofNat_of_lt' hlength
  have hleads := leadsTo_settingCalls rejected row
  -- The steps up are neither slips nor delays.
  constructor
  case coarse =>
    rw [slipsOf_append, hleads.slips, hslips, List.append_nil, length_slipsUpTo]
    exact hcoarse.symm
  case clkDelay =>
    rw [delaysOf_append, hdelays, List.append_nil, hleads.clockDelay, operatingPoint,
      clockTaps_ofNat hlength]
  case subPhase =>
    rw [slipsOf_append, hleads.slips, hslips, List.append_nil]
    cases h : rejected.length with
    | zero => rfl
    | succ last =>
      -- A setting after the first one has a number other than zero, as it fits its octet.
      have hne : UInt8.ofNat (last + 1) ≠ 0 := by
        intro hzero
        rw [h, hzero] at hcoarse
        cases hcoarse
      rw [slipsUpTo_succ, List.getLast?_concat, operatingPoint, if_neg hne]
  case centeringSteps =>
    have hhalf : window / 2 < 4294967296 := (Nat.div_le_self _ 2).trans_lt hwindow
    rw [List.count_append, List.count_append,
      List.count_eq_zero.mpr (up_not_mem_rejectedCalls rejected),
      List.count_eq_zero.mpr (up_not_mem_settingCalls rejected.length row),
      List.count_replicate_self, Nat.zero_add, operatingPoint,
      UInt32.toNat_ofNat_of_lt' hhalf]

section

variable {σ : Type} (hardware : Hardware (StateM σ)) (params : Params)
  (progress : Option Sink) (threshold : Threshold) (start : σ)

/-- The complete sequence of calls of every calibration.  An exhausted one rejects every setting
and never steps up.  A successful one rejects the settings before the one it accepts, steps up by
half of the window there, and leaves the hardware at the operating point it reports. -/
theorem calls_of_calibration :
    let run := (calibrationRun hardware params progress threshold start).1
    let calls := run.2.calls.toList
    (∃ verdict, run.1 = .ok verdict) ∧
    (∀ point, run.1 = .ok (.calibrated point) →
      ∃ rejected row, answerRows calls = rejected ++ [row] ∧
        rejected.length = point.coarse.toNat ∧ rejected.length < params.coarseSteps.toNat ∧
        calls = rejectedCalls rejected ++ settingCalls rejected.length row ++
          List.replicate (point.window.toNat / 2) (.stepPhase .up) ∧
        LeftAt calls point) ∧
    (∀ sweep, run.1 = .ok (.exhausted sweep) →
      (answerRows calls).length = params.coarseSteps.toNat ∧
      calls = rejectedCalls (answerRows calls) ∧ Call.stepPhase .up ∉ calls) ∧
    (params.coarseSteps = 0 → calls = []) := by
  intro run calls
  have hoctet : params.coarseSteps.toNat < 256 := params.coarseSteps.toNat_lt
  rcases exists_course_calibrationRun hardware params progress threshold start with
    ⟨events, verdict, hcourse, _, hverdict, hcalls⟩
  change run.1 = .ok verdict at hverdict
  change calls = _ at hcalls
  refine ⟨⟨verdict, hverdict⟩, ?_⟩
  rcases hcourse.exists_rows with
    ⟨rejected, row, _, haccepted, hlength, rfl, heq⟩ |
    ⟨rejected, sweep, _, hlength, rfl, _, _, heq⟩
  · have hbound := haccepted.window_lt
    have hcoarse : (UInt8.ofNat rejected.length).toNat = rejected.length :=
      UInt8.toNat_ofNat_of_lt' (hlength.trans hoctet)
    have hwindow : (UInt32.ofNat (params.window row)).toNat = params.window row :=
      UInt32.toNat_ofNat_of_lt' hbound
    rw [hverdict, hcalls, heq]
    refine ⟨?_, ?_, ?_⟩
    · intro point hpoint
      cases hpoint
      refine ⟨rejected, row, answerRows_accepted rejected row _, hcoarse.symm, hlength, ?_,
        leftAt_operatingPoint (hlength.trans hoctet) hbound⟩
      simp only [operatingPoint, hwindow]
    · intro sweep hsweep
      cases hsweep
    · intro hzero
      rw [hzero] at hlength
      cases hlength
  · rw [hverdict, hcalls, heq, answerRows_rejectedCalls]
    refine ⟨?_, ?_, ?_⟩
    · intro point hpoint
      cases hpoint
    · intro _ _
      exact ⟨hlength, rfl, up_not_mem_rejectedCalls rejected⟩
    · intro hzero
      rw [hzero] at hlength
      rw [List.length_eq_zero_iff.mp hlength]
      rfl

end

end TimingEye
