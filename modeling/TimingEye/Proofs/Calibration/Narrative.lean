import TimingEye.Proofs.Calibration.Reporting

/-!
# What a calibration tells

A calibration tells its story twice: in its progress text, a line for each setting it visits, and
in its log, a record for each of them and one for the verdict.  Both are known from the answers.

* `probeMarks`, `settingLine`, `progressText`: the progress text of some rows of answers;
* `settingRecord`, `Verdict.record`, `logRecords`: the records of such rows and of a verdict;
* `Course.told`: every calibration tells just that.
-/

namespace TimingEye

/-! ## The progress text -/

/-- The marks of a setting: one for every second probe, the first probe having none. -/
def probeMarks (row : List Bool) : List Char :=
  (List.range (row.length / 2)).map fun k => if row[2 * k + 1]? = some true then '0' else '-'

/-- The slips of a setting, as its two low bits. -/
def slipDigits (coarse : Nat) : String :=
  truthDigit (coarse.testBit 0) ++ ", " ++ truthDigit (coarse.testBit 1)

/-- The line of a setting: where it lies, how its probes were answered, and its window. -/
def settingLine (params : Params) (coarse : Nat) (row : List Bool) : String :=
  decimal (coarse / 4) ++ "," ++ slipDigits coarse ++ " |" ++ String.ofList (probeMarks row) ++ "| "
    ++ decimal (params.window row) ++ "    \n"

/-- The lines of the settings that were visited, from the first setting on. -/
def progressText (params : Params) (rows : List (List Bool)) : String :=
  String.join (rows.zipIdx.map fun (row, coarse) => settingLine params coarse row)

theorem progressText_concat (params : Params) (rows : List (List Bool)) (row : List Bool) :
    progressText params (rows ++ [row]) =
      progressText params rows ++ settingLine params rows.length row := by
  simp [progressText, List.zipIdx_append]

/-! ## The log -/

/-- The record of a setting.  It carries the numbers of its line, and the setting's own. -/
def settingRecord (params : Params) (coarse : Nat) (row : List Bool) : Record where
  severity := .debug
  target := calibrationTarget
  message :=
    "coarse " ++ decimal coarse ++ ": clk delay " ++ decimal (coarse / 4)
      ++ ", slip " ++ slipDigits coarse ++ ", window " ++ decimal (params.window row)

/-- The record of a verdict. -/
def Verdict.record : Verdict → Record
  | .calibrated point => ⟨.info, calibrationTarget, "HyperRAM calibrated: " ++ point.text⟩
  | .exhausted sweep => ⟨.error, calibrationTarget, "HyperRAM calibration failed: " ++ sweep.text⟩

/-- A record for each setting that was visited, and one for the verdict. -/
def logRecords (params : Params) (rows : List (List Bool)) (verdict : Verdict) : List Record :=
  (rows.zipIdx.map fun (row, coarse) => settingRecord params coarse row) ++ [verdict.record]

/-! ## What events tell -/

/-- The text that some events add to the progress text. -/
def textOf (events : List Event) : String :=
  String.join (reports events).flatten

/-- The record that an event logs. -/
def Event.record? : Event → Option Record
  | act (.log record) => some record
  | act _ => none
  | probe _ => none

/-- The records among some events. -/
def recordsOf (events : List Event) : List Record :=
  events.filterMap Event.record?

@[simp] theorem textOf_nil : textOf [] = "" := rfl

@[simp] theorem textOf_append (first second : List Event) :
    textOf (first ++ second) = textOf first ++ textOf second := by
  simp [textOf, reports]

@[simp] theorem textOf_cons (event : Event) (rest : List Event) :
    textOf (event :: rest) = String.join (event.report?.getD []) ++ textOf rest := by
  cases h : event.report? <;> simp [textOf, reports, h]

@[simp] theorem recordsOf_append (first second : List Event) :
    recordsOf (first ++ second) = recordsOf first ++ recordsOf second := by
  simp [recordsOf]

/-- A sink without a limit takes in all reports. -/
theorem Sink.text_foldl_write {sink : Sink} (h : sink.room = none)
    (additions : List (List String)) :
    (additions.foldl Sink.write sink).text = sink.text ++ String.join additions.flatten := by
  induction additions generalizing sink with
  | nil => simp
  | cons pieces rest ih =>
    have hwrite := write_of_unlimited h pieces
    have hgrown : (sink.write pieces).room = none := by
      rw [hwrite]
      exact h
    rw [List.foldl_cons, ih hgrown, hwrite]
    simp [String.append_assoc]

theorem Transcript.records_seen (transcript : Transcript) (event : Event) :
    (transcript.seen event).threshold = transcript.threshold ∧
      (transcript.seen event).records.toList = transcript.records.toList ++
        (recordsOf [event]).filter fun record => transcript.threshold.admits record.severity := by
  rcases event with action | passed
  · cases action with
    | log record =>
      by_cases hadmits : transcript.threshold.admits record.severity = true <;>
        simp [seen, logged, recordsOf, Event.record?, hadmits]
    | _ => exact ⟨rfl, (List.append_nil _).symm⟩
  · exact ⟨rfl, (List.append_nil _).symm⟩

/-- A transcript takes down the records that are let through, in order. -/
theorem Transcript.records_foldl_seen (events : List Event) (transcript : Transcript) :
    (events.foldl seen transcript).records.toList = transcript.records.toList ++
      (recordsOf events).filter fun record => transcript.threshold.admits record.severity := by
  induction events generalizing transcript with
  | nil => simp [recordsOf]
  | cons event rest ih =>
    rcases records_seen transcript event with ⟨hthreshold, hrecords⟩
    have hsplit : recordsOf (event :: rest) = recordsOf [event] ++ recordsOf rest :=
      recordsOf_append [event] rest
    rw [List.foldl_cons, ih, hthreshold, hrecords, hsplit, List.filter_append, List.append_assoc]

/-! ## One setting -/

theorem text_ofCoarse {coarse : Nat} (h : coarse < 256) :
    (SubPhase.ofCoarse (UInt8.ofNat coarse)).text = slipDigits coarse := by
  rw [SubPhase.ofCoarse_eq, UInt8.toNat_ofNat_of_lt' h]
  simp [SubPhase.text, SubPhase.pieces, slipDigits, String.append_assoc]

theorem probeMarks_cons_cons (first second : Bool) (rest : List Bool) :
    probeMarks (first :: second :: rest) = (if second then '0' else '-') :: probeMarks rest := by
  have hhalf : (first :: second :: rest).length / 2 = rest.length / 2 + 1 := by
    simp only [List.length_cons]
    omega
  rw [probeMarks, hhalf, List.range_succ_eq_map, List.map_cons, List.map_map]
  cases second <;> rfl

/-- Every second probe leaves its mark. -/
theorem textOf_probeEvents (row : List Bool) :
    textOf (probeEvents false row) = String.ofList (probeMarks row) := by
  -- The probes go by twos, the second of which leaves a mark.
  induction row using List.twoStepInduction with
  | nil => rfl
  | singleton passed => simp [probeEvents, Event.report?, probeMarks]
  | cons_cons first second rest ih _ =>
    have hmark : textOf (probeEvents false (first :: second :: rest)) =
        probeMark second ++ textOf (probeEvents false rest) := by
      simp [probeEvents, Event.report?]
    rw [hmark, ih, probeMarks_cons_cons, ← String.toList_inj]
    cases second <;> simp [probeMark]

theorem recordsOf_probeEvents (marked : Bool) (row : List Bool) :
    recordsOf (probeEvents marked row) = [] := by
  induction row generalizing marked with
  | nil => rfl
  | cons passed rest ih =>
    cases marked <;> simpa [recordsOf, probeEvents, Event.record?] using ih _

theorem textOf_settingEvents {params : Params} {coarse : Nat} {row : List Bool}
    (h : coarse < 256) :
    textOf (settingEvents params (UInt8.ofNat coarse) row) = settingLine params coarse row := by
  have hslips := text_ofCoarse h
  have htaps : (clockTaps (UInt8.ofNat coarse)).toNat = coarse / 4 := by
    rw [toNat_clockTaps, UInt8.toNat_ofNat_of_lt' h]
  have hhead : textOf [.act (.setDelay .clock (clockTaps (UInt8.ofNat coarse))),
      .act (.setDelay .io ioTaps),
      .act (.report ([decimal (clockTaps (UInt8.ofNat coarse)).toNat, ","] ++
        (SubPhase.ofCoarse (UInt8.ofNat coarse)).pieces ++ [" |"]))] =
      decimal (coarse / 4) ++ "," ++ slipDigits coarse ++ " |" := by
    rw [← hslips, htaps]
    simp [Event.report?, SubPhase.text, String.append_assoc]
  have htail : textOf [.act (.report ["| ", decimal (params.window row), "    \n"]),
      .act (calibrationRecord .debug
        (measuredMessage (UInt8.ofNat coarse) (UInt32.ofNat (params.window row))))] =
      "| " ++ decimal (params.window row) ++ "    \n" := by
    simp [Event.report?, calibrationRecord, String.append_assoc]
  rw [settingEvents, textOf_append, textOf_append, hhead, htail, textOf_probeEvents, settingLine]
  simp only [String.append_assoc]

theorem recordsOf_settingEvents {params : Params} {coarse : Nat} {row : List Bool}
    (h : coarse < 256) (hmeasures : params.Measures row) :
    recordsOf (settingEvents params (UInt8.ofNat coarse) row) =
      [settingRecord params coarse row] := by
  have hwindow := hmeasures.window_lt
  have hmessage : measuredMessage (UInt8.ofNat coarse) (UInt32.ofNat (params.window row)) =
      (settingRecord params coarse row).message := by
    rw [measuredMessage, text_ofCoarse h, toNat_clockTaps, UInt8.toNat_ofNat_of_lt' h,
      UInt32.toNat_ofNat_of_lt' hwindow]
    rfl
  rw [settingEvents, recordsOf_append, recordsOf_append, recordsOf_probeEvents, hmessage]
  rfl

/-! ## The whole calibration -/

theorem textOf_rejectedEvents {params : Params} {rows : List (List Bool)}
    (h : rows.length ≤ 256) : textOf (rejectedEvents params rows) = progressText params rows := by
  induction rows using List.reverseRecOn with
  | nil => rfl
  | append_singleton rows row ih =>
    rw [List.length_append, List.length_singleton] at h
    have hslip : textOf [.act (slipInto (rows.length + 1))] = "" := rfl
    rw [rejectedEvents_concat, rejectedSettingEvents, textOf_append, textOf_append, hslip,
      textOf_settingEvents (Nat.lt_of_succ_le h), ih (Nat.le_of_succ_le h), String.append_empty,
      progressText_concat]

theorem recordsOf_rejectedEvents {params : Params} {rows : List (List Bool)}
    (h : rows.length ≤ 256) (hmeasures : ∀ row ∈ rows, params.Measures row) :
    recordsOf (rejectedEvents params rows) =
      rows.zipIdx.map fun (row, coarse) => settingRecord params coarse row := by
  induction rows using List.reverseRecOn with
  | nil => rfl
  | append_singleton rows row ih =>
    rw [List.length_append, List.length_singleton] at h
    have hslip : recordsOf [.act (slipInto (rows.length + 1))] = [] := rfl
    have hearlier := ih (Nat.le_of_succ_le h) fun earlier hmem =>
      hmeasures earlier (List.mem_append_left _ hmem)
    have hlast := recordsOf_settingEvents (Nat.lt_of_succ_le h) (hmeasures row (by simp))
    rw [rejectedEvents_concat, rejectedSettingEvents, recordsOf_append, recordsOf_append, hslip,
      hlast, hearlier]
    simp [List.zipIdx_append]

theorem answerRows_acceptedEvents {params : Params} {rejected : List (List Bool)}
    {row : List Bool} (h : rejected.length < 256) (steps : Nat) (record : Record) :
    answerRows (calls (rejectedEvents params rejected ++
      settingEvents params (UInt8.ofNat rejected.length) row ++
      List.replicate steps (.act (.stepPhase .up)) ++ [.act (.log record)])) =
        rejected ++ [row] := by
  have hups : calls (List.replicate steps (.act (.stepPhase .up))) =
      List.replicate steps (.stepPhase .up) := List.filterMap_replicate_of_some rfl
  have hlast : calls [.act (.log record)] = [] := rfl
  rw [calls_append, calls_append, calls_append, calls_rejectedEvents h.le,
    calls_settingEvents h, hups, hlast, List.append_nil, answerRows_accepted]

theorem answerRows_rejectedEvents {params : Params} {rejected : List (List Bool)}
    (h : rejected.length < 256) (record : Record) :
    answerRows (calls (rejectedEvents params rejected ++ [.act (.log record)])) = rejected := by
  have hlast : calls [.act (.log record)] = [] := rfl
  rw [calls_append, calls_rejectedEvents h.le, hlast, List.append_nil, answerRows_rejectedCalls]

/-- The steps to the middle of a window tell nothing. -/
theorem untold_steps (steps : Nat) :
    textOf (List.replicate steps (.act (.stepPhase .up))) = "" ∧
      recordsOf (List.replicate steps (.act (.stepPhase .up))) = [] := by
  refine ⟨?_, List.filterMap_replicate_of_none rfl⟩
  rw [textOf, reports, List.filterMap_replicate_of_none rfl]
  rfl

/-- What a calibration tells, and which settings it tells of. -/
structure Told (params : Params) (events : List Event) (verdict : Verdict) : Prop where
  text : textOf events = progressText params (answerRows (calls events))
  records : recordsOf events = logRecords params (answerRows (calls events)) verdict

/-- Every calibration tells of the settings it visits, one after another, and of its verdict. -/
theorem Course.told {params : Params} {events : List Event} {verdict : Verdict}
    (h : Course params events verdict) : Told params events verdict := by
  have hoctet := params.coarseSteps.toNat_lt
  cases h with
  | accepted rejected row hrejected haccepted hlength =>
    have hshort : rejected.length < 256 := by omega
    rcases untold_steps (params.window row / 2) with ⟨htext, hrecords⟩
    constructor
    case text =>
      rw [calibrationRecord, answerRows_acceptedEvents hshort, textOf_append, textOf_append,
        textOf_append, textOf_rejectedEvents hshort.le, textOf_settingEvents hshort,
        progressText_concat, htext]
      simp [Event.report?]
    case records =>
      rw [calibrationRecord, answerRows_acceptedEvents hshort, recordsOf_append, recordsOf_append,
        recordsOf_append, hrecords,
        recordsOf_rejectedEvents hshort.le fun earlier hmem => (hrejected earlier hmem).measures,
        recordsOf_settingEvents hshort haccepted.measures, logRecords]
      simp [List.zipIdx_append, recordsOf, Event.record?, Verdict.record]
  | exhausted rejected sweep hrejected hlength _ _ =>
    have hshort : rejected.length < 256 := by omega
    constructor
    case text =>
      rw [calibrationRecord, answerRows_rejectedEvents hshort, textOf_append,
        textOf_rejectedEvents hshort.le]
      simp [Event.report?]
    case records =>
      rw [calibrationRecord, answerRows_rejectedEvents hshort, recordsOf_append,
        recordsOf_rejectedEvents hshort.le fun earlier hmem => (hrejected earlier hmem).measures]
      rfl

end TimingEye
