import TimingEye.Proofs.Calibration.Narrative
import TimingEye.Proofs.Text.Encoding

/-!
# Reading the progress text back

Each line of the progress text has two bars, around its marks, and a number after them.  So the
text can be taken apart again, and with the limits of the calibration it tells the verdict.

* `shownLines`: the marks and the window of each line of a text;
* `shownLines_progressText`: they are those of the settings that were visited;
* `Params.shownPoint`: the operating point that a text tells;
* `reports_tell_verdict`: what a whole calibration tells, and what can be read off it.
-/

namespace TimingEye

/-! ## Lines of a text -/

/-- What a line shows: the marks between its bars, and the number that follows them. -/
def shownLine (line : List Char) : List Char × Nat :=
  match line.splitOn '|' with
  | [_, marks, window] => (marks, Nat.ofDigitChars 10 (window.filter Char.isDigit) 0)
  | _ => ([], 0)

/-- What the lines of a text show, from the first one on. -/
def shownLines (text : String) : List (List Char × Nat) :=
  (text.toList.splitOn '\n').dropLast.map shownLine

/-! ## The line of a setting -/

/-- What stands before the marks of a setting. -/
def lineHead (coarse : Nat) : List Char :=
  (decimal (coarse / 4) ++ "," ++ slipDigits coarse ++ " ").toList

/-- What stands after the marks of a setting. -/
def lineTail (window : Nat) : List Char :=
  ' ' :: (Nat.toDigits 10 window ++ [' ', ' ', ' ', ' '])

/-- The line of a setting, without its line feed. -/
def settingChars (params : Params) (coarse : Nat) (row : List Bool) : List Char :=
  lineHead coarse ++ '|' :: (probeMarks row ++ '|' :: lineTail (params.window row))

theorem toList_settingLine (params : Params) (coarse : Nat) (row : List Bool) :
    (settingLine params coarse row).toList = settingChars params coarse row ++ ['\n'] := by
  simp [settingLine, settingChars, lineHead, lineTail]

theorem not_mem_toDigits {c : Char} (h : c.isDigit = false) (n : Nat) : c ∉ Nat.toDigits 10 n := by
  intro hmem
  have hdigit := Nat.isDigit_of_mem_toDigits (by decide) (by decide) hmem
  rw [h] at hdigit
  cases hdigit

theorem not_mem_lineHead {c : Char} (h : c ∉ ['0', '1', ',', ' ']) (hdigit : c.isDigit = false)
    (coarse : Nat) : c ∉ lineHead coarse := by
  have hquarter := not_mem_toDigits hdigit (coarse / 4)
  simp only [List.mem_cons, List.not_mem_nil, or_false, not_or] at h
  cases h0 : coarse.testBit 0 <;> cases h1 : coarse.testBit 1 <;>
    simp [lineHead, slipDigits, truthDigit, h0, h1, hquarter, h]

theorem not_mem_lineTail {c : Char} (h : c ≠ ' ') (hdigit : c.isDigit = false) (window : Nat) :
    c ∉ lineTail window := by
  simp [lineTail, h, not_mem_toDigits hdigit]

theorem not_mem_probeMarks {c : Char} (h : c ≠ '0') (h' : c ≠ '-') (row : List Bool) :
    c ∉ probeMarks row := by
  intro hmem
  rcases List.mem_map.mp hmem with ⟨k, _, hmark⟩
  split at hmark
  · exact h hmark.symm
  · exact h' hmark.symm

theorem lineFeed_not_mem_settingChars (params : Params) (coarse : Nat) (row : List Bool) :
    '\n' ∉ settingChars params coarse row := by
  have hhead := not_mem_lineHead (c := '\n') (by decide) (by decide) coarse
  have hmarks := not_mem_probeMarks (c := '\n') (by decide) (by decide) row
  have htail := not_mem_lineTail (c := '\n') (by decide) (by decide) (params.window row)
  simp [settingChars, hhead, hmarks, htail]

/-- The window of a line is the only number after its marks. -/
theorem ofDigitChars_lineTail (window : Nat) :
    Nat.ofDigitChars 10 ((lineTail window).filter Char.isDigit) 0 = window := by
  have hdigits : (Nat.toDigits 10 window).filter Char.isDigit = Nat.toDigits 10 window := by
    apply List.filter_eq_self.mpr
    intro c hmem
    exact Nat.isDigit_of_mem_toDigits (by decide) (by decide) hmem
  have hblanks : [' ', ' ', ' ', ' '].filter Char.isDigit = [] := by decide
  have hspace : Char.isDigit ' ' = false := by decide
  rw [lineTail, List.filter_cons_of_neg (by rw [hspace]; exact Bool.false_ne_true),
    List.filter_append, hdigits, hblanks, List.append_nil]
  exact Nat.ofDigitChars_ten_toDigits

theorem shownLine_settingChars (params : Params) (coarse : Nat) (row : List Bool) :
    shownLine (settingChars params coarse row) = (probeMarks row, params.window row) := by
  have hhead := not_mem_lineHead (c := '|') (by decide) (by decide) coarse
  have hmarks := not_mem_probeMarks (c := '|') (by decide) (by decide) row
  have htail := not_mem_lineTail (c := '|') (by decide) (by decide) (params.window row)
  have hsplit : (settingChars params coarse row).splitOn '|' =
      [lineHead coarse, probeMarks row, lineTail (params.window row)] := by
    rw [settingChars, List.splitOn_append_cons_self_of_not_mem hhead,
      List.splitOn_append_cons_self_of_not_mem hmarks, List.splitOn_eq_singleton htail]
  simp only [shownLine, hsplit, ofDigitChars_lineTail]

/-- The lines of a progress text show the marks and the windows of the settings. -/
theorem shownLines_progressText (params : Params) (rows : List (List Bool)) :
    shownLines (progressText params rows) =
      rows.map fun row => (probeMarks row, params.window row) := by
  let lines := rows.zipIdx.map fun setting => settingChars params setting.2 setting.1
  have hfeeds : ∀ line ∈ lines, '\n' ∉ line := by
    intro line hmem
    rcases List.mem_map.mp hmem with ⟨⟨row, coarse⟩, _, rfl⟩
    exact lineFeed_not_mem_settingChars params coarse row
  have hchars : (progressText params rows).toList = lines.flatMap (· ++ ['\n']) := by
    simp [progressText, lines, String.toList_join, List.flatMap_map, toList_settingLine]
  have hshown : lines.map shownLine =
      (rows.zipIdx.map Prod.fst).map fun row => (probeMarks row, params.window row) := by
    rw [List.map_map, List.map_map]
    apply List.map_congr_left
    rintro ⟨row, coarse⟩ _
    exact shownLine_settingChars params coarse row
  rw [shownLines, hchars, splitOn_lines hfeeds, List.dropLast_concat, hshown, List.zipIdx_map_fst]

/-! ## The verdict of a text -/

/-- The operating point that windows tell: the last setting, if its window is long enough. -/
def Params.pointOf (params : Params) (windows : List Nat) : Option Calibrated :=
  match windows.getLast? with
  | some window =>
    if params.acceptWindow.toNat ≤ window then some (operatingPoint (windows.length - 1) window)
    else none
  | none => none

/-- The operating point that a progress text tells. -/
def Params.shownPoint (params : Params) (text : String) : Option Calibrated :=
  params.pointOf ((shownLines text).map Prod.snd)

/-- Only the last setting that was visited can have a window that is long enough. -/
theorem Course.pointOf_eq_some_iff {params : Params} {events : List Event} {verdict : Verdict}
    (h : Course params events verdict) (point : Calibrated) :
    params.pointOf ((answerRows (calls events)).map params.window) = some point ↔
      verdict = .calibrated point := by
  rcases h.exists_rows with
    ⟨rejected, row, _, haccepted, _, rfl, heq⟩ | ⟨rejected, sweep, hrejected, _, rfl, _, _, heq⟩
  · rw [heq, answerRows_accepted]
    simp [Params.pointOf, haccepted.le_window]
  · rw [heq, answerRows_rejectedCalls]
    constructor
    · intro hpoint
      rw [Params.pointOf] at hpoint
      split at hpoint
      case h_1 window hlast =>
        rcases List.mem_map.mp (List.mem_of_getLast? hlast) with ⟨row, hmem, rfl⟩
        rw [if_neg (Nat.not_le.mpr (hrejected row hmem).window_lt)] at hpoint
        cases hpoint
      case h_2 => cases hpoint
    · intro hverdict
      cases hverdict

/-- The records of a calibration are no less grave than those of debugging. -/
theorem admits_of_mem_logRecords (params : Params) (rows : List (List Bool)) (verdict : Verdict) :
    ∀ record ∈ logRecords params rows verdict,
      (Threshold.upTo .debug).admits record.severity = true := by
  intro record hmem
  rcases List.mem_append.mp hmem with hmem | hmem
  · rcases List.mem_map.mp hmem with ⟨_, _, rfl⟩
    rfl
  · rw [List.mem_singleton.mp hmem]
    cases verdict <;> rfl

section

variable {σ : Type} (hardware : Hardware (StateM σ)) (params : Params) (start : σ)

/-- The progress text and the log of a calibration tell the same story, setting by setting, and it
is the story of its answers; the log ends with the verdict.  Of the log a threshold lets through
the records that it admits, in order.  The text shows the marks and the window of each setting,
and together with the limits it shows whether there is an operating point, and which. -/
theorem reports_tell_verdict :
    ∃ rows verdict, ∀ threshold,
      let run := (calibrationRun hardware params (some { room := none }) threshold start).1
      run.1 = .ok verdict ∧ answerRows run.2.calls.toList = rows ∧
      ∃ text, run.2.progress.map Sink.text = some text ∧ text = progressText params rows ∧
        run.2.records.toList = (logRecords params rows verdict).filter
          (fun record => threshold.admits record.severity) ∧
        (threshold = .upTo .debug → run.2.records.toList = logRecords params rows verdict) ∧
        shownLines text = rows.map (fun row => (probeMarks row, params.window row)) ∧
        ∀ point, params.shownPoint text = some point ↔ verdict = .calibrated point := by
  rcases Procedure.exists_path_watch hardware (calibrate params) start with
    ⟨events, result, final, hpath, _, hrun⟩
  rcases Course.of_path hpath with ⟨verdict, rfl, hcourse⟩
  have htold := hcourse.told
  refine ⟨answerRows (calls events), verdict, ?_⟩
  intro threshold run
  have hseen : run = (.ok verdict, events.foldl Transcript.seen
      { progress := some { room := none }, threshold }) :=
    congrArg Prod.fst (hrun { progress := some { room := none }, threshold })
  have hcalls : run.2.calls.toList = calls events := by
    rw [hseen, Transcript.calls_foldl_seen]
    rfl
  have htext : run.2.progress.map Sink.text =
      some (progressText params (answerRows (calls events))) := by
    rw [hseen, Transcript.progress_foldl_seen, ← htold.text]
    exact congrArg some (Sink.text_foldl_write rfl (reports events))
  have hrecords : run.2.records.toList =
      (logRecords params (answerRows (calls events)) verdict).filter
        fun record => threshold.admits record.severity := by
    rw [hseen, Transcript.records_foldl_seen, htold.records]
    rfl
  have hlines := shownLines_progressText params (answerRows (calls events))
  refine ⟨congrArg Prod.fst hseen, congrArg answerRows hcalls, _, htext, rfl, hrecords, ?_, hlines,
    ?_⟩
  · rintro rfl
    rw [hrecords]
    exact List.filter_eq_self.mpr (admits_of_mem_logRecords params _ verdict)
  · intro point
    rw [Params.shownPoint, hlines, List.map_map]
    exact hcourse.pointOf_eq_some_iff point

end

end TimingEye
