import TimingEye.Proofs.Board.Delivery
import TimingEye.Proofs.Calibration.ReadBack

/-!
# Reading log lines back

A line of the log begins with three columns of fixed width: seconds, microseconds and severity.
The time always fits, since the timer wraps before its seconds have three digits.  After the
columns come the target, up to the first closing parenthesis, and the message, up to the end of the
line as it was printed.  So the line tells when what was logged, whatever the message looks like.

* `LineColumns`: what stands in a line, and `LineColumns.ofChars` finds it again;
* `LineColumns.Shows`: columns that show a record and its time;
* `readLine?`: the record and the time that a receiver reads off the octets it gets;
* `log_lines_read_back`: what can be told of a record from its line.
-/

namespace TimingEye

/-! ## Severities -/

/-- The severity of a given label. -/
def Severity.ofLabel? (label : List Char) : Option Severity :=
  [error, warn, info, debug, trace].find? fun severity => severity.label.toList == label

theorem Severity.ofLabel?_label (severity : Severity) :
    ofLabel? severity.label.toList = some severity := by
  cases severity <;> decide

namespace Board

/-! ## Columns -/

/-- The number in a column, which may be filled up with spaces or zeros. -/
def columnNumber (column : List Char) : Nat :=
  Nat.ofDigitChars 10 (column.filter (· ≠ ' ')) 0

/-- What stands in a line of the log. -/
structure LineColumns where
  seconds : List Char
  micros : List Char
  level : List Char
  target : List Char
  message : List Char
  deriving DecidableEq, Repr

namespace LineColumns

/-- The whole line. -/
def chars (columns : LineColumns) : List Char :=
  '[' :: (columns.seconds ++ '.' :: (columns.micros ++ 's' :: ']' :: ' ' :: (columns.level ++
    '(' :: (columns.target ++ ')' :: ':' :: ' ' :: (columns.message ++ ['\n'])))))

/-- The columns of a line, found by their places, and the rest by the first closing parenthesis. -/
def ofChars (line : List Char) : LineColumns where
  seconds := (line.drop 1).take 6
  micros := (line.drop 8).take 6
  level := (line.drop 17).take 5
  target := (line.drop 23).takeWhile (· ≠ ')')
  message := (((line.drop 23).dropWhile (· ≠ ')')).drop 3).dropLast

/-- The record that columns show, and its time. -/
def shown? (columns : LineColumns) : Option (Nat × Record) :=
  (Severity.ofLabel? (columns.level.filter (· ≠ ' '))).map fun severity =>
    (columnNumber columns.seconds * 1000000 + columnNumber columns.micros,
      ⟨severity, String.ofList columns.target, String.ofList columns.message⟩)

/-- Columns that show a record and its time, in microseconds. -/
structure Shows (columns : LineColumns) (time : Nat) (record : Record) : Prop where
  seconds_width : columns.seconds.length = 6
  micros_width : columns.micros.length = 6
  micros_digits : ∀ c ∈ columns.micros, c.isDigit
  micros_lt : columnNumber columns.micros < 1000000
  time : columnNumber columns.seconds * 1000000 + columnNumber columns.micros = time
  level_width : columns.level.length = 5
  level : ∃ blanks, columns.level = List.replicate blanks ' ' ++ record.severity.label.toList
  target : columns.target = record.target.toList
  message : columns.message = record.message.toList

/-- A column is found behind what comes before it, if its width is known. -/
theorem take_drop_append (before : List Char) {column : List Char} {place width : Nat}
    (hplace : before.length = place) (hwidth : column.length = width) (after : List Char) :
    ((before ++ (column ++ after)).drop place).take width = column := by
  rw [List.drop_left' hplace, List.take_left' hwidth]

/-- Up to a character that does not occur in it, a text is found again, and so is the rest. -/
theorem splits_at_first {c : Char} {text : List Char} (h : c ∉ text) (rest : List Char) :
    (text ++ c :: rest).takeWhile (· ≠ c) = text ∧
      (text ++ c :: rest).dropWhile (· ≠ c) = c :: rest := by
  have hother : ∀ a ∈ text, decide (a ≠ c) = true := by
    intro a hmem
    apply decide_eq_true
    rintro rfl
    exact h hmem
  constructor
  · rw [List.takeWhile_append_of_pos hother, List.takeWhile_cons_of_neg (by simp),
      List.append_nil]
  · rw [List.dropWhile_append_of_pos hother, List.dropWhile_cons_of_neg (by simp)]

/-- Columns of their widths are found at their places. -/
theorem ofChars_chars {columns : LineColumns} (hseconds : columns.seconds.length = 6)
    (hmicros : columns.micros.length = 6) (hlevel : columns.level.length = 5)
    (htarget : ')' ∉ columns.target) : ofChars columns.chars = columns := by
  rcases columns with ⟨seconds, micros, level, target, message⟩
  dsimp only at hseconds hmicros hlevel htarget
  set line := chars ⟨seconds, micros, level, target, message⟩ with hline
  let told := target ++ ')' :: ':' :: ' ' :: (message ++ ['\n'])
  -- The line, cut before each column: what comes first is as wide as the place of the column.
  have hmicros_at : line = ('[' :: (seconds ++ ['.'])) ++
      (micros ++ 's' :: ']' :: ' ' :: (level ++ '(' :: told)) := by
    simp [hline, chars, told]
  have hlevel_at : line = ('[' :: (seconds ++ '.' :: (micros ++ ['s', ']', ' ']))) ++
      (level ++ '(' :: told) := by
    simp [hline, chars, told]
  have htold_at : line = ('[' :: (seconds ++ '.' :: (micros ++ 's' :: ']' :: ' ' ::
      (level ++ ['('])))) ++ told := by
    simp [hline, chars, told]
  have htold : line.drop 23 = told := by
    rw [htold_at]
    exact List.drop_left' (by simp [hseconds, hmicros, hlevel])
  rw [ofChars, htold, (splits_at_first htarget _).1, (splits_at_first htarget _).2]
  congr 1
  · exact take_drop_append ['['] rfl hseconds _
  · rw [hmicros_at]
    exact take_drop_append _ (by simp [hseconds]) hmicros _
  · rw [hlevel_at]
    exact take_drop_append _ (by simp [hseconds, hmicros]) hlevel _
  · exact List.dropLast_concat

/-- Columns show their record to whoever reads them. -/
theorem Shows.shown? {columns : LineColumns} {time : Nat} {record : Record}
    (h : columns.Shows time record) : columns.shown? = some (time, record) := by
  rcases h.level with ⟨blanks, hlevel⟩
  have hblanks : (List.replicate blanks ' ').filter (· ≠ ' ') = [] := by simp
  have hlabel : record.severity.label.toList.filter (· ≠ ' ') = record.severity.label.toList := by
    cases record.severity <;> decide
  rw [LineColumns.shown?, hlevel, List.filter_append, hblanks, List.nil_append, hlabel,
    Severity.ofLabel?_label, Option.map_some, h.time, h.target, h.message, String.ofList_toList,
    String.ofList_toList]

end LineColumns

/-! ## Lines of records -/

/-- The columns in which a record is printed. -/
def columnsOf (time : Nat) (record : Record) : LineColumns where
  seconds := (Nat.toDigits 10 (time / 1000000)).leftpad 6 ' '
  micros := (Nat.toDigits 10 (time % 1000000)).leftpad 6 '0'
  level := record.severity.label.toList.leftpad 5 ' '
  target := record.target.toList
  message := record.message.toList

theorem toList_logLine (time : Nat) (record : Record) :
    (String.join (logLine time record)).toList = (columnsOf time record).chars := by
  simp [logLine, columnsOf, LineColumns.chars]

/-- A column is filled up without a change to its number. -/
theorem columnNumber_leftpad {fill : Char} (hfill : fill = ' ' ∨ fill = '0') (n width : Nat) :
    columnNumber ((Nat.toDigits 10 n).leftpad width fill) = n := by
  have hdigits : (Nat.toDigits 10 n).filter (· ≠ ' ') = Nat.toDigits 10 n := by
    apply List.filter_eq_self.mpr
    intro c hmem
    apply decide_eq_true
    rintro rfl
    exact not_mem_toDigits (by decide) n hmem
  rw [columnNumber, List.leftpad, List.filter_append, hdigits]
  rcases hfill with rfl | rfl
  · have hblanks : (List.replicate (width - (Nat.toDigits 10 n).length) ' ').filter (· ≠ ' ') =
        [] := by simp
    rw [hblanks, List.nil_append, Nat.ofDigitChars_ten_toDigits]
  · have hzeros : (List.replicate (width - (Nat.toDigits 10 n).length) '0').filter (· ≠ ' ') =
        List.replicate (width - (Nat.toDigits 10 n).length) '0' := by simp
    rw [hzeros, Nat.ofDigitChars_append, Nat.ofDigitChars_replicate_zero, Nat.mul_zero,
      Nat.ofDigitChars_ten_toDigits]

theorem length_leftpad_toDigits {n width : Nat} (hwidth : 0 < width) (h : n < 10 ^ width)
    (fill : Char) : ((Nat.toDigits 10 n).leftpad width fill).length = width := by
  rw [List.length_leftpad]
  exact max_eq_left ((Nat.length_toDigits_le_iff (by decide) hwidth).mpr h)

/-- A record is shown by its columns as long as its time fits. -/
theorem shows_columnsOf {time : Nat} (htime : time < 1000000000000) (record : Record) :
    (columnsOf time record).Shows time record := by
  have hseconds : time / 1000000 < 10 ^ 6 := by omega
  have hmicros : time % 1000000 < 10 ^ 6 := Nat.mod_lt _ (by decide)
  have hnumber := columnNumber_leftpad (.inr rfl) (time % 1000000) 6
  constructor
  case seconds_width => exact length_leftpad_toDigits (by decide) hseconds ' '
  case micros_width => exact length_leftpad_toDigits (by decide) hmicros '0'
  case micros_digits =>
    intro c hmem
    rcases List.mem_append.mp hmem with hzero | hdigit
    · rw [(List.mem_replicate.mp hzero).2]
      decide
    · exact Nat.isDigit_of_mem_toDigits (by decide) (by decide) hdigit
  case micros_lt =>
    rw [columnsOf, hnumber]
    exact hmicros
  case time =>
    rw [columnsOf, hnumber, columnNumber_leftpad (.inl rfl)]
    exact Nat.div_add_mod' time 1000000
  case level_width =>
    rw [columnsOf, List.length_leftpad]
    cases record.severity <;> decide
  case level => exact ⟨_, rfl⟩
  case target => rfl
  case message => rfl

/-- The record and the time that a receiver reads off the octets of a line. -/
def readLine? (octets : List UInt8) : Option (Nat × Record) :=
  (Console.received? octets).bind fun text => (LineColumns.ofChars text.toList).shown?

theorem readLine?_logLine {time : Nat} (htime : time < 1000000000000) {record : Record}
    (htarget : ')' ∉ record.target.toList) :
    readLine? (Console.wire (String.join (logLine time record))) = some (time, record) := by
  have hshows := shows_columnsOf htime record
  have hfound := LineColumns.ofChars_chars hshows.seconds_width hshows.micros_width
    hshows.level_width htarget
  rw [readLine?, Console.received?_wire, Option.bind_some, toList_logLine, hfound, hshows.shown?]

/-! ## Records on the line -/

/-- The timer wraps long before its seconds could outgrow their column. -/
theorem Timer.toMicroseconds_lt (cycles : UInt32) :
    toMicroseconds cycles < 1000000000000 := by
  have hcycles : cycles.toNat < 4294967296 := cycles.toNat_lt
  have hfrequency : cyclesPerMicrosecond = 48 := rfl
  rw [toMicroseconds, hfrequency]
  omega

/-- A record has been logged at some time, and these octets have left for it. -/
def SendsLine (variant : Variant) (soc : Soc) (time : Nat) (record : Record)
    (octets : List UInt8) : Prop :=
  ∃ sampled after, Timer.microseconds soc = .ok time sampled ∧
    printRecord variant record soc = .ok () after ∧
    after.sent.toList = soc.sent.toList ++ octets

theorem SendsLine.eq_wire {variant : Variant} {soc : Soc} {time : Nat} {record : Record}
    {octets : List UInt8} (huart : variant.uart = true)
    (h : SendsLine variant soc time record octets) :
    time < 1000000000000 ∧ octets = Console.wire (String.join (logLine time record)) := by
  rcases h with ⟨sampled, after, htime, hprint, hsent⟩
  rcases (ends_microseconds soc).of_ok htime with ⟨rfl, _⟩
  have hprinted := ((ends_printRecord variant record soc).of_ok hprint).sent
  rw [hsent, Variant.sends_of_uart huart] at hprinted
  exact ⟨Timer.toMicroseconds_lt _, List.append_cancel_left hprinted⟩

/-- Where the line clears again and again, every record is logged. -/
theorem exists_sendsLine {soc : Soc} (hline : soc.LineClears) (variant : Variant)
    (record : Record) : ∃ bound, ∀ patience ≥ bound, ∃ octets,
      SendsLine variant (soc.watchedFor patience) (soc.clock.time 1) record octets := by
  rcases Soc.exists_clearsWithin hline with ⟨gap, hgap⟩
  -- One poll is for the timer, and the others are for the line.
  refine ⟨gap + 1, ?_⟩
  intro patience hpatience
  have hready : (soc.watchedFor patience).Ready ⟨True, gap, soc.tick, patience⟩ :=
    ⟨fun _ => hgap, rfl, rfl, le_rfl⟩
  have htalks : variant.uart = true → (⟨True, gap, soc.tick, patience⟩ : Conditions).talks :=
    fun _ => trivial
  rcases goes_printRecord htalks record _ hready hpatience with ⟨_, _, after, hprint, _⟩
  rcases bind_eq_ok_iff.mp hprint with ⟨time, sampled, htime, _⟩
  rcases (ends_microseconds _).of_ok htime with ⟨rfl, _⟩
  exact ⟨_, sampled, after, htime, hprint, ((ends_printRecord variant record _).of_ok hprint).sent⟩

/-- The line of a record begins with columns of fixed widths, which show the time that the timer
was sampled for, and the severity.  Of a record whose target holds no closing parenthesis, a
receiver can tell from the line alone when it was logged, by whom, how grave it is, and what it
says.  So no two such records look the same on the line, whatever their messages hold. -/
theorem log_lines_read_back {variant : Variant} (huart : variant.uart = true) (soc : Soc)
    (record : Record) :
    (∀ time sampled, Timer.microseconds soc = .ok time sampled →
      ∃ (line : String) (columns : LineColumns),
        printRecord variant record soc = Console.print variant line sampled ∧
        line.toList = columns.chars ∧ columns.Shows time record) ∧
    (∀ time octets, SendsLine variant soc time record octets → ')' ∉ record.target.toList →
      readLine? octets = some (time, record) ∧
      ∀ soc' time' record', SendsLine variant soc' time' record' octets →
        ')' ∉ record'.target.toList → time' = time ∧ record' = record) ∧
    (soc.pollsLeft ≠ 0 → ∃ time sampled, Timer.microseconds soc = .ok time sampled) ∧
    (soc.LineClears → ∃ bound, ∀ patience ≥ bound, ∃ time octets,
      SendsLine variant (soc.watchedFor patience) time record octets) := by
  refine ⟨?_, ?_, ?_, ?_⟩
  · intro time sampled htime
    rcases (ends_microseconds soc).of_ok htime with ⟨rfl, _⟩
    have hlt := Timer.toMicroseconds_lt (Timer.start - soc.clock.count 1)
    have hshows := shows_columnsOf hlt record
    refine ⟨_, _, ?_, toList_logLine _ record, hshows⟩
    rw [printRecord, bind_of_ok htime, Console.printAll_eq_print_join]
    rfl
  · intro time octets hsends htarget
    rcases hsends.eq_wire huart with ⟨htime, rfl⟩
    have hread := readLine?_logLine htime htarget
    refine ⟨hread, ?_⟩
    intro soc' time' record' hsends' htarget'
    rcases hsends'.eq_wire huart with ⟨htime', hsame⟩
    rw [hsame, readLine?_logLine htime' htarget'] at hread
    exact Prod.mk.inj (Option.some.inj hread)
  · intro hpolls
    rcases exists_elapsed hpolls with ⟨sampled, helapsed, _⟩
    exact ⟨_, sampled, bind_of_ok helapsed⟩
  · intro hline
    rcases exists_sendsLine hline variant record with ⟨bound, hbound⟩
    exact ⟨bound, fun patience hpatience => ⟨_, hbound patience hpatience⟩⟩

/-- A record whose message goes on with what looks like another record. -/
def misleadingRecord : Record where
  severity := .info
  target := "link"
  message := "up\r\n[     0.000000s]  WARN(link): down"

/-- A fresh board whose timer has not been started reads its largest time. -/
theorem log_lines_read_back_of_misleading_record :
    Variant.full.uart = true ∧ ')' ∉ misleadingRecord.target.toList ∧ ∃ patience octets,
      SendsLine .full { patience } 89478485 misleadingRecord octets ∧
        readLine? octets = some (89478485, misleadingRecord) := by
  have huart : Variant.full.uart = true := rfl
  have htarget : ')' ∉ misleadingRecord.target.toList := by decide
  rcases exists_sendsLine (lineClears_of_fresh 0 0) .full misleadingRecord with ⟨bound, hbound⟩
  rcases hbound bound le_rfl with ⟨octets, hsends⟩
  refine ⟨huart, htarget, bound, octets, hsends, ?_⟩
  exact ((log_lines_read_back huart _ misleadingRecord).2.1 _ _ hsends htarget).1

end Board
end TimingEye
