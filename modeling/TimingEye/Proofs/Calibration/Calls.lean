import Mathlib.Data.Nat.Bitwise
import TimingEye.Proofs.Calibration.Course

/-!
# The calls of a calibration

What the hardware sees of a calibration, setting by setting, and how the answers of each setting
are found again among its calls.

* `settingCalls`, `rejectedCalls`: the calls at one setting, and those up to an accepted one;
* `answerRows`: the answers of each setting, read off a list of calls;
* `calibrationRun`: a calibration on watched hardware, from a fresh transcript.
-/

namespace TimingEye

/-! ## Delays and slips of a setting -/

theorem toNat_clockTaps (coarse : UInt8) : (clockTaps coarse).toNat = coarse.toNat / 4 := by
  calc
    (clockTaps coarse).toNat = coarse.toNat >>> 2 := UInt8.toNat_shiftRight coarse 2
    _ = coarse.toNat / 4 := Nat.shiftRight_eq_div_pow coarse.toNat 2

theorem clockTaps_ofNat {coarse : Nat} (h : coarse < 256) :
    clockTaps (UInt8.ofNat coarse) = UInt8.ofNat (coarse / 4) := by
  have hquarter : coarse / 4 < 256 := (Nat.div_le_self coarse 4).trans_lt h
  apply UInt8.toNat_inj.mp
  calc
    (clockTaps (UInt8.ofNat coarse)).toNat = (UInt8.ofNat coarse).toNat / 4 := toNat_clockTaps _
    _ = coarse / 4 := by rw [UInt8.toNat_ofNat_of_lt' h]
    _ = (UInt8.ofNat (coarse / 4)).toNat := (UInt8.toNat_ofNat_of_lt' hquarter).symm

theorem SubPhase.ofCoarse_eq (coarse : UInt8) :
    SubPhase.ofCoarse coarse = ⟨coarse.toNat.testBit 0, coarse.toNat.testBit 1⟩ := by
  -- A mask of one bit tells whether that bit is set.
  have hbit : ∀ (place : Nat) (mask : UInt8), mask.toNat = 2 ^ place →
      (coarse &&& mask != 0) = coarse.toNat.testBit place := by
    intro place mask hmask
    rw [Bool.eq_iff_iff, bne_iff_ne, ne_eq, ← UInt8.toNat_inj, UInt8.toNat_and, hmask,
      Nat.and_two_pow]
    cases coarse.toNat.testBit place <;> simp
  rw [SubPhase.ofCoarse, hbit 0 1 rfl, hbit 1 2 rfl]

/-! ## Calls by setting -/

/-- The calls of some probes: each of them with a null step. -/
def probeCalls (row : List Bool) : List Call :=
  row.flatMap fun passed => [.probe passed, .stepPhase .null]

@[simp] theorem probeCalls_cons (passed : Bool) (rest : List Bool) :
    probeCalls (passed :: rest) = .probe passed :: .stepPhase .null :: probeCalls rest := rfl

@[simp] theorem probeCalls_append (first second : List Bool) :
    probeCalls (first ++ second) = probeCalls first ++ probeCalls second :=
  List.flatMap_append

/-- The calls at one setting: its delays, then its probes. -/
def settingCalls (coarse : Nat) (row : List Bool) : List Call :=
  .setDelay .clock (UInt8.ofNat (coarse / 4)) :: .setDelay .io 0 :: probeCalls row

/-- The calls at a setting that was rejected, with the slip into the next one. -/
def rejectedSettingCalls (coarse : Nat) (row : List Bool) : List Call :=
  settingCalls coarse row ++ [.slip (SubPhase.ofCoarse (UInt8.ofNat (coarse + 1)))]

/-- The calls at the settings that were rejected, from the first setting on. -/
def rejectedCalls (rows : List (List Bool)) : List Call :=
  rows.zipIdx.flatMap fun (row, coarse) => rejectedSettingCalls coarse row

theorem rejectedCalls_concat (rows : List (List Bool)) (row : List Bool) :
    rejectedCalls (rows ++ [row]) =
      rejectedCalls rows ++ rejectedSettingCalls rows.length row := by
  simp [rejectedCalls, List.zipIdx_append]

theorem calls_probeEvents (marked : Bool) (row : List Bool) :
    calls (probeEvents marked row) = probeCalls row := by
  -- The marks are reports, which are no calls.
  induction row generalizing marked with
  | nil => rfl
  | cons passed rest ih =>
    cases marked <;> simp [probeEvents, Event.call?, ih]

theorem calls_settingEvents {params : Params} {coarse : Nat} {row : List Bool}
    (h : coarse < 256) :
    calls (settingEvents params (UInt8.ofNat coarse) row) = settingCalls coarse row := by
  rw [settingEvents, calls_append, calls_append, calls_probeEvents, clockTaps_ofNat h]
  simp [Event.call?, settingCalls, calibrationRecord, ioTaps]

theorem calls_rejectedEvents {params : Params} {rows : List (List Bool)}
    (h : rows.length ≤ 256) : calls (rejectedEvents params rows) = rejectedCalls rows := by
  induction rows using List.reverseRecOn with
  | nil => rfl
  | append_singleton rows row ih =>
    rw [List.length_append, List.length_singleton] at h
    have hsetting : calls (rejectedSettingEvents params rows.length row) =
        rejectedSettingCalls rows.length row := by
      rw [rejectedSettingEvents, calls_append, calls_settingEvents (by omega)]
      rfl
    calc
      calls (rejectedEvents params (rows ++ [row]))
          = calls (rejectedEvents params rows) ++
              calls (rejectedSettingEvents params rows.length row) := by
        rw [rejectedEvents_concat, calls_append]
      _ = rejectedCalls rows ++ rejectedSettingCalls rows.length row := by
        rw [ih (by omega), hsetting]
      _ = rejectedCalls (rows ++ [row]) := (rejectedCalls_concat rows row).symm

/-- The calls of a calibration, by its verdict. -/
theorem Course.exists_rows {params : Params} {events : List Event} {verdict : Verdict}
    (h : Course params events verdict) :
    (∃ rejected row, (∀ earlier ∈ rejected, params.Rejects earlier) ∧ params.Accepts row ∧
      rejected.length < params.coarseSteps.toNat ∧
      verdict = .calibrated (operatingPoint rejected.length (params.window row)) ∧
      calls events = rejectedCalls rejected ++ settingCalls rejected.length row ++
        List.replicate (params.window row / 2) (.stepPhase .up)) ∨
    (∃ rejected sweep, (∀ earlier ∈ rejected, params.Rejects earlier) ∧
      rejected.length = params.coarseSteps.toNat ∧
      verdict = .exhausted sweep ∧ sweep.coarseSteps = params.coarseSteps ∧
      IsGreatest {n | HasPassRunIn rejected n} sweep.longestRun.toNat ∧
      calls events = rejectedCalls rejected) := by
  have hoctet : params.coarseSteps.toNat < 256 := params.coarseSteps.toNat_lt
  cases h with
  | accepted rejected row hrejected haccepted hlength =>
    have hups : calls (List.replicate (params.window row / 2) (.act (.stepPhase .up))) =
        List.replicate (params.window row / 2) (.stepPhase .up) :=
      List.filterMap_replicate_of_some rfl
    refine .inl ⟨rejected, row, hrejected, haccepted, hlength, rfl, ?_⟩
    rw [calls_append, calls_append, calls_append, calls_rejectedEvents (by omega),
      calls_settingEvents (by omega), hups]
    exact List.append_nil _
  | exhausted rejected sweep hrejected hlength hsteps hlongest =>
    refine .inr ⟨rejected, sweep, hrejected, hlength, rfl, hsteps, hlongest, ?_⟩
    rw [calls_append, calls_rejectedEvents (by omega)]
    exact List.append_nil _

/-! ## The answers among the calls -/

/-- Adds a call in front of others: a probe to the row it belongs to, and a clock delay as the
start of a row. -/
def Call.addToRows : Call → List Bool × List (List Bool) → List Bool × List (List Bool)
  | .probe passed, (row, rows) => (passed :: row, rows)
  | .setDelay .clock _, (row, rows) => ([], row :: rows)
  | _, rows => rows

/-- The answers at each setting: a row for each time the clock delay is set. -/
def answerRows (calls : List Call) : List (List Bool) :=
  (calls.foldr Call.addToRows ([], [])).2

theorem foldr_addToRows_settingCalls (coarse : Nat) (row : List Bool) (rows : List (List Bool)) :
    (settingCalls coarse row).foldr Call.addToRows ([], rows) = ([], row :: rows) := by
  have hprobes : (probeCalls row).foldr Call.addToRows ([], rows) = (row, rows) := by
    induction row with
    | nil => rfl
    | cons passed rest ih => simp [Call.addToRows, ih]
  simp [settingCalls, Call.addToRows, hprobes]

theorem foldr_addToRows_rejectedCalls (rejected rows : List (List Bool)) :
    (rejectedCalls rejected).foldr Call.addToRows ([], rows) = ([], rejected ++ rows) := by
  induction rejected using List.reverseRecOn generalizing rows with
  | nil => rfl
  | append_singleton rejected row ih =>
    -- The fold runs from the end: the slip adds nothing, then the last setting closes its row.
    rw [rejectedCalls_concat, rejectedSettingCalls, List.foldr_append, List.foldr_append]
    change (rejectedCalls rejected).foldr Call.addToRows
      ((settingCalls rejected.length row).foldr Call.addToRows ([], rows)) = _
    rw [foldr_addToRows_settingCalls, ih, List.append_cons]

theorem answerRows_rejectedCalls (rejected : List (List Bool)) :
    answerRows (rejectedCalls rejected) = rejected := by
  rw [answerRows, foldr_addToRows_rejectedCalls, List.append_nil]

theorem answerRows_accepted (rejected : List (List Bool)) (row : List Bool) (steps : Nat) :
    answerRows (rejectedCalls rejected ++ settingCalls rejected.length row ++
      List.replicate steps (.stepPhase .up)) = rejected ++ [row] := by
  have hups : (List.replicate steps (Call.stepPhase .up)).foldr Call.addToRows ([], []) =
      ([], []) := by
    induction steps with
    | zero => rfl
    | succ steps ih => rw [List.replicate_succ, List.foldr_cons, ih]; rfl
  rw [answerRows, List.foldr_append, List.foldr_append, hups, foldr_addToRows_settingCalls,
    foldr_addToRows_rejectedCalls]

/-! ## Runs from a fresh transcript -/

/-- A calibration on watched hardware: its outcome, what was seen of it, and the state it leaves
the hardware in. -/
def calibrationRun {σ : Type} (hardware : Hardware (StateM σ)) (params : Params)
    (progress : Option Sink) (threshold : Threshold) (start : σ) :
    (Except Overflow Verdict × Transcript) × σ :=
  ((calibrate params).watch hardware { progress, threshold }).run start

theorem exists_course_calibrationRun {σ : Type} (hardware : Hardware (StateM σ))
    (params : Params) (progress : Option Sink) (threshold : Threshold) (start : σ) :
    ∃ events verdict, Course params events verdict ∧
      Trail hardware.Performs start (calls events)
        (calibrationRun hardware params progress threshold start).2 ∧
      (calibrationRun hardware params progress threshold start).1.1 = .ok verdict ∧
      (calibrationRun hardware params progress threshold start).1.2.calls.toList =
        calls events := by
  rcases exists_course_watch hardware params { progress, threshold } start with
    ⟨events, verdict, final, hcourse, htrail, hrun⟩
  refine ⟨events, verdict, hcourse, ?_⟩
  rw [calibrationRun, hrun]
  exact ⟨htrail, rfl, Transcript.calls_foldl_seen events _⟩

end TimingEye
