import TimingEye.Phy.Bank

/-!
# The timing of a register bank

What a bank makes of control-line writes depends on its lines and its counters alone, and changes
nothing else.  A write clears the counter of its line, advances it, or leaves it alone.

* `Meter`, `Timing`: the counters of a bank, and the levels of its lines along with them;
* `Timing.written`, `Timing.driven`: what one write and several writes make of them;
* `Bank.Written`: the effect on the bank of a write that goes through.
-/

namespace TimingEye
namespace Phy

/-- One of the counters of a bank. -/
inductive Meter where
  | taps (line : DelayLine)
  | steps (direction : PhaseDirection)
  | hr2x90Slips
  | hr2xSlips
  deriving DecidableEq, Repr

/-- The counter that a line clears while it is low. -/
def Meter.cleared : Signal → Option Meter
  | .clkLoadn => some (.taps .clock)
  | .ioLoadn => some (.taps .io)
  | _ => none

/-- The levels of the lines and the readings of the counters. -/
@[ext]
structure Timing where
  level : Signal → UInt8
  meter : Meter → Nat

namespace Timing

/-- The counter that a rising edge of a line advances. -/
def advanced (timing : Timing) : Signal → Option Meter
  | .clkMove => some (.taps .clock)
  | .ioMove => some (.taps .io)
  | .phaseStep => some (.steps (if timing.level .phaseDir = 0 then .null else .up))
  | .slipHr2x90 => some .hr2x90Slips
  | .slipHr2x => some .hr2xSlips
  | _ => none

/-- The timing after a write. -/
def written (timing : Timing) (signal : Signal) (value : UInt8) : Timing where
  level other := if other = signal then value else timing.level other
  meter meter :=
    if Meter.cleared signal = some meter ∧ value = 0 then 0
    else if timing.advanced signal = some meter ∧ timing.level signal = 0 ∧ value ≠ 0 then
      timing.meter meter + 1
    else timing.meter meter

/-- The timing after writes in order. -/
def driven (timing : Timing) (writes : List (Signal × UInt8)) : Timing :=
  writes.foldl (fun timing write => timing.written write.1 write.2) timing

@[simp] theorem driven_nil (timing : Timing) : timing.driven [] = timing := rfl

@[simp] theorem driven_cons (timing : Timing) (write : Signal × UInt8)
    (rest : List (Signal × UInt8)) :
    timing.driven (write :: rest) = (timing.written write.1 write.2).driven rest := rfl

theorem driven_append (timing : Timing) (first second : List (Signal × UInt8)) :
    timing.driven (first ++ second) = (timing.driven first).driven second :=
  List.foldl_append

end Timing

namespace Bank

/-- The timing of a bank. -/
def timing (bank : Bank) : Timing where
  level := bank.lines.level
  meter
    | .taps .clock => bank.clockTaps.toNat
    | .taps .io => bank.ioTaps.toNat
    | .steps .null => bank.nullSteps.toNat
    | .steps .up => bank.upSteps.toNat
    | .hr2x90Slips => bank.hr2x90Slips.toNat
    | .hr2xSlips => bank.hr2xSlips.toNat

/-! ## Single writes -/

/-- Two banks differ in their counters at most. -/
structure SameButMeters (before after : Bank) : Prop where
  lines : after.lines = before.lines
  accesses : after.accesses = before.accesses
  retention : after.retention = before.retention
  cell : after.cell = before.cell
  forced : after.forced = before.forced

/-- The effect of a write that goes through. -/
structure Written (signal : Signal) (value : UInt8) (before after : Bank) : Prop where
  same : SameButMeters (before.driven signal value) after
  timing : after.timing = before.timing.written signal value

/-- Advances a counter. -/
def advance (bank : Bank) : Meter → Except Overflow Bank
  | .taps .clock => (nextOctet bank.clockTaps).map ({ bank with clockTaps := · })
  | .taps .io => (nextOctet bank.ioTaps).map ({ bank with ioTaps := · })
  | .steps .null => (nextWord bank.nullSteps).map ({ bank with nullSteps := · })
  | .steps .up => (nextWord bank.upSteps).map ({ bank with upSteps := · })
  | .hr2x90Slips => (nextWord bank.hr2x90Slips).map ({ bank with hr2x90Slips := · })
  | .hr2xSlips => (nextWord bank.hr2xSlips).map ({ bank with hr2xSlips := · })

theorem of_map_eq_ok {ε α β : Type} {counted : Except ε α} {f : α → β} {result : β}
    (h : counted.map f = .ok result) : ∃ value, counted = .ok value ∧ f value = result := by
  cases counted with
  | error _ => cases h
  | ok value =>
    cases h
    exact ⟨value, rfl, rfl⟩

theorem of_advance {bank after : Bank} {moved : Meter} (h : bank.advance moved = .ok after) :
    SameButMeters bank after ∧ ∀ meter, after.timing.meter meter =
      if moved = meter then bank.timing.meter meter + 1 else bank.timing.meter meter := by
  rcases moved with (_ | _) | (_ | _) | _ | _ <;> rcases of_map_eq_ok h with ⟨count, hcount, rfl⟩
  case taps.clock | taps.io =>
    have hvalue := toNat_of_nextOctet_eq_ok hcount
    refine ⟨⟨rfl, rfl, rfl, rfl, rfl⟩, ?_⟩
    rintro ((_ | _) | (_ | _) | _ | _) <;> simp [timing, hvalue]
  all_goals
    have hvalue := toNat_of_nextWord_eq_ok hcount
    refine ⟨⟨rfl, rfl, rfl, rfl, rfl⟩, ?_⟩
    rintro ((_ | _) | (_ | _) | _ | _) <;> simp [timing, hvalue]

/-- An edge does nothing but advance the counter of its line, if it has one. -/
theorem react_eq_advance {signal : Signal} {value : UInt8} (bank : Bank)
    (h : Meter.cleared signal = none ∨ value ≠ 0) :
    bank.react value true signal =
      match bank.timing.advanced signal with
      | some meter => bank.advance meter
      | none => .ok bank := by
  cases signal
  -- Driven high, the lines that clear a counter do nothing.
  case clkLoadn | ioLoadn =>
    rcases h with h | h
    · cases h
    · simp [react, Timing.advanced, h]
  case phaseStep =>
    by_cases hdir : bank.lines.level .phaseDir = 0 <;>
      simp [react, Timing.advanced, timing, advance, hdir]
  all_goals rfl

theorem react_of_no_edge {signal : Signal} {value : UInt8} (bank : Bank)
    (h : Meter.cleared signal = none ∨ value ≠ 0) :
    bank.react value false signal = .ok bank := by
  cases signal
  case clkLoadn | ioLoadn =>
    rcases h with h | h
    · cases h
    · simp [react, h]
  all_goals rfl

theorem level_driven (bank : Bank) (signal : Signal) (value : UInt8) (other : Signal) :
    (bank.driven signal value).timing.level other =
      if other = signal then value else bank.timing.level other := by
  by_cases hsame : other = signal
  · rw [if_pos hsame, hsame]
    exact LineLevels.level_drive_self _ _ _
  · rw [if_neg hsame]
    exact LineLevels.level_drive_of_ne _ _ hsame

theorem advanced_driven (bank : Bank) (signal : Signal) (value : UInt8) :
    (bank.driven signal value).timing.advanced signal = bank.timing.advanced signal := by
  cases signal <;> simp [Timing.advanced, level_driven]

theorem rises_iff {bank : Bank} {signal : Signal} {value : UInt8} :
    bank.rises signal value = true ↔ bank.timing.level signal = 0 ∧ value ≠ 0 := by
  simp [rises, timing]

theorem SameButMeters.level {before after : Bank} (h : SameButMeters before after) :
    after.timing.level = before.timing.level :=
  congrArg LineLevels.level h.lines

/-- A write that moves a counter as it should has the effect of a write. -/
theorem Written.of_meter {signal : Signal} {value : UInt8} {before after : Bank}
    (same : SameButMeters (before.driven signal value) after)
    (hmeter : ∀ meter, after.timing.meter meter =
      (before.timing.written signal value).meter meter) :
    Written signal value before after := by
  refine ⟨same, ?_⟩
  ext other
  · rw [same.level, level_driven]
    rfl
  · exact hmeter other

/-- A line driven low clears its counter, if it has one to clear. -/
theorem written_of_clear {signal : Signal} {rising : Bool} {before after : Bank} {meter : Meter}
    (hcleared : Meter.cleared signal = some meter)
    (h : (before.driven signal 0).react 0 rising signal = .ok after) :
    Written signal 0 before after := by
  cases signal <;> cases hcleared <;> cases h
  case clkLoadn | ioLoadn =>
    refine .of_meter ⟨rfl, rfl, rfl, rfl, rfl⟩ ?_
    rintro ((_ | _) | (_ | _) | _ | _) <;>
      simp [Timing.written, Timing.advanced, timing, Meter.cleared, driven, noted]

/-- A write that goes through moves at most the counter of its own line. -/
theorem written_of_react {signal : Signal} {value : UInt8} {before after : Bank}
    (h : (before.driven signal value).react value (before.rises signal value) signal =
      .ok after) : Written signal value before after := by
  -- Clearing does not ask for an edge; apart from it, nothing happens without one.
  by_cases hclear : ∃ meter, Meter.cleared signal = some meter ∧ value = 0
  · rcases hclear with ⟨meter, hcleared, rfl⟩
    exact written_of_clear hcleared h
  · have hkept : Meter.cleared signal = none ∨ value ≠ 0 := by
      cases hcleared : Meter.cleared signal with
      | none => exact .inl rfl
      | some meter => exact .inr fun hlow => hclear ⟨meter, hcleared, hlow⟩
    have hmeter : ∀ meter, (before.timing.written signal value).meter meter =
        if before.timing.advanced signal = some meter ∧ before.rises signal value then
          before.timing.meter meter + 1 else before.timing.meter meter := by
      intro meter
      have hnot : ¬(Meter.cleared signal = some meter ∧ value = 0) :=
        fun hboth => hclear ⟨meter, hboth⟩
      simp only [Timing.written, if_neg hnot, rises_iff]
    cases hrising : before.rises signal value with
    | false =>
      rw [hrising, react_of_no_edge _ hkept] at h
      cases h
      refine .of_meter ⟨rfl, rfl, rfl, rfl, rfl⟩ fun meter => ?_
      rw [hmeter, hrising, if_neg fun hboth => Bool.false_ne_true hboth.2]
      rfl
    | true =>
      rw [hrising, react_eq_advance _ hkept, advanced_driven] at h
      cases hadvanced : before.timing.advanced signal with
      | none =>
        rw [hadvanced] at h
        cases h
        refine .of_meter ⟨rfl, rfl, rfl, rfl, rfl⟩ fun meter => ?_
        rw [hmeter, hadvanced, if_neg fun hboth => nomatch hboth.1]
        rfl
      | some moved =>
        rw [hadvanced] at h
        rcases of_advance h with ⟨hsame, hmoved⟩
        refine .of_meter hsame fun meter => ?_
        rw [hmeter, hmoved, hadvanced, hrising]
        simp [timing, driven, noted]

theorem write_eq_ok_iff {signal : Signal} {value : UInt8} {before after : Bank} :
    write signal value before = .ok () after ↔
      (before.driven signal value).react value (before.rises signal value) signal =
        .ok after := by
  unfold write
  dsimp only
  split
  case h_1 moved heq => simp [heq]
  case h_2 cause heq => simp [heq]

theorem written_of_write {signal : Signal} {value : UInt8} {before after : Bank}
    (h : write signal value before = .ok () after) : Written signal value before after :=
  written_of_react (write_eq_ok_iff.mp h)

end Bank

end Phy
end TimingEye
