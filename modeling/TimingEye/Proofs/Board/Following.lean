import TimingEye.Proofs.Board.Footprint
import TimingEye.Proofs.Phy.Ledger

/-!
# What the control lines are left at

The control lines of a board and the taps on its clock follow the calls of a calibration, whatever
they stood at before it.  All it takes is that the lines that are pulsed were low.

* `Interface.timing`, `Follows`: the timing that a memory interface stands at, or follows;
* `Follows.occurs`, `Follows.trail`: the events of a calibration, one after another;
* `Interface.RestsAt`, `restsAt_of_course`: where a calibration leaves the lines and the taps.
-/

namespace TimingEye

/-! ## Calls -/

/-- A calibration has called for the operating point that it reports. -/
theorem Course.leftAt {params : Params} {events : List Event} {point : Calibrated}
    (h : Course params events (.calibrated point)) : LeftAt (calls events) point := by
  have hoctet := params.coarseSteps.toNat_lt
  rcases h.exists_rows with ⟨rejected, row, _, haccepted, hlength, hverdict, heq⟩ |
    ⟨_, _, _, _, hverdict, _⟩
  · cases hverdict
    rw [heq]
    exact leftAt_operatingPoint (hlength.trans hoctet) haccepted.window_lt
  · cases hverdict

/-- The clock delay of an operating point is a quarter of its setting. -/
theorem Course.clkDelay_eq {params : Params} {events : List Event} {point : Calibrated}
    (h : Course params events (.calibrated point)) :
    point.clkDelay.toNat = point.coarse.toNat / 4 := by
  cases h
  exact toNat_clockTaps _

/-- A window worth accepting has a middle that takes steps to get to. -/
theorem Course.up_mem_calls {params : Params} {events : List Event} {point : Calibrated}
    (h : Course params events (.calibrated point)) (hwindow : 2 ≤ params.acceptWindow.toNat) :
    .stepPhase .up ∈ calls events := by
  rcases h.exists_rows with ⟨rejected, row, _, haccepted, _, _, heq⟩ |
    ⟨_, _, _, _, hverdict, _⟩
  · have hhalf : 0 < params.window row / 2 :=
      Nat.div_pos (hwindow.trans haccepted.le_window) Nat.two_pos
    rw [heq]
    exact List.mem_append_right _ (List.mem_replicate.mpr ⟨hhalf.ne', rfl⟩)
  · cases hverdict

namespace Phy
namespace Timing

theorem AtRest.afterAll {timing : Timing} (h : timing.AtRest) (calls : List Call) :
    (timing.afterAll calls).AtRest := by
  induction calls using List.reverseRecOn with
  | nil => exact h
  | append_singleton calls call ih =>
    rw [afterAll_concat]
    exact ih.after call

/-- Each step selects the first output of the clock generator, and nothing else selects any. -/
theorem phaseSel_afterAll (timing : Timing) {calls : List Call} {direction : PhaseDirection}
    (h : .stepPhase direction ∈ calls) : (timing.afterAll calls).level .phaseSel = 0 := by
  have hsome : stepsOf calls ≠ [] := by
    intro hnone
    have hmem : direction ∈ stepsOf calls := List.mem_filterMap.mpr ⟨_, h, rfl⟩
    rw [hnone] at hmem
    cases hmem
  rw [(phaseLines_afterAll timing calls).2, if_neg hsome]

end Timing
end Phy

namespace Board

/-! ## Boards that follow a timing -/

/-- The timing that a memory interface stands at.  Which of its lines are high is all that matters
about them, and the move line of the inputs does not matter at all. -/
def Interface.timing (interface : Interface) : Phy.Timing where
  level signal := if signal = .ioMove ∨ interface.level signal = 0 then 0 else 1
  meter
    | .taps .clock => interface.clockTaps
    | _ => 0

/-- A memory interface follows a timing: the same lines are low, and there are as many taps on the
clock. -/
structure Follows (timing : Phy.Timing) (interface : Interface) : Prop where
  level : ∀ signal, signal ≠ .ioMove → (interface.level signal = 0 ↔ timing.level signal = 0)
  clockTaps : interface.clockTaps = timing.meter (.taps .clock)

theorem follows_timing (interface : Interface) : Follows interface.timing interface := by
  refine ⟨?_, rfl⟩
  intro signal hother
  by_cases hlow : interface.level signal = 0 <;> simp [Interface.timing, hother, hlow]

/-- The lines that are pulsed, other than the move line of the inputs. -/
def pulsedLines : List Signal :=
  [.clkMove, .slipHr2x90, .slipHr2x]

theorem atRest_timing {interface : Interface}
    (h : ∀ signal ∈ pulsedLines, interface.level signal = 0) : interface.timing.AtRest := by
  have hlow : ∀ signal ∈ pulsedLines, interface.timing.level signal = 0 := by
    intro signal hmem
    exact if_pos (.inr (h signal hmem))
  have hio : interface.timing.level .ioMove = 0 := by
    simp [Interface.timing]
  refine ⟨?_, hlow .slipHr2x90 (by decide), hlow .slipHr2x (by decide)⟩
  rintro (_ | _)
  · exact hlow .clkMove (by decide)
  · exact hio

namespace Follows

variable {timing : Phy.Timing} {interface : Interface} {before after : State} {variant : Variant}

theorem driven {signal : Signal} {value : UInt8} (h : Follows timing interface) :
    Follows (timing.written signal value) (interface.driven signal value) := by
  constructor
  case level =>
    intro other hother
    by_cases hsame : other = signal
    · simp [Interface.driven, Phy.Timing.written, hsame, toUInt32_eq_zero_iff]
    · simpa [Interface.driven, Phy.Timing.written, hsame] using h.level other hother
  case clockTaps =>
    have hmove := h.level .clkMove (by decide)
    cases signal <;>
      simp [Interface.driven, Phy.Timing.written, Phy.Timing.advanced, Phy.Meter.cleared,
        h.clockTaps, hmove]

theorem drive {writes : List (Signal × UInt8)} (h : Follows timing before.soc.interface)
    (hrun : registers.drive writes before = .ok () after) :
    Follows (timing.driven writes) after.soc.interface := by
  induction writes generalizing timing before with
  | nil =>
    cases hrun
    exact h
  | cons write rest ih =>
    rcases bind_eq_ok_iff.mp hrun with ⟨_, middle, hfirst, hrest⟩
    rcases exists_drive write.1 write.2 before.soc with ⟨driven, hdriven, hinterface⟩
    have hwrite : registers.write write.1 write.2 before = .ok () ⟨driven, before.log⟩ := by
      simp only [registers, onBus, hdriven]
    cases hwrite.symm.trans hfirst
    have hmiddle : Follows (timing.written write.1 write.2) driven.interface := by
      rw [hinterface]
      exact h.driven
    exact ih hmiddle hrest

/-- The memory word is checked without a change to the lines. -/
theorem check {patterns : List UInt32} {passed : Bool} (h : Follows timing before.soc.interface)
    (hrun : registers.check patterns before = .ok passed after) :
    Follows timing after.soc.interface := by
  have hkeeps : Completes (fun before after : State =>
      Follows timing before.soc.interface → Follows timing after.soc.interface)
        (registers.check patterns) := by
    refine completes_check (fun _ => id) (fun hfirst hsecond => hsecond ∘ hfirst) ?_ ?_
    · intro pattern _ before _ after hstore hfollows
      cases hstore
      exact ⟨hfollows.level, hfollows.clockTaps⟩
    · intro before _ after hload hfollows
      cases hload
      exact ⟨hfollows.level, hfollows.clockTaps⟩
  exact hkeeps _ _ _ hrun h

theorem of_same {before after : Soc} (h : Follows timing before.interface)
    (hsame : SameInterface before after) : Follows timing after.interface := by
  rw [hsame]
  exact h

/-- An event changes the timing as its call does, and a report does not change it. -/
theorem occurs {event : Event} (h : Follows timing before.soc.interface) (hrest : timing.AtRest)
    (hoccurs : Occurs variant event before after) :
    Follows (timing.afterAll (calls [event])) after.soc.interface := by
  cases event with
  | probe passed => exact h.check hoccurs
  | act action =>
    cases action with
    | setDelay line taps =>
      have hdriven := h.drive hoccurs
      rwa [Phy.Timing.driven_delayWrites (hrest.move line)] at hdriven
    | stepPhase direction =>
      have hdriven := h.drive hoccurs
      rwa [Phy.Timing.driven_stepWrites] at hdriven
    | slip subPhase =>
      have hdriven := h.drive hoccurs
      rwa [Phy.Timing.driven_slipWrites hrest.slipHr2x90 hrest.slipHr2x] at hdriven
    | report pieces =>
      exact h.of_same (Completes.of_settles (aside_report variant rfl) _ _ _ hoccurs)
    | log record =>
      exact h.of_same (Completes.of_settles (aside_report variant rfl) _ _ _ hoccurs)

/-- A memory interface follows the timing along some events. -/
theorem trail {events : List Event} (h : Follows timing before.soc.interface)
    (hrest : timing.AtRest) (htrail : Trail (Occurs variant) before events after) :
    Follows (timing.afterAll (calls events)) after.soc.interface := by
  -- Each event leaves the pulsed lines low again, and so the next one finds them as it needs them.
  induction htrail generalizing timing with
  | nil _ => exact h
  | @cons event rest _ _ _ hoccurs _ ih =>
    have hsplit : timing.afterAll (calls (event :: rest)) =
        (timing.afterAll (calls [event])).afterAll (calls rest) := by
      have hcalls : calls (event :: rest) = calls [event] ++ calls rest := calls_append [event] rest
      rw [hcalls]
      exact List.foldl_append
    rw [hsplit]
    exact ih (h.occurs hrest hoccurs) (hrest.afterAll _)

end Follows

/-! ## Where a calibration leaves them -/

/-- The lines are at rest, and the taps on the clock are those of a setting. -/
structure Interface.RestsAt (coarse : UInt8) (interface : Interface) : Prop where
  pulses : ∀ signal ∈ pulsedLines, interface.level signal = 0
  phaseSel : interface.level .phaseSel = 0
  clockTaps : interface.clockTaps = coarse.toNat / 4

/-- A calibration leaves the lines at rest, if those that are pulsed have been low before. -/
theorem restsAt_of_course {variant : Variant} {params : Params} {events : List Event}
    {point : Calibrated} {before after : State} (hcourse : Course params events (.calibrated point))
    (hwindow : 2 ≤ params.acceptWindow.toNat)
    (htrail : Trail (Occurs variant) before events after)
    (hlow : ∀ signal ∈ pulsedLines, before.soc.interface.level signal = 0) :
    after.soc.interface.RestsAt point.coarse := by
  have hrest := atRest_timing hlow
  have hfollows := (follows_timing before.soc.interface).trail hrest htrail
  have hafter := hrest.afterAll (calls events)
  constructor
  case pulses =>
    intro signal hmem
    simp only [pulsedLines, List.mem_cons, List.not_mem_nil, or_false] at hmem
    rcases hmem with rfl | rfl | rfl
    · exact (hfollows.level .clkMove (by decide)).mpr (hafter.move .clock)
    · exact (hfollows.level .slipHr2x90 (by decide)).mpr hafter.slipHr2x90
    · exact (hfollows.level .slipHr2x (by decide)).mpr hafter.slipHr2x
  case phaseSel =>
    apply (hfollows.level .phaseSel (by decide)).mpr
    exact Phy.Timing.phaseSel_afterAll _ (hcourse.up_mem_calls hwindow)
  case clockTaps =>
    have htaps := Phy.Timing.delayLine_afterAll before.soc.interface.timing hcourse.leftAt.clkDelay
    calc
      after.soc.interface.clockTaps = _ := hfollows.clockTaps
      _ = point.clkDelay.toNat := htaps.1
      _ = point.coarse.toNat / 4 := hcourse.clkDelay_eq

end Board
end TimingEye
