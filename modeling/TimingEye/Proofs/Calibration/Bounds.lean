import TimingEye.Proofs.Calibration.Calls

/-!
# Counters that stay in bounds

The loops of a calibration count settings and passes.  The number of a setting stays below the
number of settings, and a window stays below the number of probes, because each of them is behind
the loop it is counted in.

* `Procedure.Throughout`: what holds at every point of a tree, given the events that lead there;
* `InBounds`: a point of a calibration, with the counters that are about to move there;
* `throughout_calibrate`: every point of every calibration is such a point.
-/

namespace TimingEye

/-! ## Every point of a tree -/

namespace Procedure

variable {α : Type} {p : List Event → Procedure α → Prop}

/-- Something holds at every point of a tree: of what remains of the tree there, and of the events
that lead there, which go on from those before the tree. -/
def Throughout (p : List Event → Procedure α → Prop) : Procedure α → List Event → Prop
  | done result, earlier => p earlier (done result)
  | overflow cause, earlier => p earlier (overflow cause)
  | act action next, earlier =>
    p earlier (act action next) ∧ next.Throughout p (earlier ++ [.act action])
  | probe next, earlier =>
    p earlier (probe next) ∧ ∀ passed, (next passed).Throughout p (earlier ++ [.probe passed])

end Procedure

open Procedure

/-! ## Points of a calibration -/

/-- Some events have rejected some settings and come to some answers at the next one. -/
def ComesTo (earlier : List Event) (rejected : List (List Bool)) (row : List Bool) : Prop :=
  calls earlier = rejectedCalls rejected ++ settingCalls rejected.length row

/-- A point of a calibration at which no counter is about to leave its bounds.  A probe is issued
by the loop over the probes, whose window counts the answers at this setting so far and has room for
one more pass.  A slip leads from a setting, whose number is that of the settings before it, into
the next one, which has a number too.  A counter that has left its word is at no such point. -/
inductive InBounds (params : Params) {α : Type} (earlier : List Event) : Procedure α → Prop where
  | done (result : α) : InBounds params earlier (.done result)
  | probing {rejected : List (List Bool)} {row : List Bool} {streak : Streak} (remaining : Nat)
      (marked : Bool) (rest : Streak → Procedure α) (hcomes : ComesTo earlier rejected row)
      (hcounts : streak.Counts row) (hwindow : streak.window.toNat + 1 ≤ params.probes.toNat) :
      InBounds params earlier (TimingEye.probing params (remaining + 1) marked streak >>= rest)
  | slip {rejected : List (List Bool)} {row : List Bool} {coarse : UInt8} (remaining : Nat)
      (longest : UInt32) (rest : Verdict → Procedure α) (hcomes : ComesTo earlier rejected row)
      (hcounts : coarse.toNat = rejected.length) (hcoarse : coarse.toNat + 1 ≤ 255) :
      InBounds params earlier (.act (.slip (SubPhase.ofCoarse (coarse + 1)))
        (sweeping params remaining (coarse + 1) longest >>= rest))
  | clockDelay {taps : UInt8} (next : Procedure α) (htaps : taps.toNat ≤ 63) :
      InBounds params earlier (.act (.setDelay .clock taps) next)
  | ioDelay (taps : UInt8) (next : Procedure α) :
      InBounds params earlier (.act (.setDelay .io taps) next)
  | stepPhase (direction : PhaseDirection) (next : Procedure α) :
      InBounds params earlier (.act (.stepPhase direction) next)
  | report (pieces : List String) (next : Procedure α) :
      InBounds params earlier (.act (.report pieces) next)
  | log (record : Record) (next : Procedure α) : InBounds params earlier (.act (.log record) next)

section

variable {params : Params} {α β : Type} {earlier : List Event}

theorem InBounds.bind {first : Procedure α} {next : α → Procedure β}
    (h : InBounds params earlier first)
    (hnext : ∀ value, first = .done value → InBounds params earlier (next value)) :
    InBounds params earlier (first >>= next) := by
  cases h with
  | done result => exact hnext result rfl
  | probing remaining marked rest hcomes hcounts hwindow =>
    rw [bind_assoc]
    exact .probing remaining marked _ hcomes hcounts hwindow
  | slip remaining longest rest hcomes hcounts hcoarse =>
    have hslip : InBounds params earlier (.act (.slip (SubPhase.ofCoarse _))
        (sweeping params remaining _ longest >>= fun verdict => rest verdict >>= next)) :=
      .slip remaining longest _ hcomes hcounts hcoarse
    rwa [← bind_assoc] at hslip
  | clockDelay rest htaps => exact .clockDelay _ htaps
  | ioDelay taps rest => exact .ioDelay taps _
  | stepPhase direction rest => exact .stepPhase direction _
  | report pieces rest => exact .report pieces _
  | log record rest => exact .log record _

/-- The points of a sequence are those of its first part and, after any path through that, those of
its second. -/
theorem throughout_bind {first : Procedure α} {next : α → Procedure β}
    (hfirst : first.Throughout (InBounds params) earlier)
    (hnext : ∀ events value, Path first events (.ok value) →
      (next value).Throughout (InBounds params) (earlier ++ events)) :
    (first >>= next).Throughout (InBounds params) earlier := by
  -- Each step moves one event from the path through the first part to the events before it.
  induction first generalizing earlier with
  | done result =>
    have hdone := hnext [] result (.done result)
    rwa [List.append_nil] at hdone
  | overflow cause =>
    have hhere : InBounds params earlier (Procedure.overflow cause >>= next) :=
      InBounds.bind hfirst nofun
    exact hhere
  | act action rest ih =>
    refine ⟨hfirst.1.bind nofun, ih hfirst.2 fun events value hpath => ?_⟩
    rw [← List.append_cons]
    exact hnext _ value (.act hpath)
  | probe rest ih =>
    refine ⟨hfirst.1.bind nofun, fun passed => ?_⟩
    refine ih passed (hfirst.2 passed) fun events value hpath => ?_
    rw [← List.append_cons]
    exact hnext _ value (.probe hpath)

theorem throughout_perform {action : Action} {next : Unit → Procedure α}
    (h : InBounds params earlier (.act action (next ())))
    (hnext : (next ()).Throughout (InBounds params) (earlier ++ [.act action])) :
    (perform action >>= next).Throughout (InBounds params) earlier :=
  ⟨h, hnext⟩

/-! ## One setting -/

/-- Another answer comes with a null step, and with a mark or without one. -/
theorem ComesTo.concat {rejected : List (List Bool)} {row : List Bool} {marks : List Event}
    (h : ComesTo earlier rejected row) (passed : Bool) (hmarks : calls marks = []) :
    ComesTo (earlier ++ [.probe passed] ++ [.act (.stepPhase .null)] ++ marks) rejected
      (row ++ [passed]) := by
  rw [ComesTo, calls_append, hmarks, List.append_nil, List.append_assoc, calls_append, h,
    settingCalls, settingCalls, probeCalls_append, List.append_assoc]
  rfl

/-- The window counts answers of the loop over the probes, so it stays behind that loop. -/
theorem throughout_probing {remaining : Nat} {streak : Streak} {rejected : List (List Bool)}
    {row : List Bool} (marked : Bool) (hcomes : ComesTo earlier rejected row)
    (hcounts : streak.Counts row) (hlength : row.length + remaining = params.probes.toNat) :
    (probing params remaining marked streak).Throughout (InBounds params) earlier := by
  -- The streak counts the answers so far at each turn, and while there are probes to come, there
  -- are fewer answers than probes.
  induction remaining generalizing earlier marked streak row with
  | zero => exact .done streak
  | succ remaining ih =>
    have hword : params.probes.toNat < 4294967296 := params.probes.toNat_lt
    have hwindow : streak.window.toNat + 1 ≤ params.probes.toNat := by
      have hle := endingPasses_le_length row
      rw [hcounts.window]
      omega
    have hhere : InBounds params earlier (probing params (remaining + 1) marked streak >>= pure) :=
      .probing remaining marked pure hcomes hcounts hwindow
    rw [bind_pure, probing_succ] at hhere
    rw [probing_succ]
    refine ⟨hhere, fun passed => ⟨.stepPhase _ _, ?_⟩⟩
    -- However an answer is marked, the loop goes on from it.
    have hnext : ∀ {marks : List Event} {next : Streak}, calls marks = [] →
        next.Counts (row ++ [passed]) →
        (probing params remaining (!marked) next).Throughout (InBounds params)
          (earlier ++ [.probe passed] ++ [.act (.stepPhase .null)] ++ marks) := by
      intro marks next hmarks hnextCounts
      refine ih _ (hcomes.concat passed hmarks) hnextCounts ?_
      rw [List.length_append, List.length_singleton]
      omega
    have hrest : ∀ {marks : List Event}, calls marks = [] →
        (if passed then
            checked streak.extended >>= probing params remaining (!marked)
          else if params.breakWindow ≤ streak.window then
            pure streak
          else
            probing params remaining (!marked) streak.restarted).Throughout (InBounds params)
          (earlier ++ [.probe passed] ++ [.act (.stepPhase .null)] ++ marks) := by
      intro marks hmarks
      cases passed with
      | true =>
        rcases hcounts.extended (by omega) with ⟨longer, hlonger, hlongerCounts⟩
        rw [if_pos rfl, hlonger]
        exact hnext hmarks hlongerCounts
      | false =>
        rw [if_neg Bool.false_ne_true]
        split
        · exact .done streak
        · exact hnext hmarks hcounts.restarted
    cases marked with
    | false =>
      have hunmarked := hrest calls_nil
      rw [List.append_nil] at hunmarked
      exact hunmarked
    | true => exact throughout_perform (.report _ _) (hrest rfl)

theorem throughout_measuring {rejected : List (List Bool)}
    (hrejected : calls earlier = rejectedCalls rejected) (hnumber : rejected.length < 256) :
    (measuring params (UInt8.ofNat rejected.length)).Throughout (InBounds params) earlier := by
  have htaps : (clockTaps (UInt8.ofNat rejected.length)).toNat ≤ 63 := by
    rw [toNat_clockTaps, UInt8.toNat_ofNat_of_lt' hnumber]
    omega
  rw [measuring]
  refine throughout_perform (.clockDelay _ htaps) ?_
  refine throughout_perform (.ioDelay _ _) ?_
  refine throughout_perform (.report _ _) ?_
  refine throughout_bind ?_ fun _ streak _ => ?_
  · have hcomes : ∀ pieces, ComesTo (earlier
        ++ [.act (.setDelay .clock (clockTaps (UInt8.ofNat rejected.length)))]
        ++ [.act (.setDelay .io ioTaps)] ++ [.act (.report pieces)]) rejected [] := by
      intro pieces
      simp [ComesTo, hrejected, settingCalls, clockTaps_ofNat hnumber, Event.call?, ioTaps,
        probeCalls]
    exact throughout_probing false (hcomes _) .nil (Nat.zero_add _)
  · exact throughout_perform (.report _ _) (throughout_perform (.log _ _) (.done streak))

/-! ## The whole search -/

theorem throughout_centering (coarse : UInt8) (window : UInt32) :
    (centering coarse window).Throughout (InBounds params) earlier := by
  have hstepping : ∀ steps earlier, (stepping steps).Throughout (InBounds params) earlier := by
    intro steps
    induction steps with
    | zero => exact fun _ => .done ()
    | succ steps ih => exact fun _ => throughout_perform (.stepPhase _ _) (ih _)
  exact throughout_bind (hstepping _ _) fun _ _ _ => .done _

/-- The number of a setting counts the settings before it, so it stays behind the loop over the
settings. -/
theorem throughout_sweeping {remaining : Nat} {rejected : List (List Bool)} (longest : UInt32)
    (hrejected : calls earlier = rejectedCalls rejected)
    (hlength : rejected.length + remaining = params.coarseSteps.toNat) :
    (sweeping params remaining (UInt8.ofNat rejected.length) longest).Throughout (InBounds params)
      earlier := by
  have hoctet := params.coarseSteps.toNat_lt
  -- The rejected rows are one for each setting before this one, so their number is its number.
  induction remaining generalizing earlier rejected longest with
  | zero => exact throughout_perform (.log _ _) (.done _)
  | succ remaining ih =>
    have hnumber : rejected.length < 256 := by omega
    have hcounts : (UInt8.ofNat rejected.length).toNat = rejected.length :=
      UInt8.toNat_ofNat_of_lt' hnumber
    have hnext : nextOctet (UInt8.ofNat rejected.length) =
        .ok (UInt8.ofNat rejected.length + 1) := nextOctet_of_lt (by omega)
    rw [sweeping]
    refine throughout_bind (throughout_measuring hrejected hnumber) fun events streak hpath => ?_
    rcases of_path_measuring hpath with ⟨row, _, _, rfl, _⟩
    have hcomes : ComesTo (earlier ++ settingEvents params (UInt8.ofNat rejected.length) row)
        rejected row := by
      rw [ComesTo, calls_append, calls_settingEvents hnumber, hrejected]
    by_cases haccept : params.acceptWindow ≤ streak.window
    · rw [if_pos haccept]
      exact throughout_bind (throughout_centering _ _) fun _ _ _ =>
        throughout_perform (.log _ _) (.done _)
    · have hslip : InBounds params _ (.act (.slip (SubPhase.ofCoarse _))
          (sweeping params remaining _ (max longest streak.longest) >>= pure)) :=
        .slip remaining _ pure hcomes hcounts (by omega)
      rw [bind_pure] at hslip
      rw [if_neg haccept, hnext]
      refine throughout_perform hslip ?_
      have hsucc : UInt8.ofNat rejected.length + 1 = UInt8.ofNat (rejected ++ [row]).length := by
        rw [List.length_append, List.length_singleton, UInt8.ofNat_add]
        rfl
      rw [hsucc]
      refine ih _ ?_ ?_
      · rw [calls_append, hcomes, rejectedCalls_concat, rejectedSettingCalls, List.append_assoc]
        simp [Event.call?, UInt8.ofNat_add]
      · rw [List.length_append, List.length_singleton]
        omega

/-- No counter of a calibration leaves its bounds, whatever the hardware answers. -/
theorem throughout_calibrate (params : Params) :
    (calibrate params).Throughout (InBounds params) [] := by
  have hnone : calls [] = rejectedCalls [] := rfl
  exact throughout_sweeping 0 hnone (Nat.zero_add _)

end

end TimingEye
