import TimingEye.Board.Script
import TimingEye.Proofs.Board.Frame

/-!
# Boards that are alike apart from their lines

A computation on the bus that polls its serial line finds the line busy for longer on one board than
on another.  As long as neither of them waits for good, it comes to the same end on both.

* `Agree`: pairs of computations that come to the same end, unless a poll cuts one of them;
* `Soc.Alike`: boards that are alike apart from their lines and the polls of them;
* `agree_write`, `agree_read`: single accesses;
* `agree_send`, `agree_wait`: the console and the timer, each board polling as often as it has to.
-/

namespace TimingEye
namespace Board

/-! ## Pairs of computations -/

/-- Two computations have come to the same end, in related states, unless a poll that goes on for
good has cut one of them. -/
inductive SameEnd {σ α : Type} (related : σ → σ → Prop) :
    EStateM.Result Halt σ α → EStateM.Result Halt σ α → Prop where
  | ended (value : α) {after after' : σ} (h : related after after') :
      SameEnd related (.ok value after) (.ok value after')
  | halted (halt : Halt) {after after' : σ} (h : related after after') :
      SameEnd related (.error halt after) (.error halt after')
  | cutFirst (poll : Poll) (after : σ) (outcome : EStateM.Result Halt σ α) :
      SameEnd related (.error (.stalled poll) after) outcome
  | cutSecond (poll : Poll) (after : σ) (outcome : EStateM.Result Halt σ α) :
      SameEnd related outcome (.error (.stalled poll) after)

/-- From related states, two computations come to the same end. -/
def Agree {σ α : Type} (related : σ → σ → Prop) (act act' : EStateM Halt σ α) : Prop :=
  ∀ before before', related before before' → SameEnd related (act before) (act' before')

namespace Agree

variable {σ α β : Type} {related : σ → σ → Prop}

theorem pure (value : α) :
    Agree related (Pure.pure value : EStateM Halt σ α) (Pure.pure value) := by
  intro before before' h
  exact .ended value h

theorem halt (halt : Halt) : Agree related (throw halt : EStateM Halt σ α) (throw halt) := by
  intro before before' h
  exact .halted halt h

theorem bind {first first' : EStateM Halt σ α} {next next' : α → EStateM Halt σ β}
    (hfirst : Agree related first first')
    (hnext : ∀ value, Agree related (next value) (next' value)) :
    Agree related (first >>= next) (first' >>= next') := by
  intro before before' h
  have hmiddle := hfirst before before' h
  generalize hrun : first before = outcome at hmiddle
  generalize hrun' : first' before' = outcome' at hmiddle
  cases hmiddle with
  | ended value hrelated =>
    rw [bind_of_ok hrun, bind_of_ok hrun']
    exact hnext value _ _ hrelated
  | halted halt hrelated =>
    rw [bind_of_error hrun, bind_of_error hrun']
    exact .halted halt hrelated
  | cutFirst poll after =>
    rw [bind_of_error hrun]
    exact .cutFirst poll after _
  | cutSecond poll after =>
    rw [bind_of_error hrun']
    exact .cutSecond poll after _

/-- Computations that look at their states first may go on in different ways. -/
theorem get_bind {next next' : σ → EStateM Halt σ α}
    (h : ∀ state state', related state state' → Agree related (next state) (next' state')) :
    Agree related (get >>= next) (get >>= next') := by
  intro before before' hrelated
  exact h before before' hrelated before before' hrelated

theorem ite {condition : Prop} [Decidable condition]
    {first first' second second' : EStateM Halt σ α}
    (hfirst : Agree related first first') (hsecond : Agree related second second') :
    Agree related (if condition then first else second)
      (if condition then first' else second') := by
  split
  · exact hfirst
  · exact hsecond

end Agree

/-! ## Boards that are alike -/

/-- Whether an access is a poll of the serial line. -/
def BusAccess.isLinePoll : BusAccess → Bool
  | .read .uartTxfull _ => true
  | _ => false

/-- Some accesses, apart from the polls of the serial line. -/
def withoutPolls (accesses : Array BusAccess) : List BusAccess :=
  accesses.toList.filter fun access => !access.isLinePoll

theorem withoutPolls_push (accesses : Array BusAccess) (access : BusAccess) :
    withoutPolls (accesses.push access) =
      withoutPolls accesses ++ if access.isLinePoll then [] else [access] := by
  rw [withoutPolls, Array.toList_push, List.filter_append, withoutPolls]
  cases hpoll : access.isLinePoll <;> simp [hpoll]

namespace Soc

/-- Two boards are alike, apart from when their lines are busy, from the polls of these lines, and
from how many polls are watched. -/
structure Alike (soc soc' : Soc) : Prop where
  word : ∀ csr, csr ≠ .uartTxfull → soc'.csrs.word csr = soc.csrs.word csr
  counter : soc'.counter = soc.counter
  latch : soc'.latch = soc.latch
  tick : soc'.tick = soc.tick
  clockTaps : soc'.clockTaps = soc.clockTaps
  retention : soc'.retention = soc.retention
  cell : soc'.cell = soc.cell
  sent : soc'.sent = soc.sent
  accesses : withoutPolls soc'.accesses = withoutPolls soc.accesses

namespace Alike

variable {soc soc' soc'' : Soc}

theorem refl (soc : Soc) : soc.Alike soc :=
  ⟨fun _ _ => rfl, rfl, rfl, rfl, rfl, rfl, rfl, rfl, rfl⟩

theorem symm (h : soc.Alike soc') : soc'.Alike soc :=
  ⟨fun csr hcsr => (h.word csr hcsr).symm, h.counter.symm, h.latch.symm, h.tick.symm,
    h.clockTaps.symm, h.retention.symm, h.cell.symm, h.sent.symm, h.accesses.symm⟩

theorem trans (h : soc.Alike soc') (h' : soc'.Alike soc'') : soc.Alike soc'' :=
  ⟨fun csr hcsr => (h'.word csr hcsr).trans (h.word csr hcsr), h'.counter.trans h.counter,
    h'.latch.trans h.latch, h'.tick.trans h.tick, h'.clockTaps.trans h.clockTaps,
    h'.retention.trans h.retention, h'.cell.trans h.cell, h'.sent.trans h.sent,
    h'.accesses.trans h.accesses⟩

theorem noted (h : soc.Alike soc') (access : BusAccess) :
    (soc.noted access).Alike (soc'.noted access) :=
  { h with
    accesses := by
      rw [Soc.noted, Soc.noted, withoutPolls_push, withoutPolls_push, h.accesses] }

theorem assign (h : soc.Alike soc') (csr : Csr) (value : UInt32) :
    Alike { soc with csrs := soc.csrs.assign csr value }
      { soc' with csrs := soc'.csrs.assign csr value } :=
  { h with
    word := by
      intro other hother
      by_cases hsame : other = csr
      · rw [hsame, CsrWords.word_assign_self, CsrWords.word_assign_self]
      · rw [CsrWords.word_assign_of_ne _ _ hsame, CsrWords.word_assign_of_ne _ _ hsame,
          h.word other hother] }

theorem poked (h : soc.Alike soc') (csr : Csr) (value : UInt32) :
    (soc.poked csr value).Alike (soc'.poked csr value) := by
  have hassign := h.assign csr value
  cases csr
  case timerValue => exact { h with counter := rfl }
  all_goals exact hassign

theorem sampled (h : soc.Alike soc') : soc.sampled.Alike soc'.sampled := by
  rw [Soc.sampled, Soc.sampled, h.word .timerEn (by decide), h.word .timerLoad (by decide),
    h.counter, h.tick]
  split
  · exact { h with counter := rfl, latch := rfl, tick := rfl }
  · exact { h with counter := rfl, latch := rfl, tick := rfl }

/-- What a write brings about does not depend on the line. -/
theorem react (h : soc.Alike soc') (before value : UInt32) (csr : Csr) :
    (soc.react before value csr).Alike (soc'.react before value csr) := by
  cases csr
  case uartRxtx => exact { h with sent := by rw [Soc.react, Soc.react, h.sent] }
  case timerEn =>
    rw [Soc.react, Soc.react, h.word .timerLoad (by decide)]
    split
    · exact { h with counter := rfl }
    · exact h
  case timerUpdateValue => exact { h.sampled with }
  case hyperramClkLoadn =>
    rw [Soc.react, Soc.react]
    split
    · exact { h with clockTaps := rfl }
    · exact h
  case hyperramClkMove =>
    rw [Soc.react, Soc.react, h.clockTaps]
    split
    · exact { h with clockTaps := rfl }
    · exact h
  all_goals exact h

theorem stored (h : soc.Alike soc') (value : UInt32) :
    (soc.stored value).Alike (soc'.stored value) := by
  rw [Soc.stored, Soc.stored, h.retention, h.clockTaps, h.cell]
  exact { h with clockTaps := rfl, retention := rfl, cell := rfl }

end Alike

end Soc

/-! ## Accesses -/

theorem agree_write (csr : Csr) (value : UInt32) :
    Agree Soc.Alike (Soc.write csr value) (Soc.write csr value) := by
  intro soc soc' h
  have hassigned : (soc.assigned csr value).Alike (soc'.assigned csr value) :=
    (h.assign csr value).noted _
  have hdone : ((soc.assigned csr value).react (soc.csrs.word csr) value csr).Alike
      ((soc'.assigned csr value).react (soc'.csrs.word csr) value csr) := by
    by_cases hline : csr = .uartTxfull
    · subst hline
      exact hassigned
    · rw [h.word csr hline]
      exact hassigned.react _ value csr
  simp only [Soc.write]
  by_cases hsampling : csr = .timerUpdateValue
  · -- A sampling too many cuts the run, and the boards need not have come to it together.
    subst hsampling
    simp only [Soc.halts]
    by_cases hnone : soc.pollsLeft = 0
    · rw [if_pos hnone]
      exact .cutFirst _ _ _
    · rw [if_neg hnone]
      by_cases hnone' : soc'.pollsLeft = 0
      · rw [if_pos hnone']
        exact .cutSecond _ _ _
      · rw [if_neg hnone']
        exact .ended () hdone
  · have hhalts : soc'.halts value csr = soc.halts value csr := by
      cases csr
      case timerUpdateValue => exact absurd rfl hsampling
      all_goals rfl
    rw [hhalts]
    cases soc.halts value csr with
    | none => exact .ended () hdone
    | some halt => exact .halted halt hassigned

theorem agree_read {csr : Csr} (hline : csr ≠ .uartTxfull) :
    Agree Soc.Alike (Soc.read csr) (Soc.read csr) := by
  intro soc soc' h
  have hother : csr ≠ .timerValue → Soc.read csr = modifyGet fun soc =>
      (soc.csrs.word csr, soc.noted (.read csr (soc.csrs.word csr))) := by
    intro htimer
    cases csr
    case uartTxfull => exact absurd rfl hline
    case timerValue => exact absurd rfl htimer
    all_goals rfl
  by_cases htimer : csr = .timerValue
  · subst htimer
    have hnoted := h.noted (.read .timerValue soc.latch)
    change SameEnd Soc.Alike (.ok soc.latch _) (.ok soc'.latch (soc'.noted (.read _ soc'.latch)))
    rw [h.latch]
    exact .ended soc.latch hnoted
  · rw [hother htimer]
    have hnoted := h.noted (.read csr (soc.csrs.word csr))
    change SameEnd Soc.Alike (.ok (soc.csrs.word csr) _)
      (.ok (soc'.csrs.word csr) (soc'.noted (.read csr (soc'.csrs.word csr))))
    rw [h.word csr hline]
    exact .ended (soc.csrs.word csr) hnoted

theorem agree_store (value : UInt32) : Agree Soc.Alike (Soc.store value) (Soc.store value) := by
  intro soc soc' h
  exact .ended () ((h.noted (.store value)).stored value)

theorem agree_load : Agree Soc.Alike Soc.load Soc.load := by
  intro soc soc' h
  have hnoted := h.noted (.load soc.cell)
  change SameEnd Soc.Alike (.ok soc.cell _) (.ok soc'.cell (soc'.noted (.load soc'.cell)))
  rw [h.cell]
  exact .ended soc.cell hnoted

/-! ## The console -/

/-- A poll leaves a board alike to what it was. -/
theorem settles_readBusy : Settles Soc.Alike Soc.readBusy := by
  intro soc
  have hpolled : ∀ (busy : BusyScript) (word : UInt32),
      soc.Alike
        ({ soc with pollsLeft := soc.pollsLeft - 1, busy }.noted (.read .uartTxfull word)) := by
    intro busy word
    refine { Soc.Alike.refl soc with accesses := ?_ }
    exact (withoutPolls_push _ _).trans (List.append_nil _)
  unfold Soc.readBusy
  by_cases hnone : soc.pollsLeft = 0
  · rw [if_pos hnone]
    exact ⟨.refl soc, .uart, rfl⟩
  · rw [if_neg hnone]
    dsimp only
    cases soc.busy.next with
    | none => exact hpolled soc.busy _
    | some next => exact hpolled next.2 next.1

theorem settles_awaitRoom (attempts : Nat) :
    Settles Soc.Alike (Console.awaitRoom attempts) := by
  induction attempts with
  | zero => exact .stall .refl .uart
  | succ attempts ih =>
    apply Settles.bind .trans settles_readBusy
    intro word
    exact .ite ih (.pure .refl ())

/-- Each board polls its line as often as it has to. -/
theorem agree_awaitRoom (attempts attempts' : Nat) :
    Agree Soc.Alike (Console.awaitRoom attempts) (Console.awaitRoom attempts') := by
  intro soc soc' h
  -- However long each board has polled, it is alike to itself before, and so to the other one.
  have hleft := settles_awaitRoom attempts soc
  have hright := settles_awaitRoom attempts' soc'
  cases hrun : Console.awaitRoom attempts soc with
  | error halt after =>
    rw [hrun] at hleft
    rcases hleft with ⟨_, poll, rfl⟩
    exact .cutFirst poll after _
  | ok _ after =>
    rw [hrun] at hleft
    cases hrun' : Console.awaitRoom attempts' soc' with
    | error halt' after' =>
      rw [hrun'] at hright
      rcases hright with ⟨_, poll, rfl⟩
      exact .cutSecond poll after' _
    | ok _ after' =>
      rw [hrun'] at hright
      exact .ended () ((hleft.symm.trans h).trans hright)

theorem agree_send (octet : UInt8) :
    Agree Soc.Alike (Console.send octet) (Console.send octet) := by
  apply Agree.get_bind
  intro soc soc' _
  apply Agree.bind (agree_awaitRoom _ _)
  intro _
  exact agree_write .uartRxtx _

theorem agree_sendAll (octets : List UInt8) :
    Agree Soc.Alike (Console.sendAll octets) (Console.sendAll octets) := by
  induction octets with
  | nil => exact .pure ()
  | cons octet rest ih =>
    apply Agree.bind (agree_send octet)
    intro _
    exact ih

theorem agree_print (variant : Variant) (text : String) :
    Agree Soc.Alike (Console.print variant text) (Console.print variant text) :=
  .ite (agree_sendAll _) (.pure ())

theorem agree_printAll (variant : Variant) (pieces : List String) :
    Agree Soc.Alike (Console.printAll variant pieces) (Console.printAll variant pieces) := by
  induction pieces with
  | nil => exact .pure ()
  | cons piece rest ih =>
    apply Agree.bind (agree_print variant piece)
    intro _
    exact ih

/-! ## The timer -/

theorem agree_restart : Agree Soc.Alike Timer.restart Timer.restart := by
  apply Agree.bind (agree_write .timerEn 0)
  intro _
  apply Agree.bind (agree_write .timerLoad Timer.start)
  intro _
  apply Agree.bind (agree_write .timerReload Timer.start)
  intro _
  exact agree_write .timerEn 1

theorem agree_elapsed : Agree Soc.Alike Timer.elapsed Timer.elapsed := by
  apply Agree.bind (agree_write .timerUpdateValue 1)
  intro _
  apply Agree.bind (agree_read (by decide))
  intro value
  exact .pure _

theorem agree_microseconds : Agree Soc.Alike Timer.microseconds Timer.microseconds := by
  apply Agree.bind agree_elapsed
  intro cycles
  exact .pure _

/-- However many samplings each board is granted, they come to the same one. -/
theorem agree_await (since : UInt32) (cycles : UInt64) (attempts attempts' : Nat) :
    Agree Soc.Alike (Timer.await since cycles attempts) (Timer.await since cycles attempts') := by
  -- Both wait for the same reading, so only a board that runs out of samplings stops before it.
  induction attempts generalizing attempts' with
  | zero =>
    intro soc soc' _
    exact .cutFirst .timer soc _
  | succ attempts ih =>
    cases attempts' with
    | zero =>
      intro soc soc' _
      exact .cutSecond .timer soc' _
    | succ attempts' =>
      apply Agree.bind agree_elapsed
      intro now
      exact .ite (ih attempts') (.pure ())

theorem agree_wait (interval : UInt64) :
    Agree Soc.Alike (Timer.wait interval) (Timer.wait interval) := by
  have hcycles : Agree Soc.Alike (Timer.cyclesOf interval) (Timer.cyclesOf interval) := by
    unfold Timer.cyclesOf
    split
    · exact .pure _
    · exact .halt _
  apply Agree.bind agree_elapsed
  intro since
  apply Agree.bind hcycles
  intro cycles
  apply Agree.get_bind
  intro soc soc' _
  exact agree_await since cycles _ _

theorem agree_printRecord (variant : Variant) (record : Record) :
    Agree Soc.Alike (printRecord variant record) (printRecord variant record) := by
  apply Agree.bind agree_microseconds
  intro time
  exact agree_printAll variant _

end Board
end TimingEye
