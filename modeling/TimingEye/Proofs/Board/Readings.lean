import TimingEye.Proofs.Board.Speaking

/-!
# What the timer reads

Each sampling advances the timer by a tick, whichever operation it is a part of.  So the accesses
that a computation has made tell how far the timer has got, and what has been read of it.

* `samplesIn`, `readings`: the samplings among some accesses, and what they have read;
* `Clock.counts`: what the timer reads at its next samplings, one after another;
* `Completes`: computations that leave related states behind wherever they end;
* `Advances`: the timer has advanced with the samplings that have been made, and only with them;
* `advances_wait`, `advances_printRecord`: waits and records do no more than that.
-/

namespace TimingEye
namespace Board

/-! ## Samplings -/

/-- Whether an access samples the timer. -/
def BusAccess.samples : BusAccess → Bool
  | .write .timerUpdateValue _ => true
  | _ => false

/-- What an access reads of the timer. -/
def BusAccess.reading? : BusAccess → Option UInt32
  | .read .timerValue count => some count
  | _ => none

/-- How often some accesses sample the timer. -/
def samplesIn (accesses : List BusAccess) : Nat :=
  accesses.countP BusAccess.samples

/-- What some accesses read of the timer, one after another. -/
def readings (accesses : List BusAccess) : List UInt32 :=
  accesses.filterMap BusAccess.reading?

theorem samplesIn_append (first second : List BusAccess) :
    samplesIn (first ++ second) = samplesIn first + samplesIn second :=
  List.countP_append

theorem readings_append (first second : List BusAccess) :
    readings (first ++ second) = readings first ++ readings second :=
  List.filterMap_append

/-- Accesses that have nothing to do with the timer. -/
structure Timeless (accesses : List BusAccess) : Prop where
  samples : samplesIn accesses = 0
  readings : readings accesses = []

theorem Timeless.append {first second : List BusAccess} (h : Timeless first)
    (h' : Timeless second) : Timeless (first ++ second) := by
  constructor
  · rw [samplesIn_append, h.samples, h'.samples]
  · rw [readings_append, h.readings, h'.readings, List.append_nil]

theorem AwaitsRoom.timeless {polls : List BusAccess} (h : AwaitsRoom polls) : Timeless polls := by
  induction h with
  | free _ => exact ⟨rfl, rfl⟩
  | @busy word rest _ _ ih =>
    have hpoll : Timeless [.read .uartTxfull word] := ⟨rfl, rfl⟩
    exact hpoll.append ih

/-- Text is sent without a look at the timer. -/
theorem Transmits.timeless {octets : List UInt8} {trace : List BusAccess}
    (h : Transmits octets trace) : Timeless trace := by
  induction h with
  | nil => exact ⟨rfl, rfl⟩
  | @cons octet rest polls trace hroom _ ih =>
    have hsent : Timeless (.write .uartRxtx octet.toUInt32 :: trace) := ⟨ih.samples, ih.readings⟩
    exact hroom.timeless.append hsent

namespace Clock

/-- What the timer reads at its next samplings, one after another. -/
def counts (clock : Clock) (samples : Nat) : List UInt32 :=
  (List.range samples).map fun n => clock.count (n + 1)

theorem counts_add (clock : Clock) (first second : Nat) :
    clock.counts (first + second) =
      clock.counts first ++ (sampled^[first] clock).counts second := by
  simp only [counts, List.range_add, List.map_append, List.map_map, count_iterate]
  rfl

end Clock

/-! ## Computations that come to their end -/

/-- Wherever a computation comes to its end, a relation holds between the states before and after
it. -/
def Completes {σ α : Type} (related : σ → σ → Prop) (act : EStateM Halt σ α) : Prop :=
  ∀ before value after, act before = .ok value after → related before after

namespace Completes

variable {σ α β : Type} {related : σ → σ → Prop}

theorem pure (hrefl : ∀ state, related state state) (value : α) :
    Completes related (Pure.pure value : EStateM Halt σ α) := by
  intro before _ _ h
  cases h
  exact hrefl before

/-- A computation that is brought to a halt does not come to its end. -/
theorem halt (halt : Halt) : Completes related (throw halt : EStateM Halt σ α) := by
  intro _ _ _ h
  cases h

theorem bind {act : EStateM Halt σ α} {next : α → EStateM Halt σ β}
    (htrans : ∀ {first second third}, related first second → related second third →
      related first third)
    (h : Completes related act) (hnext : ∀ value, Completes related (next value)) :
    Completes related (act >>= next) := by
  intro before _ after hrun
  rcases bind_eq_ok_iff.mp hrun with ⟨value, middle, hfirst, hsecond⟩
  exact htrans (h _ _ _ hfirst) (hnext value _ _ _ hsecond)

theorem get_bind {next : σ → EStateM Halt σ α} (h : ∀ state, Completes related (next state)) :
    Completes related (get >>= next) := by
  intro before _ _ hrun
  exact h before _ _ _ hrun

theorem ite {condition : Prop} [Decidable condition] {first second : EStateM Halt σ α}
    (hfirst : Completes related first) (hsecond : Completes related second) :
    Completes related (if condition then first else second) := by
  split
  · exact hfirst
  · exact hsecond

theorem of_ends {act : EStateM Halt σ α} {post : σ → α → σ → Prop}
    (h : ∀ before, Ends before act (post before))
    (hpost : ∀ {before value after}, post before value after → related before after) :
    Completes related act := by
  intro before _ _ hrun
  exact hpost ((h before).of_ok hrun)

theorem of_settles {act : EStateM Halt σ α} (h : Settles related act) : Completes related act := by
  intro before _ _ hrun
  have hbefore := h before
  rwa [hrun] at hbefore

/-- The firmware reaches the bus, and its own state is none of the bus's concern. -/
theorem onBus {act : Bus α} {related : Soc → Soc → Prop} (h : Completes related act) :
    Completes (InvImage related State.soc) (onBus act) := by
  rintro ⟨soc, log⟩ value after hrun
  simp only [Board.onBus] at hrun
  cases hact : act soc with
  | ok value' after' =>
    rw [hact] at hrun
    cases hrun
    exact h _ _ _ hact
  | error halt after' =>
    rw [hact] at hrun
    cases hrun

end Completes

/-! ## The timer as it advances -/

/-- The timer has advanced with the samplings that have been made and with nothing else, and each
reading is that of a sampling. -/
def Advances (before after : Soc) : Prop :=
  ∃ made, after.accesses.toList = before.accesses.toList ++ made ∧
    readings made = before.clock.counts (samplesIn made) ∧
    after.clock = Clock.sampled^[samplesIn made] before.clock

namespace Advances

theorem refl (soc : Soc) : Advances soc soc :=
  ⟨[], (List.append_nil _).symm, rfl, rfl⟩

theorem trans {first second third : Soc} (h : Advances first second)
    (h' : Advances second third) : Advances first third := by
  rcases h with ⟨made, haccesses, hreadings, hclock⟩
  rcases h' with ⟨more, haccesses', hreadings', hclock'⟩
  refine ⟨made ++ more, ?_, ?_, ?_⟩
  · rw [haccesses', haccesses, List.append_assoc]
  · rw [readings_append, samplesIn_append, Clock.counts_add, hreadings, hreadings', hclock]
  · rw [hclock', hclock, samplesIn_append, Nat.add_comm, Function.iterate_add_apply]

/-- Accesses that have nothing to do with the timer leave it as it is. -/
theorem of_timeless {before after : Soc} {made : List BusAccess}
    (haccesses : after.accesses.toList = before.accesses.toList ++ made) (htimeless : Timeless made)
    (hclock : after.clock = before.clock) : Advances before after := by
  refine ⟨made, haccesses, ?_, ?_⟩
  · rw [htimeless.readings, htimeless.samples]
    rfl
  · rw [hclock, htimeless.samples]
    rfl

theorem of_spoke {octets : List UInt8} {before after : Soc} (h : Spoke octets before after) :
    Advances before after := by
  rcases h.accesses with ⟨made, haccesses, htransmits⟩
  exact of_timeless haccesses htransmits.timeless h.clock

theorem of_sampled {before after : Soc} (h : Sampled before after) : Advances before after :=
  ⟨_, h.accesses, rfl, h.clock⟩

end Advances

/-! ## What advances the timer -/

theorem advances_elapsed : Completes Advances Timer.elapsed :=
  .of_ends ends_elapsed fun h => .of_sampled h.2

theorem advances_microseconds : Completes Advances Timer.microseconds := by
  apply Completes.bind .trans advances_elapsed
  intro now
  exact .pure .refl _

theorem advances_await (since : UInt32) (cycles : UInt64) (attempts : Nat) :
    Completes Advances (Timer.await since cycles attempts) := by
  induction attempts with
  | zero => exact .halt _
  | succ attempts ih =>
    apply Completes.bind .trans advances_elapsed
    intro now
    exact .ite ih (.pure .refl ())

/-- However long a wait takes, the timer advances with its samplings. -/
theorem advances_wait (interval : UInt64) : Completes Advances (Timer.wait interval) := by
  have hcycles : Completes Advances (Timer.cyclesOf interval) := by
    rw [Timer.cyclesOf]
    cases scaledLong interval (UInt64.ofNat Timer.cyclesPerMicrosecond) with
    | ok cycles => exact .pure .refl cycles
    | error cause => exact .halt _
  apply Completes.bind .trans advances_elapsed
  intro since
  apply Completes.bind .trans hcycles
  intro cycles
  apply Completes.get_bind
  intro soc
  exact advances_await since cycles _

theorem advances_print (variant : Variant) (text : String) :
    Completes Advances (Console.print variant text) :=
  .ite (.of_ends (ends_sendAll _) .of_spoke) (.pure .refl ())

theorem advances_printAll (variant : Variant) (pieces : List String) :
    Completes Advances (Console.printAll variant pieces) :=
  .of_ends (ends_printAll variant pieces) .of_spoke

theorem advances_printRecord (variant : Variant) (record : Record) :
    Completes Advances (printRecord variant record) := by
  apply Completes.bind .trans advances_microseconds
  intro time
  exact advances_printAll variant _

end Board
end TimingEye
