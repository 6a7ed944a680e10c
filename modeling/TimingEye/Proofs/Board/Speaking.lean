import TimingEye.Proofs.Board.Frame
import TimingEye.Proofs.Board.Waiting

/-!
# What is said on the serial line

A text that has been printed has left through the serial line, octet by octet, and the timer has
not been touched.  A record that has been printed has sampled the timer once before that.  Both
hold on every board: nothing but a poll that goes on for good can keep the firmware from it.

* `Ends`: what holds where a computation ends, if it is not cut by a poll;
* `Clock`: what the timer reads at each sampling from now on;
* `Spoke`, `ends_printAll`: texts that have been printed;
* `Printed`, `ends_printRecord`: records that have been printed.
-/

namespace TimingEye
namespace Board

/-! ## Computations -/

/-- Unless a poll goes on for good, a computation ends, and something holds of its result and of
the state after it. -/
def Ends {σ α : Type} (before : σ) (act : EStateM Halt σ α) (post : α → σ → Prop) : Prop :=
  match act before with
  | .ok value after => post value after
  | .error halt _ => ∃ poll, halt = .stalled poll

namespace Ends

variable {σ α β : Type} {before : σ} {act : EStateM Halt σ α} {post : α → σ → Prop}

theorem of_ok {after : σ} {value : α} (h : Ends before act post)
    (hrun : act before = .ok value after) : post value after := by
  rwa [Ends, hrun] at h

/-- A computation is cut by a poll or comes to its end. -/
theorem stalls_or_ends (h : Ends before act post) :
    (∃ poll after, act before = .error (.stalled poll) after) ∨
    ∃ value after, act before = .ok value after ∧ post value after := by
  rw [Ends] at h
  cases hrun : act before with
  | ok value after =>
    rw [hrun] at h
    exact .inr ⟨value, after, rfl, h⟩
  | error halt after =>
    rw [hrun] at h
    rcases h with ⟨poll, rfl⟩
    exact .inl ⟨poll, after, rfl⟩

theorem of_stall {poll : Poll} {after : σ} (hrun : act before = .error (.stalled poll) after) :
    Ends before act post := by
  rw [Ends, hrun]
  exact ⟨poll, rfl⟩

theorem of_end {value : α} {after : σ} (hrun : act before = .ok value after)
    (h : post value after) : Ends before act post := by
  rwa [Ends, hrun]

theorem pure {value : α} (h : post value before) :
    Ends before (Pure.pure value : EStateM Halt σ α) post := h

/-- What holds at the end may be weakened, knowing that the computation has got there. -/
theorem weaken {post' : α → σ → Prop} (h : Ends before act post)
    (hpost : ∀ value after, act before = .ok value after → post value after → post' value after) :
    Ends before act post' := by
  rcases h.stalls_or_ends with ⟨poll, after, hrun⟩ | ⟨value, after, hrun, hafter⟩
  · exact of_stall hrun
  · exact of_end hrun (hpost value after hrun hafter)

/-- A sequence ends where its second part does. -/
theorem bind {next : α → EStateM Halt σ β} {post' : β → σ → Prop} (h : Ends before act post)
    (hnext : ∀ value middle, act before = .ok value middle → post value middle →
      Ends middle (next value) post') : Ends before (act >>= next) post' := by
  rcases h.stalls_or_ends with ⟨poll, middle, hrun⟩ | ⟨value, middle, hrun, hmiddle⟩
  · exact of_stall (bind_of_error hrun)
  · rw [Ends, bind_of_ok hrun]
    exact hnext value middle hrun hmiddle

/-- What holds of every run that is cut holds of a sequence, if it holds of its second part. -/
theorem run_bind {next : α → EStateM Halt σ β} {outcome : EStateM.Result Halt σ β → Prop}
    (h : Ends before act post) (hcut : ∀ poll after, outcome (.error (.stalled poll) after))
    (hnext : ∀ value middle, act before = .ok value middle → post value middle →
      outcome (next value middle)) : outcome ((act >>= next) before) := by
  rcases h.stalls_or_ends with ⟨poll, middle, hrun⟩ | ⟨value, middle, hrun, hmiddle⟩
  · rw [bind_of_error hrun]
    exact hcut poll middle
  · rw [bind_of_ok hrun]
    exact hnext value middle hrun hmiddle

theorem ite {condition : Prop} [Decidable condition] {first second : EStateM Halt σ α}
    (hfirst : condition → Ends before first post) (hsecond : ¬condition → Ends before second post) :
    Ends before (if condition then first else second) post := by
  split
  case isTrue h => exact hfirst h
  case isFalse h => exact hsecond h

/-- What ends on the bus ends in the firmware, whose own state it leaves alone. -/
theorem onBus (board : State) {act : Bus α} {post : α → Soc → Prop} (h : Ends board.soc act post) :
    Ends board (onBus act) fun value after => post value after.soc ∧ after.log = board.log := by
  rcases board with ⟨soc, log⟩
  rcases h.stalls_or_ends with ⟨poll, after, hrun⟩ | ⟨value, after, hrun, hafter⟩
  · have hcut : Board.onBus act ⟨soc, log⟩ = .error (.stalled poll) ⟨after, log⟩ := by
      simp only [Board.onBus, hrun]
    exact of_stall hcut
  · have hend : Board.onBus act ⟨soc, log⟩ = .ok value ⟨after, log⟩ := by
      simp only [Board.onBus, hrun]
    exact of_end hend ⟨hafter, rfl⟩

end Ends

/-! ## The timer -/

/-- What the readings of the timer depend on. -/
structure Clock where
  enabled : UInt32
  load : UInt32
  counter : UInt32
  tick : UInt32

namespace Clock

/-- The clock after a sampling: it has advanced by a tick, if it is enabled. -/
def sampled (clock : Clock) : Clock :=
  if clock.enabled = 0 then clock else { clock with counter := clock.counter - clock.tick }

/-- What the timer reads at its n-th sampling from now on. -/
def count (clock : Clock) (n : Nat) : UInt32 :=
  if clock.enabled = 0 then clock.load else clock.counter - UInt32.ofNat n * clock.tick

/-- The time of the n-th sampling from now on, in microseconds. -/
def time (clock : Clock) (n : Nat) : Nat :=
  Timer.toMicroseconds (Timer.start - clock.count n)

theorem count_sampled (clock : Clock) (n : Nat) : clock.sampled.count n = clock.count (n + 1) := by
  by_cases henabled : clock.enabled = 0
  · simp only [sampled, count, if_pos henabled]
  · have hnext : UInt32.ofNat (n + 1) = UInt32.ofNat n + 1 := by
      rw [UInt32.ofNat_add]
      rfl
    simp only [sampled, count, if_neg henabled, hnext]
    grind

theorem count_iterate (clock : Clock) (samples n : Nat) :
    (sampled^[samples] clock).count n = clock.count (samples + n) := by
  induction samples generalizing n with
  | zero => rw [Nat.zero_add]; rfl
  | succ samples ih =>
    rw [Function.iterate_succ_apply', count_sampled, ih, Nat.add_right_comm, Nat.add_assoc]

/-- Samplings that have been made are ahead of those still to come. -/
theorem time_iterate (clock : Clock) (samples n : Nat) :
    (sampled^[samples] clock).time n = clock.time (samples + n) := by
  rw [time, count_iterate, time]

end Clock

def Soc.clock (soc : Soc) : Clock where
  enabled := soc.csrs.word .timerEn
  load := soc.csrs.word .timerLoad
  counter := soc.counter
  tick := soc.tick

/-! ## Single accesses -/

/-- Nothing has been said, and the timer has not been touched. -/
structure Mute (before after : Soc) : Prop where
  sent : after.sent = before.sent
  clock : after.clock = before.clock

theorem Mute.refl (soc : Soc) : Mute soc soc :=
  ⟨rfl, rfl⟩

theorem Mute.trans {first second third : Soc} (h : Mute first second) (h' : Mute second third) :
    Mute first third :=
  ⟨h'.sent.trans h.sent, h'.clock.trans h.clock⟩

theorem ends_write {csr : Csr} (hreset : csr ≠ .ctrlReset) (value : UInt32) (before : Soc) :
    Ends before (Soc.write csr value) fun _ after =>
      after = (before.assigned csr value).react (before.csrs.word csr) value csr := by
  simp only [Ends, Soc.write]
  cases hhalts : before.halts value csr with
  | none => rfl
  | some halt =>
    -- Of the other registers only the one that samples the timer can halt a run.
    cases csr
    case timerUpdateValue =>
      simp only [Soc.halts] at hhalts
      split at hhalts <;> cases hhalts
      exact ⟨.timer, rfl⟩
    case ctrlReset => exact absurd rfl hreset
    all_goals cases hhalts

/-- Only the registers by which the timer is started have to do with its clock. -/
theorem clock_assigned {csr : Csr} (h : csr ∉ Csr.ofStarting) (value : UInt32) (soc : Soc) :
    (soc.assigned csr value).clock = soc.clock := by
  have henabled : Csr.timerEn ≠ csr := by
    rintro rfl
    exact h (by decide)
  have hload : Csr.timerLoad ≠ csr := by
    rintro rfl
    exact h (by decide)
  simp only [Soc.clock, Soc.assigned, Soc.noted, CsrWords.word_assign_of_ne _ _ henabled,
    CsrWords.word_assign_of_ne _ _ hload]

/-! ## Texts -/

/-- Some octets have been sent, and the timer has not been touched. -/
structure Spoke (octets : List UInt8) (before after : Soc) : Prop where
  sent : after.sent.toList = before.sent.toList ++ octets
  clock : after.clock = before.clock
  accesses : ∃ made, after.accesses.toList = before.accesses.toList ++ made ∧ Transmits octets made

theorem Spoke.nil (soc : Soc) : Spoke [] soc soc :=
  ⟨(List.append_nil _).symm, rfl, [], (List.append_nil _).symm, .nil⟩

theorem Spoke.append {octets rest : List UInt8} {before middle after : Soc}
    (h : Spoke octets before middle) (h' : Spoke rest middle after) :
    Spoke (octets ++ rest) before after := by
  rcases h.accesses with ⟨made, haccesses, htransmits⟩
  rcases h'.accesses with ⟨made', haccesses', htransmits'⟩
  refine ⟨?_, h'.clock.trans h.clock, made ++ made', ?_, htransmits.append htransmits'⟩
  · rw [h'.sent, h.sent, List.append_assoc]
  · rw [haccesses', haccesses, List.append_assoc]

/-- The line has been polled, and nothing else. -/
structure Polled (polls : List BusAccess) (before after : Soc) : Prop where
  mute : Mute before after
  accesses : after.accesses.toList = before.accesses.toList ++ polls

theorem ends_poll (before : Soc) : Ends before (Soc.read .uartTxfull) fun word after =>
    Polled [.read .uartTxfull word] before after := by
  simp only [Ends, Soc.read, Soc.readBusy]
  by_cases hpolls : before.pollsLeft = 0
  · rw [if_pos hpolls]
    exact ⟨.uart, rfl⟩
  · rw [if_neg hpolls]
    cases before.busy.next <;> exact ⟨⟨rfl, rfl⟩, Array.toList_push⟩

theorem ends_awaitRoom (attempts : Nat) (before : Soc) :
    Ends before (Console.awaitRoom attempts) fun _ after =>
      ∃ polls, AwaitsRoom polls ∧ Polled polls before after := by
  induction attempts generalizing before with
  | zero => exact ⟨.uart, rfl⟩
  | succ attempts ih =>
    apply (ends_poll before).bind
    intro word middle _ hpolled
    apply Ends.ite
    · intro hbusy
      apply (ih middle).weaken
      rintro _ after _ ⟨polls, hroom, hrest⟩
      refine ⟨_, .busy hbusy hroom, hpolled.mute.trans hrest.mute, ?_⟩
      rw [hrest.accesses, hpolled.accesses, List.append_assoc]
      rfl
    · intro hfree
      exact ⟨_, .free (not_not.mp hfree), hpolled⟩

theorem ends_send (octet : UInt8) (before : Soc) :
    Ends before (Console.send octet) fun _ after => Spoke [octet] before after := by
  have hget : Ends before (get : Bus Soc) fun _ after => after = before := rfl
  apply hget.bind
  rintro soc _ _ rfl
  apply (ends_awaitRoom _ _).bind
  rintro _ middle _ ⟨polls, hroom, hpolled⟩
  apply (ends_write (by decide) octet.toUInt32 middle).weaken
  rintro _ after _ rfl
  refine ⟨?_, ?_, polls ++ [.write .uartRxtx octet.toUInt32], ?_, .cons octet hroom .nil⟩
  · have hoctet : octet.toUInt32.toUInt8 = octet := UInt8.toUInt8_toUInt32 octet
    simp only [Soc.react, Soc.assigned, Soc.noted, Array.toList_push, hoctet, hpolled.mute.sent]
  · exact (clock_assigned (by decide) octet.toUInt32 middle).trans hpolled.mute.clock
  · simp only [Soc.react, Soc.assigned, Soc.noted, Array.toList_push, hpolled.accesses,
      List.append_assoc]

theorem ends_sendAll (octets : List UInt8) (before : Soc) :
    Ends before (Console.sendAll octets) fun _ after => Spoke octets before after := by
  induction octets generalizing before with
  | nil => exact .nil before
  | cons octet rest ih =>
    apply (ends_send octet before).bind
    intro _ middle _ hsent
    apply (ih middle).weaken
    intro _ after _ hrest
    exact hsent.append hrest

theorem ends_printAll (variant : Variant) (pieces : List String) (before : Soc) :
    Ends before (Console.printAll variant pieces) fun _ after =>
      Spoke (variant.sends pieces) before after := by
  induction pieces generalizing before with
  | nil =>
    have hnone : variant.sends [] = [] := ite_self _
    rw [hnone]
    exact .nil before
  | cons piece rest ih =>
    have hsends : variant.sends (piece :: rest) = variant.sends [piece] ++ variant.sends rest := by
      by_cases huart : variant.uart = true <;> simp [Variant.sends, huart]
    have hpiece : Ends before (Console.print variant piece) fun _ after =>
        Spoke (variant.sends [piece]) before after := by
      apply Ends.ite
      · intro huart
        simpa [Variant.sends, huart] using ends_sendAll (Console.wire piece) before
      · intro hnone
        have hsends : variant.sends [piece] = [] := if_neg hnone
        rw [hsends]
        exact .pure (.nil before)
    rw [hsends]
    apply hpiece.bind
    intro _ middle _ hsent
    apply (ih middle).weaken
    intro _ after _ hrest
    exact hsent.append hrest

/-! ## Records -/

/-- The timer has been sampled once, and nothing has been said. -/
structure Sampled (before after : Soc) : Prop where
  sent : after.sent = before.sent
  clock : after.clock = before.clock.sampled
  accesses : after.accesses.toList =
    before.accesses.toList ++ sampling (before.clock.count 1)

/-- Sampling advances the timer, and latches what it has advanced to. -/
theorem effect_sampling (soc : Soc) (before value : UInt32) :
    (soc.react before value .timerUpdateValue).clock = soc.clock.sampled ∧
    (soc.react before value .timerUpdateValue).latch = soc.clock.count 1 ∧
    (soc.react before value .timerUpdateValue).sent = soc.sent ∧
    (soc.react before value .timerUpdateValue).accesses = soc.accesses := by
  by_cases henabled : soc.csrs.word .timerEn = 0 <;>
    simp [Soc.react, Soc.sampled, Soc.clock, Clock.sampled, Clock.count, henabled]

/-- What is read of the timer is its latch. -/
theorem ends_readTimer (before : Soc) : Ends before (Soc.read .timerValue) fun value after =>
    value = before.latch ∧ after = before.noted (.read .timerValue before.latch) :=
  ⟨rfl, rfl⟩

theorem ends_elapsed (before : Soc) : Ends before Timer.elapsed fun now after =>
    now = Timer.start - before.clock.count 1 ∧ Sampled before after := by
  have hassigned := clock_assigned (by decide : Csr.timerUpdateValue ∉ Csr.ofStarting) 1 before
  rcases effect_sampling (before.assigned .timerUpdateValue 1) (before.csrs.word .timerUpdateValue)
    1 with ⟨hclock, hlatch, hsent, haccesses⟩
  rw [hassigned] at hclock hlatch
  apply (ends_write (by decide) 1 before).bind
  rintro _ middle _ rfl
  apply (ends_readTimer _).bind
  rintro _ _ _ ⟨rfl, rfl⟩
  refine .pure ⟨congrArg (Timer.start - ·) hlatch, hsent, hclock, ?_⟩
  have hwritten : (before.assigned .timerUpdateValue 1).accesses.toList =
      before.accesses.toList ++ [.write .timerUpdateValue 1] := Array.toList_push
  rw [hlatch, Soc.noted, Array.toList_push, haccesses, hwritten, List.append_assoc]
  rfl

/-- The timer has been started over, and counts down from its largest value. -/
structure Restarted (before after : Soc) : Prop where
  sent : after.sent = before.sent
  clock : after.clock = ⟨1, Timer.start, Timer.start, before.tick⟩
  accesses : after.accesses.toList = before.accesses.toList ++ restarting

theorem ends_restart (before : Soc) : Ends before Timer.restart fun _ after =>
    Restarted before after := by
  obtain ⟨after, hrun⟩ : ∃ after, Timer.restart before = .ok () after := ⟨_, rfl⟩
  apply Ends.of_end hrun
  rcases bind_eq_ok_iff.mp hrun with ⟨_, stopped, hstop, hrun⟩
  rcases bind_eq_ok_iff.mp hrun with ⟨_, loaded, hload, hrun⟩
  rcases bind_eq_ok_iff.mp hrun with ⟨_, reloaded, hreload, hstart⟩
  cases hstop
  cases hload
  cases hreload
  cases hstart
  constructor <;> simp [Soc.clock, Soc.react, Soc.assigned, Soc.noted, restarting]

/-- A record has been printed, with the time of the next sampling. -/
structure Printed (variant : Variant) (record : Record) (before after : Soc) : Prop where
  sent : after.sent.toList =
    before.sent.toList ++ variant.sends (logLine (before.clock.time 1) record)
  clock : after.clock = before.clock.sampled
  accesses : ∃ line,
    after.accesses.toList = before.accesses.toList ++ sampling (before.clock.count 1) ++ line ∧
    Transmits (variant.sends (logLine (before.clock.time 1) record)) line

theorem ends_microseconds (before : Soc) : Ends before Timer.microseconds fun time after =>
    time = before.clock.time 1 ∧ Sampled before after := by
  apply (ends_elapsed before).bind
  rintro now after _ ⟨rfl, hsampled⟩
  exact ⟨rfl, hsampled⟩

theorem ends_printRecord (variant : Variant) (record : Record) (before : Soc) :
    Ends before (printRecord variant record) fun _ after =>
      Printed variant record before after := by
  apply (ends_microseconds before).bind
  rintro time middle _ ⟨rfl, hsampled⟩
  apply (ends_printAll variant _ middle).weaken
  intro _ after _ hspoke
  rcases hspoke.accesses with ⟨line, haccesses, htransmits⟩
  refine ⟨?_, hspoke.clock.trans hsampled.clock, line, ?_, htransmits⟩
  · rw [hspoke.sent, hsampled.sent]
  · rw [haccesses, hsampled.accesses]

end Board
end TimingEye
