import TimingEye.Board.BringUp
import TimingEye.Proofs.Board.Line
import TimingEye.Proofs.Simulation

/-!
# Computations that go through

A run is cut when it polls too often in a row.  A computation goes through if enough polls are left
for it, and the polls it uses up are known in advance.

* `Goes`: computations that go through, with what holds of their results and their accesses;
* `Soc.Ready`: boards on which the console and the timer work;
* `Transmits`: accesses by which octets are sent;
* `goes_printAll`, `goes_elapsed`: the console and the timer go through.
-/

namespace TimingEye
namespace Board

/-! ## Computations -/

/-- From certain states on, and wherever `gap + cost` polls are left, a computation goes through.
It uses up no more than `cost` polls, and something holds of its result, of the accesses it made,
and of the state after it. -/
def Goes {σ α : Type} (view : σ → Soc) (gap cost : Nat) (pre : σ → Prop) (act : EStateM Halt σ α)
    (post : α → List BusAccess → σ → Prop) : Prop :=
  ∀ before, pre before → gap + cost ≤ (view before).pollsLeft →
    ∃ result made after, act before = .ok result after ∧
      (view after).accesses.toList = (view before).accesses.toList ++ made ∧
      (view before).pollsLeft ≤ (view after).pollsLeft + cost ∧ post result made after

namespace Goes

variable {σ α β : Type} {view : σ → Soc} {gap cost : Nat} {pre : σ → Prop}
  {act : EStateM Halt σ α} {post : α → List BusAccess → σ → Prop}

/-- What a computation guarantees apart from the state may be weakened, and it may use up fewer
polls than it is granted. -/
theorem weaken {fact fact' : α → List BusAccess → Prop} {holds : σ → Prop} {spent : Nat}
    (h : Goes view gap spent pre act fun value made state => fact value made ∧ holds state)
    (hcost : spent ≤ cost) (hfact : ∀ value made, fact value made → fact' value made) :
    Goes view gap cost pre act fun value made state => fact' value made ∧ holds state := by
  intro before hbefore hpolls
  rcases h before hbefore (by omega) with
    ⟨value, made, after, hrun, haccesses, hleft, hmade, hafter⟩
  exact ⟨value, made, after, hrun, haccesses, by omega, hfact value made hmade, hafter⟩

theorem pure {value : α} (h : ∀ state, pre state → post value [] state) :
    Goes view gap cost pre (Pure.pure value : EStateM Halt σ α) post := by
  intro before hbefore _
  exact ⟨value, [], before, rfl, (List.append_nil _).symm, Nat.le_add_right _ _, h before hbefore⟩

/-- The accesses of a sequence are those of its parts, and so are the polls it uses up.  Its second
part may rely on what the first part guarantees. -/
theorem bind (spent rest : Nat) (hcost : spent + rest ≤ cost) {next : α → EStateM Halt σ β}
    {post : β → List BusAccess → σ → Prop} {fact : α → List BusAccess → Prop} {holds : σ → Prop}
    (hfirst : Goes view gap spent pre act fun value made state => fact value made ∧ holds state)
    (hnext : ∀ value earlier, fact value earlier → Goes view gap rest holds (next value)
      fun result made => post result (earlier ++ made)) :
    Goes view gap cost pre (act >>= next) post := by
  intro before hbefore hpolls
  rcases hfirst before hbefore (by omega) with
    ⟨value, earlier, middle, hrun, haccesses, hleft, hearlier, hmiddle⟩
  rcases hnext value earlier hearlier middle hmiddle (by omega) with
    ⟨result, made, after, hrun', haccesses', hleft', hafter⟩
  refine ⟨result, earlier ++ made, after, ?_, ?_, by omega, hafter⟩
  · rw [bind_of_ok hrun]
    exact hrun'
  · rw [haccesses', haccesses, List.append_assoc]

/-- A computation that looks at its state knows what it starts from. -/
theorem get_bind {next : σ → EStateM Halt σ α}
    (h : ∀ before, pre before → gap + cost ≤ (view before).pollsLeft →
      Goes view gap cost pre (next before) post) :
    Goes view gap cost pre (get >>= next) post := by
  intro before hbefore hpolls
  exact h before hbefore hpolls before hbefore hpolls

theorem ite {condition : Prop} [Decidable condition] {first second : EStateM Halt σ α}
    (hfirst : condition → Goes view gap cost pre first post)
    (hsecond : ¬condition → Goes view gap cost pre second post) :
    Goes view gap cost pre (if condition then first else second) post := by
  split
  case isTrue h => exact hfirst h
  case isFalse h => exact hsecond h

end Goes

/-! ## Boards at work -/

/-- What a run relies on. -/
structure Conditions where
  /-- Somebody may talk on the serial line. -/
  talks : Prop
  /-- Within how many polls the line clears. -/
  gap : Nat
  tick : UInt32
  patience : Nat

/-- What the console and the timer need of a board: the line clears if anybody is to talk on it,
and the timer advances by a known tick. -/
structure Soc.Ready (conditions : Conditions) (soc : Soc) : Prop where
  clears : conditions.talks → soc.ClearsWithin conditions.gap
  tick : soc.tick = conditions.tick
  patience : soc.patience = conditions.patience
  pollsLeft : soc.pollsLeft ≤ conditions.patience

/-- Two boards have the same line, the same tick and the same patience. -/
structure Soc.SameLine (before after : Soc) : Prop where
  busy : after.busy = before.busy
  idle : after.csrs.word .uartTxfull = before.csrs.word .uartTxfull
  tick : after.tick = before.tick
  patience : after.patience = before.patience

theorem Soc.Ready.of_same {conditions : Conditions} {before after : Soc}
    (h : before.Ready conditions) (hsame : before.SameLine after)
    (hpolls : after.pollsLeft ≤ conditions.patience) : after.Ready conditions := by
  constructor
  case clears =>
    intro htalks polls
    have hpolled : after.polled = before.polled := by
      funext polls
      rw [Soc.polled, Soc.polled, hsame.busy, hsame.idle]
    rw [hpolled]
    exact h.clears htalks polls
  case tick => exact hsame.tick.trans h.tick
  case patience => exact hsame.patience.trans h.patience
  case pollsLeft => exact hpolls

/-! ## Single accesses -/

/-- Beside its own register, a write changes the timer and the taps at most, and the polls left. -/
structure Soc.Unmoved (before after : Soc) : Prop where
  csrs : after.csrs = before.csrs
  tick : after.tick = before.tick
  busy : after.busy = before.busy
  patience : after.patience = before.patience
  accesses : after.accesses = before.accesses

theorem unmoved_react (soc : Soc) (before value : UInt32) (csr : Csr) :
    soc.Unmoved (soc.react before value csr) := by
  cases csr
  case timerEn | hyperramClkLoadn | hyperramClkMove =>
    simp only [Soc.react]
    split <;> exact ⟨rfl, rfl, rfl, rfl, rfl⟩
  case timerUpdateValue =>
    simp only [Soc.react, Soc.sampled]
    split <;> exact ⟨rfl, rfl, rfl, rfl, rfl⟩
  all_goals exact ⟨rfl, rfl, rfl, rfl, rfl⟩

/-- The polls that a write uses up: sampling the timer is one. -/
def Csr.polls : Csr → Nat
  | .timerUpdateValue => 1
  | _ => 0

theorem pollsLeft_react {soc : Soc} (h : soc.pollsLeft ≤ soc.patience) (before value : UInt32)
    (csr : Csr) :
    soc.pollsLeft ≤ (soc.react before value csr).pollsLeft + csr.polls ∧
      (soc.react before value csr).pollsLeft ≤ soc.patience := by
  cases csr
  case timerUpdateValue =>
    have hleft : (soc.react before value .timerUpdateValue).pollsLeft = soc.pollsLeft - 1 := rfl
    rw [hleft, Csr.polls]
    omega
  case uartRxtx => exact ⟨h, le_rfl⟩
  case timerEn | hyperramClkLoadn | hyperramClkMove =>
    simp only [Soc.react]
    split <;> exact ⟨le_rfl, h⟩
  all_goals exact ⟨le_rfl, h⟩

section Accesses

variable {conditions : Conditions} {gap : Nat}

theorem goes_write (csr : Csr) (value : UInt32) (hline : csr ≠ .uartTxfull)
    (hreset : csr ≠ .ctrlReset) :
    Goes id gap csr.polls (Soc.Ready conditions) (Soc.write csr value)
      fun _ made soc => made = [.write csr value] ∧ soc.Ready conditions := by
  intro before h hpolls
  have hhalts : before.halts value csr = none := by
    cases csr
    -- Sampling the timer halts a run that has no polls left, but here one is granted.
    case timerUpdateValue =>
      have hsome : before.pollsLeft ≠ 0 := by
        intro hspent
        simp [hspent, Csr.polls] at hpolls
      exact if_neg hsome
    case ctrlReset => exact absurd rfl hreset
    all_goals rfl
  have hwrite : Soc.write csr value before =
      .ok () ((before.assigned csr value).react (before.csrs.word csr) value csr) := by
    simp only [Soc.write, hhalts]
  have hassigned : (before.assigned csr value).pollsLeft ≤ (before.assigned csr value).patience :=
    h.pollsLeft.trans_eq h.patience.symm
  have hunmoved := unmoved_react (before.assigned csr value) (before.csrs.word csr) value csr
  have hcount := pollsLeft_react hassigned (before.csrs.word csr) value csr
  generalize (before.assigned csr value).react (before.csrs.word csr) value csr = after at *
  have hsame : before.SameLine after := by
    refine ⟨hunmoved.busy, ?_, hunmoved.tick, hunmoved.patience⟩
    rw [hunmoved.csrs]
    exact CsrWords.word_assign_of_ne _ _ hline.symm
  refine ⟨(), [.write csr value], after, hwrite, ?_, hcount.1, rfl,
    h.of_same hsame (hcount.2.trans_eq h.patience)⟩
  change after.accesses.toList = _
  rw [hunmoved.accesses]
  exact Array.toList_push

/-- Sending makes up for all polls. -/
theorem pollsLeft_of_sent {value : UInt32} {before after : Soc}
    (h : Soc.write .uartRxtx value before = .ok () after) : after.pollsLeft = before.patience := by
  cases h
  rfl

/-- A poll reads the next word of the line. -/
theorem exists_poll {before : Soc} (h : before.Ready conditions) (hpolls : before.pollsLeft ≠ 0) :
    ∃ after, Soc.read .uartTxfull before = .ok (before.polled 0) after ∧ after.Ready conditions ∧
      after.accesses.toList = before.accesses.toList ++ [.read .uartTxfull (before.polled 0)] ∧
      (∀ polls, after.polled polls = before.polled (polls + 1)) ∧
      after.pollsLeft + 1 = before.pollsLeft := by
  let after : Soc := { before with
    pollsLeft := before.pollsLeft - 1
    busy := before.busy.tail
    accesses := before.accesses.push (.read .uartTxfull (before.polled 0)) }
  have hread : Soc.read .uartTxfull before = .ok (before.polled 0) after := by
    simp only [Soc.read, Soc.readBusy, if_neg hpolls]
    cases hnext : before.busy.next <;>
      simp [after, Soc.noted, Soc.polled, BusyScript.word, BusyScript.head, BusyScript.tail, hnext]
  have hpolled : ∀ polls, after.polled polls = before.polled (polls + 1) :=
    BusyScript.word_tail _ before.busy
  have hready : after.Ready conditions := by
    constructor
    case clears =>
      intro htalks polls
      rcases h.clears htalks (polls + 1) with ⟨more, hmore, hfree⟩
      refine ⟨more, hmore, ?_⟩
      rw [hpolled]
      rwa [Nat.add_right_comm] at hfree
    case tick => exact h.tick
    case patience => exact h.patience
    case pollsLeft => exact (Nat.sub_le _ _).trans h.pollsLeft
  exact ⟨after, hread, hready, Array.toList_push, hpolled, Nat.succ_pred_eq_of_ne_zero hpolls⟩

end Accesses

/-! ## The console -/

/-- Polls of the line, up to the first one that finds it free. -/
inductive AwaitsRoom : List BusAccess → Prop where
  | free {word : UInt32} (h : word.toUInt8 = 0) : AwaitsRoom [.read .uartTxfull word]
  | busy {word : UInt32} {rest : List BusAccess} (h : word.toUInt8 ≠ 0) (hrest : AwaitsRoom rest) :
      AwaitsRoom (.read .uartTxfull word :: rest)

/-- Accesses by which octets are sent: each of them is written as soon as a poll has found the
line free. -/
inductive Transmits : List UInt8 → List BusAccess → Prop where
  | nil : Transmits [] []
  | cons (octet : UInt8) {rest : List UInt8} {polls trace : List BusAccess}
      (hroom : AwaitsRoom polls) (h : Transmits rest trace) :
      Transmits (octet :: rest) (polls ++ .write .uartRxtx octet.toUInt32 :: trace)

theorem Transmits.append {first second : List UInt8} {trace trace' : List BusAccess}
    (h : Transmits first trace) (h' : Transmits second trace') :
    Transmits (first ++ second) (trace ++ trace') := by
  induction h with
  | nil => exact h'
  | cons octet hroom _ ih =>
    rw [List.append_assoc]
    exact .cons octet hroom ih

section Console

variable {conditions : Conditions}

/-- Polling goes on until the line is free. -/
theorem exists_awaitRoom {before : Soc} {more attempts : Nat} (h : before.Ready conditions)
    (hfree : (before.polled more).toUInt8 = 0) (hattempts : more < attempts)
    (hpolls : more < before.pollsLeft) :
    ∃ polls after, Console.awaitRoom attempts before = .ok () after ∧ after.Ready conditions ∧
      AwaitsRoom polls ∧ after.accesses.toList = before.accesses.toList ++ polls := by
  -- By induction on the polls that are left until the line is known to be free: an earlier poll may
  -- find it free as well.
  induction more generalizing before attempts with
  | zero =>
    rcases exists_poll h (Nat.ne_zero_of_lt hpolls) with ⟨after, hread, hafter, haccesses, _, _⟩
    obtain ⟨attempts, rfl⟩ := Nat.exists_eq_succ_of_ne_zero (Nat.ne_zero_of_lt hattempts)
    refine ⟨_, after, ?_, hafter, .free hfree, haccesses⟩
    rw [Console.awaitRoom, bind_of_ok hread, if_neg (not_not.mpr hfree)]
    rfl
  | succ more ih =>
    rcases exists_poll h (Nat.ne_zero_of_lt hpolls) with
      ⟨middle, hread, hmiddle, haccesses, hpolled, hleft⟩
    obtain ⟨attempts, rfl⟩ := Nat.exists_eq_succ_of_ne_zero (Nat.ne_zero_of_lt hattempts)
    rw [Console.awaitRoom, bind_of_ok hread]
    by_cases hfirst : (before.polled 0).toUInt8 = 0
    · refine ⟨_, middle, ?_, hmiddle, .free hfirst, haccesses⟩
      rw [if_neg (not_not.mpr hfirst)]
      rfl
    · rw [← hpolled] at hfree
      rcases ih hmiddle hfree (Nat.lt_of_succ_lt_succ hattempts) (by omega) with
        ⟨polls, after, hrun, hafter, hroom, haccesses'⟩
      refine ⟨_, after, ?_, hafter, .busy hfirst hroom, ?_⟩
      · rw [if_pos hfirst]
        exact hrun
      · rw [haccesses', haccesses, List.append_assoc]
        rfl

/-- An octet is sent as soon as the line is free. -/
theorem goes_send (htalks : conditions.talks) (octet : UInt8) :
    Goes id conditions.gap 0 (Soc.Ready conditions) (Console.send octet)
      fun _ made soc => Transmits [octet] made ∧ soc.Ready conditions := by
  intro before h hpolls
  rcases h.clears htalks 0 with ⟨more, hmore, hfree⟩
  rw [Nat.zero_add] at hfree
  have hleft : more < before.pollsLeft := hmore.trans_le hpolls
  rcases exists_awaitRoom h hfree (hleft.trans (Nat.lt_succ_self _)) hleft with
    ⟨polls, middle, hawait, hmiddle, hroom, haccesses⟩
  -- However many polls that took, sending makes up for them.
  have hgoes : Goes id 0 0 (Soc.Ready conditions) _ _ :=
    goes_write .uartRxtx octet.toUInt32 (by decide) (by decide)
  rcases hgoes middle hmiddle (Nat.zero_le _) with
    ⟨_, made, after, hwrite, haccesses', _, rfl, hafter⟩
  refine ⟨(), _, after, ?_, ?_, ?_, .cons octet hroom .nil, hafter⟩
  · change (get >>= fun soc => Console.awaitRoom (soc.pollsLeft + 1) >>= fun _ =>
      Soc.write .uartRxtx octet.toUInt32) before = _
    have hget : (get : Bus Soc) before = .ok before before := rfl
    rw [bind_of_ok hget, bind_of_ok hawait]
    exact hwrite
  · change after.accesses.toList = before.accesses.toList ++ _
    rw [← List.append_assoc, ← haccesses]
    exact haccesses'
  · change before.pollsLeft ≤ after.pollsLeft + 0
    rw [pollsLeft_of_sent hwrite, hmiddle.patience]
    exact h.pollsLeft

theorem goes_sendAll (htalks : conditions.talks) (octets : List UInt8) :
    Goes id conditions.gap 0 (Soc.Ready conditions) (Console.sendAll octets)
      fun _ made soc => Transmits octets made ∧ soc.Ready conditions := by
  induction octets with
  | nil =>
    apply Goes.pure
    intro soc h
    exact ⟨.nil, h⟩
  | cons octet rest ih =>
    apply Goes.bind 0 0 le_rfl (goes_send htalks octet)
    intro _ earlier hearlier
    apply ih.weaken le_rfl
    intro _ made hmade
    exact hearlier.append hmade

/-- What a variant sends of a text. -/
def Variant.sends (variant : Variant) (pieces : List String) : List UInt8 :=
  if variant.uart then pieces.flatMap Console.wire else []

theorem goes_print {variant : Variant} (htalks : variant.uart = true → conditions.talks)
    (text : String) :
    Goes id conditions.gap 0 (Soc.Ready conditions) (Console.print variant text)
      fun _ made soc => Transmits (variant.sends [text]) made ∧ soc.Ready conditions := by
  apply Goes.ite
  · intro huart
    have hsends : variant.sends [text] = Console.wire text := by
      simp [Variant.sends, huart]
    rw [hsends]
    exact goes_sendAll (htalks huart) _
  · intro hnone
    have hsends : variant.sends [text] = [] := by
      simp [Variant.sends, hnone]
    rw [hsends]
    apply Goes.pure
    intro soc h
    exact ⟨.nil, h⟩

theorem goes_printAll {variant : Variant} (htalks : variant.uart = true → conditions.talks)
    (pieces : List String) :
    Goes id conditions.gap 0 (Soc.Ready conditions) (Console.printAll variant pieces)
      fun _ made soc => Transmits (variant.sends pieces) made ∧ soc.Ready conditions := by
  induction pieces with
  | nil =>
    apply Goes.pure
    intro soc h
    have hsends : variant.sends [] = [] := ite_self _
    rw [hsends]
    exact ⟨.nil, h⟩
  | cons piece rest ih =>
    apply Goes.bind 0 0 le_rfl (goes_print htalks piece)
    intro _ earlier hearlier
    apply ih.weaken le_rfl
    intro _ made hmade
    have hsends : variant.sends (piece :: rest) = variant.sends [piece] ++ variant.sends rest := by
      by_cases huart : variant.uart = true <;> simp [Variant.sends, huart]
    rw [hsends]
    exact hearlier.append hmade

end Console

end Board
end TimingEye
