import TimingEye.Proofs.Board.LineEndings

/-!
# Delivery of texts

The console polls its line before each octet, and polls on while the line is busy.  So no octet is
lost, sent twice or out of order, and the receiver can tell the text from what it gets.

* `Console.Follows`: which access may come right after which;
* `Console.Delivered`: what has become of the octets of a text, wherever a run has ended;
* `Console.received?`: the text that a receiver reads off what it gets;
* `Console.printAll_eq_print_join`: the pieces in which a text is printed make no difference;
* `console_delivers`: what the console does with the texts it is handed.
-/

namespace TimingEye
namespace Board

/-! ## Octets on the bus -/

/-- The octet that an access sends. -/
def BusAccess.octet? : BusAccess → Option UInt8
  | .write .uartRxtx word => some word.toUInt8
  | _ => none

/-- The octets that some accesses send, one after another. -/
def octetsSent (accesses : List BusAccess) : List UInt8 :=
  accesses.filterMap BusAccess.octet?

/-- A poll that finds the line busy. -/
inductive BusAccess.FindsBusy : BusAccess → Prop where
  | poll {word : UInt32} (h : word.toUInt8 ≠ 0) : FindsBusy (.read .uartTxfull word)

theorem octetsSent_append (first second : List BusAccess) :
    octetsSent (first ++ second) = octetsSent first ++ octetsSent second :=
  List.filterMap_append

theorem AwaitsRoom.octetsSent {polls : List BusAccess} (h : AwaitsRoom polls) :
    octetsSent polls = [] := by
  induction h with
  | free _ => rfl
  | busy _ _ ih => exact ih

/-- Accesses by which octets are sent send these octets. -/
theorem Transmits.octetsSent {octets : List UInt8} {trace : List BusAccess}
    (h : Transmits octets trace) : octetsSent trace = octets := by
  induction h with
  | nil => rfl
  | @cons octet rest polls trace hroom _ ih =>
    calc Board.octetsSent (polls ++ .write .uartRxtx octet.toUInt32 :: trace)
      _ = Board.octetsSent (.write .uartRxtx octet.toUInt32 :: trace) := by
        rw [octetsSent_append, hroom.octetsSent, List.nil_append]
      _ = octet.toUInt32.toUInt8 :: Board.octetsSent trace := rfl
      _ = octet :: rest := by rw [UInt8.toUInt8_toUInt32, ih]

theorem octetsSent_of_busy {polls : List BusAccess} (h : ∀ access ∈ polls, access.FindsBusy) :
    octetsSent polls = [] := by
  apply List.filterMap_eq_nil_iff.mpr
  intro access hmem
  cases h access hmem
  rfl

namespace Console

/-! ## The order of accesses -/

/-- What may come right after an access of the console. -/
inductive Follows : BusAccess → BusAccess → Prop where
  /-- The line is busy, and is polled again. -/
  | again {word next : UInt32} (h : word.toUInt8 ≠ 0) :
      Follows (.read .uartTxfull word) (.read .uartTxfull next)
  /-- The line is free, and takes an octet. -/
  | send {word octet : UInt32} (h : word.toUInt8 = 0) :
      Follows (.read .uartTxfull word) (.write .uartRxtx octet)
  /-- An octet has been sent, and the line is polled for the next one. -/
  | goOn {octet next : UInt32} : Follows (.write .uartRxtx octet) (.read .uartTxfull next)

/-- Polls come after anything that a poll may follow, and an octet comes after the last of them. -/
theorem isChain_of_awaitsRoom {polls rest : List BusAccess} {octet : UInt32} {first : BusAccess}
    (h : AwaitsRoom polls) (hfirst : ∀ word, Follows first (.read .uartTxfull word))
    (hrest : (.write .uartRxtx octet :: rest).IsChain Follows) :
    (first :: (polls ++ .write .uartRxtx octet :: rest)).IsChain Follows := by
  induction h generalizing first with
  | free hfree => exact .cons_cons (hfirst _) (.cons_cons (.send hfree) hrest)
  | busy hbusy _ ih => exact .cons_cons (hfirst _) (ih fun _ => .again hbusy)

theorem isChain_of_busy {polls : List BusAccess} {first : BusAccess}
    (h : ∀ access ∈ polls, access.FindsBusy)
    (hfirst : ∀ word, Follows first (.read .uartTxfull word)) :
    (first :: polls).IsChain Follows := by
  induction polls generalizing first with
  | nil => exact .singleton first
  | cons access rest ih =>
    rcases List.forall_mem_cons.mp h with ⟨⟨hbusy⟩, hrest⟩
    exact .cons_cons (hfirst _) (ih hrest fun _ => .again hbusy)

/-- While octets are sent, and while the line is busy after that, each access may follow the one
before it. -/
theorem isChain_of_transmits {octets : List UInt8} {trace busy : List BusAccess}
    (h : Transmits octets trace) (hbusy : ∀ access ∈ busy, access.FindsBusy) (last : UInt32) :
    (.write .uartRxtx last :: (trace ++ busy)).IsChain Follows := by
  induction h generalizing last with
  | nil => exact isChain_of_busy hbusy fun _ => .goOn
  | cons octet hroom _ ih =>
    rw [List.append_assoc]
    exact isChain_of_awaitsRoom hroom (fun _ => .goOn) (ih octet.toUInt32)

/-- Nothing comes after the last octet. -/
theorem getLast?_of_transmits {octets : List UInt8} {trace : List BusAccess}
    (h : Transmits octets trace) {access : BusAccess} (hlast : trace.getLast? = some access) :
    ∃ word, access = .write .uartRxtx word := by
  induction h with
  | nil => cases hlast
  | @cons octet _ polls trace _ _ ih =>
    rw [List.getLast?_append_cons] at hlast
    cases trace with
    | nil => exact ⟨_, (Option.some.inj hlast).symm⟩
    | cons next rest => exact ih hlast

/-- How the console takes turns with its line. -/
structure Paced (made : List BusAccess) (cut : Prop) : Prop where
  /-- An octet is written right after a poll that has found the line free. -/
  room : ∀ {earlier later : List BusAccess} {word : UInt32},
    made = earlier ++ .write .uartRxtx word :: later →
      ∃ polls free, earlier = polls ++ [.read .uartTxfull free] ∧ free.toUInt8 = 0
  /-- A poll that has found the line busy is followed by another one, unless the run is cut. -/
  patience : ∀ {earlier later : List BusAccess} {word : UInt32},
    made = earlier ++ .read .uartTxfull word :: later → word.toUInt8 ≠ 0 →
      (∃ next rest, later = .read .uartTxfull next :: rest) ∨ cut ∧ later = []

theorem paced_of_transmits {octets : List UInt8} {trace busy : List BusAccess}
    (h : Transmits octets trace) (hbusy : ∀ access ∈ busy, access.FindsBusy) :
    Paced (trace ++ busy) (busy ≠ []) := by
  have hchain := isChain_of_transmits h hbusy 0
  rw [List.isChain_iff_forall_rel_of_append_cons_cons] at hchain
  constructor
  case room =>
    intro earlier later word hmade
    rcases List.eq_nil_or_concat earlier with rfl | ⟨polls, poll, rfl⟩
    · -- The accesses cannot begin with an octet, as if one had just been sent.
      have hfirst : BusAccess.write .uartRxtx 0 :: (trace ++ busy) =
          [] ++ .write .uartRxtx 0 :: .write .uartRxtx word :: later := by rw [hmade]; rfl
      cases hchain hfirst
    · have hpoll : BusAccess.write .uartRxtx 0 :: (trace ++ busy) =
          (.write .uartRxtx 0 :: polls) ++ poll :: .write .uartRxtx word :: later := by
        rw [hmade, List.concat_append, List.cons_append]
      cases hchain hpoll with
      | send hfree => exact ⟨polls, _, List.concat_eq_append, hfree⟩
  case patience =>
    intro earlier later word hmade hword
    cases later with
    | nil =>
      right
      refine ⟨?_, rfl⟩
      rintro rfl
      -- Not cut, the accesses would end with an octet.
      rw [List.append_nil] at hmade
      have hlast : trace.getLast? = some (.read .uartTxfull word) := by
        rw [hmade, List.getLast?_concat]
      rcases getLast?_of_transmits h hlast with ⟨_, hwrite⟩
      cases hwrite
    | cons next rest =>
      have hnext : BusAccess.write .uartRxtx 0 :: (trace ++ busy) =
          (.write .uartRxtx 0 :: earlier) ++ .read .uartTxfull word :: next :: rest := by
        rw [hmade, List.cons_append]
      cases hchain hnext with
      | again _ => exact .inl ⟨_, rest, rfl⟩
      | send hfree => exact absurd hfree hword

/-! ## Runs that are cut -/

/-- A poll is cut off before it reaches the bus. -/
theorem eq_of_poll_cut {before after : Soc} {halt : Halt}
    (h : Soc.read .uartTxfull before = .error halt after) :
    halt = .stalled .uart ∧ after = before := by
  simp only [Soc.read, Soc.readBusy] at h
  split at h
  · cases h
    exact ⟨rfl, rfl⟩
  · split at h <;> cases h

/-- A run that is cut while it waits for the line has found it busy at each poll. -/
theorem polled_of_cut {attempts : Nat} {before after : Soc} {halt : Halt}
    (h : awaitRoom attempts before = .error halt after) :
    halt = .stalled .uart ∧
      ∃ polls, (∀ access ∈ polls, access.FindsBusy) ∧ Polled polls before after := by
  have hnone : ∀ soc, Polled [] soc soc := fun soc => ⟨.refl soc, (List.append_nil _).symm⟩
  induction attempts generalizing before with
  | zero =>
    cases h
    exact ⟨rfl, [], List.forall_mem_nil _, hnone _⟩
  | succ attempts ih =>
    rw [awaitRoom] at h
    cases hread : Soc.read .uartTxfull before with
    | error halt' after' =>
      rw [bind_of_error hread] at h
      cases h
      rcases eq_of_poll_cut hread with ⟨rfl, rfl⟩
      exact ⟨rfl, [], List.forall_mem_nil _, hnone _⟩
    | ok word middle =>
      rw [bind_of_ok hread] at h
      split at h
      case isFalse => cases h
      case isTrue hbusy =>
        have hpolled := (ends_poll before).of_ok hread
        rcases ih h with ⟨rfl, polls, hpolls, hrest⟩
        refine ⟨rfl, _ :: polls, List.forall_mem_cons.mpr ⟨.poll hbusy, hpolls⟩,
          hpolled.mute.trans hrest.mute, ?_⟩
        rw [hrest.accesses, hpolled.accesses, List.append_assoc]
        rfl

/-- What has become of octets that were to be sent. -/
inductive Delivered (octets : List UInt8) (before : Soc) : EStateM.Result Halt Soc Unit → Prop where
  /-- All of them have been sent. -/
  | whole {after : Soc} (h : Spoke octets before after) : Delivered octets before (.ok () after)
  /-- Some of them have been sent, and since then the line has been busy. -/
  | cut {sent rest : List UInt8} {octet : UInt8} {middle after : Soc} {busy : List BusAccess}
      (hoctets : octets = sent ++ octet :: rest) (hsent : Spoke sent before middle)
      (hbusy : ∀ access ∈ busy, access.FindsBusy) (hpolled : Polled busy middle after) :
      Delivered octets before (.error (.stalled .uart) after)

theorem Delivered.after {first rest : List UInt8} {before middle : Soc}
    {result : EStateM.Result Halt Soc Unit} (h : Delivered rest middle result)
    (hfirst : Spoke first before middle) : Delivered (first ++ rest) before result := by
  cases h with
  | whole h => exact .whole (hfirst.append h)
  | cut hoctets hsent hbusy hpolled =>
    rw [hoctets, ← List.append_assoc]
    exact .cut rfl (hfirst.append hsent) hbusy hpolled

theorem delivered_send (octet : UInt8) (before : Soc) :
    Delivered [octet] before (send octet before) := by
  have hsend : send octet before = (awaitRoom (before.pollsLeft + 1) >>= fun _ =>
    Soc.write .uartRxtx octet.toUInt32) before := rfl
  cases hrun : awaitRoom (before.pollsLeft + 1) before with
  | ok _ middle =>
    have hok : send octet before = .ok () _ := hsend.trans (bind_of_ok hrun)
    rw [hok]
    exact .whole ((ends_send octet before).of_ok hok)
  | error halt after =>
    rcases polled_of_cut hrun with ⟨rfl, busy, hbusy, hpolled⟩
    rw [hsend, bind_of_error hrun]
    exact .cut rfl (.nil before) hbusy hpolled

/-- Octets are sent one after another, and if not all of them are, the first ones are. -/
theorem delivered_sendAll (octets : List UInt8) (before : Soc) :
    Delivered octets before (sendAll octets before) := by
  induction octets generalizing before with
  | nil => exact .whole (.nil before)
  | cons octet rest ih =>
    have hfirst := delivered_send octet before
    rw [sendAll]
    cases hrun : send octet before with
    | ok _ middle =>
      rw [bind_of_ok hrun]
      exact (ih middle).after ((ends_send octet before).of_ok hrun)
    | error halt after =>
      rw [bind_of_error hrun]
      rw [hrun] at hfirst
      cases hfirst with
      | @cut sent left stopped _ _ _ hoctets hsent hbusy hpolled =>
        have hall : octet :: rest = sent ++ stopped :: (left ++ rest) := by
          rw [← List.cons_append, ← List.append_assoc, ← hoctets, List.singleton_append]
        exact .cut hall hsent hbusy hpolled

/-! ## Pieces -/

theorem sendAll_append (first second : List UInt8) :
    sendAll (first ++ second) = sendAll first >>= fun _ => sendAll second := by
  induction first with
  | nil => exact (pure_bind () fun _ => sendAll second).symm
  | cons octet rest ih =>
    rw [List.cons_append, sendAll, sendAll, bind_assoc, ih]

/-- The pieces in which a text is printed make no difference to anything. -/
theorem printAll_eq_print_join (variant : Variant) (pieces : List String) :
    printAll variant pieces = print variant (String.join pieces) := by
  induction pieces with
  | nil => exact (ite_self _).symm
  | cons piece rest ih =>
    rw [printAll, ih, String.join_cons, print, print, print, wire_append]
    split
    · exact (sendAll_append (wire piece) _).symm
    · rfl

/-! ## The receiver -/

/-- Some octets without the carriage return right after each line feed. -/
def withoutReturns : List UInt8 → List UInt8
  | first :: second :: rest =>
    if first = lineFeed ∧ second = carriageReturn then lineFeed :: withoutReturns rest
    else first :: withoutReturns (second :: rest)
  | octets => octets

/-- The text that a receiver reads off the octets it gets. -/
def received? (octets : List UInt8) : Option String :=
  String.fromUTF8? ⟨(withoutReturns octets).toArray⟩

theorem withoutReturns_cons {octet : UInt8} (h : octet ≠ lineFeed) (rest : List UInt8) :
    withoutReturns (octet :: rest) = octet :: withoutReturns rest := by
  cases rest with
  | nil => rfl
  | cons next rest => rw [withoutReturns, if_neg fun hline => h hline.1]

/-- A carriage return of the text itself stays where it is, even if it comes after a line feed. -/
theorem withoutReturns_flatMap (octets : List UInt8) :
    withoutReturns (octets.flatMap wireOctet) = octets := by
  induction octets with
  | nil => rfl
  | cons octet rest ih =>
    rw [List.flatMap_cons, wireOctet]
    by_cases hline : octet = lineFeed
    · calc withoutReturns ((if octet = lineFeed then [lineFeed, carriageReturn] else [octet]) ++
            rest.flatMap wireOctet)
        _ = withoutReturns (lineFeed :: carriageReturn :: rest.flatMap wireOctet) := by
          rw [if_pos hline]
          rfl
        _ = lineFeed :: withoutReturns (rest.flatMap wireOctet) := if_pos ⟨rfl, rfl⟩
        _ = octet :: rest := by rw [ih, hline]
    · rw [if_neg hline, List.singleton_append, withoutReturns_cons hline, ih]

theorem received?_wire (text : String) : received? (wire text) = some text := by
  rw [received?, wire, withoutReturns_flatMap, fromUTF8?_eq_some_iff, octets]

theorem wire_injective : Function.Injective wire := by
  intro text text' h
  have hreceived := congrArg received? h
  rw [received?_wire, received?_wire] at hreceived
  exact Option.some.inj hreceived

/-- Every octet of a text is sent once, and one more is sent for each line feed. -/
theorem length_wire (text : String) :
    (wire text).length = text.utf8ByteSize + text.toList.count '\n' := by
  have hsize : text.utf8ByteSize = (text.toList.flatMap String.utf8EncodeChar).length := by
    rw [← toList_toByteArray, Array.length_toList, ← String.size_toByteArray]
    rfl
  have hending : (['\n', '\r'].flatMap String.utf8EncodeChar).length =
      (String.utf8EncodeChar '\n').length + 1 := by decide
  rw [wire_eq_octets, octets_withLineEnding, hsize]
  generalize ['\n', '\r'].flatMap String.utf8EncodeChar = ending at hending ⊢
  induction text.toList with
  | nil => rfl
  | cons char rest ih =>
    rw [List.flatMap_cons, List.flatMap_cons, List.length_append, List.length_append, ih,
      List.count_cons]
    by_cases hline : char = '\n'
    · subst hline
      rw [if_pos rfl, if_pos (beq_self_eq_true _), hending]
      omega
    · rw [if_neg hline, if_neg (by simpa using hline)]
      omega

/-! ## Deliveries -/

/-- A board has sent a stream of octets, and has done so at the pace of its line. -/
structure Delivers (stream : List UInt8) (before after : Soc) (cut : Prop) : Prop where
  sent : after.sent.toList = before.sent.toList ++ stream
  accesses : ∃ made, after.accesses.toList = before.accesses.toList ++ made ∧
    octetsSent made = stream ∧ Paced made cut

/-- Of a text, the whole stream has been sent, or a beginning of it that the line has cut short. -/
theorem Delivered.delivers {octets : List UInt8} {before : Soc}
    {result : EStateM.Result Halt Soc Unit} (h : Delivered octets before result) :
    (∃ after, result = .ok () after ∧ Delivers octets before after False) ∨
    ∃ after stream, result = .error (.stalled .uart) after ∧ stream <+: octets ∧
      stream ≠ octets ∧ Delivers stream before after True := by
  cases h with
  | @whole after hspoke =>
    left
    rcases hspoke.accesses with ⟨made, haccesses, htransmits⟩
    have hpaced := paced_of_transmits htransmits (List.forall_mem_nil _)
    rw [List.append_nil] at hpaced
    refine ⟨after, rfl, hspoke.sent, made, haccesses, htransmits.octetsSent, hpaced.room, ?_⟩
    intro earlier later word hmade hword
    exact .inl ((hpaced.patience hmade hword).resolve_right fun hcut => hcut.1 rfl)
  | @cut sent rest octet middle after busy hoctets hspoke hbusy hpolled =>
    right
    rcases hspoke.accesses with ⟨made, haccesses, htransmits⟩
    have hpaced := paced_of_transmits htransmits hbusy
    refine ⟨after, sent, rfl, ⟨_, hoctets.symm⟩, ?_, ?_, made ++ busy, ?_, ?_, hpaced.room, ?_⟩
    · intro hall
      rw [hoctets] at hall
      exact List.cons_ne_nil _ _ (List.self_eq_append_right.mp hall)
    · rw [hpolled.mute.sent, hspoke.sent]
    · rw [hpolled.accesses, haccesses, List.append_assoc]
    · rw [octetsSent_append, htransmits.octetsSent, octetsSent_of_busy hbusy, List.append_nil]
    · intro earlier later word hmade hword
      exact (hpaced.patience hmade hword).imp_right fun hcut => ⟨trivial, hcut.2⟩

end Console

/-- However texts are cut into pieces and however long the line is busy, the octets that are sent
are those of the whole text, in order, with a carriage return after each line feed; each of them is
sent right after a poll that has found the line free.  A line that stays busy cuts the stream short
and changes nothing else.  Different texts are sent as different streams, and each text can be read
off its own. -/
theorem console_delivers {variant : Variant} (huart : variant.uart = true) (soc : Soc)
    (pieces : List String) :
    ((∃ after, Console.printAll variant pieces soc = .ok () after ∧
        Console.Delivers (Console.wire (String.join pieces)) soc after False) ∨
      ∃ after stream, Console.printAll variant pieces soc = .error (.stalled .uart) after ∧
        stream <+: Console.wire (String.join pieces) ∧
        stream ≠ Console.wire (String.join pieces) ∧ Console.Delivers stream soc after True) ∧
    (soc.LineClears → ∃ bound, ∀ patience ≥ bound, ∃ after,
      Console.printAll variant pieces (soc.watchedFor patience) = .ok () after) ∧
    (Console.wire (String.join pieces)).length =
      (String.join pieces).utf8ByteSize + (String.join pieces).toList.count '\n' ∧
    Console.received? (Console.wire (String.join pieces)) = some (String.join pieces) ∧
    ∀ pieces',
      (String.join pieces' = String.join pieces →
        Console.printAll variant pieces' = Console.printAll variant pieces) ∧
      (String.join pieces' ≠ String.join pieces →
        Console.wire (String.join pieces') ≠ Console.wire (String.join pieces)) := by
  refine ⟨?_, ?_, Console.length_wire _, Console.received?_wire _, ?_⟩
  · have hdelivered := Console.delivered_sendAll (Console.wire (String.join pieces)) soc
    rw [Console.printAll_eq_print_join, Console.print, if_pos huart]
    exact hdelivered.delivers
  · intro hline
    rcases exists_printAll hline with ⟨bound, hbound⟩
    exact ⟨bound, fun patience hpatience => hbound patience hpatience variant pieces⟩
  · intro pieces'
    constructor
    · intro hsame
      rw [Console.printAll_eq_print_join, Console.printAll_eq_print_join, hsame]
    · intro hdifferent hwire
      exact hdifferent (Console.wire_injective hwire)

/-- A fresh board whose line is busy at some polls. -/
def busyNowAndThen : Soc where
  patience := 20000
  busy := { pending := [1, 0, 255, 7] }

/-- A carriage return of the text is sent like any octet, also right before a line feed. -/
theorem console_delivers_of_busy_line :
    Variant.full.uart = true ∧ ∃ after,
      Console.printAll .full ["a\r", "\nb"] busyNowAndThen = .ok () after ∧
        Console.Delivers [97, 13, 10, 13, 98] busyNowAndThen after False := by
  have hwire : Console.wire (String.join ["a\r", "\nb"]) = [97, 13, 10, 13, 98] := by
    decide +kernel
  have hends : (Console.printAll .full ["a\r", "\nb"]).run' busyNowAndThen = some () := by
    decide +kernel
  have huart : Variant.full.uart = true := rfl
  rcases (console_delivers huart busyNowAndThen ["a\r", "\nb"]).1 with
    ⟨after, hrun, hdelivers⟩ | ⟨_, _, hcut, _⟩
  · rw [hwire] at hdelivers
    exact ⟨rfl, after, hrun, hdelivers⟩
  · delta EStateM.run' EStateM.run at hends
    rw [hcut] at hends
    cases hends

end Board
end TimingEye
