import Mathlib.Data.List.Forall2
import TimingEye.Proofs.Phy.Ledger

/-!
# The timing at every probe

A calibration touches the memory word only while it probes, and whenever it does, the delay lines
and the slips of the bank are those of one coarse setting: the one whose number is the number of
slips so far.

* `TimedAt`: the timing that belongs to a number of slips;
* `InBlocks`: accesses that touch the memory word in whole probes;
* `timing_at_every_probe`: both of it in every calibration.
-/

namespace TimingEye
namespace Phy

/-! ## The timing of a setting -/

/-- Whether an access drives a slip line. -/
def Access.drivesSlipLine : Access → Bool
  | .write .slipHr2x90 _ | .write .slipHr2x _ => true
  | _ => false

/-- The slips that some accesses complete: each slip drives the slip lines four times. -/
def completedSlips (accesses : List Access) : Nat :=
  accesses.countP Access.drivesSlipLine / 4

/-- The timing after a number of slips, on a bank that began with the counters of `start`. -/
structure TimedAt (start : Bank) (slips : Nat) (bank : Bank) : Prop where
  clockTaps : bank.clockTaps.toNat = slips / 4
  ioTaps : bank.ioTaps = 0
  loadn : ∀ line : DelayLine, bank.lines.level line.loadn = 1
  direction : ∀ line : DelayLine, bank.lines.level line.direction = 0
  move : ∀ line : DelayLine, bank.lines.level line.move = 0
  slipHr2x90 : bank.lines.level .slipHr2x90 = 0
  slipHr2x : bank.lines.level .slipHr2x = 0
  hr2x90Slips : bank.hr2x90Slips.toNat =
    start.hr2x90Slips.toNat + (List.range' 1 slips).countP (·.testBit 0)
  hr2xSlips : bank.hr2xSlips.toNat =
    start.hr2xSlips.toNat + (List.range' 1 slips).countP (·.testBit 1)

theorem TimedAt.of_timing_eq {start bank other : Bank} {slips : Nat}
    (h : TimedAt start slips bank) (htiming : other.timing = bank.timing) :
    TimedAt start slips other := by
  have hlevel : ∀ signal, other.lines.level signal = bank.lines.level signal :=
    congrFun (congrArg Timing.level htiming)
  have hmeter : ∀ meter, other.timing.meter meter = bank.timing.meter meter :=
    congrFun (congrArg Timing.meter htiming)
  constructor
  case clockTaps => exact (hmeter (.taps .clock)).trans h.clockTaps
  case ioTaps => exact (UInt8.toNat_inj.mp (hmeter (.taps .io))).trans h.ioTaps
  case loadn => exact fun line => (hlevel line.loadn).trans (h.loadn line)
  case direction => exact fun line => (hlevel line.direction).trans (h.direction line)
  case move => exact fun line => (hlevel line.move).trans (h.move line)
  case slipHr2x90 => exact (hlevel .slipHr2x90).trans h.slipHr2x90
  case slipHr2x => exact (hlevel .slipHr2x).trans h.slipHr2x
  case hr2x90Slips => exact (hmeter .hr2x90Slips).trans h.hr2x90Slips
  case hr2xSlips => exact (hmeter .hr2xSlips).trans h.hr2xSlips

theorem mem_delayWrites {line : DelayLine} {taps : UInt8} {write : Signal × UInt8}
    (h : write ∈ delayWrites line taps) :
    write.1 = line.loadn ∨ write.1 = line.direction ∨ write.1 = line.move := by
  rcases List.mem_append.mp h with h | h
  · have hreload : write = (line.loadn, 0) ∨ write = (line.loadn, 1) ∨
        write = (line.direction, 0) := by
      simpa [reloadWrites] using h
    rcases hreload with rfl | rfl | rfl
    · exact .inl rfl
    · exact .inl rfl
    · exact .inr (.inl rfl)
  · rcases List.mem_flatten.mp h with ⟨pulses, hpulses, hwrite⟩
    rw [List.eq_of_mem_replicate hpulses] at hwrite
    have hpulse : write = (line.move, 1) ∨ write = (line.move, 0) := by
      simpa [pulse] using hwrite
    rcases hpulse with rfl | rfl
    · exact .inr (.inr rfl)
    · exact .inr (.inr rfl)

theorem countP_drivesSlipLine_of_reads {accesses : List Access}
    (h : ∀ access ∈ accesses, access.isWrite = false) :
    accesses.countP Access.drivesSlipLine = 0 := by
  have hnone : ∀ access ∈ accesses, ¬access.drivesSlipLine = true := by
    intro access hmem
    have hread := h access hmem
    cases access with
    | write signal value => cases hread
    | _ => exact Bool.false_ne_true
  exact List.countP_eq_zero.mpr hnone

theorem countP_drivesSlipLine_of_uses {call : Call} {accesses : List Access}
    (h : Bank.Uses call accesses) :
    accesses.countP Access.drivesSlipLine = 4 * (slipsOf [call]).length := by
  cases call with
  | setDelay line taps =>
    have hnone : ∀ access ∈ accesses, ¬access.drivesSlipLine = true := by
      intro access hmem
      subst h
      rcases List.mem_map.mp hmem with ⟨write, hwrite, rfl⟩
      rcases mem_delayWrites hwrite with hline | hline | hline <;>
        cases line <;> simp [Access.ofWrite, hline, Access.drivesSlipLine, DelayLine.loadn,
          DelayLine.direction, DelayLine.move]
    exact List.countP_eq_zero.mpr hnone
  | stepPhase direction =>
    subst h
    rfl
  | slip subPhase =>
    subst h
    rfl
  | probe passed => exact countP_drivesSlipLine_of_reads h.isWrite_eq_false

/-- The accesses of some calls complete as many slips as there are among the calls. -/
theorem completedSlips_flatten {calls : List Call} {parts : List (List Access)}
    (h : List.Forall₂ Bank.Uses calls parts) :
    completedSlips parts.flatten = (slipsOf calls).length := by
  have hcount : parts.flatten.countP Access.drivesSlipLine = 4 * (slipsOf calls).length := by
    induction h with
    | nil => rfl
    | @cons call accesses calls parts huses _ ih =>
      calc
        (accesses ++ parts.flatten).countP Access.drivesSlipLine
            = 4 * (slipsOf [call]).length + 4 * (slipsOf calls).length := by
          rw [List.countP_append, countP_drivesSlipLine_of_uses huses, ih]
        _ = 4 * (slipsOf ([call] ++ calls)).length := by
          rw [slipsOf_append, List.length_append, Nat.mul_add]
  rw [completedSlips, hcount, Nat.mul_div_cancel_left _ (by decide)]

/-- Before a probe, a bank is timed for the slips so far. -/
theorem timedAt_before_probe {params : Params} {events : List Event} {verdict : Verdict}
    {earlier later : List Call} {passed : Bool} {start bank : Bank}
    (hcourse : Course params events verdict)
    (hcalls : calls events = earlier ++ .probe passed :: later)
    (hrest : start.timing.AtRest) (htrail : Trail Bank.hardware.Acts start earlier bank) :
    TimedAt start (slipsOf earlier).length bank := by
  rcases hcourse.before_probe hcalls with ⟨coarse, hcoarse, hleads⟩
  rcases Bank.timing_of_calls hrest htrail with ⟨htiming, hafter⟩
  have hoctet : coarse < 256 := hcoarse.trans params.coarseSteps.toNat_lt
  have hquarter : coarse / 4 < 256 := (Nat.div_le_self coarse 4).trans_lt hoctet
  -- The ledger gives each reading, and the setting gives what it comes to.
  rcases Timing.delayLine_afterAll start.timing hleads.clockDelay with ⟨hctaps, hcloadn, hcdir⟩
  rcases Timing.delayLine_afterAll start.timing hleads.ioDelay with ⟨hitaps, hiloadn, hidir⟩
  rcases Timing.slips_afterAll start.timing earlier with ⟨h90, h2x⟩
  rcases countP_slipsUpTo hoctet with ⟨hbit0, hbit1⟩
  rw [hleads.slips, hbit0] at h90
  rw [hleads.slips, hbit1] at h2x
  rw [← htiming] at hctaps hcloadn hcdir hitaps hiloadn hidir h90 h2x
  rw [hleads.slips, length_slipsUpTo]
  constructor
  case clockTaps => exact hctaps.trans (UInt8.toNat_ofNat_of_lt' hquarter)
  case ioTaps => exact UInt8.toNat_inj.mp hitaps
  case loadn => rintro (_ | _) <;> assumption
  case direction => rintro (_ | _) <;> assumption
  case move => exact hafter.move
  case slipHr2x90 => exact hafter.slipHr2x90
  case slipHr2x => exact hafter.slipHr2x
  case hr2x90Slips => exact h90
  case hr2xSlips => exact h2x

/-! ## Whole probes -/

/-- Accesses that touch the memory word in whole probes only. -/
inductive InBlocks : List Access → Prop where
  | nil : InBlocks []
  | write (signal : Signal) (value : UInt8) {rest : List Access} (h : InBlocks rest) :
      InBlocks (.write signal value :: rest)
  | probe {accesses rest : List Access} {passed : Bool}
      (hchecked : Checked testPatterns accesses passed) (h : InBlocks rest) :
      InBlocks (accesses ++ rest)

theorem InBlocks.append {first second : List Access} (hfirst : InBlocks first)
    (hsecond : InBlocks second) : InBlocks (first ++ second) := by
  induction hfirst with
  | nil => exact hsecond
  | write signal value _ ih => exact .write signal value ih
  | probe hchecked _ ih =>
    rw [List.append_assoc]
    exact .probe hchecked ih

theorem InBlocks.of_writes {accesses : List Access}
    (h : ∀ access ∈ accesses, access.isWrite = true) : InBlocks accesses := by
  induction accesses with
  | nil => exact .nil
  | cons access rest ih =>
    have hrest := ih fun other hmem => h other (List.mem_cons_of_mem access hmem)
    have hfirst := h access List.mem_cons_self
    cases access with
    | write signal value => exact .write signal value hrest
    | _ => cases hfirst

theorem InBlocks.of_uses {call : Call} {accesses : List Access} (h : Bank.Uses call accesses) :
    InBlocks accesses := by
  cases call with
  | probe passed =>
    have hblock : InBlocks (accesses ++ []) := .probe h .nil
    rwa [List.append_nil] at hblock
  | _ =>
    subst h
    exact .of_writes fun _ => isWrite_of_mem_map_ofWrite

theorem InBlocks.of_calls {calls : List Call} {parts : List (List Access)}
    (h : List.Forall₂ Bank.Uses calls parts) : InBlocks parts.flatten := by
  induction h with
  | nil => exact .nil
  | cons huses _ ih => exact (InBlocks.of_uses huses).append ih

theorem cut_patternBlock {pattern found word : UInt32} {before after : List Access}
    (h : patternBlock pattern found = before ++ .writeWord word :: after) :
    before = [] ∧ word = pattern := by
  cases before with
  | nil =>
    cases h
    exact ⟨rfl, rfl⟩
  | cons first rest =>
    injection h with _ hrest
    have hmem : Access.writeWord word ∈ [.flushSharedCache, .flushDataCache, .readWord found] := by
      rw [hrest]
      exact List.mem_append_right _ List.mem_cons_self
    simp at hmem

/-- A probe writes the second pattern right after the first one has been read back. -/
theorem Checked.firstPattern_eq {accesses before after : List Access} {passed : Bool}
    (h : Checked testPatterns accesses passed)
    (hcut : accesses = before ++ .writeWord secondPattern :: after) :
    before = patternBlock firstPattern firstPattern := by
  cases h with
  | mismatched _ _ => exact absurd (cut_patternBlock hcut).2.symm firstPattern_ne_secondPattern
  | matched _ hsecond =>
    rcases Trail.cut_append hcut with ⟨_, hfirst⟩ | ⟨middle, rfl, hrest⟩
    · exact absurd (cut_patternBlock hfirst).2.symm firstPattern_ne_secondPattern
    · have hmiddle : middle = [] := by
        cases hsecond with
        | mismatched _ _ => exact (cut_patternBlock hrest).1
        | matched _ hnone =>
          cases hnone
          rw [List.append_nil] at hrest
          exact (cut_patternBlock hrest).1
      rw [hmiddle, List.append_nil]

/-- The second pattern is written right after the first one has been read back. -/
theorem InBlocks.firstPattern_suffix {trace before after : List Access} (h : InBlocks trace)
    (hcut : trace = before ++ .writeWord secondPattern :: after) :
    patternBlock firstPattern firstPattern <:+ before := by
  induction h generalizing before with
  | nil => cases before <;> cases hcut
  | write signal value _ ih =>
    cases before with
    | nil => cases hcut
    | cons first before =>
      injection hcut with _ hrest
      exact (ih hrest).trans (List.suffix_cons first before)
  | probe hchecked _ ih =>
    rcases Trail.cut_append hcut with ⟨_, hprobe⟩ | ⟨middle, rfl, hrest⟩
    · have hbefore := hchecked.firstPattern_eq hprobe
      subst hbefore
      exact List.suffix_rfl
    · exact (ih hrest).trans (List.suffix_append _ middle)

/-! ## Every calibration -/

/-- Whatever is not a control-line write finds the bank timed for the slips so far. -/
def TimedThroughout (start : Bank) (trace : List Access) : Prop :=
  ∀ before access after, trace = before ++ access :: after → access.isWrite = false →
    ∃ reached, Trail Bank.Does start before reached ∧
      TimedAt start (completedSlips before) reached

theorem TimedThroughout.append_writes {start : Bank} {trace accesses : List Access}
    (h : TimedThroughout start trace) (hwrites : ∀ access ∈ accesses, access.isWrite = true) :
    TimedThroughout start (trace ++ accesses) := by
  intro before access after hcut hread
  rcases Trail.cut_append hcut with ⟨middle, hfirst⟩ | ⟨middle, _, hsecond⟩
  · exact h before access middle hfirst hread
  · have hmem : access ∈ accesses := by
      rw [hsecond]
      exact List.mem_append_right _ List.mem_cons_self
    cases hread.symm.trans (hwrites access hmem)

theorem TimedThroughout.append_reads {start middle last : Bank} {trace accesses : List Access}
    (h : TimedThroughout start trace) (htrail : Trail Bank.Does start trace middle)
    (htimed : TimedAt start (completedSlips trace) middle)
    (hreads : ∀ access ∈ accesses, access.isWrite = false)
    (haccesses : Trail Bank.Does middle accesses last) :
    TimedThroughout start (trace ++ accesses) := by
  intro before access after hcut hread
  rcases Trail.cut_append hcut with ⟨between, hfirst⟩ | ⟨between, rfl, rfl⟩
  · exact h before access between hfirst hread
  · -- What comes before the access within its own part has not changed the timing.
    rcases Trail.append_iff.mp haccesses with ⟨reached, hbetween, _⟩
    have hbetweenReads : ∀ access ∈ between, access.isWrite = false := by
      intro access hmem
      exact hreads access (List.mem_append_left _ hmem)
    have hslips : completedSlips (trace ++ between) = completedSlips trace := by
      rw [completedSlips, List.countP_append, countP_drivesSlipLine_of_reads hbetweenReads,
        Nat.add_zero, completedSlips]
    have htiming := Bank.timing_of_trail hbetween hbetweenReads
    refine ⟨reached, htrail.append hbetween, ?_⟩
    rw [hslips]
    exact htimed.of_timing_eq htiming

/-- The accesses of the first calls of a calibration, call by call. -/
theorem exists_parts_of_calls {params : Params} {events : List Event} {verdict : Verdict}
    {earlier later : List Call} {start bank : Bank} (hcourse : Course params events verdict)
    (hcalls : calls events = earlier ++ later) (hrest : start.timing.AtRest)
    (htrail : Trail Bank.hardware.Acts start earlier bank) :
    ∃ parts, List.Forall₂ Bank.Uses earlier parts ∧
      Trail Bank.Does start parts.flatten bank ∧ TimedThroughout start parts.flatten := by
  -- From call to call the trace grows at its end: a probe adds accesses that find the bank as the
  -- calls before it have left it, and every other call adds control-line writes.
  induction earlier using List.reverseRecOn generalizing later bank with
  | nil =>
    cases htrail
    refine ⟨[], .nil, .nil start, ?_⟩
    intro before access after hcut
    cases before <;> cases hcut
  | append_singleton earlier call ih =>
    rcases Trail.concat_iff.mp htrail with ⟨middle, hearlier, hcall⟩
    rw [List.append_assoc, List.singleton_append] at hcalls
    rcases ih hcalls hearlier with ⟨parts, hparts, htrace, htimed⟩
    rcases Bank.exists_uses hcall with ⟨accesses, huses, haccesses⟩
    refine ⟨parts ++ [accesses], List.rel_append hparts (.cons huses .nil), ?_⟩
    rw [List.flatten_append, List.flatten_singleton]
    refine ⟨htrace.append haccesses, ?_⟩
    cases call with
    | probe passed =>
      have hbefore := timedAt_before_probe hcourse hcalls hrest hearlier
      rw [← completedSlips_flatten hparts] at hbefore
      exact htimed.append_reads htrace hbefore huses.isWrite_eq_false haccesses
    | _ =>
      subst huses
      exact htimed.append_writes fun _ => isWrite_of_mem_map_ofWrite

/-- Some accesses are those of the calls between two transcripts, call by call. -/
def AccessesOf (transcript seen : Transcript) (trace : List Access) : Prop :=
  ∃ calls parts, seen.calls.toList = transcript.calls.toList ++ calls ∧
    List.Forall₂ Bank.Uses calls parts ∧ trace = parts.flatten

/-- The accesses of a whole calibration, up to its end or to a fault. -/
theorem exists_traced_watch (params : Params) (transcript : Transcript) {bank : Bank}
    (hrest : bank.timing.AtRest) :
    ∃ trace last,
      Bank.Traced bank ((calibrate params).watch Bank.hardware transcript bank) trace last ∧
      TimedThroughout bank trace ∧ InBlocks trace ∧
      (∀ result seen final,
        (calibrate params).watch Bank.hardware transcript bank = .ok (result, seen) final →
          AccessesOf transcript seen trace) := by
  have htakes := Procedure.takes_watch Bank.hardware (calibrate params) transcript bank
  generalize (calibrate params).watch Bank.hardware transcript bank = outcome at htakes ⊢
  cases htakes with
  | ended hpath htrail =>
    rcases Course.of_path hpath with ⟨verdict, rfl, hcourse⟩
    rcases exists_parts_of_calls hcourse (List.append_nil _).symm hrest htrail with
      ⟨parts, hparts, htrace, htimed⟩
    refine ⟨parts.flatten, _, .ended _ htrace, htimed, .of_calls hparts, ?_⟩
    intro result seen final hrun
    cases hrun
    exact ⟨_, parts, Transcript.calls_foldl_seen _ transcript, hparts, rfl⟩
  | faulted later hpath hcalls htrail hfault =>
    -- The call that faults adds some of its writes to those of the calls before it.
    rcases Course.of_path hpath with ⟨verdict, rfl, hcourse⟩
    rcases exists_parts_of_calls hcourse hcalls hrest htrail with
      ⟨parts, hparts, htrace, htimed⟩
    rcases Bank.exists_traced_of_faults hfault with ⟨writes, last, hwrites, htraced⟩
    refine ⟨parts.flatten ++ writes, last, htraced.after htrace, htimed.append_writes hwrites,
      (InBlocks.of_calls hparts).append (.of_writes hwrites), ?_⟩
    intro result seen final hrun
    cases hrun

/-- Every calibration of a bank at rest, however it ends and whatever it reads, finds the bank
timed for the slips so far at each access to the memory word, and makes these accesses in whole
probes: each pattern is written past both caches and read back, and the second one only right
after the first one has been read back.  If nothing faults, the accesses are those of the calls in
the transcript, each call in its turn. -/
theorem timing_at_every_probe (params : Params) (transcript : Transcript) (bank : Bank)
    (hmove : ∀ line : DelayLine, bank.lines.level line.move = 0)
    (hslip90 : bank.lines.level .slipHr2x90 = 0) (hslip : bank.lines.level .slipHr2x = 0) :
    ∃ trace last,
      Bank.Traced bank ((calibrate params).watch Bank.hardware transcript bank) trace last ∧
      last.accesses.toList = bank.accesses.toList ++ trace ∧
      (∀ before access after, trace = before ++ access :: after → access.isWrite = false →
        ∃ reached, Trail Bank.Does bank before reached ∧
          Trail Bank.Does reached (access :: after) last ∧
          TimedAt bank (completedSlips before) reached) ∧
      InBlocks trace ∧
      (∀ before after, trace = before ++ .writeWord secondPattern :: after →
        patternBlock firstPattern firstPattern <:+ before) ∧
      (∀ result seen final,
        (calibrate params).watch Bank.hardware transcript bank = .ok (result, seen) final →
          AccessesOf transcript seen trace) := by
  have hrest : bank.timing.AtRest := ⟨hmove, hslip90, hslip⟩
  rcases exists_traced_watch params transcript hrest with
    ⟨trace, last, htraced, htimed, hblocks, hcalls⟩
  refine ⟨trace, last, htraced, Bank.accesses_of_trail htraced.trail, ?_, hblocks,
    fun _ _ => hblocks.firstPattern_suffix, hcalls⟩
  intro before access after hcut hread
  rcases htimed before access after hcut hread with ⟨reached, hreached, hat⟩
  -- Accesses have one outcome each, so that is the bank the run passes through.
  have htrail := htraced.trail
  rw [hcut] at htrail
  rcases Trail.append_iff.mp htrail with ⟨middle, hmiddle, hafter⟩
  have hsame : middle = reached := hmiddle.unique hreached fun _ _ _ _ => Bank.does_unique
  rw [hsame] at hafter
  exact ⟨reached, hreached, hafter, hat⟩

/-- All lines of a fresh bank are low. -/
theorem timing_at_every_probe_of_fresh_bank :
    (∀ line : DelayLine, ({} : Bank).lines.level line.move = 0) ∧
    ({} : Bank).lines.level .slipHr2x90 = 0 ∧ ({} : Bank).lines.level .slipHr2x = 0 ∧
    ∃ trace last,
      Bank.Traced {} ((calibrate .standard).watch Bank.hardware {} {}) trace last ∧
      (∀ before access after, trace = before ++ access :: after → access.isWrite = false →
        ∃ reached, Trail Bank.Does {} before reached ∧
          TimedAt {} (completedSlips before) reached) ∧
      InBlocks trace := by
  have hlow : ∀ signal, ({} : Bank).lines.level signal = 0 := LineLevels.level_low
  refine ⟨fun line => hlow line.move, hlow _, hlow _, ?_⟩
  rcases timing_at_every_probe .standard {} {} (fun line => hlow line.move) (hlow _) (hlow _)
    with ⟨trace, last, htraced, _, htimed, hblocks, _, _⟩
  refine ⟨trace, last, htraced, ?_, hblocks⟩
  intro before access after hcut hread
  rcases htimed before access after hcut hread with ⟨reached, hreached, _, hat⟩
  exact ⟨reached, hreached, hat⟩

end Phy
end TimingEye
