import TimingEye.Proofs.Board.Frame
import TimingEye.Proofs.Board.Outcome
import TimingEye.Proofs.Phy.SteadyMemory

/-!
# The firmware drives its registers as a bank is driven

A calibration on the board makes the same accesses to the memory and to its control lines as the
calibration of a simulated bank with the same memory, whatever else the firmware does in between.

* `Soc.interface`: what a board has in common with a bank;
* `Mirrors`: boards that stand where a bank stands;
* `Mirrors.run`: procedures on such a board;
* `bringsUp_of_mirrors`, `exists_concluded_of_mirrors`: how its bring-up goes, and that it ends;
* `bringUp_mirrors_bank`: the bring-up of any board, against one calibration of a bank.
-/

namespace TimingEye
namespace Board

/-! ## The memory interface of a board -/

/-- The registers of the clock generator and of the memory interface. -/
def Csr.isInterface : Csr → Bool
  | .crgPhaseSel | .crgPhaseDir | .crgPhaseStep | .crgSlipHr2x | .crgSlipHr2x90
  | .hyperramIoLoadn | .hyperramIoMove | .hyperramIoDirection
  | .hyperramClkLoadn | .hyperramClkMove | .hyperramClkDirection => true
  | _ => false

/-- Accesses to those registers and to the memory word. -/
def BusAccess.isInterface : BusAccess → Bool
  | .write csr _ | .read csr _ => csr.isInterface
  | .store _ | .load _ => true

theorem isInterface_ofSignal (signal : Signal) : (Csr.ofSignal signal).isInterface = true := by
  cases signal <;> rfl

theorem ofSignal_ne {csr : Csr} (h : csr.isInterface = false) (signal : Signal) :
    Csr.ofSignal signal ≠ csr := by
  intro heq
  rw [← heq, isInterface_ofSignal] at h
  cases h

/-- The part of a board that a calibration works on, with the accesses to it. -/
@[ext]
structure Interface where
  level : Signal → UInt32
  clockTaps : Nat
  retention : Retention
  cell : UInt32
  accesses : List BusAccess

def Soc.interface (soc : Soc) : Interface where
  level signal := soc.csrs.word (Csr.ofSignal signal)
  clockTaps := soc.clockTaps
  retention := soc.retention
  cell := soc.cell
  accesses := soc.accesses.toList.filter BusAccess.isInterface

/-! ## Accesses to other registers -/

theorem interface_noted {soc : Soc} {access : BusAccess} (h : access.isInterface = false) :
    (soc.noted access).interface = soc.interface := by
  ext1
  case accesses => simp [Soc.interface, Soc.noted, h]
  all_goals rfl

theorem interface_assigned {soc : Soc} {csr : Csr} (h : csr.isInterface = false)
    (value : UInt32) : (soc.assigned csr value).interface = soc.interface := by
  have hnoted : (soc.assigned csr value).interface =
      ({ soc with csrs := soc.csrs.assign csr value } : Soc).interface :=
    interface_noted h
  rw [hnoted]
  ext1
  case level =>
    funext signal
    exact CsrWords.word_assign_of_ne _ value (ofSignal_ne h signal)
  all_goals rfl

theorem interface_react {soc : Soc} {csr : Csr} (h : csr.isInterface = false)
    (before value : UInt32) : (soc.react before value csr).interface = soc.interface := by
  cases csr
  case timerEn =>
    rw [Soc.react]
    split <;> rfl
  case timerUpdateValue =>
    simp only [Soc.react, Soc.sampled]
    split <;> rfl
  all_goals first | rfl | cases h

theorem interface_write {csr : Csr} (h : csr.isInterface = false) (value : UInt32)
    (before : Soc) :
    match Soc.write csr value before with
    | .ok _ after | .error _ after => after.interface = before.interface := by
  simp only [Soc.write]
  cases before.halts value csr with
  | none => exact (interface_react h _ _).trans (interface_assigned h value)
  | some halt => exact interface_assigned h value

/-- The registers by which the console and the timer are reached. -/
def Csr.aside : List Csr :=
  ofConsole ++ ofSampling ++ ofStarting

/-- The memory interface has not changed. -/
def SameInterface (before after : Soc) : Prop :=
  after.interface = before.interface

/-- The console and the timer leave the memory interface alone. -/
theorem frames_interface : Frames SameInterface Csr.aside := by
  have hother : ∀ csr ∈ Csr.aside, csr.isInterface = false := by decide
  constructor
  case refl =>
    intro soc
    rfl
  case trans =>
    intro first second third hfirst hsecond
    exact hsecond.trans hfirst
  case write =>
    intro csr hmem value before
    have hwrite := interface_write (hother csr hmem) value before
    -- Of these registers only the one that samples the timer can halt a run.
    have hhalts : ∀ halt, before.halts value csr = some halt → halt = .stalled .timer := by
      intro halt hsome
      cases csr
      case timerUpdateValue =>
        rw [Soc.halts] at hsome
        split at hsome
        · exact (Option.some.inj hsome).symm
        · cases hsome
      case ctrlReset => exact absurd hmem (by decide)
      all_goals cases hsome
    simp only [Soc.write] at hwrite ⊢
    cases hhalt : before.halts value csr with
    | none =>
      rw [hhalt] at hwrite
      exact hwrite
    | some halt =>
      rw [hhalt] at hwrite
      exact ⟨hwrite, .timer, hhalts halt hhalt⟩
  case read =>
    intro csr hmem before
    have hnoted : ∀ soc value,
        (Soc.noted soc (.read csr value)).interface = soc.interface := by
      intro soc value
      exact interface_noted (hother csr hmem)
    cases csr
    case uartTxfull =>
      simp only [Soc.read, Soc.readBusy]
      by_cases hspent : before.pollsLeft = 0
      · rw [if_pos hspent]
        exact ⟨rfl, .uart, rfl⟩
      · rw [if_neg hspent]
        cases before.busy.next with
        | none => exact hnoted _ _
        | some polled => exact hnoted _ _
    all_goals exact hnoted _ _

/-! ## Boards and banks -/

/-- What an access to a bank is on the bus.  The board has no caches to empty. -/
def busAccess? : Phy.Access → Option BusAccess
  | .write signal value => some (.write (Csr.ofSignal signal) value.toUInt32)
  | .writeWord value => some (.store value)
  | .readWord value => some (.load value)
  | .flushSharedCache | .flushDataCache => none

/-- The accesses of a bank, as they are on the bus. -/
def busAccesses (bank : Phy.Bank) : List BusAccess :=
  bank.accesses.toList.filterMap busAccess?

theorem busAccesses_noted (bank : Phy.Bank) (access : Phy.Access) :
    busAccesses (bank.noted access) = busAccesses bank ++ (busAccess? access).toList := by
  cases h : busAccess? access <;> simp [busAccesses, Phy.Bank.noted, h]

/-- A memory interface stands where a bank stands, and has seen the accesses of the bank after
some earlier ones. -/
structure Mirrors (earlier : List BusAccess) (interface : Interface) (bank : Phy.Bank) : Prop where
  level : ∀ signal, interface.level signal = (bank.lines.level signal).toUInt32
  clockTaps : interface.clockTaps = bank.clockTaps.toNat
  retention : interface.retention = bank.retention
  cell : interface.cell = bank.cell
  forced : bank.forced = []
  accesses : interface.accesses = earlier ++ busAccesses bank

/-! ## Control lines -/

theorem toUInt32_eq_zero_iff {value : UInt8} : value.toUInt32 = 0 ↔ value = 0 := by
  rw [← UInt32.toNat_inj, ← UInt8.toNat_inj, UInt8.toNat_toUInt32]
  rfl

/-- The memory interface after a control line has been driven. -/
def Interface.driven (interface : Interface) (signal : Signal) (value : UInt8) : Interface :=
  { interface with
    level := fun other => if other = signal then value.toUInt32 else interface.level other
    clockTaps :=
      if signal = .clkLoadn ∧ value = 0 then 0
      else if signal = .clkMove ∧ interface.level .clkMove = 0 ∧ value ≠ 0 then
        interface.clockTaps + 1
      else interface.clockTaps
    accesses := interface.accesses ++ [.write (Csr.ofSignal signal) value.toUInt32] }

/-- What a control line brings about: the clock delay line takes note, and nothing else does. -/
theorem react_ofSignal (soc : Soc) (before value : UInt32) (signal : Signal) :
    soc.react before value (Csr.ofSignal signal) = { soc with
      clockTaps :=
        if signal = .clkLoadn ∧ value = 0 then 0
        else if signal = .clkMove ∧ before = 0 ∧ value ≠ 0 then soc.clockTaps + 1
        else soc.clockTaps } := by
  cases signal
  case clkLoadn =>
    by_cases hlow : value = 0 <;> simp [Csr.ofSignal, Soc.react, hlow]
  case clkMove =>
    by_cases hedge : before = 0 ∧ value ≠ 0 <;> simp [Csr.ofSignal, Soc.react, hedge]
  all_goals rfl

theorem exists_drive (signal : Signal) (value : UInt8) (soc : Soc) :
    ∃ after, Soc.registers.write signal value soc = .ok () after ∧
      after.interface = soc.interface.driven signal value := by
  have hhalts : soc.halts value.toUInt32 (Csr.ofSignal signal) = none := by
    cases signal <;> rfl
  have hwrite : Soc.registers.write signal value soc = .ok () ((soc.assigned (Csr.ofSignal signal)
      value.toUInt32).react (soc.csrs.word (Csr.ofSignal signal)) value.toUInt32
      (Csr.ofSignal signal)) := by
    simp only [Soc.registers, Soc.write, hhalts]
  refine ⟨_, hwrite, ?_⟩
  rw [react_ofSignal]
  ext1
  case level =>
    funext other
    by_cases hsame : other = signal
    · subst hsame
      simp [Soc.interface, Interface.driven, Soc.assigned, Soc.noted]
    · have hother : Csr.ofSignal other ≠ Csr.ofSignal signal :=
        fun heq => hsame (Csr.ofSignal_injective heq)
      simp [Soc.interface, Interface.driven, Soc.assigned, Soc.noted, hsame, hother]
  case clockTaps =>
    cases signal <;> simp [Soc.interface, Interface.driven, Soc.assigned, Soc.noted,
      toUInt32_eq_zero_iff, Csr.ofSignal]
  case accesses =>
    simp [Soc.interface, Interface.driven, Soc.assigned, Soc.noted, BusAccess.isInterface,
      isInterface_ofSignal]
  all_goals rfl

namespace Mirrors

variable {earlier : List BusAccess} {interface : Interface} {bank after : Phy.Bank}

/-- A control line moves the taps of the board as it moves those of the bank. -/
theorem driven {signal : Signal} {value : UInt8} (h : Mirrors earlier interface bank)
    (hwritten : Phy.Bank.Written signal value bank after) :
    Mirrors earlier (interface.driven signal value) after := by
  constructor
  case level =>
    intro other
    have hlevel := congrFun (congrArg Phy.Timing.level hwritten.timing) other
    change after.lines.level other =
      if other = signal then value else bank.lines.level other at hlevel
    rw [hlevel]
    simp only [Interface.driven]
    split
    · rfl
    · exact h.level other
  case clockTaps =>
    -- The bank counts the taps in an octet, the board without a limit: the write has gone through,
    -- so the octet has not been left.
    have hmeter := congrFun (congrArg Phy.Timing.meter hwritten.timing) (.taps .clock)
    change after.clockTaps.toNat = _ at hmeter
    rw [hmeter]
    cases signal <;>
      simp [Interface.driven, Phy.Timing.written, Phy.Timing.advanced, Phy.Meter.cleared,
        Phy.Bank.timing, h.level, h.clockTaps, toUInt32_eq_zero_iff]
  case retention => exact h.retention.trans hwritten.same.retention.symm
  case cell => exact h.cell.trans hwritten.same.cell.symm
  case forced => exact hwritten.same.forced.trans h.forced
  case accesses =>
    have haccesses : busAccesses after =
        busAccesses bank ++ [.write (Csr.ofSignal signal) value.toUInt32] := by
      rw [busAccesses, hwritten.same.accesses]
      simp [Phy.Bank.driven, Phy.Bank.noted, busAccesses, busAccess?]
    rw [haccesses, ← List.append_assoc, ← h.accesses]
    rfl

/-! ## The memory word -/

/-- The board notes an access to the memory word as the bank does. -/
theorem noted {soc : Soc} {access : Phy.Access} {noted : BusAccess}
    (h : Mirrors earlier soc.interface bank) (haccess : busAccess? access = some noted)
    (hinterface : noted.isInterface = true) :
    Mirrors earlier (soc.noted noted).interface (bank.noted access) := by
  have haccesses : (soc.noted noted).interface.accesses = soc.interface.accesses ++ [noted] := by
    simp [Soc.interface, Soc.noted, hinterface]
  refine ⟨h.level, h.clockTaps, h.retention, h.cell, h.forced, ?_⟩
  rw [haccesses, busAccesses_noted, haccess, h.accesses, List.append_assoc]
  rfl

/-- The board has no caches, and does nothing to empty them. -/
theorem noted_flush {access : Phy.Access} (h : Mirrors earlier interface bank)
    (haccess : busAccess? access = none) : Mirrors earlier interface (bank.noted access) := by
  refine ⟨h.level, h.clockTaps, h.retention, h.cell, h.forced, ?_⟩
  rw [busAccesses_noted, haccess, h.accesses, Option.toList_none, List.append_nil]

/-- The memory of the board keeps what that of the bank keeps. -/
theorem stored {soc : Soc} (h : Mirrors earlier soc.interface bank) (value : UInt32) :
    Mirrors earlier (soc.stored value).interface (bank.stored value) := by
  have hdecide : soc.retention.decide soc.clockTaps =
      bank.retention.decide bank.clockTaps.toNat := by
    have hretention : soc.retention = bank.retention := h.retention
    have htaps : soc.clockTaps = bank.clockTaps.toNat := h.clockTaps
    rw [hretention, htaps]
  have hcell : soc.cell = bank.cell := h.cell
  constructor
  case retention => exact congrArg Prod.snd hdecide
  case cell =>
    change (if (soc.retention.decide soc.clockTaps).1 then value else soc.cell) =
      if (bank.retention.decide bank.clockTaps.toNat).1 then value else bank.cell
    rw [hdecide, hcell]
  case level => exact h.level
  case clockTaps => exact h.clockTaps
  case forced => exact h.forced
  case accesses => exact h.accesses

/-- A board stays where it stands while its interface does not change. -/
theorem of_same {before : Soc} {later : Soc} (h : Mirrors earlier before.interface bank)
    (hsame : SameInterface before later) : Mirrors earlier later.interface bank := by
  rw [hsame]
  exact h

/-! ## Operations -/

/-- Whatever goes through on the bank goes through on the board. -/
theorem simulates_registers (earlier : List BusAccess) :
    registers.Simulates Phy.Bank.registers
      (fun board bank => Mirrors earlier board.soc.interface bank) := by
  constructor
  case write =>
    intro signal value board before after h hwrite
    have hwritten : Phy.Bank.Written signal value before after := Phy.Bank.written_of_write hwrite
    rcases exists_drive signal value board.soc with ⟨driven, hdriven, hinterface⟩
    refine ⟨⟨driven, board.log⟩, ?_, ?_⟩
    · simp only [registers, onBus, hdriven]
    · change Mirrors earlier driven.interface after
      rw [hinterface]
      exact h.driven hwritten
  case writeWord =>
    intro value board before after h hwrite
    cases hwrite
    exact ⟨_, rfl, (h.noted rfl rfl).stored value⟩
  case readWord =>
    intro value board before after h hread
    -- Nothing is forced upon the reads of the bank, so it reads its memory word.
    have hreading : before.reading = board.soc.cell := by
      rw [Phy.Bank.reading, h.forced]
      exact h.cell.symm
    cases hread
    rw [hreading]
    refine ⟨_, rfl, ?_⟩
    have hforced : before.forced.tail = before.forced := by
      rw [h.forced]
      rfl
    rw [hforced]
    exact h.noted rfl rfl
  case flushSharedCache =>
    intro board before after h hflush
    cases hflush
    exact ⟨board, rfl, h.noted_flush rfl⟩
  case flushDataCache =>
    intro board before after h hflush
    cases hflush
    exact ⟨board, rfl, h.noted_flush rfl⟩

/-- The firmware follows each operation. -/
theorem acts {board : State} {call : Call} (h : Mirrors earlier board.soc.interface bank)
    (hacts : Phy.Bank.hardware.Acts call bank after) :
    ∃ reached, hardware.Acts call board reached ∧ Mirrors earlier reached.soc.interface after :=
  (simulates_registers earlier).acts h hacts

end Mirrors

/-! ## Procedures -/

/-- How a computation on a board may end that goes along with a bank: it stands where the bank has
got to, or a poll has cut it and it has made some of the accesses. -/
inductive Mirroring {α : Type} (earlier : List BusAccess) (bank : Phy.Bank) (result : α) :
    EStateM.Result Halt State α → Prop where
  | ended {after : State} (h : Mirrors earlier after.soc.interface bank) :
      Mirroring earlier bank result (.ok result after)
  | cut (poll : Poll) {after : State}
      (h : after.soc.interface.accesses <+: earlier ++ busAccesses bank) :
      Mirroring earlier bank result (.error (.stalled poll) after)

/-- The accesses of a bank only ever become more. -/
theorem busAccesses_prefix_of_calls {calls : List Call} {before after : Phy.Bank}
    (h : Trail Phy.Bank.hardware.Acts before calls after) :
    busAccesses before <+: busAccesses after := by
  induction h with
  | nil bank => exact List.prefix_rfl
  | cons hstep _ ih =>
    rcases Phy.Bank.exists_uses hstep with ⟨accesses, _, haccesses⟩
    have hgrown := Phy.Bank.accesses_of_trail haccesses
    refine List.IsPrefix.trans ?_ ih
    rw [busAccesses, busAccesses, hgrown, List.filterMap_append]
    exact List.prefix_append _ _

/-- A board that a poll cuts before its next call to the memory has made some of the accesses. -/
theorem Mirrors.cut {α : Type} {earlier : List BusAccess} {before after : State}
    {bank final : Phy.Bank} {calls : List Call} (h : Mirrors earlier before.soc.interface bank)
    (htrail : Trail Phy.Bank.hardware.Acts bank calls final)
    (hsame : SameInterface before.soc after.soc) (poll : Poll) (result : α) :
    Mirroring earlier final result (.error (.stalled poll) after) := by
  apply Mirroring.cut
  -- The bank only goes on from where the board has been cut.
  rw [(h.of_same hsame).accesses]
  exact (List.prefix_append_right_inj _).mpr (busAccesses_prefix_of_calls htrail)

/-- Reports lie aside of the memory interface. -/
theorem aside_report (variant : Variant) {action : Action}
    (h : (Event.act action).call? = none) :
    Settles (InvImage SameInterface State.soc) (action.perform hardware (reporter variant)) := by
  have hconsole : Csr.ofConsole ⊆ Csr.aside := by decide
  have hsampling : Csr.ofSampling ⊆ Csr.aside := by decide
  cases action with
  | report pieces => exact frames_interface.announce hconsole variant pieces
  | log record => exact frames_interface.issue hconsole hsampling variant record
  | _ => cases h

/-- A procedure that has led a bank along some path leads the board along the same path, unless a
poll cuts it. -/
theorem Mirrors.run {α : Type} {procedure : Procedure α} {events : List Event}
    {result : Except Overflow α} {earlier : List BusAccess} {board : State} {bank final : Phy.Bank}
    (variant : Variant) (hpath : Procedure.Path procedure events result)
    (htrail : Trail Phy.Bank.hardware.Acts bank (calls events) final)
    (h : Mirrors earlier board.soc.interface bank) :
    Mirroring earlier final result (procedure.run hardware (reporter variant) board) := by
  -- By induction on the path that the bank has taken: the board reads the same word at each probe,
  -- and so it takes the same branch.
  induction hpath generalizing board bank with
  | done value =>
    cases htrail
    exact .ended h
  | overflow cause =>
    cases htrail
    exact .ended h
  | @act action next events result _ ih =>
    rw [calls_cons] at htrail
    rw [Procedure.run]
    cases hcall : (Event.act action).call? with
    | none =>
      -- The bank takes no part in reports.
      rw [hcall] at htrail
      apply (aside_report variant hcall).run_bind
      · intro poll after hafter
        exact h.cut htrail hafter poll _
      · intro _ after hafter
        exact ih htrail (h.of_same hafter)
    | some call =>
      rw [hcall] at htrail
      rcases Trail.cons_iff.mp htrail with ⟨middle, hstep, hrest⟩
      rcases h.acts hstep with ⟨reached, hacts, hmirrors⟩
      rw [bind_of_ok (perform_of_acts hcall hacts)]
      exact ih hrest hmirrors
  | probe _ ih =>
    rcases Trail.cons_iff.mp htrail with ⟨middle, hstep, hrest⟩
    rcases h.acts hstep with ⟨reached, hacts, hmirrors⟩
    have hprobe : hardware.probe board = .ok _ reached := hacts
    rw [Procedure.run, bind_of_ok hprobe]
    exact ih hrest hmirrors

/-! ## The bring-up -/

/-- How a bring-up may end whose calibration comes to a verdict by some accesses: it returns with
an operating point, resets the chip without one, or is cut by a poll. -/
inductive BringsUp (verdict : Verdict) (accesses : List BusAccess) :
    EStateM.Result Halt State Unit → Prop where
  | returned (point : Calibrated) {after : State} (hverdict : verdict = .calibrated point)
      (h : after.soc.interface.accesses = accesses) : BringsUp verdict accesses (.ok () after)
  | reset (sweep : Exhausted) {after : State} (hverdict : verdict = .exhausted sweep)
      (h : after.soc.interface.accesses = accesses) :
      BringsUp verdict accesses (.error .reset after)
  | cut (poll : Poll) {after : State} (h : after.soc.interface.accesses <+: accesses) :
      BringsUp verdict accesses (.error (.stalled poll) after)

/-- A memory interface that nothing has been done to yet. -/
structure Soc.Untouched (retention : Retention) (cell : UInt32) (soc : Soc) : Prop where
  level : ∀ signal, soc.csrs.word (Csr.ofSignal signal) = 0
  clockTaps : soc.clockTaps = 0
  retention : soc.retention = retention
  cell : soc.cell = cell

theorem Soc.Untouched.mirrors {retention : Retention} {cell : UInt32} {soc : Soc}
    (h : soc.Untouched retention cell) :
    Mirrors soc.interface.accesses soc.interface { retention, cell } := by
  constructor
  case level =>
    intro signal
    have hlow : ({ retention, cell } : Phy.Bank).lines.level signal = 0 :=
      LineLevels.level_low signal
    rw [hlow]
    exact h.level signal
  case clockTaps => exact h.clockTaps
  case retention => exact h.retention
  case cell => exact h.cell
  case forced => rfl
  case accesses => exact (List.append_nil _).symm

/-- Giving up resets the chip, and leaves the memory interface alone. -/
theorem bringsUp_of_giveUp {sweep : Exhausted} {accesses : List BusAccess} {board : State}
    (variant : Variant) (h : board.soc.interface.accesses = accesses) :
    BringsUp (.exhausted sweep) accesses (giveUp variant board) := by
  have hconsole : Csr.ofConsole ⊆ Csr.aside := by decide
  have hsampling : Csr.ofSampling ⊆ Csr.aside := by decide
  have hstarting : Csr.ofStarting ⊆ Csr.aside := by decide
  have hcut : ∀ poll (after : State), SameInterface board.soc after.soc →
      BringsUp (.exhausted sweep) accesses (.error (.stalled poll) after) := by
    intro poll after hsame
    have haccesses : accesses = after.soc.interface.accesses := by
      rw [hsame, h]
    subst haccesses
    exact BringsUp.cut poll List.prefix_rfl
  apply (frames_interface.announce hconsole variant [failureNotice]).run_bind hcut
  intro _ told htold
  apply (frames_interface.countDown hconsole hsampling hstarting variant restartCountdown).run_bind
  · intro poll after hsame
    exact hcut poll after (frames_interface.trans htold hsame)
  intro _ counted hcounted
  -- The write that resets the chip is noted, but it is not one to the memory interface.
  have hreset : SameInterface counted.soc (counted.soc.assigned .ctrlReset 1) :=
    interface_assigned rfl 1
  apply BringsUp.reset sweep rfl
  rw [hreset, hcounted, htold, h]

/-- Up to its verdict, the bring-up of a board follows the calibration of a bank with the same
memory. -/
theorem mirroring_sweepMemory {verdict : Verdict} {events : List Event}
    {earlier : List BusAccess} {board : State} {bank final : Phy.Bank} (variant : Variant)
    (hpath : Procedure.Path (calibrate .standard) events (.ok verdict))
    (htrail : Trail Phy.Bank.hardware.Acts bank (calls events) final)
    (h : Mirrors earlier board.soc.interface bank) :
    Mirroring earlier final (.ok verdict) (sweepMemory variant board) := by
  have hconsole : Csr.ofConsole ⊆ Csr.aside := by decide
  have hstarting : Csr.ofStarting ⊆ Csr.aside := by decide
  rw [sweepMemory]
  apply (frames_interface.prepareLogging hstarting variant).run_bind
  · intro poll after hsame
    exact h.cut htrail hsame poll _
  intro _ prepared hprepared
  have h := h.of_same hprepared
  apply (frames_interface.announce hconsole variant [banner]).run_bind
  · intro poll after hsame
    exact h.cut htrail hsame poll _
  intro _ announced hannounced
  exact (h.of_same hannounced).run variant hpath htrail

/-- The bring-up of a board follows the calibration of a bank with the same memory. -/
theorem bringsUp_of_mirrors {verdict : Verdict} {events : List Event} {earlier : List BusAccess}
    {board : State} {bank final : Phy.Bank} (variant : Variant)
    (hhyperram : variant.hyperram = true)
    (hpath : Procedure.Path (calibrate .standard) events (.ok verdict))
    (htrail : Trail Phy.Bank.hardware.Acts bank (calls events) final)
    (h : Mirrors earlier board.soc.interface bank) :
    BringsUp verdict (earlier ++ busAccesses final) (bringUp variant board) := by
  have hsweep := mirroring_sweepMemory variant hpath htrail h
  cases hswept : sweepMemory variant board with
  | error halt after =>
    rw [hswept] at hsweep
    rw [bringUp_of_sweepMemory_error hhyperram hswept]
    cases hsweep with
    | cut poll hprefix => exact .cut poll hprefix
  | ok result after =>
    rw [hswept] at hsweep
    cases hsweep with
    | ended hmirrors =>
      rw [bringUp_of_sweepMemory hhyperram hswept]
      cases verdict with
      | calibrated point => exact .returned point rfl hmirrors.accesses
      | exhausted sweep => exact bringsUp_of_giveUp variant hmirrors.accesses

/-- No poll of a bring-up goes on for good: the line clears for whoever may talk on it, and the
timer advances if there is a countdown to wait for. -/
structure Unhindered (variant : Variant) (verdict : Verdict) (board : State) : Prop where
  line : Talks variant board.log → board.soc.LineClears
  timer : ∀ sweep, verdict = .exhausted sweep → variant.timer = true → board.soc.tick ≠ 0

/-- A board that is watched for long enough gets as far as the bank, and ends as the verdict of the
bank says. -/
theorem exists_concluded_of_mirrors {verdict : Verdict} {events : List Event}
    {earlier : List BusAccess} {board : State} {bank final : Phy.Bank} (variant : Variant)
    (hhyperram : variant.hyperram = true)
    (hpath : Procedure.Path (calibrate .standard) events (.ok verdict))
    (htrail : Trail Phy.Bank.hardware.Acts bank (calls events) final)
    (h : Mirrors earlier board.soc.interface bank) (hfree : Unhindered variant verdict board) :
    ∃ bound, ∀ patience ≥ bound, ∃ after,
      bringUp variant (board.watchedFor patience) = concluded after verdict ∧
      after.soc.interface.accesses = earlier ++ busAccesses final := by
  rcases exists_concluded hhyperram hfree.line with ⟨bound, hbound⟩
  refine ⟨bound, ?_⟩
  intro patience hpatience
  -- For how long its polls are watched has nothing to do with the interface of a board.
  have hwatched : Mirrors earlier (board.watchedFor patience).soc.interface bank := h
  rcases hbound patience hpatience with ⟨reached, swept, hswept, hends⟩
  have hsweep := mirroring_sweepMemory variant hpath htrail hwatched
  rw [hswept] at hsweep
  obtain rfl : verdict = reached := by
    cases hsweep with
    | ended _ => rfl
  rcases hends hfree.timer with ⟨after, hrun⟩
  refine ⟨after, hrun, ?_⟩
  have hbrings := bringsUp_of_mirrors variant hhyperram hpath htrail hwatched
  rw [hrun] at hbrings
  cases verdict with
  | calibrated point =>
    cases hbrings with
    | returned _ _ haccesses => exact haccesses
  | exhausted sweep =>
    cases hbrings with
    | reset _ _ haccesses => exact haccesses

/-- One calibration of a bank tells how the bring-up of every board with such a memory goes,
whatever the variant, its console, its logger and its timer: the accesses of the firmware to the
memory interface are those of the bank, each control line having a register of its own, and the
firmware returns exactly where the bank is calibrated.  Only a poll that goes on for good can cut
the bring-up on the way: unless there is one, every board that is watched for long enough makes all
the accesses, and returns if the bank is calibrated or resets the chip if it is not. -/
theorem bringUp_mirrors_bank (retention : Retention) (cell : UInt32) :
    Function.Injective Csr.ofSignal ∧
    ∃ verdict seen final,
      (calibrate .standard).watch Phy.Bank.hardware {} { retention, cell } =
        .ok (.ok verdict, seen) final ∧
      ∀ (variant : Variant) (board : State), variant.hyperram = true →
        board.soc.Untouched retention cell →
          BringsUp verdict (board.soc.interface.accesses ++ busAccesses final)
            (bringUp variant board) ∧
          (Unhindered variant verdict board → ∃ bound, ∀ patience ≥ bound, ∃ after,
            bringUp variant (board.watchedFor patience) = concluded after verdict ∧
            after.soc.interface.accesses =
              board.soc.interface.accesses ++ busAccesses final) := by
  have hcount : Params.standard.coarseSteps.toNat * Params.standard.probes.toNat < 4294967296 := by
    decide
  have hrest := Phy.Bank.atRest_of_fresh retention cell
  have hroom := Phy.Bank.hasRoomFor_of_fresh retention cell hcount
  rcases Phy.Bank.exists_course_of_room .standard {} hrest hroom with
    ⟨events, verdict, final, hpath, _, htrail, hrun⟩
  refine ⟨fun _ _ => Csr.ofSignal_injective, verdict, _, final, hrun, ?_⟩
  intro variant board hhyperram huntouched
  have hmirrors := huntouched.mirrors
  exact ⟨bringsUp_of_mirrors variant hhyperram hpath htrail hmirrors,
    exists_concluded_of_mirrors variant hhyperram hpath htrail hmirrors⟩

/-- Nothing has been done yet to the memory interface of a fresh board. -/
theorem untouched_of_fresh (tick : UInt32) (patience : Nat) :
    ({ tick, patience } : Soc).Untouched .healthy 0 := by
  constructor
  case level =>
    intro signal
    exact CsrWords.word_zero _
  all_goals rfl

/-- A fresh board makes the accesses of the bank and no others, and returns. -/
theorem bringUp_mirrors_bank_of_fresh_board :
    Variant.full.hyperram = true ∧
    ({ tick := 1, patience := 20000 } : Soc).Untouched .healthy 0 ∧
    (∀ verdict, Unhindered .full verdict ⟨{ tick := 1, patience := 20000 }, {}⟩) ∧
    ∃ point seen final,
      (calibrate .standard).watch Phy.Bank.hardware {} { retention := .healthy, cell := 0 } =
        .ok (.ok (.calibrated point), seen) final ∧
      BringsUp (.calibrated point) (busAccesses final)
        (bringUp .full ⟨{ tick := 1, patience := 20000 }, {}⟩) ∧
      ∃ bound, ∀ patience ≥ bound, ∃ after,
        bringUp .full (State.watchedFor ⟨{ tick := 1, patience := 20000 }, {}⟩ patience) =
          .ok () after ∧
        after.soc.interface.accesses = busAccesses final := by
  have huntouched := untouched_of_fresh 1 20000
  have hfree : ∀ verdict, Unhindered .full verdict ⟨{ tick := 1, patience := 20000 }, {}⟩ :=
    fun _ => ⟨fun _ => lineClears_of_fresh 1 20000, fun _ _ _ => by decide⟩
  have hunscripted : ∀ runs rest, Retention.healthy ≠ .scripted runs rest := by
    intro runs rest h
    cases h
  rcases bringUp_mirrors_bank .healthy 0 with ⟨_, verdict, seen, final, hrun, hboards⟩
  rcases Phy.exists_course_of_fresh .standard 0 {} hunscripted (by decide) with
    ⟨_, _, _, _, hforecast, _⟩
  -- The verdict of a healthy memory is known in advance.
  have hverdict : Params.standard.forecast .healthy = .calibrated (operatingPoint 0 64) := by
    decide
  rw [hrun, hverdict] at hforecast
  cases hforecast
  rcases hboards .full ⟨_, {}⟩ rfl huntouched with ⟨hbrings, hends⟩
  exact ⟨rfl, huntouched, hfree, _, _, final, hrun, hbrings, hends (hfree _)⟩

end Board
end TimingEye
