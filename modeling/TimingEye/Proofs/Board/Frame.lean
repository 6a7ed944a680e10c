import TimingEye.Board.BringUp
import TimingEye.Proofs.Simulation

/-!
# What computations on the board leave alone

A relation between boards that holds across accesses to some registers holds across every
computation that accesses nothing else, whether the computation ends or is cut by a poll.

* `Settles`: computations across which a relation holds, and which nothing but a poll can halt;
* `Frames`: relations that hold across accesses to some registers;
* `Frames.printAll`, `Frames.wait`, `Frames.issue`: the console, the timer and the logger.
-/

namespace TimingEye
namespace Board

/-! ## Computations -/

/-- However a computation ends, a relation holds between the states before and after it, and only
a poll that goes on for good brings it to a halt. -/
def Settles {σ α : Type} (related : σ → σ → Prop) (act : EStateM Halt σ α) : Prop :=
  ∀ before, match act before with
    | .ok _ after => related before after
    | .error halt after => related before after ∧ ∃ poll, halt = .stalled poll

namespace Settles

variable {σ α β : Type} {related : σ → σ → Prop}

theorem pure (hrefl : ∀ state, related state state) (value : α) :
    Settles related (Pure.pure value : EStateM Halt σ α) := by
  intro before
  exact hrefl before

theorem stall (hrefl : ∀ state, related state state) (poll : Poll) :
    Settles related (throw (.stalled poll) : EStateM Halt σ α) := by
  intro before
  exact ⟨hrefl before, poll, rfl⟩

/-- A relation that holds across the parts of a computation holds across all of it. -/
theorem bind {first : EStateM Halt σ α} {next : α → EStateM Halt σ β}
    (htrans : ∀ {first second third}, related first second → related second third →
      related first third)
    (hfirst : Settles related first) (hnext : ∀ value, Settles related (next value)) :
    Settles related (first >>= next) := by
  intro before
  have hbefore := hfirst before
  cases hrun : first before with
  | error halt middle =>
    rw [bind_of_error hrun]
    rw [hrun] at hbefore
    exact hbefore
  | ok value middle =>
    rw [bind_of_ok hrun]
    rw [hrun] at hbefore
    have hmiddle := hnext value middle
    cases hend : next value middle with
    | ok result after =>
      rw [hend] at hmiddle
      exact htrans hbefore hmiddle
    | error halt after =>
      rw [hend] at hmiddle
      exact ⟨htrans hbefore hmiddle.1, hmiddle.2⟩

/-- A sequence is cut in its first part, or goes on from a related state. -/
theorem run_bind {first : EStateM Halt σ α} {next : α → EStateM Halt σ β} {before : σ}
    {outcome : EStateM.Result Halt σ β → Prop} (hfirst : Settles related first)
    (hcut : ∀ poll after, related before after → outcome (.error (.stalled poll) after))
    (hnext : ∀ value after, related before after → outcome (next value after)) :
    outcome ((first >>= next) before) := by
  have hbefore := hfirst before
  cases hrun : first before with
  | ok value after =>
    rw [hrun] at hbefore
    rw [bind_of_ok hrun]
    exact hnext value after hbefore
  | error halt after =>
    rw [hrun] at hbefore
    rcases hbefore with ⟨hafter, poll, rfl⟩
    rw [bind_of_error hrun]
    exact hcut poll after hafter

theorem ite {condition : Prop} [Decidable condition] {first second : EStateM Halt σ α}
    (hfirst : Settles related first) (hsecond : Settles related second) :
    Settles related (if condition then first else second) := by
  split
  · exact hfirst
  · exact hsecond

/-- The firmware reaches the bus, and its own state is none of the bus's concern. -/
theorem onBus {act : Bus α} {related : Soc → Soc → Prop} (h : Settles related act) :
    Settles (InvImage related State.soc) (onBus act) := by
  intro before
  have hbefore := h before.soc
  rcases before with ⟨soc, log⟩
  simp only [Board.onBus]
  cases hrun : act soc with
  | ok value after =>
    rw [hrun] at hbefore
    exact hbefore
  | error halt after =>
    rw [hrun] at hbefore
    exact hbefore

end Settles

/-! ## Relations across accesses -/

/-- A relation between boards that holds across accesses to the given registers. -/
structure Frames (related : Soc → Soc → Prop) (registers : List Csr) : Prop where
  refl : ∀ soc, related soc soc
  trans : ∀ {first second third}, related first second → related second third →
    related first third
  write : ∀ csr ∈ registers, ∀ value, Settles related (Soc.write csr value)
  read : ∀ csr ∈ registers, Settles related (Soc.read csr)

/-- The registers by which text is sent. -/
def Csr.ofConsole : List Csr :=
  [.uartTxfull, .uartRxtx]

/-- The registers by which the timer is sampled. -/
def Csr.ofSampling : List Csr :=
  [.timerUpdateValue, .timerValue]

/-- The registers by which the timer is started. -/
def Csr.ofStarting : List Csr :=
  [.timerEn, .timerLoad, .timerReload]

namespace Frames

variable {related : Soc → Soc → Prop} {registers : List Csr}

theorem bind {α β : Type} {first : Bus α} {next : α → Bus β} (h : Frames related registers)
    (hfirst : Settles related first) (hnext : ∀ value, Settles related (next value)) :
    Settles related (first >>= next) :=
  Settles.bind h.trans hfirst hnext

theorem bind_firmware {α β : Type} {first : Firmware α} {next : α → Firmware β}
    (h : Frames related registers) (hfirst : Settles (InvImage related State.soc) first)
    (hnext : ∀ value, Settles (InvImage related State.soc) (next value)) :
    Settles (InvImage related State.soc) (first >>= next) :=
  Settles.bind h.trans hfirst hnext

/-- The firmware does nothing, and leaves its board as it is. -/
theorem idle (h : Frames related registers) :
    Settles (InvImage related State.soc) (Pure.pure () : Firmware Unit) := by
  apply Settles.pure
  intro board
  exact h.refl board.soc

/-! ### The console -/

section Console

variable (h : Frames related registers) (hconsole : Csr.ofConsole ⊆ registers)
include h hconsole

theorem awaitRoom (attempts : Nat) : Settles related (Console.awaitRoom attempts) := by
  induction attempts with
  | zero => exact .stall h.refl .uart
  | succ attempts ih =>
    have hread : Settles related (Soc.read .uartTxfull) := h.read _ (hconsole (by decide))
    apply h.bind hread
    intro word
    exact .ite ih (.pure h.refl ())

theorem send (octet : UInt8) : Settles related (Console.send octet) := by
  have hget : Settles related (get : Bus Soc) := h.refl
  apply h.bind hget
  intro soc
  apply h.bind (h.awaitRoom hconsole _)
  intro _
  exact h.write _ (hconsole (by decide)) _

theorem sendAll (octets : List UInt8) : Settles related (Console.sendAll octets) := by
  induction octets with
  | nil => exact .pure h.refl ()
  | cons octet rest ih =>
    apply h.bind (h.send hconsole octet)
    intro _
    exact ih

theorem print (variant : Variant) (text : String) :
    Settles related (Console.print variant text) := by
  apply Settles.ite
  · exact h.sendAll hconsole _
  · exact .pure h.refl ()

theorem printAll (variant : Variant) (pieces : List String) :
    Settles related (Console.printAll variant pieces) := by
  induction pieces with
  | nil => exact .pure h.refl ()
  | cons piece rest ih =>
    apply h.bind (h.print hconsole variant piece)
    intro _
    exact ih

theorem announce (variant : Variant) (pieces : List String) :
    Settles (InvImage related State.soc) (announce variant pieces) := by
  apply Settles.ite
  · exact .onBus (h.printAll hconsole variant pieces)
  · exact h.idle

end Console

/-! ### The timer -/

section Timer

variable (h : Frames related registers)
include h

theorem elapsed (hsampling : Csr.ofSampling ⊆ registers) : Settles related Timer.elapsed := by
  apply h.bind (h.write _ (hsampling (by decide)) _)
  intro _
  apply h.bind (h.read _ (hsampling (by decide)))
  intro value
  exact .pure h.refl _

theorem await (hsampling : Csr.ofSampling ⊆ registers) (since : UInt32) (cycles : UInt64)
    (attempts : Nat) : Settles related (Timer.await since cycles attempts) := by
  induction attempts with
  | zero => exact .stall h.refl .timer
  | succ attempts ih =>
    apply h.bind (h.elapsed hsampling)
    intro now
    exact .ite ih (.pure h.refl ())

theorem wait (hsampling : Csr.ofSampling ⊆ registers) {interval : UInt64}
    (hfits : interval.toNat * Timer.cyclesPerMicrosecond < 18446744073709551616) :
    Settles related (Timer.wait interval) := by
  have hget : Settles related (get : Bus Soc) := h.refl
  have hcycles : Settles related (Timer.cyclesOf interval) := by
    rw [Timer.cyclesOf, scaledLong_of_lt hfits]
    exact .pure h.refl _
  apply h.bind (h.elapsed hsampling)
  intro since
  apply h.bind hcycles
  intro cycles
  apply h.bind hget
  intro soc
  exact h.await hsampling since cycles _

theorem restart (hstarting : Csr.ofStarting ⊆ registers) : Settles related Timer.restart := by
  have hwrite : ∀ csr ∈ Csr.ofStarting, ∀ value, Settles related (Soc.write csr value) := by
    intro csr hmem
    exact h.write csr (hstarting hmem)
  apply h.bind (hwrite .timerEn (by decide) 0)
  intro _
  apply h.bind (hwrite .timerLoad (by decide) _)
  intro _
  apply h.bind (hwrite .timerReload (by decide) _)
  intro _
  exact hwrite .timerEn (by decide) 1

theorem waitSecond (hsampling : Csr.ofSampling ⊆ registers) (hstarting : Csr.ofStarting ⊆ registers)
    (variant : Variant) : Settles (InvImage related State.soc) (waitSecond variant) := by
  have hfits : (1000000 : UInt64).toNat * Timer.cyclesPerMicrosecond < 18446744073709551616 := by
    decide
  have hwait : Settles related (do Timer.restart; Timer.wait 1000000) := by
    apply h.bind (h.restart hstarting)
    intro _
    exact h.wait hsampling hfits
  exact .ite hwait.onBus h.idle

end Timer

/-! ### The logger -/

section Logger

variable (h : Frames related registers)
include h

theorem issue (hconsole : Csr.ofConsole ⊆ registers) (hsampling : Csr.ofSampling ⊆ registers)
    (variant : Variant) (record : Record) :
    Settles (InvImage related State.soc) (issue variant record) := by
  have htime : Settles related Timer.microseconds := by
    apply h.bind (h.elapsed hsampling)
    intro now
    exact .pure h.refl _
  have hprint : Settles related (printRecord variant record) := by
    apply h.bind htime
    intro time
    exact h.printAll hconsole variant _
  have hget : Settles (InvImage related State.soc) (get : Firmware State) := by
    intro board
    exact h.refl board.soc
  apply h.bind_firmware hget
  intro board
  exact .ite hprint.onBus h.idle

theorem prepareLogging (hstarting : Csr.ofStarting ⊆ registers) (variant : Variant) :
    Settles (InvImage related State.soc) (prepareLogging variant) := by
  have hinstall : Settles (InvImage related State.soc) (installLogger .console (.upTo .info)) := by
    intro board
    exact h.refl board.soc
  apply Settles.ite
  · apply h.bind_firmware hinstall
    intro installed
    exact .ite (h.restart hstarting).onBus h.idle
  · exact h.idle

theorem countDown (hconsole : Csr.ofConsole ⊆ registers) (hsampling : Csr.ofSampling ⊆ registers)
    (hstarting : Csr.ofStarting ⊆ registers) (variant : Variant) (count : Nat) :
    Settles (InvImage related State.soc) (countDown variant count) := by
  induction count with
  | zero => exact h.idle
  | succ count ih =>
    apply h.bind_firmware (h.waitSecond hsampling hstarting variant)
    intro _
    apply h.bind_firmware (h.announce hconsole variant _)
    intro _
    exact ih

end Logger

end Frames

end Board
end TimingEye
