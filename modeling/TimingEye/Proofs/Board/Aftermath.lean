import TimingEye.Proofs.Board.Following
import TimingEye.Proofs.Board.Outcome
import TimingEye.Proofs.Board.WaitLength

/-!
# What a bring-up leaves behind

A bring-up that returns has found an operating point.  On its way it has driven the control lines,
checked the memory word, printed, and sampled the timer for each record that was printed.  It has
started the timer over if and only if it has installed the console logger itself.

* `InstallsLogger`, `PreparesLogging.installsLogger_iff`: whose timer it is;
* `sweepRecords`: how many records are printed on the way to an operating point;
* `Aftermath`, `bringUp_leaves`: all that a bring-up leaves behind.
-/

namespace TimingEye
namespace Board

/-! ## Runs that return -/

section Runs

variable {variant : Variant} {before after : State}

/-- A bring-up that returns has got to an operating point, and has done nothing since. -/
theorem exists_sweep_of_bringUp (hhyperram : variant.hyperram = true)
    (h : bringUp variant before = .ok () after) :
    ∃ point, sweepMemory variant before = .ok (.ok (.calibrated point)) after := by
  rw [bringUp, if_pos hhyperram] at h
  rcases bind_eq_ok_iff.mp h with ⟨_, prepared, hprepare, h⟩
  rcases bind_eq_ok_iff.mp h with ⟨_, announced, hannounce, h⟩
  rcases bind_eq_ok_iff.mp h with ⟨result, swept, hcalibrate, h⟩
  rcases result with cause | (point | sweep)
  · cases h
  · cases h
    refine ⟨point, ?_⟩
    rw [sweepMemory, bind_of_ok hprepare, bind_of_ok hannounce]
    exact hcalibrate
  · exact absurd h giveUp_ne_ok

/-- Once the logging is prepared, a sweep is a report and a calibration. -/
theorem exists_course_of_sweep {verdict : Verdict}
    (h : sweepMemory variant before = .ok (.ok verdict) after) :
    ∃ prepared events, prepareLogging variant before = .ok () prepared ∧
      Course .standard events verdict ∧
      Trail (Occurs variant) prepared (.act (.report [banner]) :: events) after := by
  rcases bind_eq_ok_iff.mp h with ⟨_, prepared, hprepare, h⟩
  rcases bind_eq_ok_iff.mp h with ⟨_, announced, hannounce, hcalibrate⟩
  rcases exists_occurring hcalibrate with ⟨events, hpath, htrail⟩
  rcases Course.of_path hpath with ⟨_, hverdict, hcourse⟩
  cases hverdict
  exact ⟨prepared, events, hprepare, hcourse, .cons hannounce htrail⟩

end Runs

/-! ## Whose timer it is -/

/-- A console logger is there that was not there before. -/
def InstallsLogger (before after : State) : Prop :=
  before.log.logger = none ∧ after.log.logger = some .console

/-- Whether an access writes a register. -/
def BusAccess.writesTo (csr : Csr) : BusAccess → Bool
  | .write written _ => written = csr
  | _ => false

/-- Whether an access is one to the memory word. -/
def BusAccess.isWord : BusAccess → Bool
  | .store _ | .load _ => true
  | .write _ _ | .read _ _ => false

/-- A calibration does not start the timer. -/
theorem BusAccess.calibrates_write_starting {csr : Csr} (h : csr ∈ Csr.ofStarting)
    (value : UInt32) : (BusAccess.write csr value).calibrates = false := by
  simp only [Csr.ofStarting, List.mem_cons, List.not_mem_nil, or_false] at h
  rcases h with rfl | rfl | rfl <;> rfl

namespace PreparesLogging

variable {variant : Variant} {before prepared after : State}

theorem accesses (h : PreparesLogging variant before prepared) :
    prepared.soc.accesses.toList =
      before.soc.accesses.toList ++ preparing variant before.log := by
  cases h with
  | installed hlogger hfirst _ hrestarted =>
    rw [preparing, if_pos ⟨hlogger, hfirst⟩]
    exact hrestarted.accesses
  | left hleft hsame => rw [preparing, if_neg hleft, hsame, List.append_nil]

theorem installsLogger_iff (h : PreparesLogging variant before prepared)
    (hlog : after.log = prepared.log) : InstallsLogger before after ↔
      variant.consoleLogger = true ∧ before.log.logger = none := by
  cases h with
  | installed hlogger hfirst hprepared _ =>
    rw [hprepared] at hlog
    have hinstalls : InstallsLogger before after := ⟨hfirst, congrArg LogFacade.logger hlog⟩
    exact iff_of_true hinstalls ⟨hlogger, hfirst⟩
  | left hleft hsame =>
    subst hsame
    refine iff_of_false ?_ hleft
    rintro ⟨hfirst, hlogger⟩
    rw [hlog, hfirst] at hlogger
    cases hlogger

end PreparesLogging

/-! ### The accesses of a bring-up -/

section Accesses

variable {variant : Variant} {log : LogFacade} {sweep : List BusAccess}

/-- Until the sweep begins, the timer is started or nothing is done at all. -/
theorem exists_write_of_mem_preparing {access : BusAccess} (h : access ∈ preparing variant log) :
    ∃ csr ∈ Csr.ofStarting, ∃ value, access = .write csr value := by
  have hrestarting : ∀ access ∈ restarting,
      ∃ csr ∈ Csr.ofStarting, ∃ value, access = .write csr value := by
    simp [restarting, Csr.ofStarting]
  rw [preparing] at h
  split at h
  · exact hrestarting access h
  · cases h

theorem samplesIn_preparing (variant : Variant) (log : LogFacade) :
    samplesIn (preparing variant log) = 0 := by
  apply List.countP_eq_zero.mpr
  intro access hmem hsamples
  rcases exists_write_of_mem_preparing hmem with ⟨csr, hcsr, value, rfl⟩
  simp only [Csr.ofStarting, List.mem_cons, List.not_mem_nil, or_false] at hcsr
  rcases hcsr with rfl | rfl | rfl <;> cases hsamples

variable (hsweep : ∀ access ∈ sweep, access.calibrates = true)
include hsweep

theorem write_not_mem_sweep {csr : Csr} (hcsr : csr ∈ Csr.ofStarting) (value : UInt32) :
    .write csr value ∉ sweep := by
  intro hmem
  have hcalibrates := hsweep _ hmem
  rw [BusAccess.calibrates_write_starting hcsr] at hcalibrates
  cases hcalibrates

/-- The timer is started for a logger that is the first one, and else it is not. -/
theorem exists_write_iff {csr : Csr} (hcsr : csr ∈ Csr.ofStarting) :
    (∃ value, .write csr value ∈ preparing variant log ++ sweep) ↔
      variant.consoleLogger = true ∧ log.logger = none := by
  constructor
  · rintro ⟨value, hmem⟩
    by_contra hlater
    rw [preparing, if_neg hlater, List.nil_append] at hmem
    exact write_not_mem_sweep hsweep hcsr value hmem
  · intro hfirst
    have hrestarting : ∀ csr ∈ Csr.ofStarting, ∃ value, .write csr value ∈ restarting := by
      simp [restarting, Csr.ofStarting]
    rcases hrestarting csr hcsr with ⟨value, hmem⟩
    rw [preparing, if_pos hfirst]
    exact ⟨value, List.mem_append_left _ hmem⟩

theorem countP_writesTo (hfirst : variant.consoleLogger = true ∧ log.logger = none) {csr : Csr}
    (hcsr : csr ∈ [Csr.timerLoad, .timerReload]) :
    (preparing variant log ++ sweep).countP (BusAccess.writesTo csr) = 1 := by
  have hrestarting : ∀ csr ∈ [Csr.timerLoad, .timerReload],
      restarting.countP (BusAccess.writesTo csr) = 1 ∧ csr ∈ Csr.ofStarting := by
    decide
  rcases hrestarting csr hcsr with ⟨honce, hstarting⟩
  have hnone : sweep.countP (BusAccess.writesTo csr) = 0 := by
    apply List.countP_eq_zero.mpr
    intro access hmem hwrites
    cases access with
    | write written value =>
      cases of_decide_eq_true hwrites
      exact write_not_mem_sweep hsweep hstarting value hmem
    | _ => cases hwrites
  rw [List.countP_append, preparing, if_pos hfirst, honce, hnone]

/-- When the timer is started, the memory word has not been accessed yet. -/
theorem isWord_of_earlier {csr : Csr} {value : UInt32} {earlier later : List BusAccess}
    (hcsr : csr ∈ Csr.ofStarting)
    (hsplit : preparing variant log ++ sweep = earlier ++ .write csr value :: later) :
    ∀ access ∈ earlier, access.isWord = false := by
  rcases List.append_eq_append_iff.mp hsplit with ⟨middle, _, hrest⟩ | ⟨middle, hearlier, _⟩
  · -- The write would be a part of the sweep.
    refine absurd ?_ (write_not_mem_sweep hsweep hcsr value)
    rw [hrest]
    exact List.mem_append_right _ List.mem_cons_self
  · intro access hmem
    have hpreparing : access ∈ preparing variant log := by
      rw [hearlier]
      exact List.mem_append_left _ hmem
    rcases exists_write_of_mem_preparing hpreparing with ⟨_, _, _, rfl⟩
    rfl

end Accesses

/-! ## The aftermath -/

/-- How many records are printed on the way to an operating point: one for each setting that has
been tried, and one for the point. -/
def sweepRecords (log : LogFacade) (point : Calibrated) : Nat :=
  recordsPrinted log (point.coarse.toNat + 1) + if log.prints .info then 1 else 0

theorem printedOf_course {params : Params} {events : List Event} {point : Calibrated}
    (h : Course params events (.calibrated point)) (log : LogFacade) :
    printedOf log events = sweepRecords log point := by
  have hsettings := countP_settingRecords log params (answerRows (calls events))
  rw [h.length_answerRows] at hsettings
  rw [printedOf, h.told.records, logRecords, List.countP_append]
  refine congrArg₂ _ hsettings ?_
  exact List.countP_singleton

/-- The firmware finds its timer as it has left it, but for the samplings of some records. -/
structure Undisturbed (records : Nat) (before after : State) : Prop where
  log : after.log = before.log
  clock : after.soc.clock = Clock.sampled^[records] before.soc.clock
  /-- Whoever asks for the time is told what comes after the times of these records. -/
  time : ∀ polls, polls ≠ 0 → ∃ later, Timer.microseconds (after.soc.watchedFor polls) =
    .ok (before.soc.clock.time (records + 1)) later

theorem undisturbed_of_clock {records : Nat} {before after : State} (hlog : after.log = before.log)
    (hclock : after.soc.clock = Clock.sampled^[records] before.soc.clock) :
    Undisturbed records before after := by
  refine ⟨hlog, hclock, ?_⟩
  intro polls hpolls
  have hleft : (after.soc.watchedFor polls).pollsLeft ≠ 0 := hpolls
  rcases exists_elapsed hleft with ⟨later, hrun, _, _⟩
  have htime : (after.soc.watchedFor polls).clock.time 1 = before.soc.clock.time (records + 1) := by
    change after.soc.clock.time 1 = _
    rw [hclock, Clock.time_iterate]
  refine ⟨later, ?_⟩
  rw [Timer.microseconds, bind_of_ok hrun, ← htime]
  rfl

/-- What a bring-up leaves behind that has got to an operating point by some accesses. -/
structure Aftermath (before after : State) (made : List BusAccess) (point : Calibrated) : Prop where
  accesses : after.soc.accesses.toList = before.soc.accesses.toList ++ made
  writes : ∀ csr value, .write csr value ∈ made → csr.isInterface = true ∨
    csr ∈ [.uartRxtx, .timerUpdateValue] ∨ csr ∈ Csr.ofStarting
  stores : ∀ value, .store value ∈ made → value ∈ testPatterns
  /-- The timer is sampled once for each record that is printed. -/
  samples : samplesIn made = sweepRecords after.log point
  starts : ∀ csr ∈ Csr.ofStarting,
    (∃ value, .write csr value ∈ made) ↔ InstallsLogger before after
  once : InstallsLogger before after →
    ∀ csr ∈ [Csr.timerLoad, .timerReload], made.countP (BusAccess.writesTo csr) = 1
  /-- The timer is started before any access to the memory word. -/
  first : ∀ earlier later csr value, made = earlier ++ .write csr value :: later →
    csr ∈ Csr.ofStarting → ∀ access ∈ earlier, access.isWord = false
  undisturbed : ¬InstallsLogger before after →
    Undisturbed (sweepRecords after.log point) before after
  rests : (∀ signal ∈ pulsedLines, before.soc.interface.level signal = 0) →
    after.soc.interface.RestsAt point.coarse

theorem aftermath_of_sweep {variant : Variant} {before after : State} {point : Calibrated}
    (h : sweepMemory variant before = .ok (.ok (.calibrated point)) after) :
    ∃ made, Aftermath before after made point := by
  rcases exists_course_of_sweep h with ⟨prepared, events, hprepare, hcourse, htrail⟩
  have hprepared := preparesLogging hprepare
  rcases touches_of_trail htrail with ⟨hlog, sweep, haccesses, hsweep, hsamples, hclock⟩
  have hinstalls := hprepared.installsLogger_iff hlog
  have hrecords : printedOf prepared.log (.act (.report [banner]) :: events) =
      sweepRecords after.log point := by
    rw [hlog, ← printedOf_course hcourse]
    rfl
  rw [hrecords] at hsamples hclock
  refine ⟨preparing variant before.log ++ sweep, ?_⟩
  constructor
  case accesses => rw [haccesses, hprepared.accesses, List.append_assoc]
  case writes =>
    intro csr value hmem
    rcases List.mem_append.mp hmem with hmem | hmem
    · rcases exists_write_of_mem_preparing hmem with ⟨_, hcsr, _, hwrite⟩
      cases hwrite
      exact .inr (.inr hcsr)
    · have hcalibrates := hsweep _ hmem
      rw [BusAccess.calibrates, Bool.or_eq_true] at hcalibrates
      rcases hcalibrates with hinterface | hother
      · exact .inl hinterface
      · exact .inr (.inl (of_decide_eq_true hother))
  case stores =>
    intro value hmem
    rcases List.mem_append.mp hmem with hmem | hmem
    · rcases exists_write_of_mem_preparing hmem with ⟨_, _, _, hstore⟩
      cases hstore
    · exact of_decide_eq_true (hsweep _ hmem)
  case samples => rw [samplesIn_append, samplesIn_preparing, Nat.zero_add, hsamples]
  case starts =>
    intro csr hcsr
    rw [hinstalls]
    exact exists_write_iff hsweep hcsr
  case once =>
    intro hinstalled csr hcsr
    exact countP_writesTo hsweep (hinstalls.mp hinstalled) hcsr
  case first =>
    intro earlier later csr value hsplit hcsr
    exact isWord_of_earlier hsweep hcsr hsplit
  case undisturbed =>
    intro hleft
    cases hprepared with
    | installed hlogger hfirst => exact absurd (hinstalls.mpr ⟨hlogger, hfirst⟩) hleft
    | left _ hsame =>
      subst hsame
      exact undisturbed_of_clock hlog hclock
  case rests =>
    intro hlow
    have hstarting : Csr.ofStarting ⊆ Csr.aside := by decide
    have hconsole : Csr.ofConsole ⊆ Csr.aside := by decide
    rcases Trail.cons_iff.mp htrail with ⟨announced, hannounce, hcalibrate⟩
    -- Nothing has been done to the lines before the calibration.
    have hsame : announced.soc.interface = before.soc.interface :=
      calc
        announced.soc.interface = prepared.soc.interface :=
          Completes.of_settles (frames_interface.announce hconsole variant [banner]) _ _ _ hannounce
        _ = before.soc.interface :=
          Completes.of_settles (frames_interface.prepareLogging hstarting variant) _ _ _ hprepare
    rw [← hsame] at hlow
    exact restsAt_of_course hcourse (by decide) hcalibrate hlow

/-- A bring-up that returns has written nothing but the control lines, the two test patterns, the
serial line and the sampling of the timer; and the timer itself, before all of it, if and only if
it has installed the console logger.  A timer that ran for another logger runs on as if nothing but
the records had been printed.  The control lines are at rest again if they were, with the taps of
the setting that has been accepted. -/
theorem bringUp_leaves {variant : Variant} (hhyperram : variant.hyperram = true)
    {before after : State} (h : bringUp variant before = .ok () after) :
    ∃ point made, sweepMemory variant before = .ok (.ok (.calibrated point)) after ∧
      Aftermath before after made point := by
  rcases exists_sweep_of_bringUp hhyperram h with ⟨point, hsweep⟩
  rcases aftermath_of_sweep hsweep with ⟨made, haftermath⟩
  exact ⟨point, made, hsweep, haftermath⟩

/-- A board whose timer runs already, for a logger that was installed before. -/
def State.logging : State where
  soc :=
    { csrs := CsrWords.zero.assign .timerEn 1
      counter := 4294967295
      tick := 48
      patience := 20000 }
  log := ⟨some .console, .upTo .debug⟩

/-- A bring-up leaves such a timer running. -/
theorem bringUp_leaves_timer_running :
    ∃ point made after, bringUp .full State.logging = .ok () after ∧
      Aftermath State.logging after made point ∧
      Undisturbed (sweepRecords after.log point) State.logging after ∧
      after.soc.interface.RestsAt point.coarse := by
  have hreturns : (match bringUp .full State.logging with
      | .ok _ _ => true
      | .error _ _ => false) = true := by
    decide +kernel
  cases hrun : bringUp .full State.logging with
  | error halt after =>
    rw [hrun] at hreturns
    cases hreturns
  | ok _ after =>
    rcases bringUp_leaves rfl hrun with ⟨point, made, _, haftermath⟩
    have hlow : ∀ signal ∈ pulsedLines, State.logging.soc.interface.level signal = 0 := by
      decide
    refine ⟨point, made, after, rfl, haftermath, haftermath.undisturbed ?_, haftermath.rests hlow⟩
    rintro ⟨hnone, _⟩
    cases hnone

end Board
end TimingEye
