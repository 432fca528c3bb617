import LmListener.Shutdown

namespace LmListener

open Checked CTypes Runs

variable {dm : DataModel} {s s' : Program} {e : ProgramEvent}

/-- `stop_program` stands between its two calls of `signal`. -/
def StopProgramAt.Ignores (stage : StopProgramAt) : Prop := stage = .ignoring ∨ stage = .stored

/-- No SIGINT has been taken. -/
structure Program.Unstopped (s : Program) : Prop where
  free : ∀ thread, s.Free thread
  looping : s.continueLooping = true
  action : s.sigint = if s.mainAt = .settingUp then .sigDfl else .stopProgram

/-- A SIGINT has been taken by `stop_program`, which has set the flag or will. -/
structure Program.Stopping (s : Program) : Prop where
  setUp : s.mainAt ≠ .settingUp
  stopProgram : s.sigint = .stopProgram → ∃ thread, s.stopProgramAt thread = .entered
  sigIgn : s.sigint = .sigIgn → ∃ thread, (s.stopProgramAt thread).Ignores
  sigDfl : s.sigint = .sigDfl → s.continueLooping = false
  stored : ∀ thread, s.stopProgramAt thread = .stored → s.continueLooping = false

theorem Program.setStopProgram_stopProgramAt (s : Program) (thread other : Thread)
    (stage : StopProgramAt) : (s.setStopProgram thread stage).stopProgramAt other =
      if other = thread then stage else s.stopProgramAt other := by
  simp [Program.setStopProgram, Function.update_apply]

def IsInterrupt : ProgramEvent → Prop
  | .interrupt _ => True
  | _ => False

/-- The steps that belong to neither SIGINT nor its handler. -/
theorem ProgramStep.keeps_stop (h : ProgramStep dm s e s') (hi : ¬IsInterrupt e)
    (hh : ∀ thread, e ≠ .stopProgram thread) :
    s'.stopProgramAt = s.stopProgramAt ∧ s'.continueLooping = s.continueLooping ∧
      ((s.mainAt = .settingUp ∧ s'.mainAt ≠ .settingUp ∧ s'.sigint = .stopProgram) ∨
        (s'.sigint = s.sigint ∧ (s'.mainAt = .settingUp ↔ s.mainAt = .settingUp))) := by
  cases e with
  | signal =>
    obtain ⟨hat, _, rfl⟩ := h
    exact ⟨rfl, rfl, Or.inl ⟨hat, nofun, rfl⟩⟩
  | mainTest =>
    obtain ⟨hat, _, rfl⟩ := h
    refine ⟨rfl, rfl, Or.inr ⟨rfl, ?_⟩⟩
    cases s.continueLooping <;> simp [hat]
  | mainPass world p =>
    obtain ⟨hat, _, _, later, _, rfl⟩ := h
    refine ⟨rfl, rfl, Or.inr ⟨rfl, ?_⟩⟩
    cases p.state.looping <;> simp [hat]
  | join =>
    obtain ⟨hat, _, _, rfl⟩ := h
    exact ⟨rfl, rfl, Or.inr ⟨rfl, by simp [hat]⟩⟩
  | listenerTest =>
    obtain ⟨_, _, rfl⟩ := h
    exact ⟨rfl, rfl, Or.inr ⟨rfl, Iff.rfl⟩⟩
  | listenerReceive answer =>
    obtain ⟨_, _, listener, _, rfl⟩ := h
    exact ⟨rfl, rfl, Or.inr ⟨rfl, Iff.rfl⟩⟩
  | interrupt thread => exact absurd trivial hi
  | stopProgram thread => exact absurd rfl (hh thread)

theorem ProgramStep.unstopped (h : ProgramStep dm s e s') (hs : s.Unstopped)
    (hi : ¬IsInterrupt e) : s'.Unstopped := by
  have hh : ∀ thread, e ≠ .stopProgram thread := by
    rintro thread rfl
    have hidle := hs.free thread
    unfold Program.Free at hidle
    obtain ⟨hat, _⟩ | ⟨hat, _⟩ | ⟨hat, _⟩ := h
    all_goals rw [hidle] at hat; cases hat
  obtain ⟨hstage, hflag, hsig⟩ := h.keeps_stop hi hh
  refine ⟨fun thread => ?_, hflag.trans hs.looping, ?_⟩
  · have := hs.free thread
    unfold Program.Free at this ⊢
    rw [hstage, this]
  · obtain ⟨_, hat, hact⟩ | ⟨hact, hat⟩ := hsig
    · rw [if_neg hat, hact]
    · rw [hact, hs.action, if_congr hat rfl rfl]

theorem ProgramStep.interrupted (h : ProgramStep dm s e s') (hs : s.Unstopped)
    (hi : IsInterrupt e) : s'.Stopping := by
  cases e with
  | interrupt thread =>
    have hact := hs.action
    obtain ⟨_, ⟨hign, _⟩ | ⟨hstop, _, rfl⟩⟩ := h
    · rw [hign] at hact
      split at hact <;> cases hact
    · have hat : s.mainAt ≠ .settingUp := by
        intro hat
        rw [hstop, if_pos hat] at hact
        cases hact
      refine ⟨hat, fun _ => ⟨thread, ?_⟩, fun hign => ?_, fun hdfl => ?_, fun other hstored => ?_⟩
      · rw [s.setStopProgram_stopProgramAt, if_pos rfl]
      · cases hstop.symm.trans hign
      · cases hstop.symm.trans hdfl
      · rw [s.setStopProgram_stopProgramAt, hs.free other] at hstored
        split at hstored <;> cases hstored
  | signal | mainTest | mainPass | join | listenerTest | listenerReceive | stopProgram =>
    exact hi.elim

theorem ProgramStep.stopping (h : ProgramStep dm s e s') (hs : s.Stopping) : s'.Stopping := by
  cases e with
  | interrupt thread =>
    obtain ⟨_, ⟨_, rfl⟩ | ⟨hstop, hfree, rfl⟩⟩ := h
    · exact hs
    · refine ⟨hs.setUp, fun _ => ⟨thread, ?_⟩, fun hign => ?_, hs.sigDfl, fun other hstored => ?_⟩
      · rw [s.setStopProgram_stopProgramAt, if_pos rfl]
      · cases hstop.symm.trans hign
      · rw [s.setStopProgram_stopProgramAt] at hstored
        split at hstored
        next => cases hstored
        next => exact hs.stored other hstored
  | stopProgram thread =>
    obtain ⟨hat, rfl⟩ | ⟨hat, rfl⟩ | ⟨hat, rfl⟩ := h
    · refine ⟨hs.setUp, nofun, fun _ => ⟨thread, Or.inl ?_⟩, nofun, fun other hstored => ?_⟩
      · exact (s.setStopProgram_stopProgramAt thread thread .ignoring).trans (if_pos rfl)
      · have hother := hstored
        rw [show _ = _ from s.setStopProgram_stopProgramAt thread other .ignoring] at hother
        split at hother
        next => cases hother
        next => exact hs.stored other hother
    · refine ⟨hs.setUp, fun hstop => ?_, fun _ => ⟨thread, Or.inr ?_⟩, fun _ => rfl, fun _ _ => rfl⟩
      · obtain ⟨other, hentered⟩ := hs.stopProgram hstop
        have hne : other ≠ thread := by
          rintro rfl
          cases hat.symm.trans hentered
        exact ⟨other, (s.setStopProgram_stopProgramAt thread other .stored).trans
          ((if_neg hne).trans hentered)⟩
      · exact (s.setStopProgram_stopProgramAt thread thread .stored).trans (if_pos rfl)
    · refine ⟨hs.setUp, nofun, nofun, fun _ => hs.stored thread hat, fun _ _ => ?_⟩
      exact hs.stored thread hat
  | signal | mainTest | mainPass | join | listenerTest | listenerReceive =>
    obtain ⟨hstage, hflag, ⟨hat, _⟩ | ⟨hact, hat⟩⟩ := h.keeps_stop nofun nofun
    · exact absurd hat hs.setUp
    · refine ⟨hat.not.mpr hs.setUp, ?_, ?_, ?_, ?_⟩
      · rw [hact, hstage]
        exact hs.stopProgram
      · rw [hact, hstage]
        exact hs.sigIgn
      · rw [hact, hflag]
        exact hs.sigDfl
      · rw [hstage, hflag]
        exact hs.stored

/-- Every SIGINT that does not end the process stops the program: it is ignored only while a thread
is about to set the flag or has just set it, and once no thread runs `stop_program` the flag is
down exactly when there was one, with the default action back in place. -/
theorem sigint_stops_program {main : MainState} {listener : TypeListener}
    {steps : List (Step Program ProgramEvent)}
    (h : Run (ProgramStep dm) (Program.start main listener) steps s) :
    (s.sigint = .sigIgn → ∃ thread, (s.stopProgramAt thread).Ignores) ∧
      ((∀ thread, s.Free thread) →
        (s.continueLooping = false ↔ ∃ t ∈ steps, IsInterrupt t.event) ∧
        s.sigint = if s.mainAt = .settingUp ∨ s.continueLooping = false then .sigDfl
          else .stopProgram) := by
  have hphases := h.phases (fun t => IsInterrupt t.event) Program.Unstopped Program.Stopping
    ⟨fun _ => rfl, rfl, rfl⟩ (fun _ hs hstep => hstep.unstopped hs)
    (fun _ hs hstep => hstep.interrupted hs) fun _ hs hstep => hstep.stopping hs
  obtain ⟨hnone, hs⟩ | ⟨hsome, hs⟩ := hphases
  · have hact := hs.action
    refine ⟨fun hign => ?_, fun _ => ⟨⟨fun hflag => ?_, fun hint => ?_⟩, ?_⟩⟩
    · rw [hign] at hact
      split at hact <;> cases hact
    · cases hflag.symm.trans hs.looping
    · obtain ⟨t, ht, hi⟩ := hint
      exact absurd hi (hnone t ht)
    · simp [hact, hs.looping]
  · refine ⟨hs.sigIgn, fun hfree => ?_⟩
    have hdfl : s.sigint = .sigDfl := by
      cases hact : s.sigint with
      | sigDfl => rfl
      | stopProgram =>
        obtain ⟨thread, hat⟩ := hs.stopProgram hact
        cases (hfree thread).symm.trans hat
      | sigIgn =>
        obtain ⟨thread, hat | hat⟩ := hs.sigIgn hact
        all_goals cases (hfree thread).symm.trans hat
    have hflag := hs.sigDfl hdfl
    exact ⟨⟨fun _ => hsome, fun _ => hflag⟩, by rw [hdfl, if_pos (Or.inr hflag)]⟩

def stopSteps : List (Step Program ProgramEvent) :=
  firstPassSteps ++ [⟨firstPass, .interrupt .main, interrupted⟩] ++
    [⟨interrupted, .stopProgram .main, ignoring⟩] ++ [⟨ignoring, .stopProgram .main, stopped⟩] ++
    [⟨stopped, .stopProgram .main, stopHandled⟩]

theorem stopHandled_run : Run (ProgramStep lp64) started stopSteps stopHandled := by
  have hinterrupt : ProgramStep lp64 firstPass (.interrupt .main) interrupted :=
    ⟨nofun, Or.inr ⟨rfl, rfl, rfl⟩⟩
  have hignore : ProgramStep lp64 interrupted (.stopProgram .main) ignoring := Or.inl ⟨rfl, rfl⟩
  have hstop : ProgramStep lp64 ignoring (.stopProgram .main) stopped :=
    Or.inr (Or.inl ⟨rfl, rfl⟩)
  have hdone : ProgramStep lp64 stopped (.stopProgram .main) stopHandled :=
    Or.inr (Or.inr ⟨rfl, rfl⟩)
  exact (((firstPass_run.snoc hinterrupt).snoc hignore).snoc hstop).snoc hdone

theorem sigint_stops_program_once :
    stopHandled.continueLooping = false ∧ stopHandled.sigint = .sigDfl := by
  have hfree : ∀ thread, stopHandled.Free thread := by
    intro thread
    cases thread with
    | main => rfl
    | typeListener => rfl
  obtain ⟨_, hafter⟩ := sigint_stops_program stopHandled_run
  obtain ⟨hflag, hact⟩ := hafter hfree
  have hdown : stopHandled.continueLooping = false :=
    hflag.mpr ⟨⟨firstPass, .interrupt .main, interrupted⟩, by simp [stopSteps], trivial⟩
  exact ⟨hdown, by rw [hact, if_pos (Or.inr hdown)]⟩

/-- A step of one of the threads in its own code. -/
def ProgramEvent.isOwn : ProgramEvent → Bool
  | .interrupt _ | .stopProgram _ => false
  | _ => true

/-- The steps a thread has before it at most once the flag is down. -/
def MainAt.stepsLeft : MainAt → Nat
  | .settingUp => 3
  | .testing => 2
  | .inPass => 3
  | .joining => 1
  | .returned => 0

def ListenerAt.stepsLeft : ListenerAt → Nat
  | .testing => 1
  | .receiving => 2
  | .left => 0

def Program.stepsLeft (s : Program) : Nat := s.mainAt.stepsLeft + s.listenerAt.stepsLeft

def Program.passesLeft (s : Program) : Nat := if s.mainAt = .inPass then 1 else 0

def Program.receivesLeft (s : Program) : Nat := if s.listenerAt = .receiving then 1 else 0

theorem ProgramStep.keeps_flag (h : ProgramStep dm s e s') (hflag : s.continueLooping = false) :
    s'.continueLooping = false := by
  cases e with
  | signal | mainTest | listenerTest =>
    obtain ⟨_, _, rfl⟩ := h
    exact hflag
  | mainPass world p =>
    obtain ⟨_, _, _, later, _, rfl⟩ := h
    exact hflag
  | join =>
    obtain ⟨_, _, _, rfl⟩ := h
    exact hflag
  | listenerReceive answer =>
    obtain ⟨_, _, listener, _, rfl⟩ := h
    exact hflag
  | interrupt thread =>
    obtain ⟨_, ⟨_, rfl⟩ | ⟨_, _, rfl⟩⟩ := h
    all_goals exact hflag
  | stopProgram thread =>
    obtain ⟨_, rfl⟩ | ⟨_, rfl⟩ | ⟨_, rfl⟩ := h
    · exact hflag
    · rfl
    · exact hflag

/-- With the flag down every step of a thread is one of its last ones. -/
theorem ProgramStep.lowers (h : ProgramStep dm s e s') (hflag : s.continueLooping = false) :
    s'.stepsLeft + e.isOwn.toNat ≤ s.stepsLeft ∧
      s'.passesLeft + (passOf e).isSome.toNat ≤ s.passesLeft ∧
      s'.receivesLeft + (answerOf e).isSome.toNat ≤ s.receivesLeft := by
  unfold Program.stepsLeft Program.passesLeft Program.receivesLeft
  cases e with
  | signal =>
    obtain ⟨hat, _, rfl⟩ := h
    simp only [hat, MainAt.stepsLeft, ProgramEvent.isOwn, passOf, answerOf, Option.isSome,
      Bool.toNat_true, Bool.toNat_false, reduceCtorEq, if_false]
    omega
  | mainTest =>
    obtain ⟨hat, _, rfl⟩ := h
    simp only [hat, hflag, MainAt.stepsLeft, ProgramEvent.isOwn, passOf, answerOf, Option.isSome,
      Bool.toNat_true, Bool.toNat_false, Bool.false_eq_true, reduceCtorEq, if_false]
    omega
  | mainPass world p =>
    obtain ⟨hat, _, _, later, _, rfl⟩ := h
    cases hl : p.state.looping with
    | true =>
      simp only [hat, MainAt.stepsLeft, ProgramEvent.isOwn, passOf, answerOf, Option.isSome,
        Bool.toNat_true, Bool.toNat_false, reduceCtorEq, if_true, if_false]
      omega
    | false =>
      simp only [hat, MainAt.stepsLeft, ProgramEvent.isOwn, passOf, answerOf, Option.isSome,
        Bool.toNat_true, Bool.toNat_false, Bool.false_eq_true, reduceCtorEq, if_true, if_false]
      omega
  | join =>
    obtain ⟨hat, _, _, rfl⟩ := h
    simp only [hat, MainAt.stepsLeft, ProgramEvent.isOwn, passOf, answerOf, Option.isSome,
      Bool.toNat_true, Bool.toNat_false, reduceCtorEq, if_false]
    omega
  | listenerTest =>
    obtain ⟨hat, _, rfl⟩ := h
    simp only [hat, hflag, ListenerAt.stepsLeft, ProgramEvent.isOwn, passOf, answerOf,
      Option.isSome, Bool.toNat_true, Bool.toNat_false, Bool.false_eq_true, reduceCtorEq, if_false]
    omega
  | listenerReceive answer =>
    obtain ⟨hat, _, listener, _, rfl⟩ := h
    simp only [hat, ListenerAt.stepsLeft, ProgramEvent.isOwn, passOf, answerOf, Option.isSome,
      Bool.toNat_true, Bool.toNat_false, reduceCtorEq, if_true, if_false]
    omega
  | interrupt thread =>
    obtain ⟨_, ⟨_, rfl⟩ | ⟨_, _, rfl⟩⟩ := h
    all_goals exact ⟨Nat.le_refl _, Nat.le_refl _, Nat.le_refl _⟩
  | stopProgram thread =>
    obtain ⟨_, rfl⟩ | ⟨_, rfl⟩ | ⟨_, rfl⟩ := h
    all_goals exact ⟨Nat.le_refl _, Nat.le_refl _, Nat.le_refl _⟩

def Program.Done (s : Program) : Prop := s.mainAt = .returned ∧ s.listenerAt = .left

/-- `main` is in a pass that leaves its arrays when it sees nothing of the other thread. -/
def Program.Faults (dm : DataModel) (s : Program) : Prop :=
  s.mainAt = .inPass ∧ ∃ fault, framePass dm ⟨fun _ => [], true, []⟩ s.main = .error fault

theorem ProgramStep.listener_ready (h : ProgramStep dm s e s')
    (hs : s.listener.typeInput.Ready) : s'.listener.typeInput.Ready := by
  cases ha : answerOf e with
  | none => rwa [h.kept.2.1 ha]
  | some answer =>
    obtain ⟨t, ht, hready, _⟩ := TypeListener.step_handles dm hs answer
    have hstep := h.answer ha
    unfold ListenerStep at hstep
    rw [ht] at hstep
    cases hstep
    exact hready

theorem Program.handler_goes_on {thread : Thread} (h : ¬s.Free thread) :
    ∃ s', ProgramStep dm s (.stopProgram thread) s' := by
  cases hat : s.stopProgramAt thread with
  | idle => exact absurd hat h
  | entered => exact ⟨_, Or.inl ⟨hat, rfl⟩⟩
  | ignoring => exact ⟨_, Or.inr (Or.inl ⟨hat, rfl⟩)⟩
  | stored => exact ⟨_, Or.inr (Or.inr ⟨hat, rfl⟩)⟩

theorem Program.listener_goes_on (hready : s.listener.typeInput.Ready)
    (hfree : s.Free .typeListener) (hat : s.listenerAt ≠ .left) :
    ∃ e s', ProgramStep dm s e s' ∧ ¬IsInterrupt e := by
  cases hl : s.listenerAt with
  | testing => exact ⟨.listenerTest, _, ⟨hl, hfree, rfl⟩, id⟩
  | receiving =>
    obtain ⟨t, ht, _⟩ := TypeListener.step_handles dm hready (.failed EWOULDBLOCK)
    exact ⟨.listenerReceive (.failed EWOULDBLOCK), _, ⟨hl, hfree, t, ht, rfl⟩, id⟩
  | left => exact absurd hl hat

/-- No deadlock: a thread can go on until both are done. -/
theorem Program.goes_on (dm : DataModel) (hready : s.listener.typeInput.Ready) :
    s.Done ∨ s.Faults dm ∨ ∃ e s', ProgramStep dm s e s' ∧ ¬IsInterrupt e := by
  by_cases hfree : ∀ thread, s.Free thread
  · by_cases hleft : s.listenerAt = .left
    · cases hat : s.mainAt with
      | settingUp => exact Or.inr (Or.inr ⟨.signal, _, ⟨hat, hfree .main, rfl⟩, id⟩)
      | testing => exact Or.inr (Or.inr ⟨.mainTest, _, ⟨hat, hfree .main, rfl⟩, id⟩)
      | joining => exact Or.inr (Or.inr ⟨.join, _, ⟨hat, hfree .main, hleft, rfl⟩, id⟩)
      | returned => exact Or.inl ⟨hat, hleft⟩
      | inPass =>
        cases hp : framePass dm ⟨fun _ => [], true, []⟩ s.main with
        | error fault => exact Or.inr (Or.inl ⟨hat, fault, hp⟩)
        | ok p =>
          have hseen : p.seen ⟨fun _ => [], true, []⟩ = [] :=
            List.flatMap_eq_nil_iff.mpr fun _ _ => rfl
          exact Or.inr (Or.inr ⟨.mainPass ⟨fun _ => [], true, []⟩ p, _,
            ⟨hat, hfree .main, hp, s.unseen, by rw [hseen]; rfl, rfl⟩, id⟩)
    · exact Or.inr (Or.inr (s.listener_goes_on hready (hfree _) hleft))
  · obtain ⟨thread, hthread⟩ := not_forall.mp hfree
    obtain ⟨s', hstep⟩ := Program.handler_goes_on hthread
    exact Or.inr (Or.inr ⟨.stopProgram thread, s', hstep, id⟩)

/-- Once the flag is down the program ends: whatever the order of its threads from there on, they
take at most five more steps, one of them a pass over a frame and one a receive at most, and unless
that pass faults they can take them until `main` has returned and the type listener has left. -/
theorem stopping_program_ends {main : MainState} {listener : TypeListener}
    (hready : listener.typeInput.Ready) {steps : List (Step Program ProgramEvent)}
    (h : Run (ProgramStep dm) (Program.start main listener) steps s)
    (hflag : s.continueLooping = false) :
    ∀ later s', Run (ProgramStep dm) s later s' →
      later.countP (fun t => t.event.isOwn) ≤ 5 ∧
      later.countP (fun t => (passOf t.event).isSome) ≤ 1 ∧
      later.countP (fun t => (answerOf t.event).isSome) ≤ 1 ∧
      (s'.Done ∨ s'.Faults dm ∨ ∃ e s'', ProgramStep dm s' e s'' ∧ ¬IsInterrupt e) := by
  intro later s' hlater
  have hs : s.listener.typeInput.Ready :=
    h.inv (fun s => s.listener.typeInput.Ready) hready fun _ _ _ hs hstep => hstep.listener_ready hs
  have hs' : s'.listener.typeInput.Ready :=
    hlater.inv (fun s => s.listener.typeInput.Ready) hs fun _ _ _ hs hstep =>
      hstep.listener_ready hs
  have hsteps := (hlater.count_le_rank Program.stepsLeft (fun t => t.event.isOwn)
    (fun s => s.continueLooping = false) hflag
    fun t ht hstep => ⟨hstep.keeps_flag ht, (hstep.lowers ht).1⟩).2
  have hpasses := (hlater.count_le_rank Program.passesLeft (fun t => (passOf t.event).isSome)
    (fun s => s.continueLooping = false) hflag
    fun t ht hstep => ⟨hstep.keeps_flag ht, (hstep.lowers ht).2.1⟩).2
  have hreceives := (hlater.count_le_rank Program.receivesLeft
    (fun t => (answerOf t.event).isSome) (fun s => s.continueLooping = false) hflag
    fun t ht hstep => ⟨hstep.keeps_flag ht, (hstep.lowers ht).2.2⟩).2
  have hmain : s.mainAt.stepsLeft ≤ 3 := by cases s.mainAt <;> decide
  have hlistener : s.listenerAt.stepsLeft ≤ 2 := by cases s.listenerAt <;> decide
  have hpass : s.passesLeft ≤ 1 := by unfold Program.passesLeft; split <;> omega
  have hreceive : s.receivesLeft ≤ 1 := by unfold Program.receivesLeft; split <;> omega
  unfold Program.stepsLeft at hsteps
  exact ⟨by omega, by omega, by omega, s'.goes_on dm hs'⟩

theorem stopping_program_ends_first_pass :
    ∃ steps s, Run (ProgramStep lp64) stopHandled steps s ∧
      steps.countP (fun t => t.event.isOwn) = 1 ∧ s.listenerAt = .left ∧
      (s.Done ∨ s.Faults lp64 ∨ ∃ e s', ProgramStep lp64 s e s' ∧ ¬IsInterrupt e) := by
  have hleave : ProgramStep lp64 stopHandled .listenerTest
      { stopHandled with listenerAt := .left } := ⟨rfl, rfl, rfl⟩
  have hrun : Run (ProgramStep lp64) stopHandled
      ([] ++ [⟨stopHandled, .listenerTest, { stopHandled with listenerAt := .left }⟩])
      { stopHandled with listenerAt := .left } := Run.nil.snoc hleave
  obtain ⟨_, _, _, hgoes⟩ := stopping_program_ends bound_ready stopHandled_run rfl _ _ hrun
  exact ⟨_, _, hrun, rfl, rfl, hgoes⟩

end LmListener
