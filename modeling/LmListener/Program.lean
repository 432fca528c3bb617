import LmListener.FramePass
import LmListener.TypeListener

namespace LmListener

open Checked CTypes Runs

inductive Thread
  | main
  | typeListener
deriving DecidableEq, Repr

/-- Where `main` stands: before its call of `signal`, at the test of its loop, in a pass through it,
in `join`, or past that. -/
inductive MainAt
  | settingUp
  | testing
  | inPass
  | joining
  | returned
deriving DecidableEq, Repr

inductive ListenerAt
  | testing
  | receiving
  | left
deriving DecidableEq, Repr

/-- What SIGINT does to the process. -/
inductive SigAction
  | sigDfl
  | stopProgram
  | sigIgn
deriving DecidableEq, Repr

/-- How far `stop_program` has come in a thread. -/
inductive StopProgramAt
  | idle
  | entered
  | ignoring
  | stored
deriving DecidableEq, Repr

/-- The two threads of the program and what they share. `unseen` are the stores of the type
listener to the flag, in their order, that no load of `main` has seen yet. -/
structure Program where
  main : MainState
  mainAt : MainAt
  listener : TypeListener
  listenerAt : ListenerAt
  continueLooping : Bool
  sigint : SigAction
  stopProgramAt : Thread → StopProgramAt
  unseen : List Bool

inductive ProgramEvent
  | signal
  | mainTest
  | mainPass (world : World) (p : Pass)
  | join
  | listenerTest
  | listenerReceive (answer : RecvFrom)
  | interrupt (thread : Thread)
  | stopProgram (thread : Thread)

/-- A thread that runs `stop_program` does nothing else. -/
def Program.Free (s : Program) (thread : Thread) : Prop := s.stopProgramAt thread = .idle

def Program.setStopProgram (s : Program) (thread : Thread) (stage : StopProgramAt) : Program :=
  { s with stopProgramAt := Function.update s.stopProgramAt thread stage }

/-- The number of times a pass loads the flag. -/
def Pass.loads (p : Pass) : Nat :=
  match p.frame with
  | none => 1
  | some f => f.pixels.loads + 1

/-- The stores of the type listener that a pass sees. -/
def Pass.seen (p : Pass) (world : World) : List Bool := (List.range p.loads).flatMap world.stores

/-- What a pass of the type listener stores in the flag: it does so whenever it takes a new type. -/
def TypeListener.stored (s s' : TypeListener) : List Bool :=
  if s'.currentType = s.currentType then [] else [s'.isWS]

/-- A step of the program. With the default action SIGINT ends the process, and so the run; while
`stop_program` runs in a thread, SIGINT is blocked there. -/
def ProgramStep (dm : DataModel) (s : Program) : ProgramEvent → Program → Prop
  | .signal, s' => s.mainAt = .settingUp ∧ s.Free .main ∧
      s' = { s with mainAt := .testing, sigint := .stopProgram }
  | .mainTest, s' => s.mainAt = .testing ∧ s.Free .main ∧
      s' = { s with mainAt := if s.continueLooping then .inPass else .joining }
  | .mainPass world p, s' => s.mainAt = .inPass ∧ s.Free .main ∧
      framePass dm world s.main = .ok p ∧ ∃ later, s.unseen = p.seen world ++ later ∧
        s' = { s with
          main := p.state
          mainAt := if p.state.looping then .testing else .joining
          unseen := later }
  | .join, s' => s.mainAt = .joining ∧ s.Free .main ∧ s.listenerAt = .left ∧
      s' = { s with mainAt := .returned }
  | .listenerTest, s' => s.listenerAt = .testing ∧ s.Free .typeListener ∧
      s' = { s with listenerAt := if s.continueLooping then .receiving else .left }
  | .listenerReceive answer, s' => s.listenerAt = .receiving ∧ s.Free .typeListener ∧
      ∃ listener, s.listener.step dm answer = .ok listener ∧
        s' = { s with
          listener
          listenerAt := .testing
          unseen := s.unseen ++ s.listener.stored listener }
  | .interrupt thread, s' => (thread = .typeListener → s.listenerAt ≠ .left) ∧
      (s.sigint = .sigIgn ∧ s' = s ∨
        s.sigint = .stopProgram ∧ s.Free thread ∧ s' = s.setStopProgram thread .entered)
  | .stopProgram thread, s' =>
      (s.stopProgramAt thread = .entered ∧
        s' = { s.setStopProgram thread .ignoring with sigint := .sigIgn }) ∨
      (s.stopProgramAt thread = .ignoring ∧
        s' = { s.setStopProgram thread .stored with continueLooping := false }) ∨
      (s.stopProgramAt thread = .stored ∧
        s' = { s.setStopProgram thread .idle with sigint := .sigDfl })

/-- The program when the thread of the type listener has its socket and `main` comes to its call of
`signal`. -/
def Program.start (main : MainState) (listener : TypeListener) : Program where
  main
  mainAt := .settingUp
  listener
  listenerAt := .testing
  continueLooping := true
  sigint := .sigDfl
  stopProgramAt := fun _ => .idle
  unseen := []

def passOf : ProgramEvent → Option (World × Pass)
  | .mainPass world p => some (world, p)
  | _ => none

def answerOf : ProgramEvent → Option RecvFrom
  | .listenerReceive answer => some answer
  | _ => none

variable {dm : DataModel} {s s' : Program} {e : ProgramEvent}

/-- Unless `main` is past its loop, its last pass let the loop go on. -/
def Program.InLoop (s : Program) : Prop :=
  s.main.looping = true ∨ s.mainAt = .joining ∨ s.mainAt = .returned

theorem Program.InLoop.looping (h : s.InLoop) (hjoining : s.mainAt ≠ .joining)
    (hreturned : s.mainAt ≠ .returned) : s.main.looping = true := by
  rcases h with h | h | h
  · exact h
  · exact absurd h hjoining
  · exact absurd h hreturned

theorem ProgramStep.inLoop (h : ProgramStep dm s e s') (hs : s.InLoop) : s'.InLoop := by
  cases e with
  | signal =>
    obtain ⟨hat, _, rfl⟩ := h
    exact Or.inl (hs.looping (by simp [hat]) (by simp [hat]))
  | mainTest =>
    obtain ⟨hat, _, rfl⟩ := h
    exact Or.inl (hs.looping (by simp [hat]) (by simp [hat]))
  | mainPass world p =>
    obtain ⟨_, _, _, later, _, rfl⟩ := h
    cases hl : p.state.looping with
    | true => exact Or.inl hl
    | false => exact Or.inr (Or.inl rfl)
  | join =>
    obtain ⟨_, _, _, rfl⟩ := h
    exact Or.inr (Or.inr rfl)
  | listenerTest =>
    obtain ⟨_, _, rfl⟩ := h
    exact hs
  | listenerReceive answer =>
    obtain ⟨_, _, listener, _, rfl⟩ := h
    exact hs
  | interrupt thread =>
    obtain ⟨_, ⟨_, rfl⟩ | ⟨_, _, rfl⟩⟩ := h
    · exact hs
    · exact hs
  | stopProgram thread =>
    obtain ⟨_, rfl⟩ | ⟨_, rfl⟩ | ⟨_, rfl⟩ := h
    · exact hs
    · exact hs
    · exact hs

/-- Only a pass of a loop changes the variables of that loop, and only passes change `unseen`. -/
theorem ProgramStep.kept (h : ProgramStep dm s e s') :
    (passOf e = none → s'.main = s.main) ∧ (answerOf e = none → s'.listener = s.listener) ∧
      (passOf e = none → answerOf e = none → s'.unseen = s.unseen) := by
  cases e with
  | signal | mainTest | listenerTest =>
    obtain ⟨_, _, rfl⟩ := h
    exact ⟨fun _ => rfl, fun _ => rfl, fun _ _ => rfl⟩
  | mainPass world p =>
    obtain ⟨_, _, _, later, _, rfl⟩ := h
    exact ⟨nofun, fun _ => rfl, nofun⟩
  | join =>
    obtain ⟨_, _, _, rfl⟩ := h
    exact ⟨fun _ => rfl, fun _ => rfl, fun _ _ => rfl⟩
  | listenerReceive answer =>
    obtain ⟨_, _, listener, _, rfl⟩ := h
    exact ⟨fun _ => rfl, nofun, nofun⟩
  | interrupt thread =>
    obtain ⟨_, ⟨_, rfl⟩ | ⟨_, _, rfl⟩⟩ := h
    all_goals exact ⟨fun _ => rfl, fun _ => rfl, fun _ _ => rfl⟩
  | stopProgram thread =>
    obtain ⟨_, rfl⟩ | ⟨_, rfl⟩ | ⟨_, rfl⟩ := h
    all_goals exact ⟨fun _ => rfl, fun _ => rfl, fun _ _ => rfl⟩

theorem ProgramStep.pass (h : ProgramStep dm s e s') (hs : s.InLoop) {d : World × Pass}
    (hd : passOf e = some d) : PassStep dm s.main d s'.main := by
  cases e with
  | mainPass world p =>
    obtain ⟨hat, _, hp, later, _, rfl⟩ := h
    cases hd
    exact ⟨hs.looping (by simp [hat]) (by simp [hat]), hp, rfl⟩
  | signal | mainTest | join | listenerTest | listenerReceive | interrupt | stopProgram =>
    cases hd

def ListenerStep (dm : DataModel) (s : TypeListener) (answer : RecvFrom) (s' : TypeListener) :
    Prop :=
  s.step dm answer = .ok s'

theorem ProgramStep.answer (h : ProgramStep dm s e s') {answer : RecvFrom}
    (ha : answerOf e = some answer) : ListenerStep dm s.listener answer s'.listener := by
  cases e with
  | listenerReceive answer =>
    obtain ⟨_, _, listener, hl, rfl⟩ := h
    cases ha
    exact hl
  | signal | mainTest | mainPass | join | listenerTest | interrupt | stopProgram => cases ha

section

variable {main : MainState} {listener : TypeListener} {steps : List (Step Program ProgramEvent)}

/-- What the frame loop does in a run of the program is a run of the frame loop. -/
theorem run_passes (hmain : main.looping = true)
    (h : Run (ProgramStep dm) (Program.start main listener) steps s) :
    Run (PassStep dm) main (steps.filterMap (Step.project Program.main passOf)) s.main := by
  have hloop := h.step_inv Program.InLoop (Or.inl hmain) fun _ _ _ hs hstep => hstep.inLoop hs
  refine h.project Program.main passOf (fun t ht d hd => ?_) fun t ht hnone => ?_
  · obtain ⟨hs, hstep⟩ := hloop t ht
    exact hstep.pass hs hd
  · exact (hloop t ht).2.kept.1 hnone

theorem run_listenerSteps {start t : TypeListener} {steps : List (Step TypeListener RecvFrom)}
    (h : Run (ListenerStep dm) start steps t) : start.run dm (steps.map Step.event) = .ok t := by
  induction h with
  | nil => rfl
  | snoc before last ih =>
    unfold TypeListener.run at ih ⊢
    rw [List.map_append, List.foldlM_append, ih]
    exact bind_eq_ok.mpr ⟨_, rfl, bind_eq_ok.mpr ⟨_, last, rfl⟩⟩

/-- And so with the type listener. -/
theorem run_answers (h : Run (ProgramStep dm) (Program.start main listener) steps s) :
    listener.run dm (steps.filterMap fun t => answerOf t.event) = .ok s.listener := by
  have hstep := fun t ht => (h.step_inv (fun _ => True) trivial (fun _ _ _ _ _ => trivial) t ht).2
  have hrun := run_listenerSteps <| h.project Program.listener answerOf
    (fun t ht _ => (hstep t ht).answer) fun t ht => (hstep t ht).kept.2.1
  have hlabel : ∀ t : Step Program ProgramEvent,
      ((t.project Program.listener answerOf).map Step.event) = answerOf t.event := by
    intro t
    cases ha : answerOf t.event <;> simp [Step.project, ha]
  simp only [List.map_filterMap, hlabel] at hrun
  exact hrun

end

theorem getLastD_append {α : Type} (xs ys : List α) (a : α) :
    (xs ++ ys).getLastD a = ys.getLastD (xs.getLastD a) := by
  rcases List.eq_nil_or_concat ys with rfl | ⟨zs, z, rfl⟩
  · simp
  · rw [List.concat_eq_append, ← List.append_assoc, List.getLastD_concat, List.getLastD_concat]

theorem loadOf_eq (isWS : Bool) (stores : Nat → List Bool) (n : Nat) :
    loadOf isWS stores n = ((List.range (n + 1)).flatMap stores).getLastD isWS := by
  induction n with
  | zero => simp [loadOf]
  | succ n ih =>
    rw [List.range_succ, List.flatMap_append, getLastD_append, ← ih, List.flatMap_singleton]
    rfl

/-- After a pass the flag of `main` is the last store the pass has seen. -/
theorem framePass_isWS {world : World} {t : MainState} {p : Pass}
    (h : framePass dm world t = .ok p) : p.state.isWS = (p.seen world).getLastD t.isWS := by
  obtain ⟨u, received, hrec, ⟨_, rfl⟩ | ⟨n, q, _, hq, rfl⟩⟩ := framePass_cases h
  · obtain ⟨_, _, _, rfl, _⟩ := receiveFrame_cases hrec
    exact loadOf_eq t.isWS world.stores 0
  · obtain ⟨f, spiOut, outputs, looping, _, _, rfl⟩ := processFrame_cases hq
    exact loadOf_eq t.isWS world.stores f.pixels.loads

theorem TypeListener.step_stored {t t' : TypeListener} {answer : RecvFrom}
    (h : t.step dm answer = .ok t') : t'.isWS = (t.stored t').getLastD t.isWS := by
  obtain ⟨r, _, h⟩ := bind_eq_ok.mp h
  unfold TypeListener.stored
  simp only at h
  split at h
  next => cases h; simp
  next =>
    split at h
    next hnew =>
      cases h
      rw [if_neg (Ne.symm hnew)]
      rfl
    next => cases h; simp

/-- What `main` will load from the flag once it has seen all stores is what the type listener stored
in it. -/
def Program.FlagShared (s : Program) : Prop := s.listener.isWS = s.unseen.getLastD s.main.isWS

theorem ProgramStep.flagShared (h : ProgramStep dm s e s') (hs : s.FlagShared) : s'.FlagShared := by
  obtain ⟨hmain, hlistener, hunseen⟩ := h.kept
  unfold Program.FlagShared at hs ⊢
  cases e with
  | mainPass world p =>
    obtain ⟨_, _, hp, later, hl, rfl⟩ := h
    rw [hl, getLastD_append, ← framePass_isWS hp] at hs
    exact hs
  | listenerReceive answer =>
    obtain ⟨_, _, listener, hl, rfl⟩ := h
    have hstored := TypeListener.step_stored hl
    rw [hs] at hstored
    simp only [getLastD_append]
    exact hstored
  | signal | mainTest | join | listenerTest | interrupt | stopProgram =>
    rwa [hmain rfl, hlistener rfl, hunseen rfl rfl]

theorem run_flagShared {main : MainState} {listener : TypeListener}
    {steps : List (Step Program ProgramEvent)} (hflag : listener.isWS = main.isWS)
    (h : Run (ProgramStep dm) (Program.start main listener) steps s) : s.FlagShared :=
  h.inv Program.FlagShared hflag fun _ _ _ hs hstep => hstep.flagShared hs

end LmListener
