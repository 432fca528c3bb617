import LmListener.StartUp
import LmListener.TypeHistory
import LmListener.Wall

namespace LmListener

open Checked CTypes Latest Runs

/-- The program with what its strips show. -/
def ProgramShown (dm : DataModel) (dev : Device) (s : Program × Lights) (e : ProgramEvent)
    (s' : Program × Lights) : Prop :=
  ProgramStep dm s.1 e s'.1 ∧
    match passOf e with
    | none => s'.2 = s.2
    | some pass => ∃ fuel calls sent, transmit dev fuel calls pass.2.outputs = some sent ∧
        (pass.1.rendered = true →
          s'.2 = (Shield.takeAll ⟨s.1.main.pins, s.2⟩ sent).lights)

/-- What the frame loop has of a state of the program and its strips. -/
def loopView (s : Program × Lights) : MainState × Lights := (s.1.main, s.2)

/-- The picture of the frame that a pass takes, in the mode of the type listener. -/
def programPicture (t : Step (Program × Lights) ProgramEvent) : Option Picture :=
  (passOf t.event).bind fun pass =>
    (takenIn ⟨t.before.1.main, pass, t.after.1.main⟩).bind fun d =>
      (decodeFrame d.bytes).map fun frame => pictureOf t.before.1.listener.isWS frame.1 frame.2

/-- A pass sees the stores made before it and none later, `ws2811_render` succeeds, and a frame at
the head of the queue is one its sender could encode, with all its triples when it is for the
SPI. -/
structure OrderlyPass (t : Step (Program × Lights) ProgramEvent) (world : World) : Prop where
  sees : world.stores 0 = t.before.1.unseen
  quiet : ∀ n, 0 < n → world.stores n = []
  rendered : world.rendered = true
  frame : ∀ d, t.before.1.main.pending.head? = some d → 4 < d.bytes.length →
    ∃ counts payload, decodeFrame d.bytes = some (counts, payload) ∧
      (t.before.1.listener.isWS = false →
        chanOffset (ledsOfCount counts) (min counts.length MAX_CHANNELS) ≤ payload.length / 3)

def OrderlyRun (steps : List (Step (Program × Lights) ProgramEvent)) : Prop :=
  ∀ t ∈ steps, ∀ pass, passOf t.event = some pass → OrderlyPass t pass.1

section

variable {dm : DataModel} {dev : Device} {main : MainState} {listener : TypeListener}
  {lights : Lights} {steps : List (Step (Program × Lights) ProgramEvent)} {s : Program × Lights}

theorem run_program (h : Run (ProgramShown dm dev) (Program.start main listener, lights) steps s) :
    Run (ProgramStep dm) (Program.start main listener)
      (steps.filterMap (Step.project Prod.fst some)) s.1 := by
  have hstep := fun t ht => (h.step_inv (fun _ => True) trivial (fun _ _ _ _ _ => trivial) t ht).2
  refine h.project Prod.fst some (fun t ht e he => ?_) fun t ht hnone => nomatch hnone
  cases he
  exact (hstep t ht).1

theorem project_answers (steps : List (Step (Program × Lights) ProgramEvent)) :
    (steps.filterMap (Step.project Prod.fst some)).filterMap (fun t => answerOf t.event) =
      steps.filterMap fun t => answerOf t.event := by
  rw [List.filterMap_filterMap]
  rfl

/-- What the frame loop and the strips do in a run of the program is a run of theirs. -/
theorem run_loop (hlooping : main.looping = true)
    (h : Run (ProgramShown dm dev) (Program.start main listener, lights) steps s) :
    Run (ShownStep dm dev) (main, lights) (steps.filterMap (Step.project loopView passOf))
      (loopView s) := by
  have hloop := h.step_inv (fun s => s.1.InLoop) (Or.inl hlooping)
    fun _ _ _ hs hstep => hstep.1.inLoop hs
  refine h.project loopView passOf (fun t ht pass hpass => ?_) fun t ht hnone => ?_
  · obtain ⟨hs, hstep, hshown⟩ := hloop t ht
    rw [hpass] at hshown
    exact ⟨hstep.pass hs hpass, hshown⟩
  · obtain ⟨_, hstep, hshown⟩ := hloop t ht
    rw [hnone] at hshown
    exact Prod.ext (hstep.kept.1 hnone) hshown

/-- A pass that sees all stores made before it starts in the mode of the type listener. -/
theorem OrderlyPass.mode {t : Step (Program × Lights) ProgramEvent} {world : World}
    (ht : OrderlyPass t world) (hshared : t.before.1.FlagShared) :
    loadOf t.before.1.main.isWS world.stores 0 = t.before.1.listener.isWS := by
  rw [loadOf, ht.sees]
  exact hshared.symm

theorem run_pictures (hflag : listener.isWS = main.isWS)
    (h : Run (ProgramShown dm dev) (Program.start main listener, lights) steps s)
    (hall : OrderlyRun steps) :
    (∀ t ∈ steps.filterMap (Step.project loopView passOf), Orderly t) ∧
      (steps.filterMap (Step.project loopView passOf)).filterMap pictureIn =
        steps.filterMap programPicture := by
  have hshared := h.step_inv (fun s => s.1.FlagShared) hflag
    fun _ _ _ hs hstep => hstep.1.flagShared hs
  constructor
  · intro u hu
    obtain ⟨t, ht, hproject⟩ := List.mem_filterMap.mp hu
    obtain ⟨pass, hpass, rfl⟩ := Option.map_eq_some_iff.mp hproject
    have hpassOk := hall t ht pass hpass
    refine ⟨fun n hn b hb => ?_, hpassOk.rendered, fun d hd h4 => ?_⟩
    · rw [show pass.1.stores n = [] from hpassOk.quiet n hn] at hb
      cases hb
    · obtain ⟨counts, payload, hdec, hfull⟩ := hpassOk.frame d hd h4
      exact ⟨counts, payload, hdec, fun hspi => hfull ((hpassOk.mode (hshared t ht).1).symm.trans
        hspi)⟩
  · rw [List.filterMap_filterMap]
    refine List.filterMap_congr fun t ht => ?_
    unfold Step.project programPicture
    cases hpass : passOf t.event with
    | none => rfl
    | some pass =>
      have hmode := (hall t ht pass hpass).mode (hshared t ht).1
      rw [Option.map_some, Option.bind_some, Option.bind_some, pictureIn, ← hmode]
      rfl

end

def bothChannelsAnswers : StartAnswers :=
  { oneChannelAnswers with malloc₂ := some fun _ => default }

def zeroMemory : StartMemory := ⟨default, default, Vector.replicate _ 0, Vector.replicate _ 0⟩

theorem bothChannelsAnswers_starts : bothChannelsAnswers.Starts :=
  ⟨rfl, by decide, by decide, rfl, by decide, rfl, by decide, rfl⟩

/-- `main` sets its handler, tests its loop and shows the frame that waits. -/
theorem first_frame_shown {main : MainState} {listener : TypeListener} {lights : Lights}
    (hm : main.frameInput.Ready) (hready : main.spiOut.Ready) (hp : main.pending = [oneLed]) :
    ∃ steps s, Run (ProgramShown lp64 takesThree) (Program.start main listener, lights) steps s ∧
      OrderlyRun steps ∧
      steps.filterMap programPicture = [pictureOf listener.isWS [1] [9, 8, 7]] := by
  have hsafe : oneLed.Safe := by decide
  obtain ⟨p, hpass⟩ := hsafe.pass lp64 quiet hm hready (by rw [hp]; rfl)
  obtain ⟨fuel, ht⟩ := transmit_eq takesThree_acceptsAll 0 p.outputs
  let signalled : Program :=
    { Program.start main listener with mainAt := .testing, sigint := .stopProgram }
  let testing : Program := { signalled with mainAt := .inPass }
  let after : Program :=
    { testing with main := p.state, mainAt := if p.state.looping then .testing else .joining }
  have hsignal : ProgramShown lp64 takesThree (Program.start main listener, lights) .signal
      (signalled, lights) := ⟨⟨rfl, rfl, rfl⟩, rfl⟩
  have htest : ProgramShown lp64 takesThree (signalled, lights) .mainTest (testing, lights) :=
    ⟨⟨rfl, rfl, rfl⟩, rfl⟩
  have hseen : p.seen quiet = [] := List.flatMap_eq_nil_iff.mpr fun _ _ => rfl
  have hframe : ProgramShown lp64 takesThree (testing, lights) (.mainPass quiet p)
      (after, (Shield.takeAll ⟨main.pins, lights⟩ p.outputs).lights) :=
    ⟨⟨rfl, rfl, hpass, [], by rw [hseen]; rfl, rfl⟩, fuel, 0, p.outputs,
      ht fuel (Nat.le_refl _), fun _ => rfl⟩
  refine ⟨_, _, ((Run.nil.snoc hsignal).snoc htest).snoc hframe, fun t ht pass hpass => ?_, ?_⟩
  · simp only [List.nil_append, List.mem_append, List.mem_singleton] at ht
    obtain (rfl | rfl) | rfl := ht
    · cases hpass
    · cases hpass
    · cases hpass
      refine ⟨rfl, fun _ _ => rfl, rfl, fun d hd _ => ?_⟩
      have hone : main.pending.head? = some d := hd
      rw [hp] at hone
      cases hone
      exact ⟨[1], [9, 8, 7], rfl, fun _ => by decide⟩
  · have htaken : takenIn ⟨main, (quiet, p), p.state⟩ = some oneLed :=
      takenIn_eq_some (by rw [hp]; rfl) (by decide)
    have hpicture : programPicture ⟨(testing, lights), .mainPass quiet p,
        (after, (Shield.takeAll ⟨main.pins, lights⟩ p.outputs).lights)⟩ =
          some (pictureOf listener.isWS [1] [9, 8, 7]) := by
      rw [programPicture, passOf, Option.bind_some]
      exact congrArg (Option.bind · _) htaken
    simp only [List.nil_append, List.filterMap_cons, List.cons_append]
    rw [hpicture]
    rfl

/-- The variables of `main` when it has started with one frame waiting. -/
def oneLedMain : MainState :=
  MainState.start (zeroMemory.manager.setup lp64 frameSettings allAnswers).manager
    zeroMemory.message (Vector.replicate _ (Vector.replicate _ 0))
    (spiSetup lp64 ⟨3, []⟩ (some fun _ => default) (some fun _ => default)) [oneLed]

end LmListener
