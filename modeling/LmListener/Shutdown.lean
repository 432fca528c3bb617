import LmListener.OneOutput
import LmListener.Program

namespace LmListener

open Checked CTypes Runs

variable {dm : DataModel} {s s' : Program} {e : ProgramEvent}

/-- The pass calls `ws2811_render`. -/
def Pass.Renders (p : Pass) : Prop := ∃ wsOut, Output.render wsOut ∈ p.outputs

theorem renders_of_outputs {isWS : Bool} {switched outputs : List Output}
    (hsw : ∀ o ∈ switched, o.sink = none) (hout : OutputsOf isWS outputs) {wsOut : WsOut}
    (h : Output.render wsOut ∈ switched ++ outputs) : isWS = true := by
  rcases List.mem_append.mp h with h | h
  · cases hsw _ h
  · exact ((hout _ h).1 true rfl).symm

/-- A pass lets the loop go on unless its call of `ws2811_render` fails. -/
theorem framePass_looping {world : World} {t : MainState} {p : Pass}
    (h : framePass dm world t = .ok p) (hlooping : t.looping = true) :
    p.state.looping = false ↔ p.Renders ∧ world.rendered = false := by
  have hsw := switch_sink t (loadOf t.isWS world.stores 0)
  obtain ⟨u, received, hrec, ⟨_, rfl⟩ | ⟨n, q, _, hq, rfl⟩⟩ := framePass_cases h
  · obtain ⟨_, _, _, rfl, _⟩ := receiveFrame_cases hrec
    refine ⟨fun hstop => absurd (hstop.symm.trans hlooping) nofun, fun hfail => ?_⟩
    obtain ⟨⟨wsOut, hr⟩, _⟩ := hfail
    cases hsw _ hr
  · obtain ⟨f, spiOut, outputs, looping, _, ho, rfl⟩ := processFrame_cases hq
    have hout := outputFrame_outputs ho
    cases hws : loadOf t.isWS world.stores f.pixels.loads with
    | true =>
      rw [hws] at ho
      cases ho
      refine ⟨fun hstop => ⟨⟨_, List.mem_append_right _ (List.mem_singleton_self _)⟩, hstop⟩, ?_⟩
      exact fun hfail => hfail.2
    | false =>
      rw [hws] at ho hout
      obtain ⟨_, _, hlast⟩ := bind_eq_ok.mp ho
      cases hlast
      refine ⟨nofun, fun hfail => ?_⟩
      obtain ⟨⟨wsOut, hr⟩, _⟩ := hfail
      cases renders_of_outputs hsw hout hr

/-- The step is a pass in which `ws2811_render` fails. -/
def RenderFails (t : Step Program ProgramEvent) : Prop :=
  ∃ world p, t.event = .mainPass world p ∧ p.Renders ∧ world.rendered = false

/-- `main` waits for the type listener only with the flag that stops it. -/
def Program.Stops (s : Program) : Prop := s.mainAt = .joining → s.continueLooping = false

theorem ProgramStep.stops (h : ProgramStep dm s e s') (hloop : s.InLoop) (hs : s.Stops)
    (hfail : RenderFails ⟨s, e, s'⟩ → s.continueLooping = false) : s'.Stops := by
  cases e with
  | signal =>
    obtain ⟨_, _, rfl⟩ := h
    exact nofun
  | mainTest =>
    obtain ⟨_, _, rfl⟩ := h
    intro hjoin
    cases hc : s.continueLooping with
    | true => simp [hc] at hjoin
    | false => rfl
  | mainPass world p =>
    obtain ⟨hat, _, hp, later, _, rfl⟩ := h
    intro hjoin
    cases hl : p.state.looping with
    | true => simp [hl] at hjoin
    | false =>
      have hlooping := hloop.looping (by simp [hat]) (by simp [hat])
      exact hfail ⟨world, p, rfl, (framePass_looping hp hlooping).mp hl⟩
  | join =>
    obtain ⟨_, _, _, rfl⟩ := h
    exact nofun
  | listenerTest =>
    obtain ⟨_, _, rfl⟩ := h
    exact hs
  | listenerReceive answer =>
    obtain ⟨_, _, listener, _, rfl⟩ := h
    exact hs
  | interrupt thread =>
    obtain ⟨_, ⟨_, rfl⟩ | ⟨_, _, rfl⟩⟩ := h
    · exact hs
    · exact hs
  | stopProgram thread =>
    obtain ⟨_, rfl⟩ | ⟨_, rfl⟩ | ⟨_, rfl⟩ := h
    · exact hs
    · exact fun _ => rfl
    · exact hs

theorem ProgramStep.listener_leaves (hs : s.continueLooping = false)
    (h : ProgramStep dm s .listenerTest s') : s'.listenerAt = .left := by
  obtain ⟨_, _, rfl⟩ := h
  simp [hs]

theorem ProgramStep.stops_of_fails (h : ProgramStep dm s e s') (hloop : s.InLoop)
    (hs' : s'.Stops) (hfail : RenderFails ⟨s, e, s'⟩) : s.continueLooping = false := by
  obtain ⟨world, p, rfl, hrender⟩ := hfail
  obtain ⟨hat, _, hp, later, _, rfl⟩ := h
  have hlooping := hloop.looping (by simp [hat]) (by simp [hat])
  have hl := (framePass_looping hp hlooping).mpr hrender
  exact hs' (by simp [hl])

/-- In a run of the program `main` waits in `join` only with `continue_looping` false, and the type
listener then leaves at its next test, exactly when no `ws2811_render` of the run fails while
`continue_looping` is true. -/
theorem shuts_down_iff {frameInput : UdpManager} {message : Message} {wsOut : WsOut}
    {spiOut : SpiOut} {pending : List Datagram} {typeInput : UdpManager}
    {typeMessage : Vector UInt8 6} {steps : List (Step Program ProgramEvent)}
    (h : Run (ProgramStep dm) (Program.start
      (MainState.start frameInput message wsOut spiOut pending)
      (TypeListener.start typeInput typeMessage GpioOutSwitcher.new.1.m_isWs)) steps s) :
    (∀ t ∈ steps, RenderFails t → t.before.continueLooping = false) ↔
      ∀ t ∈ steps, t.after.mainAt = .joining → t.after.continueLooping = false ∧
        ∀ next, ProgramStep dm t.after .listenerTest next → next.listenerAt = .left := by
  have hloop := h.step_inv Program.InLoop (Or.inl rfl) fun _ _ _ hs hstep => hstep.inLoop hs
  constructor
  · intro hfails t ht hjoin
    obtain ⟨_, hall⟩ := h.inv_steps Program.Stops nofun fun t ht hs hstep =>
      hstep.stops (hloop t ht).1 hs (hfails t ht)
    have hflag := (hall t ht).2.2 hjoin
    exact ⟨hflag, fun next hnext => hnext.listener_leaves hflag⟩
  · intro hstops t ht
    obtain ⟨hl, hstep⟩ := hloop t ht
    exact hstep.stops_of_fails hl fun hjoin => (hstops t ht hjoin).1

def renderFails : World := ⟨fun _ => [], false, []⟩

def started : Program :=
  Program.start (waiting [oneLed])
    (TypeListener.start bound (Vector.replicate _ 0) GpioOutSwitcher.new.1.m_isWs)

def handling : Program := { started with mainAt := .testing, sigint := .stopProgram }

def firstPass : Program := { handling with mainAt := .inPass }

def firstPassSteps : List (Step Program ProgramEvent) :=
  [⟨started, .signal, handling⟩, ⟨handling, .mainTest, firstPass⟩]

theorem firstPass_run : Run (ProgramStep lp64) started firstPassSteps firstPass :=
  (Run.nil.snoc ⟨rfl, rfl, rfl⟩).snoc ⟨rfl, rfl, rfl⟩

theorem oneLed_render_fails : ∃ p, framePass lp64 renderFails (waiting [oneLed]) = .ok p ∧
    p.seen renderFails = [] ∧ p.Renders := by
  obtain ⟨p, f, hp, _⟩ := oneLed_pass [] renderFails
  have hpending : (waiting [oneLed]).pending = [oneLed] := rfl
  obtain ⟨f', spiOut, outputs, looping, _, ho, _, _, hout, _⟩ :=
    framePass_frame bound_ready hpending (by decide) (by decide) hp
  have hload : loadOf (waiting [oneLed]).isWS renderFails.stores f'.pixels.loads = true := by
    have hnone : (List.range (f'.pixels.loads + 1)).flatMap renderFails.stores = [] :=
      List.flatMap_eq_nil_iff.mpr fun _ _ => rfl
    rw [loadOf_eq, hnone]
    rfl
  rw [hload] at ho
  cases ho
  refine ⟨p, hp, List.flatMap_eq_nil_iff.mpr fun _ _ => rfl, f'.pixels.wsOut, ?_⟩
  rw [hout]
  exact List.mem_append_right _ (List.mem_singleton_self _)

/-- The pass over the first frame, in which `ws2811_render` fails. -/
theorem failing_pass (s : Program) (hat : s.mainAt = .inPass) (hfree : s.Free .main)
    (hmain : s.main = waiting [oneLed]) (hunseen : s.unseen = []) :
    ∃ p, p.Renders ∧ ProgramStep lp64 s (.mainPass renderFails p)
      { s with main := p.state, mainAt := .joining, unseen := [] } := by
  obtain ⟨p, hp, hseen, hr⟩ := oneLed_render_fails
  have hstop := (framePass_looping hp rfl).mpr ⟨hr, rfl⟩
  refine ⟨p, hr, hat, hfree, hmain ▸ hp, [], by rw [hseen, hunseen]; rfl, ?_⟩
  rw [hstop]
  rfl

def interrupted : Program := firstPass.setStopProgram .main .entered

def ignoring : Program := { interrupted.setStopProgram .main .ignoring with sigint := .sigIgn }

def stopped : Program := { ignoring.setStopProgram .main .stored with continueLooping := false }

def stopHandled : Program := { stopped.setStopProgram .main .idle with sigint := .sigDfl }

/-- SIGINT comes in the pass that fails, before the failure: both loops stop. -/
theorem shuts_down_after_sigint : ∃ steps s, Run (ProgramStep lp64) started steps s ∧
    s.mainAt = .joining ∧ s.continueLooping = false := by
  obtain ⟨p, _, hpass⟩ := failing_pass stopHandled rfl rfl rfl rfl
  have hinterrupt : ProgramStep lp64 firstPass (.interrupt .main) interrupted :=
    ⟨nofun, Or.inr ⟨rfl, rfl, rfl⟩⟩
  have hignore : ProgramStep lp64 interrupted (.stopProgram .main) ignoring := Or.inl ⟨rfl, rfl⟩
  have hstop : ProgramStep lp64 ignoring (.stopProgram .main) stopped :=
    Or.inr (Or.inl ⟨rfl, rfl⟩)
  have hdone : ProgramStep lp64 stopped (.stopProgram .main) stopHandled :=
    Or.inr (Or.inr ⟨rfl, rfl⟩)
  have hrun :=
    ((((firstPass_run.snoc hinterrupt).snoc hignore).snoc hstop).snoc hdone).snoc hpass
  refine ⟨_, _, hrun, rfl, ?_⟩
  refine ((shuts_down_iff hrun).mp (fun t ht hfails => ?_) _ List.mem_concat_self rfl).1
  obtain ⟨world, q, he, _⟩ := hfails
  simp only [firstPassSteps, List.cons_append, List.nil_append, List.mem_cons, List.not_mem_nil,
    or_false] at ht
  rcases ht with rfl | rfl | rfl | rfl | rfl | rfl | rfl
  iterate 6 exact ProgramEvent.noConfusion he
  rfl

/-- Without SIGINT `main` joins a thread that goes on: `continue_looping` is still true. -/
theorem joins_a_running_listener : ∃ steps s, Run (ProgramStep lp64) started steps s ∧
    s.mainAt = .joining ∧ s.continueLooping = true ∧
    ∃ next, ProgramStep lp64 s .listenerTest next ∧ next.listenerAt = .receiving := by
  obtain ⟨p, _, hpass⟩ := failing_pass firstPass rfl rfl rfl rfl
  exact ⟨_, _, firstPass_run.snoc hpass, rfl, rfl, _, ⟨rfl, rfl, rfl⟩, rfl⟩

end LmListener
