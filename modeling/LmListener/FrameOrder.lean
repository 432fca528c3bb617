import LmListener.Shutdown

namespace LmListener

open Checked CTypes Runs

instance (d : Datagram) : Decidable d.Takeable := inferInstanceAs (Decidable (_ ∧ _))

/-- The datagram a pass takes off the queue. -/
def takenIn (t : Step MainState (World × Pass)) : Option Datagram :=
  t.before.pending.head?.filter fun d => decide d.Takeable

def arrived (passes : List (Step MainState (World × Pass))) : List Datagram :=
  passes.flatMap fun t => t.event.1.arrivals

/-- A pass has a frame when it takes a datagram, and reads it from this datagram. -/
def ReadsTaken (dm : DataModel) (t : Step MainState (World × Pass)) : Prop :=
  match takenIn t with
  | none => t.event.2.frame = none
  | some d => ∃ f, t.event.2.frame = some f ∧
      readFrame dm (loadOf t.before.isWS t.event.1.stores) (overlay t.before.message d.bytes)
        d.bytes.length t.before.ledsInChannel t.before.wsOut t.before.spiOut = .ok f

theorem takenIn_eq_none {t : Step MainState (World × Pass)}
    (h : ∀ d, t.before.pending.head? = some d → d.bytes.length ≤ 4) : takenIn t = none := by
  rw [takenIn, Option.filter_eq_none_iff]
  intro d hd hdec
  have hshort := h d hd
  have hlong := (of_decide_eq_true hdec).1
  omega

theorem takenIn_eq_some_iff {t : Step MainState (World × Pass)} {d : Datagram} :
    takenIn t = some d ↔ t.before.pending.head? = some d ∧ d.Takeable := by
  rw [takenIn, Option.filter_eq_some_iff, decide_eq_true_iff]

theorem takenIn_eq_some {t : Step MainState (World × Pass)} {d : Datagram}
    (hd : t.before.pending.head? = some d) (h : d.Takeable) : takenIn t = some d :=
  takenIn_eq_some_iff.mpr ⟨hd, h⟩

variable {dm : DataModel} {world : World} {s : MainState} {p : Pass}

theorem framePass_takeable (hm : s.frameInput.Ready) {d : Datagram} {rest : List Datagram}
    (hp : s.pending = d :: rest) (h4 : 4 < d.bytes.length) (h : framePass dm world s = .ok p) :
    d.Takeable := by
  refine ⟨h4, ?_⟩
  by_contra hmax
  obtain ⟨t, received, hrec, _⟩ := framePass_cases h
  have hfault := receiveFrame_faults
    (s := (s.switch (loadOf s.isWS world.stores 0)).1) hm dm hp (Nat.lt_of_not_le hmax)
  rw [hfault] at hrec
  cases hrec

theorem framePass_leaves (hm : s.frameInput.Ready)
    (hshort : ∀ d, s.pending.head? = some d → d.bytes.length ≤ 4) :
    framePass dm world s = .ok ⟨(s.switch (loadOf s.isWS world.stores 0)).1.arrive world.arrivals,
      none, (s.switch (loadOf s.isWS world.stores 0)).2⟩ := by
  have hleaves := receiveFrame_leaves
    (s := (s.switch (loadOf s.isWS world.stores 0)).1) hm dm hshort
  exact bind_eq_ok.mpr ⟨_, hleaves, rfl⟩

/-- One pass: it leaves the queue alone, or takes its head and reads a frame from it. -/
theorem framePass_taken (hm : s.frameInput.Ready) (h : framePass dm world s = .ok p) :
    s.pending ++ world.arrivals =
        (takenIn ⟨s, (world, p), p.state⟩).toList ++ p.state.pending ∧
      ReadsTaken dm ⟨s, (world, p), p.state⟩ := by
  unfold ReadsTaken
  by_cases hshort : ∀ d, s.pending.head? = some d → d.bytes.length ≤ 4
  · rw [framePass_leaves hm hshort] at h
    cases h
    rw [takenIn_eq_none hshort]
    exact ⟨rfl, rfl⟩
  · obtain ⟨d, hd⟩ := not_forall.mp hshort
    obtain ⟨hhead, h4⟩ := Classical.not_imp.mp hd
    obtain ⟨rest, hp⟩ := List.head?_eq_some_iff.mp hhead
    have htake := framePass_takeable hm hp (by omega) h
    obtain ⟨f, _, _, _, hf, _, hframe, _⟩ := framePass_frame hm hp htake.1 htake.2 h
    rw [takenIn_eq_some hhead htake, hp, framePass_takes hm hp htake h]
    exact ⟨rfl, f, hframe, hf⟩

theorem taken_concat (steps : List (Step MainState (World × Pass)))
    (t : Step MainState (World × Pass)) :
    (steps ++ [t]).filterMap takenIn = steps.filterMap takenIn ++ (takenIn t).toList := by
  rw [List.filterMap_append]
  cases ht : takenIn t <;> simp [ht]

theorem arrived_concat (steps : List (Step MainState (World × Pass)))
    (t : Step MainState (World × Pass)) :
    arrived (steps ++ [t]) = arrived steps ++ t.event.1.arrivals := by
  simp [arrived]

/-- The run lemma: what is taken and what still waits is what waited and what arrived. -/
theorem run_taken {start : MainState} (hm : start.frameInput.Ready)
    {steps : List (Step MainState (World × Pass))} (h : Run (PassStep dm) start steps s) :
    start.pending ++ arrived steps = steps.filterMap takenIn ++ s.pending ∧
      ∀ t ∈ steps, ReadsTaken dm t := by
  induction h with
  | nil => simp [arrived]
  | @snoc steps s s' e before last ih =>
    obtain ⟨hqueue, hreads⟩ := ih
    obtain ⟨_, hpass, rfl⟩ := last
    obtain ⟨hone, hread⟩ := framePass_taken (run_ready hm before) hpass
    constructor
    · rw [taken_concat, arrived_concat, List.append_assoc, ← hone, ← List.append_assoc, hqueue,
        List.append_assoc]
    · intro t ht
      rcases List.mem_append.mp ht with ht | ht
      · exact hreads t ht
      · rw [List.mem_singleton.mp ht]
        exact hread

/-- The passes of `main` in a run of the program. -/
def passesOf (steps : List (Step Program ProgramEvent)) : List (Step MainState (World × Pass)) :=
  steps.filterMap (Step.project Program.main passOf)

/-- In every run of the program each datagram of the frame port is taken once and in the order of
arrival, or still waits in that order, and the frames `main` processes are those of the datagrams
taken, each read from its own. -/
theorem frames_in_order {main : MainState} {listener : TypeListener}
    {steps : List (Step Program ProgramEvent)} {s : Program} (hm : main.frameInput.Ready)
    (hlooping : main.looping = true)
    (h : Run (ProgramStep dm) (Program.start main listener) steps s) :
    main.pending ++ arrived (passesOf steps) =
        (passesOf steps).filterMap takenIn ++ s.main.pending ∧
      ∀ t ∈ passesOf steps, ReadsTaken dm t :=
  run_taken hm (run_passes hlooping h)

/-- The program after its first pass over the frame of one LED. -/
def afterFirst (p : Pass) : Program :=
  { firstPass with
    main := p.state
    mainAt := if p.state.looping then .testing else .joining }

theorem firstPass_frame : ∃ p f, framePass lp64 quiet (waiting [oneLed]) = .ok p ∧
    p.frame = some f ∧ Run (ProgramStep lp64) started
      (firstPassSteps ++ [⟨firstPass, .mainPass quiet p, afterFirst p⟩]) (afterFirst p) := by
  obtain ⟨p, f, hp, hf⟩ := oneLed_pass [] quiet
  have hseen : p.seen quiet = [] := List.flatMap_eq_nil_iff.mpr fun _ _ => rfl
  have hstep : ProgramStep lp64 firstPass (.mainPass quiet p) (afterFirst p) :=
    ⟨rfl, rfl, hp, [], by rw [hseen]; rfl, rfl⟩
  exact ⟨p, f, hp, hf, firstPass_run.snoc hstep⟩

theorem frames_in_order_one : ∃ steps s, Run (ProgramStep lp64) started steps s ∧
    (passesOf steps).filterMap takenIn = [oneLed] ∧ s.main.pending = [] := by
  obtain ⟨p, f, hp, _, hrun⟩ := firstPass_frame
  have hrest : p.state.pending = [] ++ [] := framePass_takes bound_ready rfl (by decide) hp
  obtain ⟨hqueue, _⟩ := frames_in_order bound_ready rfl hrun
  refine ⟨_, _, hrun, ?_, hrest⟩
  have harrived :
      arrived (passesOf (firstPassSteps ++ [⟨firstPass, .mainPass quiet p, afterFirst p⟩])) = [] :=
    rfl
  have hpending : (afterFirst p).main.pending = [] := hrest
  rw [harrived, hpending, List.append_nil, List.append_nil] at hqueue
  exact hqueue.symm

end LmListener
