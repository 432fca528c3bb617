import LmListener.FrameSafety

namespace LmListener

open Checked CTypes Runs

/-- The pass comes to its end, and the head datagram has left the queue. -/
def TakesHead (dm : DataModel) (world : World) (s : MainState) (rest : List Datagram) : Prop :=
  ∃ p, framePass dm world s = .ok p ∧ p.state.pending = rest ++ world.arrivals

/-- A datagram that a pass can take: longer than a header, no longer than the receive buffer, and
over what this buffer held a frame that stays inside the arrays. -/
def Passable (dm : DataModel) (world : World) (s : MainState) (d : Datagram) : Prop :=
  4 < d.bytes.length ∧ d.bytes.length ≤ MAX_SENDBUFFER_SIZE ∧
    ∃ j, StaysInside dm (loadOf s.isWS world.stores) (overlay s.message d.bytes) d.bytes.length j

def worldsOf (steps : List (Step MainState (World × Pass))) : List World :=
  steps.map fun t => t.event.1

/-- A run of one pass in each of these worlds, which leaves `pending` in the queue. -/
def Reaches (dm : DataModel) (start : MainState) (worlds : List World)
    (pending : List Datagram) : Prop :=
  ∃ steps s, Run (PassStep dm) start steps s ∧ worldsOf steps = worlds ∧ s.pending = pending

/-- Before each of these passes the loop goes on, and the head of the queue can be taken. -/
def Clears (dm : DataModel) (start : MainState) (worlds : List World) : Prop :=
  ∀ earlier world later, worlds = earlier ++ world :: later →
    ∀ steps s, Run (PassStep dm) start steps s → worldsOf steps = earlier →
      s.looping = true ∧ ∀ d, s.pending.head? = some d → Passable dm world s d

variable {dm : DataModel} {world : World} {start s : MainState}

theorem takesHead_iff (hm : s.frameInput.Ready) (hready : s.spiOut.Ready) {d : Datagram}
    {rest : List Datagram} (hp : s.pending = d :: rest) :
    TakesHead dm world s rest ↔ Passable dm world s d := by
  constructor
  · intro htakes
    obtain ⟨p, hpass, hpending⟩ := htakes
    by_cases h4 : 4 < d.bytes.length
    · exact ⟨h4, (framePass_frame_iff hm hready hp h4).mp ⟨p, hpass⟩⟩
    · -- a short datagram is still there after the pass
      have hshort : ∀ d', s.pending.head? = some d' → d'.bytes.length ≤ 4 := by
        intro d' hd'
        rw [hp] at hd'
        cases hd'
        omega
      rw [framePass_leaves hm hshort] at hpass
      cases hpass
      have hkept : s.pending ++ world.arrivals = rest ++ world.arrivals := hpending
      rw [hp] at hkept
      exact absurd (List.append_cancel_right hkept) (List.cons_ne_self d rest)
  · intro hpassable
    obtain ⟨h4, hmax, hinside⟩ := hpassable
    obtain ⟨p, hpass⟩ := (framePass_frame_iff hm hready hp h4).mpr ⟨hmax, hinside⟩
    exact ⟨p, hpass, framePass_takes hm hp ⟨h4, hmax⟩ hpass⟩

/-- The passes of the loop are determined by their worlds. -/
theorem run_unique {steps steps' : List (Step MainState (World × Pass))} {s' : MainState}
    (h : Run (PassStep dm) start steps s) (h' : Run (PassStep dm) start steps' s')
    (hworlds : worldsOf steps = worldsOf steps') : steps = steps' ∧ s = s' := by
  refine h.unique Prod.fst (fun t e₁ e₂ s₁ s₂ h₁ h₂ hworld => ?_) h' hworlds
  obtain ⟨_, hpass₁, rfl⟩ := h₁
  obtain ⟨_, hpass₂, rfl⟩ := h₂
  rw [hworld, hpass₂] at hpass₁
  have hpass : e₁.2 = e₂.2 := (Except.ok.inj hpass₁).symm
  exact ⟨Prod.ext hworld hpass, by rw [hpass]⟩

/-- The run lemma: passes that can take the head take all datagrams before the frame. -/
theorem reaches_of_clears (hm : start.frameInput.Ready) (hready : start.spiOut.Ready)
    (worlds : List World) : ∀ before after, start.pending = before ++ after →
      worlds.length = before.length → Clears dm start worlds →
        Reaches dm start worlds (after ++ worlds.flatMap World.arrivals) := by
  induction worlds using List.reverseRecOn with
  | nil =>
    intro before after hp hn _
    obtain rfl : before = [] := List.length_eq_zero_iff.mp hn.symm
    exact ⟨[], start, .nil, rfl, by simpa using hp⟩
  | append_singleton worlds world ih =>
    intro before after hp hn hclears
    rcases List.eq_nil_or_concat before with rfl | ⟨first, d, rfl⟩
    · simp at hn
    have hfirst : Clears dm start worlds := fun earlier w later he =>
      hclears earlier w (later ++ [world]) (by simp [he])
    obtain ⟨steps, s, hrun, hworlds, hpending⟩ :=
      ih first (d :: after) (by simpa using hp) (by simpa using hn) hfirst
    obtain ⟨hlooping, hhead⟩ := hclears worlds world [] rfl steps s hrun hworlds
    obtain ⟨hm', hready'⟩ := run_spiReady hm hready hrun
    obtain ⟨p, hpass, htaken⟩ := (takesHead_iff hm' hready' hpending).mpr
      (hhead d (by rw [hpending]; rfl))
    have hstep : PassStep dm s (world, p) p.state := ⟨hlooping, hpass, rfl⟩
    refine ⟨_, _, hrun.snoc hstep, ?_, ?_⟩
    · simp [worldsOf, ← hworlds]
    · rw [htaken]
      simp

/-- Conversely each pass of such a run took the head, since the run has no pass to spare. -/
theorem clears_of_reaches (hm : start.frameInput.Ready) (hready : start.spiOut.Ready)
    {worlds : List World} {before after : List Datagram} (hp : start.pending = before ++ after)
    (hn : worlds.length = before.length)
    (h : Reaches dm start worlds (after ++ worlds.flatMap World.arrivals)) :
    Clears dm start worlds := by
  obtain ⟨all, last, hall, rfl, hlast⟩ := h
  have harrived : arrived all = (worldsOf all).flatMap World.arrivals := by
    rw [arrived, worldsOf, List.flatMap_map]
  have htakes : ∀ t ∈ all, (takenIn t).isSome := by
    obtain ⟨hqueue, _⟩ := run_taken hm hall
    rw [hp, hlast, harrived, List.append_assoc] at hqueue
    have hlength := congrArg List.length (List.append_cancel_right hqueue)
    apply List.filterMap_length_eq_length.mp
    rw [← hlength, ← hn, worldsOf, List.length_map]
  intro earlier world later he steps s hrun hworlds
  obtain ⟨first, rest, rfl, hfirst, hrest⟩ := List.map_eq_append_iff.mp he
  obtain ⟨t, rest, rfl, rfl, _⟩ := List.map_eq_cons_iff.mp hrest
  obtain ⟨hbefore, hlooping, hpass, _⟩ := hall.split first t rest rfl
  obtain ⟨rfl, rfl⟩ := run_unique hrun hbefore (hworlds.trans hfirst.symm)
  obtain ⟨hm', hready'⟩ := run_spiReady hm hready hrun
  refine ⟨hlooping, fun d hd => ?_⟩
  obtain ⟨rest', hpending⟩ := List.head?_eq_some_iff.mp hd
  obtain ⟨d', htaken⟩ := Option.isSome_iff_exists.mp (htakes t (by simp))
  obtain ⟨hhead, h4, _⟩ := takenIn_eq_some_iff.mp htaken
  obtain rfl : d = d' := Option.some.inj (hd.symm.trans hhead)
  exact ⟨h4, (framePass_frame_iff hm' hready' hpending h4).mp ⟨_, hpass⟩⟩

/-- Safe datagrams of a frame's length can be taken whatever the buffer held and the type listener
stores, and the loop goes on while its renders succeed. -/
theorem clears_of_safe (hm : start.frameInput.Ready) (hready : start.spiOut.Ready)
    (hlooping : start.looping = true) {worlds : List World} {before after : List Datagram}
    (hp : start.pending = before ++ after) (hn : worlds.length = before.length)
    (hsafe : ∀ b ∈ before, 4 < b.bytes.length ∧ b.Safe)
    (hrendered : ∀ world ∈ worlds, world.rendered = true) : Clears dm start worlds := by
  intro earlier world later he steps s hrun hworlds
  obtain ⟨hm', hready'⟩ := run_spiReady hm hready hrun
  constructor
  · refine (hrun.inv_steps (fun s => s.looping = true) hlooping fun t ht hloop hstep => ?_).1
    obtain ⟨_, hpass, hafter⟩ := hstep
    have hmem : t.event.1 ∈ worlds := by
      rw [he, ← hworlds]
      exact List.mem_append_left _ (List.mem_map_of_mem ht)
    rw [hafter]
    by_contra hstop
    have hfail := (framePass_looping hpass hloop).mp (Bool.eq_false_of_not_eq_true hstop)
    exact absurd (hfail.2.symm.trans (hrendered _ hmem)) nofun
  · intro d hd
    have hlt : earlier.length < before.length := by
      rw [← hn, he, List.length_append, List.length_cons]
      omega
    have hsplit : start.pending = before.take earlier.length ++
        (before[earlier.length] :: before.drop (earlier.length + 1) ++ after) := by
      rw [hp, List.cons_append, ← List.cons_append, ← List.append_assoc,
        ← List.drop_eq_getElem_cons hlt, List.take_append_drop]
    have htakeable : ∀ b ∈ before.take earlier.length, b.Takeable := by
      intro b hb
      obtain ⟨h4, hb⟩ := hsafe b (List.mem_of_mem_take hb)
      exact ⟨h4, (hb h4).1⟩
    have hlength : steps.length = (before.take earlier.length).length := by
      rw [List.length_take, Nat.min_eq_left (Nat.le_of_lt hlt), ← hworlds, worldsOf,
        List.length_map]
    obtain ⟨arrived, hpending⟩ := run_takes hm hrun _ _ hsplit hlength htakeable
    rw [hpending] at hd
    obtain rfl : before[earlier.length] = d := Option.some.inj hd
    obtain ⟨h4, hb⟩ := hsafe _ (List.getElem_mem hlt)
    exact ⟨h4, (framePass_frame_iff hm' hready' hpending h4).mp
      (hb.pass dm world hm' hready' (by rw [hpending]; rfl))⟩

/-- In every state the frame loop reaches, a pass takes the head datagram exactly when it can be
taken in this state; and for any worlds, as many as there are datagrams before a frame, there is a
run of the loop through them that has this frame at the head at its end exactly when each pass finds
the loop going on and a head that it can take. -/
theorem frame_queue_advances (hm : start.frameInput.Ready) (hready : start.spiOut.Ready) :
    (∀ steps s, Run (PassStep dm) start steps s → ∀ world d rest, s.pending = d :: rest →
      (TakesHead dm world s rest ↔ Passable dm world s d)) ∧
    ∀ before d after worlds, start.pending = before ++ d :: after →
      worlds.length = before.length →
      (Reaches dm start worlds (d :: after ++ worlds.flatMap World.arrivals) ↔
        Clears dm start worlds) := by
  constructor
  · intro steps s h world d rest hp
    obtain ⟨hm', hready'⟩ := run_spiReady hm hready h
    exact takesHead_iff hm' hready' hp
  · intro before d after worlds hp hn
    exact ⟨clears_of_reaches hm hready hp hn,
      reaches_of_clears hm hready worlds before (d :: after) hp hn⟩

theorem frame_queue_advances_two :
    Reaches lp64 (waiting [oneLed, oneLed, oneLed]) [quiet, flips] [oneLed] := by
  have hready : (waiting [oneLed, oneLed, oneLed]).spiOut.Ready := listening_ready _ _
  have hpending : (waiting [oneLed, oneLed, oneLed]).pending = [oneLed, oneLed] ++ [oneLed] := rfl
  have hclears : Clears lp64 (waiting [oneLed, oneLed, oneLed]) [quiet, flips] :=
    clears_of_safe bound_ready hready rfl hpending rfl
      (List.forall_mem_cons.mpr ⟨by decide, List.forall_mem_singleton.mpr (by decide)⟩)
      (List.forall_mem_cons.mpr ⟨rfl, List.forall_mem_singleton.mpr rfl⟩)
  exact ((frame_queue_advances bound_ready hready).2 [oneLed, oneLed] oneLed [] [quiet, flips]
    rfl rfl).mpr hclears

def fourBytes : Datagram := ⟨[0xff, 0xff, 0, 0], default, by decide⟩

/-- The frame behind four bytes is not reached in any run. -/
theorem frame_queue_blocked :
    ¬TakesHead lp64 quiet (waiting [fourBytes, oneLed]) [oneLed] ∧
    ¬∃ steps s, Run (PassStep lp64) (waiting [fourBytes, oneLed]) steps s ∧
      s.pending.head? ≠ some fourBytes := by
  refine ⟨fun h => ?_, ?_⟩
  · exact absurd ((takesHead_iff bound_ready (listening_ready _ _) rfl).mp h).1 (by decide)
  · intro hreach
    obtain ⟨steps, s, hrun, hhead⟩ := hreach
    refine hhead (hrun.inv
      (fun s => s.frameInput.Ready ∧ s.pending.head? = some fourBytes) ⟨bound_ready, rfl⟩ ?_).2
    intro t e t' hstuck hstep
    obtain ⟨hm, ht⟩ := hstuck
    obtain ⟨_, hpass, rfl⟩ := hstep
    exact ⟨framePass_ready hm hpass, framePass_stuck hm (by decide) ht hpass⟩

end LmListener
