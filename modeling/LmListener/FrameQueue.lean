import LmListener.SpiRange

namespace LmListener

open Checked CTypes Runs

variable {dm : DataModel} {world : World} {s : MainState} {p : Pass}

/-- A datagram the frame loop can take: longer than a header, no longer than its buffer. -/
def Datagram.Takeable (d : Datagram) : Prop :=
  4 < d.bytes.length ∧ d.bytes.length ≤ MAX_SENDBUFFER_SIZE

theorem framePass_pending (h : framePass dm world s = .ok p) :
    ∃ t received, receiveFrame dm (s.switch (loadOf s.isWS world.stores 0)).1 = .ok (t, received) ∧
      p.state.pending = t.pending ++ world.arrivals ∧ p.state.frameInput = t.frameInput := by
  obtain ⟨t, received, hr, ⟨_, rfl⟩ | ⟨n, q, _, hq, rfl⟩⟩ := framePass_cases h
  · exact ⟨t, received, hr, rfl, rfl⟩
  · obtain ⟨f, spiOut, outputs, looping, _, _, rfl⟩ := processFrame_cases hq
    exact ⟨t, received, hr, rfl, rfl⟩

theorem framePass_ready (hm : s.frameInput.Ready) (h : framePass dm world s = .ok p) :
    p.state.frameInput.Ready := by
  obtain ⟨t, received, hr, _, hf⟩ := framePass_pending h
  obtain ⟨_, _, _, rfl, hready⟩ := receiveFrame_cases hr
  rw [hf]
  exact hready hm

theorem framePass_takes (hm : s.frameInput.Ready) {d : Datagram} {rest : List Datagram}
    (hp : s.pending = d :: rest) (hd : d.Takeable) (h : framePass dm world s = .ok p) :
    p.state.pending = rest ++ world.arrivals := by
  obtain ⟨t, received, hr, hpend, _⟩ := framePass_pending h
  obtain ⟨frameInput, _, htakes⟩ := receiveFrame_takes
    (s := (s.switch (loadOf s.isWS world.stores 0)).1) hm dm hp hd.1 hd.2
  rw [htakes] at hr
  cases hr
  rw [hpend]

theorem framePass_stuck (hm : s.frameInput.Ready) {d : Datagram} (hd : d.bytes.length ≤ 4)
    (hp : s.pending.head? = some d) (h : framePass dm world s = .ok p) :
    p.state.pending.head? = some d := by
  obtain ⟨t, received, hr, hpend, _⟩ := framePass_pending h
  have hleaves := receiveFrame_leaves
    (s := (s.switch (loadOf s.isWS world.stores 0)).1) hm dm
    (fun d' (hd' : s.pending.head? = some d') => by
      rw [hp] at hd'
      cases hd'
      exact hd)
  rw [hleaves] at hr
  cases hr
  rw [hpend]
  obtain ⟨rest, hp⟩ := List.head?_eq_some_iff.mp hp
  rw [show (s.switch (loadOf s.isWS world.stores 0)).1.pending = d :: rest from hp]
  rfl

theorem run_ready {start : MainState} (hm : start.frameInput.Ready)
    {steps : List (Step MainState (World × Pass))} (h : Run (PassStep dm) start steps s) :
    s.frameInput.Ready :=
  h.inv (fun s => s.frameInput.Ready) hm fun _ _ _ hr hstep => by
    obtain ⟨_, hpass, rfl⟩ := hstep
    exact framePass_ready hr hpass

/-- The run lemma: passes over datagrams that can be taken take one each. -/
theorem run_takes {start : MainState} (hm : start.frameInput.Ready)
    {steps : List (Step MainState (World × Pass))} (h : Run (PassStep dm) start steps s) :
    ∀ before after, start.pending = before ++ after → steps.length = before.length →
      (∀ d ∈ before, d.Takeable) → ∃ arrived, s.pending = after ++ arrived := by
  induction h with
  | nil =>
    intro before after hp hn _
    have hnil : before = [] := List.length_eq_zero_iff.mp hn.symm
    exact ⟨[], by simpa [hnil] using hp⟩
  | snoc hrun hstep ih =>
    intro before after hp hn hall
    obtain ⟨_, hpass, rfl⟩ := hstep
    rcases List.eq_nil_or_concat before with rfl | ⟨first, d, rfl⟩
    · simp at hn
    · obtain ⟨arrived, ha⟩ := ih first (d :: after) (by simpa using hp) (by simpa using hn)
        (fun d' hd' => hall d' (by simp [hd']))
      exact ⟨_, (framePass_takes (run_ready hm hrun) ha (hall d (by simp)) hpass).trans
        (List.append_assoc _ _ _)⟩

def oneLed : Datagram := ⟨frameBytes [1] [9, 8, 7], default, by decide⟩

def waiting (pending : List Datagram) : MainState := listening (Vector.replicate _ 0) pending

theorem oneLed_headerEnds :
    HeaderEnds (overlay (Vector.replicate _ 0) oneLed.bytes) (oneLed.bytes.length - 1) 1 := by
  have hmax : (frameBytes [1] [9, 8, 7]).length ≤ MAX_SENDBUFFER_SIZE := by decide
  exact frame_headerEnds hmax (Vector.replicate _ 0)

theorem oneLed_pass (rest : List Datagram) (world : World) :
    ∃ p f, framePass lp64 world (waiting (oneLed :: rest)) = .ok p ∧ p.frame = some f := by
  have hcount : ∀ k < min 1 MAX_CHANNELS,
      (countAt (overlay (Vector.replicate _ 0) oneLed.bytes) k).toNat ≤ LED_COUNT_SPI := by decide
  have hpending : (waiting (oneLed :: rest)).pending = oneLed :: rest := rfl
  exact framePass_ok_of_counts lp64 world bound_ready (listening_ready _ _) hpending (by decide)
    (by decide) oneLed_headerEnds (by decide) hcount

end LmListener
