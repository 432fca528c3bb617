import LmListener.FrameQueue

namespace LmListener

open Checked CTypes Latest Runs

variable {dm : DataModel} {s : MainState}

/-- What an output transmits a frame through: the WS arrays, the SPI, or neither. -/
def Output.sink : Output → Option Bool
  | .render _ => some true
  | .writeAll _ _ => some false
  | _ => none

def ShieldFor (pins : Nat → Bool) (isWS : Bool) : Prop :=
  pins PIN_SWITCH_1 = !isWS ∧ pins PIN_SWITCH_2 = !isWS

/-- All low pixels of the frame go to one kind of buffer, the frame is output through that kind,
and the shield is set for it whenever something is transmitted. -/
structure OneOutput (dm : DataModel) (t : Step MainState (World × Pass)) (f : Frame)
    (isWS : Bool) : Prop where
  buffers : ∀ w ∈ f.pixels.writes, w.pixel.index < LED_COUNT_WS → w.isWS = isWS
  branch : ∃ spiOut outputs looping switched,
    outputFrame dm isWS t.event.1.rendered f = .ok (spiOut, outputs, looping) ∧
      t.event.2.outputs = switched ++ outputs
  shield : ∀ before o after b, t.event.2.outputs = before ++ o :: after → o.sink = some b →
    b = isWS ∧ ShieldFor (levelAfter t.before.pins before) isWS

/-- No store of the type listener changes the flag between the load for the switch and load `last`
of the pass. -/
def Steady (t : Step MainState (World × Pass)) (last : Nat) : Prop :=
  ∀ n, 0 < n → n ≤ last → ∀ b ∈ t.event.1.stores n, b = loadOf t.before.isWS t.event.1.stores 0

theorem getLastD_of_forall {α : Type} {xs : List α} {a d : α} (h : ∀ x ∈ xs, x = a) (hd : d = a) :
    xs.getLastD d = a := by
  rcases List.eq_nil_or_concat xs with rfl | ⟨ys, y, rfl⟩
  · exact hd
  · simpa using h y (by simp)

theorem loadOf_steady {isWS : Bool} {stores : Nat → List Bool} {last : Nat}
    (h : ∀ n, 0 < n → n ≤ last → ∀ b ∈ stores n, b = loadOf isWS stores 0) {n : Nat}
    (hn : n ≤ last) : loadOf isWS stores n = loadOf isWS stores 0 := by
  induction n with
  | zero => rfl
  | succ n ih => exact getLastD_of_forall (h (n + 1) (by omega) hn) (ih (by omega))

def OutputsOf (isWS : Bool) (outputs : List Output) : Prop :=
  ∀ o ∈ outputs, (∀ b, o.sink = some b → b = isWS) ∧ level PIN_SWITCH_1 o = none ∧
    level PIN_SWITCH_2 o = none

theorem sendStep_outputs {ledsInChannel : Vector UInt16 6} {k : Nat} {t r : SpiOut × List Output}
    (ht : OutputsOf false t.2) (h : sendStep dm ledsInChannel k t = .ok r) :
    OutputsOf false r.2 := by
  obtain ⟨leds, _, h⟩ := bind_eq_ok.mp h
  split at h
  next => cases h; exact ht
  next =>
    obtain ⟨⟨spiOut, bytes⟩, _, h⟩ := bind_eq_ok.mp h
    cases h
    intro o ho
    simp only [List.mem_append, List.mem_cons, List.not_mem_nil, or_false] at ho
    rcases ho with ho | rfl | rfl
    · exact ht o ho
    · exact ⟨nofun, rfl, rfl⟩
    · exact ⟨fun b hb => (Option.some.inj hb).symm, rfl, rfl⟩

theorem outputFrame_outputs {isWS rendered looping : Bool} {f : Frame} {spiOut : SpiOut}
    {outputs : List Output}
    (h : outputFrame dm isWS rendered f = .ok (spiOut, outputs, looping)) :
    OutputsOf isWS outputs := by
  cases isWS with
  | true =>
    cases h
    intro o ho
    obtain rfl := List.mem_singleton.mp ho
    exact ⟨fun b hb => (Option.some.inj hb).symm, rfl, rfl⟩
  | false =>
    obtain ⟨⟨spiOut', outputs'⟩, hs, h⟩ := bind_eq_ok.mp h
    cases h
    obtain ⟨⟨spiOut', sent⟩, hl, h⟩ := bind_eq_ok.mp hs
    cases h
    have hsent : OutputsOf false sent := forLoop_inv hl (fun _ t => OutputsOf false t.2)
      (by intro o ho; cases ho) fun k t t' _ _ hstep ht => sendStep_outputs ht hstep
    intro o ho
    rcases List.mem_append.mp ho with ho | ho
    · exact hsent o ho
    · obtain rfl := List.mem_singleton.mp ho
      exact ⟨nofun, rfl, rfl⟩

theorem OutputsOf.shield {isWS : Bool} {outputs : List Output} (h : OutputsOf isWS outputs)
    (pins : Nat → Bool) (b : Bool) :
    ShieldFor (levelAfter pins outputs) b ↔ ShieldFor pins b := by
  rw [ShieldFor, levelAfter_of_forall fun o ho => (h o ho).2.1,
    levelAfter_of_forall fun o ho => (h o ho).2.2, ShieldFor]

/-- The invariant of the loop: the shield stands as the switcher last set it. -/
def MainState.Routed (s : MainState) : Prop := ShieldFor s.pins s.gpioSwitcher.m_isWs

theorem switch_sink (s : MainState) (isWS : Bool) : ∀ o ∈ (s.switch isWS).2, o.sink = none := by
  have hout : (s.switch isWS).2 = (s.gpioSwitcher.switchWsOut isWS).2 := rfl
  rw [hout, GpioOutSwitcher.switchWsOut]
  split
  next => exact nofun
  next => simp [Output.sink]

theorem switch_shield (h : s.Routed) (isWS : Bool) :
    (s.switch isWS).1.gpioSwitcher.m_isWs = isWS ∧
      ShieldFor (levelAfter s.pins (s.switch isWS).2) isWS := by
  by_cases he : s.gpioSwitcher.m_isWs = isWS
  · have hsw : s.gpioSwitcher.switchWsOut isWS = (s.gpioSwitcher, []) := if_pos he
    rw [MainState.switch, hsw]
    exact ⟨he, he ▸ h⟩
  · have hsw : s.gpioSwitcher.switchWsOut isWS = (⟨isWS⟩, [.digitalWrite PIN_SWITCH_1 (!isWS),
        .digitalWrite PIN_SWITCH_2 (!isWS), .sleepFor 500000]) := if_neg he
    rw [MainState.switch, hsw]
    exact ⟨rfl, rfl, rfl⟩

theorem start_routed (frameInput : UdpManager) (message : Message) (wsOut : WsOut)
    (spiOut : SpiOut) (pending : List Datagram) :
    (MainState.start frameInput message wsOut spiOut pending).Routed := by
  exact ⟨rfl, rfl⟩

theorem MainState.Routed.switch (h : s.Routed) (isWS : Bool) : (s.switch isWS).1.Routed := by
  obtain ⟨hm, hshield⟩ := switch_shield h isWS
  rw [MainState.Routed, hm]
  exact hshield

theorem framePass_routed {world : World} {p : Pass} (hr : s.Routed)
    (h : framePass dm world s = .ok p) : p.state.Routed := by
  have hsw := hr.switch (loadOf s.isWS world.stores 0)
  obtain ⟨t, received, hrec, ⟨_, rfl⟩ | ⟨n, q, _, hq, rfl⟩⟩ := framePass_cases h
  · obtain ⟨_, _, _, rfl, _⟩ := receiveFrame_cases hrec
    exact hsw
  · obtain ⟨_, _, _, rfl, _⟩ := receiveFrame_cases hrec
    obtain ⟨f, spiOut, outputs, looping, _, ho, rfl⟩ := processFrame_cases hq
    exact ((outputFrame_outputs ho).shield _ _).mpr hsw

theorem transmitted_shield {switched outputs before after : List Output} {o : Output}
    {pins : Nat → Bool} {isWS b : Bool} (hnone : ∀ o ∈ switched, o.sink = none)
    (hshield : ShieldFor (levelAfter pins switched) isWS) (hout : OutputsOf isWS outputs)
    (he : switched ++ outputs = before ++ o :: after) (hb : o.sink = some b) :
    b = isWS ∧ ShieldFor (levelAfter pins before) isWS := by
  rcases List.append_eq_append_iff.mp he with ⟨rest, rfl, rfl⟩ | ⟨rest, hs, hr⟩
  · refine ⟨(hout o (by simp)).1 b hb, ?_⟩
    have hrest : OutputsOf isWS rest := fun o' ho' => hout o' (by simp [ho'])
    rw [levelAfter_append]
    exact (hrest.shield _ _).mpr hshield
  · cases rest with
    | nil =>
      obtain rfl : switched = before := by simpa using hs
      have hmem : o ∈ outputs := by
        rw [List.nil_append] at hr
        simp [← hr]
      exact ⟨(hout o hmem).1 b hb, hshield⟩
    | cons o' rest =>
      obtain ⟨rfl, _⟩ := List.cons.inj hr
      rw [hnone o (by simp [hs])] at hb
      cases hb

theorem framePass_oneOutput {world : World} {p : Pass} {s' : MainState} (hr : s.Routed)
    (h : framePass dm world s = .ok p) {f : Frame} (hf : p.frame = some f)
    (hsteady : Steady ⟨s, (world, p), s'⟩ f.pixels.loads) :
    OneOutput dm ⟨s, (world, p), s'⟩ f (loadOf s.isWS world.stores 0) := by
  obtain ⟨_, hshield⟩ := switch_shield hr (loadOf s.isWS world.stores 0)
  have hnone := switch_sink s (loadOf s.isWS world.stores 0)
  obtain ⟨t, received, hrec, ⟨_, rfl⟩ | ⟨n, q, _, hq, rfl⟩⟩ := framePass_cases h
  · cases hf
  obtain ⟨f', spiOut, outputs, looping, hread, ho, rfl⟩ := processFrame_cases hq
  cases hf
  have hload : ∀ n ≤ f.pixels.loads, loadOf s.isWS world.stores n = loadOf s.isWS world.stores 0 :=
    fun n hn => loadOf_steady hsteady hn
  obtain ⟨hloads, hwrites⟩ := readFrame_writes hread
  rw [hload _ (Nat.le_refl _)] at ho
  refine ⟨?_, ⟨spiOut, outputs, looping, _, ho, rfl⟩, ?_⟩
  · intro w hw hlow
    rw [hwrites] at hw
    obtain ⟨n, hn, rfl⟩ := mem_route.mp hw
    rw [decide_eq_true hlow, Bool.and_true, hload (1 + n) (by omega)]
  · intro before o after b he hb
    exact transmitted_shield hnone hshield (outputFrame_outputs ho) he hb

/-- In every run each frame has one output, as long as no store of the type listener changes the
flag between the load for the switch and the load that selects the output of that frame. -/
theorem frame_has_one_output {frameInput : UdpManager} {message : Message} {wsOut : WsOut}
    {spiOut : SpiOut} {pending : List Datagram} {steps : List (Step MainState (World × Pass))}
    (h : Run (PassStep dm) (MainState.start frameInput message wsOut spiOut pending) steps s) :
    ∀ t ∈ steps, ∀ f, t.event.2.frame = some f →
      (∀ n, 0 < n → n ≤ f.pixels.loads → ∀ b ∈ t.event.1.stores n,
        b = loadOf t.before.isWS t.event.1.stores 0) →
      ∃ isWS, OneOutput dm t f isWS := by
  intro t ht f hf hsteady
  obtain ⟨hr, _, hpass, _⟩ := h.step_inv MainState.Routed
    (start_routed frameInput message wsOut spiOut pending)
    (fun s e s' hr ⟨_, hpass, he⟩ => he ▸ framePass_routed hr hpass) t ht
  exact ⟨_, framePass_oneOutput hr hpass hf hsteady⟩

def quiet : World := ⟨fun _ => [], true, []⟩

theorem frame_has_one_output_quiet :
    ∃ p f, framePass lp64 quiet (waiting [oneLed]) = .ok p ∧ p.frame = some f ∧
      ∃ isWS, OneOutput lp64 ⟨waiting [oneLed], (quiet, p), p.state⟩ f isWS := by
  obtain ⟨p, f, hp, hf⟩ := oneLed_pass [] quiet
  have hrun : Run (PassStep lp64) (waiting [oneLed])
      ([] ++ [⟨waiting [oneLed], (quiet, p), p.state⟩]) p.state := Run.nil.snoc ⟨rfl, hp, rfl⟩
  exact ⟨p, f, hp, hf, frame_has_one_output hrun _ (by simp) f hf (by simp [quiet])⟩

def flips : World := ⟨fun n => if n = 0 then [] else [false], true, []⟩

theorem loadOf_flips (isWS : Bool) (n : Nat) : loadOf isWS flips.stores (n + 1) = false := by
  simp [loadOf, flips]

/-- The frame goes out through the SPI while the shield still stands for WS. -/
theorem frame_split_by_flip :
    ∃ p f, framePass lp64 flips (waiting [oneLed]) = .ok p ∧ p.frame = some f ∧
      ¬∃ isWS, OneOutput lp64 ⟨waiting [oneLed], (flips, p), p.state⟩ f isWS := by
  obtain ⟨p, f, hp, hf⟩ := oneLed_pass [] flips
  refine ⟨p, f, hp, hf, ?_⟩
  intro hex
  obtain ⟨isWS, hone⟩ := hex
  have hpending : (waiting [oneLed]).pending = [oneLed] := rfl
  obtain ⟨f', spiOut, outputs, looping, hread, ho, hf', _, hout, _⟩ :=
    framePass_frame bound_ready hpending (by decide) (by decide) hp
  obtain rfl : f = f' := Option.some.inj (hf.symm.trans hf')
  have hready := (listening_ready (Vector.replicate _ 0) [oneLed]).of_shape
    (readFrame_reflects (listening_ready (Vector.replicate _ 0) [oneLed]) hread).shape
  obtain ⟨_, _, _, hch, hl⟩ := readFrame_headerEnds oneLed_headerEnds hread
  have hone_led : f.header.leds 0 = 1 := (hl 0 (by decide)).trans (by decide)
  rw [(readFrame_writes hread).1, Nat.add_comm, loadOf_flips] at ho
  obtain ⟨hws, _⟩ | ⟨_, _, _, _, rfl⟩ := outputFrame_cases hready ho
  · cases hws
  have hsent : transmissions f.pixels.spiOut f.header.leds f.header.channels =
      transmission f.pixels.spiOut 0 1 := by
    rw [hch, show min 1 MAX_CHANNELS = 0 + 1 by decide, transmissions_succ, hone_led]
    rfl
  obtain ⟨rfl, hshield, _⟩ := hone.shield [.digitalWrite PIN_SWITCH_SPI true] _ [.sleepFor _] false
    (hout.trans (by rw [hsent]; rfl)) rfl
  have hlow : levelAfter (waiting [oneLed]).pins [.digitalWrite PIN_SWITCH_SPI true] PIN_SWITCH_1 =
      false := rfl
  exact absurd (hlow.symm.trans hshield) (by decide)

end LmListener
