import LmListener.FrameSafety
import LmListener.Router

namespace LmListener

open Checked CTypes Runs

section

variable {isWS isWS' : Nat → Bool} (hloads : ∀ n, isWS' (n + 1) = isWS (n + 1)) (a : Announced)

include hloads

theorem Announced.spiWritten_congr (k m : Nat) :
    a.SpiWritten isWS' k m ↔ a.SpiWritten isWS k m := by
  unfold Announced.SpiWritten LmListener.SpiWritten
  rw [Nat.add_comm 1, hloads]

theorem Announced.wsWritten_congr (k m : Nat) : a.WsWritten isWS' k m ↔ a.WsWritten isWS k m := by
  unfold Announced.WsWritten LmListener.WsWritten
  rw [Nat.add_comm 1, hloads]

theorem Announced.outputLoad_congr : isWS' a.outputLoad = isWS a.outputLoad := by
  rw [Announced.outputLoad, Nat.add_comm 1, hloads]

end

/-- An LED that a frame has a colour for lies before its end frames. -/
theorem Announced.SpiWritten.not_ended {a : Announced} {isWS : Nat → Bool} {k m : Nat}
    (h : a.SpiWritten isWS k m) : ¬a.Ended k m := by
  obtain ⟨⟨⟨_, hlt⟩, _⟩, _⟩ := h
  intro hended
  obtain ⟨_, _, hle, _⟩ := hended
  omega

namespace Router

variable {r r' : Router} {isWS isWS' : Nat → Bool} {bytes : List UInt8}

theorem output_led (r : Router) (isWS : Bool) (bytes : List UInt8) (k m : Nat) :
    (r.output isWS bytes).1.led k m =
      if isWS = false ∧ (announced bytes).Ended k m then endFrame else r.led k m := by
  cases isWS with
  | true => exact (if_neg fun h => absurd h.1 (by decide)).symm
  | false => exact if_congr (and_iff_right rfl).symm rfl rfl

/-- A frame whose colours the LEDs have already writes nothing new. -/
theorem write_eq_self
    (hws : ∀ k < MAX_CHANNELS, ∀ m < LED_COUNT_WS, (announced bytes).WsWritten isWS k m →
      wsLed r.wsOut k m =
        payloadWsColour (ownPayload bytes) (chanOffset (announced bytes).leds k + m))
    (hled : ∀ k m, (announced bytes).SpiWritten isWS k m →
      r.led k m = payloadColour (ownPayload bytes) (chanOffset (announced bytes).leds k + m)) :
    r.write isWS bytes = r := by
  apply Router.ext
  · rfl
  · rfl
  · apply wsOut_ext
    intro k hk m hm
    rw [write_wsLed r isWS bytes hk hm]
    split
    next hw => exact (hws k hk m hm hw).symm
    next => rfl
  · funext k m
    refine ite_eq_right_iff.mpr fun hw => ?_
    exact (hled k m hw).symm

theorem output_eq_self {isWS : Bool}
    (hended : isWS = false → ∀ k m, (announced bytes).Ended k m → r.led k m = endFrame) :
    (r.output isWS bytes).1 = r := by
  cases isWS with
  | true => rfl
  | false =>
    apply Router.ext
    · rfl
    · rfl
    · rfl
    · funext k m
      refine ite_eq_right_iff.mpr fun he => ?_
      exact (hended rfl k m he).symm

/-- What is put out depends on the LEDs that are sent, and not on those behind them. -/
theorem output_congr (isWS : Bool) (hfd : r.fd = r'.fd) (hws : r.wsOut = r'.wsOut)
    (hled : ∀ k < (announced bytes).chanCntr, ∀ m < (announced bytes).leds k,
      r.led k m = r'.led k m) : (r.output isWS bytes).2 = (r'.output isWS bytes).2 := by
  cases isWS with
  | true => exact congrArg (fun wsOut => [Output.render wsOut]) hws
  | false =>
    refine congrArg (· ++ [Output.sleepFor (longestChannel bytes)]) ?_
    apply List.flatMap_congr
    intro k hk
    have hwords : (List.range ((announced bytes).leds k)).map (r.led k) =
        (List.range ((announced bytes).leds k)).map (r'.led k) :=
      List.map_congr_left fun m hm => hled k (List.mem_range.mp hk) m (List.mem_range.mp hm)
    rw [hwords, hfd]

/-- A frame once more, with the same values of the flag in its pixel loop and its output: the same
output, and nothing changes. -/
theorem frame_again (r : Router) (gpioSwitcher : GpioOutSwitcher) (bytes : List UInt8)
    (hloads : ∀ n, isWS' (n + 1) = isWS (n + 1)) :
    ((r.frame isWS bytes).1.turn gpioSwitcher).frame isWS' bytes =
      ((r.frame isWS bytes).1.turn gpioSwitcher, (r.frame isWS bytes).2) := by
  let load := isWS (announced bytes).outputLoad
  let again := (r.frame isWS bytes).1.turn gpioSwitcher
  obtain ⟨hfd, _, hwsOut⟩ := (r.write isWS bytes).output_kept load bytes
  have hwsLed : ∀ k m, wsLed again.wsOut k m = wsLed (r.write isWS bytes).wsOut k m := by
    intro k m
    exact congrArg (wsLed · k m) hwsOut
  have hled : ∀ k m, again.led k m = if load = false ∧ (announced bytes).Ended k m then endFrame
      else (r.write isWS bytes).led k m := output_led (r.write isWS bytes) load bytes
  have hwrite : again.write isWS' bytes = again := by
    apply write_eq_self
    · intro k hk m hm hw
      rw [hwsLed, write_wsLed r isWS bytes hk hm]
      exact if_pos ((Announced.wsWritten_congr hloads _ k m).mp hw)
    · intro k m hw
      have hw' := (Announced.spiWritten_congr hloads _ k m).mp hw
      rw [hled, if_neg fun he => hw'.not_ended he.2]
      exact if_pos hw'
  have hload : isWS' (announced bytes).outputLoad = load := Announced.outputLoad_congr hloads _
  have hframe : again.frame isWS' bytes = again.output load bytes := by
    rw [Router.frame, hwrite, hload]
  rw [hframe]
  apply Prod.ext
  · apply output_eq_self
    intro hspi k m he
    rw [hled, if_pos ⟨hspi, he⟩]
  · apply output_congr
    · exact hfd
    · exact hwsOut
    · intro k _ m hm
      rw [hled]
      exact if_neg fun he => absurd he.2.2.2.1 (by omega)

end Router

section

variable {dm : DataModel} {r : Router}

/-- Passes that take no datagram leave the LEDs alone. -/
theorem run_idle {start s : MainState} (hr : Follows start r)
    {steps : List (Step MainState (World × Pass))} (h : Run (PassStep dm) start steps s)
    (hterm : ∀ t ∈ steps, ∀ d, t.before.pending.head? = some d → 4 < d.bytes.length →
      Terminated d.bytes) (hidle : ∀ t ∈ steps, takenIn t = none) :
    ∃ gpioSwitcher, Follows s (r.turn gpioSwitcher) := by
  refine (h.inv_steps (fun s => ∃ gpioSwitcher, Follows s (r.turn gpioSwitcher))
    ⟨r.gpioSwitcher, hr⟩ ?_).1
  intro t ht hbefore hstep
  obtain ⟨gpioSwitcher, hbefore⟩ := hbefore
  obtain ⟨hafter, _⟩ := hbefore.step hstep (hterm t ht)
  rw [Router.pass_idle _ (hidle t ht)] at hafter
  exact ⟨_, hafter⟩

/-- The second pass puts out what the first did, but for the switch to its mode, and leaves the
LEDs as they are. -/
def Repeats (t t' : Step MainState (World × Pass)) : Prop :=
  (∃ outputs,
    t.event.2.outputs =
      (t.before.switch (loadOf t.before.isWS t.event.1.stores 0)).2 ++ outputs ∧
    t'.event.2.outputs =
      (t'.before.switch (loadOf t'.before.isWS t'.event.1.stores 0)).2 ++ outputs) ∧
    t'.after.wsOut = t.after.wsOut ∧
    ∀ k m, m < LED_COUNT_SPI → t'.after.spiOut.word k (m + 1) = t.after.spiOut.word k (m + 1)

theorem Follows.repeats {t t' : Step MainState (World × Pass)} {gpioSwitcher : GpioOutSwitcher}
    {d d' : Datagram} (hr : Follows t.before r)
    (hafter : Follows t.after (r.pass (routerInput t)).1)
    (houtputs : t.event.2.outputs = (r.pass (routerInput t)).2)
    (hr' : Follows t'.before ((r.pass (routerInput t)).1.turn gpioSwitcher))
    (hstep' : PassStep dm t'.before t'.event t'.after)
    (hterm' : ∀ d, t'.before.pending.head? = some d → 4 < d.bytes.length → Terminated d.bytes)
    (hd : takenIn t = some d) (hd' : takenIn t' = some d') (hsame : d'.bytes = d.bytes)
    (hloads : ∀ n, loadOf t'.before.isWS t'.event.1.stores (n + 1) =
      loadOf t.before.isWS t.event.1.stores (n + 1)) : Repeats t t' := by
  have hpass := r.pass_taken hd
  have hagain := fun gpioSwitcher =>
    (r.switch (loadOf t.before.isWS t.event.1.stores 0)).1.frame_again gpioSwitcher d.bytes hloads
  generalize (r.switch (loadOf t.before.isWS t.event.1.stores 0)).1.frame
    (loadOf t.before.isWS t.event.1.stores) d.bytes = sent at hpass hagain
  rw [hpass] at hafter houtputs hr'
  obtain ⟨hafter', houtputs'⟩ := hr'.step hstep' hterm'
  have hswitched := hr'.switched (loadOf t'.before.isWS t'.event.1.stores 0)
  have hpass' := (sent.1.turn gpioSwitcher).pass_taken hd'
  have hframe :
      ((sent.1.turn gpioSwitcher).switch (loadOf t'.before.isWS t'.event.1.stores 0)).1.frame
        (loadOf t'.before.isWS t'.event.1.stores) d.bytes = (sent.1.turn _, sent.2) := hagain _
  rw [hsame, hframe, hswitched] at hpass'
  rw [hpass'] at hafter' houtputs'
  refine ⟨⟨sent.2, ?_, houtputs'⟩, ?_, fun k m hlt => ?_⟩
  · rw [houtputs, hr.switched]
  · exact hafter'.knows.wsOut.symm.trans hafter.knows.wsOut
  · exact (hafter'.knows.led k m hlt).symm.trans (hafter.knows.led k m hlt)

end

/-- A datagram that comes twice is harmless. In every run over terminated datagrams, a pass over a
datagram with the bytes of the one taken last repeats the pass over that, if it loads the flag as
that pass did. -/
theorem duplicates_repeat {dm : DataModel} {s : MainState} {frameInput : UdpManager}
    (hm : frameInput.Ready) {message : Message} {wsOut : WsOut} {fd : Int32}
    {content₁ content₂ : Nat → Sk9822Color} {pending : List Datagram}
    {steps : List (Step MainState (World × Pass))}
    (h : Run (PassStep dm) (MainState.start frameInput message wsOut
      (spiSetup dm ⟨fd, []⟩ (some content₁) (some content₂)) pending) steps s)
    (hterm : ∀ t ∈ steps, ∀ d, t.before.pending.head? = some d → 4 < d.bytes.length →
      Terminated d.bytes) {earlier between later : List (Step MainState (World × Pass))}
    {t t' : Step MainState (World × Pass)} (he : steps = earlier ++ t :: (between ++ t' :: later))
    {d d' : Datagram} (hd : takenIn t = some d) (hidle : ∀ u ∈ between, takenIn u = none)
    (hd' : takenIn t' = some d') (hsame : d'.bytes = d.bytes)
    (hloads : ∀ n, loadOf t'.before.isWS t'.event.1.stores (n + 1) =
      loadOf t.before.isWS t.event.1.stores (n + 1)) : Repeats t t' := by
  subst he
  have hstart := start_follows hm dm message wsOut fd content₁ content₂ pending
  obtain ⟨hearlier, hstep⟩ := h.split _ _ _ rfl
  obtain ⟨hbetween, hstep'⟩ := h.after.2.split _ _ _ rfl
  obtain ⟨hbefore, _⟩ := run_follows hstart hearlier fun u hu => hterm u (by simp [hu])
  obtain ⟨hafter, houtputs⟩ := hbefore.step hstep (hterm t (by simp))
  obtain ⟨gpioSwitcher, hbefore'⟩ :=
    run_idle hafter hbetween (fun u hu => hterm u (by simp [hu])) hidle
  exact hbefore.repeats hafter houtputs hbefore' hstep' (hterm t' (by simp)) hd hd' hsame hloads

theorem duplicates_repeat_one : ∃ p p', framePass lp64 toSpi (waiting [oneLed, oneLed]) = .ok p ∧
    framePass lp64 toSpi p.state = .ok p' ∧
    Repeats ⟨waiting [oneLed, oneLed], (toSpi, p), p.state⟩ ⟨p.state, (toSpi, p'), p'.state⟩ := by
  obtain ⟨p, _, hp, _⟩ := oneLed_pass [oneLed] toSpi
  have hpending : p.state.pending = [oneLed] := framePass_takes bound_ready rfl (by decide) hp
  have hhead : p.state.pending.head? = some oneLed := by
    rw [hpending]
    rfl
  have hlooping : p.state.looping = true := by
    by_contra hstop
    have hfail := (framePass_looping hp rfl).mp (Bool.eq_false_of_not_eq_true hstop)
    exact absurd hfail.2 (by decide)
  have hsafe : oneLed.Safe := by decide
  obtain ⟨p', hp'⟩ := hsafe.pass lp64 toSpi (framePass_ready bound_ready hp)
    (framePass_spiReady (listening_ready _ _) hp) hhead
  let t : Step MainState (World × Pass) := ⟨waiting [oneLed, oneLed], (toSpi, p), p.state⟩
  let t' : Step MainState (World × Pass) := ⟨p.state, (toSpi, p'), p'.state⟩
  have hrun : Run (PassStep lp64) (waiting [oneLed, oneLed]) ([] ++ [t] ++ [t']) p'.state :=
    (Run.nil.snoc ⟨rfl, hp, rfl⟩).snoc ⟨hlooping, hp', rfl⟩
  have hsplit : [] ++ [t] ++ [t'] = [] ++ t :: ([] ++ t' :: []) := rfl
  have hidle : ∀ u ∈ ([] : List (Step MainState (World × Pass))), takenIn u = none :=
    List.forall_mem_nil _
  have hloads : ∀ n, loadOf p.state.isWS toSpi.stores (n + 1) =
      loadOf (waiting [oneLed, oneLed]).isWS toSpi.stores (n + 1) :=
    fun n => (loadOf_toSpi _ _).trans (loadOf_toSpi _ _).symm
  refine ⟨p, p', hp, hp', duplicates_repeat bound_ready hrun ?_ hsplit
    (takenIn_eq_some rfl (by decide)) hidle (takenIn_eq_some hhead (by decide)) rfl hloads⟩
  have hterm : Terminated oneLed.bytes := by decide
  intro u hu d hd _
  obtain rfl | rfl : u = t ∨ u = t' := by simpa using hu
  · obtain rfl : oneLed = d := Option.some.inj hd
    exact hterm
  · obtain rfl : oneLed = d := Option.some.inj (hhead.symm.trans hd)
    exact hterm

end LmListener
