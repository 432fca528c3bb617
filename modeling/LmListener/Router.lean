import LmListener.FrameOrder
import LmListener.FlagHistory
import LmListener.PlainFrame

namespace LmListener

open Checked CTypes Runs

/-- What a datagram has behind its header. -/
def ownPayload (bytes : List UInt8) : List UInt8 := bytes.drop (firstStop bytes / 2 * 2 + 2)

def longest (leds : Nat → Nat) (chanCntr : Nat) : Nat :=
  ((List.range chanCntr).map leds).foldl max 0

/-- The largest count of a header, those behind the second included. -/
def longestChannel (bytes : List UInt8) : Nat :=
  longest (fun k => (ownCount bytes k).toNat) (firstStop bytes / 2)

def Announced.WsWritten (a : Announced) (isWS : Nat → Bool) (k m : Nat) : Prop :=
  LmListener.WsWritten isWS a.leds a.chanCntr a.totalLedsNum k m

instance (a : Announced) (isWS : Nat → Bool) (k m : Nat) : Decidable (a.WsWritten isWS k m) :=
  inferInstanceAs (Decidable (LmListener.WsWritten ..))

/-- What one pass of the frame loop takes from outside: a datagram and the values of the flag. -/
structure RouterInput where
  taken : Option Datagram
  isWS : Nat → Bool

/-- The frame loop without its buffers: it knows the LEDs, and no byte of an old datagram. -/
@[ext] structure Router where
  fd : Int32
  gpioSwitcher : GpioOutSwitcher
  wsOut : WsOut
  led : Nat → Nat → Sk9822Color

def Router.write (r : Router) (isWS : Nat → Bool) (bytes : List UInt8) : Router :=
  let a := announced bytes
  let payload := ownPayload bytes
  { r with
    wsOut := Vector.ofFn fun k => Vector.ofFn fun m =>
      if a.WsWritten isWS k m then payloadWsColour payload (chanOffset a.leds k + m)
      else wsLed r.wsOut k m
    led k m :=
      if a.SpiWritten isWS k m then payloadColour payload (chanOffset a.leds k + m)
      else r.led k m }

/-- The end frames of a channel overwrite the LEDs behind those that are sent. -/
def Router.output (r : Router) (isWS : Bool) (bytes : List UInt8) : Router × List Output :=
  let a := announced bytes
  if isWS then (r, [.render r.wsOut])
  else
    ({ r with led k m := if a.Ended k m then endFrame else r.led k m },
      ((List.range a.chanCntr).flatMap fun k =>
        if a.leds k = 0 then []
        else [.digitalWrite PIN_SWITCH_SPI (k == 0),
          .writeAll r.fd (stream ((List.range (a.leds k)).map (r.led k)))]) ++
        [.sleepFor (longestChannel bytes)])

def Router.frame (r : Router) (isWS : Nat → Bool) (bytes : List UInt8) : Router × List Output :=
  (r.write isWS bytes).output (isWS (announced bytes).outputLoad) bytes

def Router.turn (r : Router) (gpioSwitcher : GpioOutSwitcher) : Router := { r with gpioSwitcher }

def Router.switch (r : Router) (isWS : Bool) : Router × List Output :=
  let (gpioSwitcher, outputs) := r.gpioSwitcher.switchWsOut isWS
  (r.turn gpioSwitcher, outputs)

def Router.pass (r : Router) (input : RouterInput) : Router × List Output :=
  let (r, switched) := r.switch (input.isWS 0)
  match input.taken with
  | none => (r, switched)
  | some d =>
    let (r, outputs) := r.frame input.isWS d.bytes
    (r, switched ++ outputs)

theorem wsOut_ext {wsOut wsOut' : WsOut}
    (h : ∀ k < MAX_CHANNELS, ∀ m < LED_COUNT_WS, wsLed wsOut k m = wsLed wsOut' k m) :
    wsOut = wsOut' := by
  apply Vector.ext
  intro k hk
  apply Vector.ext
  intro m hm
  have hcell : ∀ leds : WsOut, leds[k][m] = wsLed leds k m := by
    intro leds
    simp [wsLed, cell, hk, hm]
  rw [hcell, hcell]
  exact h k hk m hm

theorem Router.write_wsLed (r : Router) (isWS : Nat → Bool) (bytes : List UInt8) {k m : Nat}
    (hk : k < MAX_CHANNELS) (hm : m < LED_COUNT_WS) :
    wsLed (r.write isWS bytes).wsOut k m =
      if (announced bytes).WsWritten isWS k m
      then payloadWsColour (ownPayload bytes) (chanOffset (announced bytes).leds k + m)
      else wsLed r.wsOut k m := by
  simp [wsLed, cell, Router.write, hk, hm]

theorem Router.output_kept (r : Router) (isWS : Bool) (bytes : List UInt8) :
    (r.output isWS bytes).1.fd = r.fd ∧ (r.output isWS bytes).1.gpioSwitcher = r.gpioSwitcher ∧
      (r.output isWS bytes).1.wsOut = r.wsOut := by
  cases isWS with
  | true => exact ⟨rfl, rfl, rfl⟩
  | false => exact ⟨rfl, rfl, rfl⟩

def routerInput (t : Step MainState (World × Pass)) : RouterInput :=
  ⟨takenIn t, loadOf t.before.isWS t.event.1.stores⟩

theorem Router.pass_idle (r : Router) {t : Step MainState (World × Pass)}
    (h : takenIn t = none) :
    r.pass (routerInput t) = r.switch (loadOf t.before.isWS t.event.1.stores 0) := by
  rw [routerInput, h]
  rfl

theorem Router.pass_taken (r : Router) {t : Step MainState (World × Pass)} {d : Datagram}
    (h : takenIn t = some d) :
    r.pass (routerInput t) =
      (((r.switch (loadOf t.before.isWS t.event.1.stores 0)).1.frame
          (loadOf t.before.isWS t.event.1.stores) d.bytes).1,
        (r.switch (loadOf t.before.isWS t.event.1.stores 0)).2 ++
          ((r.switch (loadOf t.before.isWS t.event.1.stores 0)).1.frame
            (loadOf t.before.isWS t.event.1.stores) d.bytes).2) := by
  rw [routerInput, h]
  rfl

/-- The router knows what the buffers of the frame loop have in the words of their LEDs. -/
structure Router.Knows (r : Router) (wsOut : WsOut) (spiOut : SpiOut) : Prop where
  fd : r.fd = spiOut.fd
  wsOut : r.wsOut = wsOut
  led : ∀ k m, m < LED_COUNT_SPI → r.led k m = spiOut.word k (m + 1)

structure Follows (s : MainState) (r : Router) : Prop where
  manager : s.frameInput.Ready
  ready : s.spiOut.Ready
  gpioSwitcher : r.gpioSwitcher = s.gpioSwitcher
  knows : r.Knows s.wsOut s.spiOut

theorem maxLeds_eq_max (maxLedsInChan : Nat) (leds : UInt16) :
    maxLeds maxLedsInChan leds = max maxLedsInChan leds.toNat := by
  unfold maxLeds
  split <;> omega

theorem longest_succ (leds : Nat → Nat) (k : Nat) :
    longest leds (k + 1) = max (longest leds k) (leds k) := by
  rw [longest, List.range_succ, List.map_append, List.foldl_append]
  rfl

theorem longest_congr {leds leds' : Nat → Nat} {chanCntr : Nat}
    (h : ∀ k < chanCntr, leds k = leds' k) : longest leds chanCntr = longest leds' chanCntr := by
  have hmap : (List.range chanCntr).map leds = (List.range chanCntr).map leds' :=
    List.map_congr_left fun k hk => h k (List.mem_range.mp hk)
  rw [longest, longest, hmap]

/-- Each pass of the header loop keeps the largest count so far. -/
theorem headerLoop_longest {message : Message} {left : Nat} {h h' : Header}
    (ho : headerLoop message left h = .ok h')
    (hmax : h.maxLedsInChan = longest (fun k => (countAt message k).toNat) h.chanCntr) :
    h'.maxLedsInChan = longest (fun k => (countAt message k).toNat) h'.chanCntr := by
  induction left generalizing h with
  | zero =>
    cases ho
    exact hmax
  | succ left ih =>
    obtain ⟨lo, hlo, ho⟩ := bind_eq_ok.mp ho
    obtain ⟨_, rfl⟩ := loadAt_eq_ok_iff.mp hlo
    split at ho
    next =>
      cases ho
      exact hmax
    next =>
      obtain ⟨hi, hhi, ho⟩ := bind_eq_ok.mp ho
      obtain ⟨_, rfl⟩ := loadAt_eq_ok_iff.mp hhi
      split at ho
      next =>
        cases ho
        exact hmax
      next =>
        obtain ⟨ledsInChannel, _, ho⟩ := bind_eq_ok.mp ho
        apply ih ho
        rw [maxLeds_eq_max, hmax, longest_succ]
        rfl

section

variable {bytes : List UInt8} (hmax : bytes.length ≤ MAX_SENDBUFFER_SIZE)
  (hterm : Terminated bytes) (old : Message)

include hmax hterm

theorem pixelAt_own (k off : Nat) {i : Nat} (hi : i < (announced bytes).totalLedsNum) :
    (pixelAt (overlay old bytes) (firstStop bytes / 2 * 2 + 2) k off i).spiColour =
        payloadColour (ownPayload bytes) i ∧
      (pixelAt (overlay old bytes) (firstStop bytes / 2 * 2 + 2) k off i).wsColour =
        payloadWsColour (ownPayload bytes) i := by
  have hinside := hterm.2
  have hi' : i < (bytes.length - (firstStop bytes / 2 * 2 + 2)) / 3 := hi
  have hcell : ∀ n < 3, cell (overlay old bytes) (firstStop bytes / 2 * 2 + 2 + (i * 3 + n)) =
      (ownPayload bytes).getD (i * 3 + n) 0 := by
    intro n hn
    rw [cell_own hmax old (by omega), ownPayload, List.getD_eq_getElem?_getD,
      List.getD_eq_getElem?_getD, List.getElem?_drop]
  simp only [Pixel.spiColour, Pixel.wsColour, pixelAt, payloadColour, hcell 0 (by omega),
    hcell 1 (by omega), hcell 2 (by omega)]
  exact ⟨rfl, rfl⟩

variable {dm : DataModel} {isWS : Nat → Bool} {ledsInChannel : Vector UInt16 6} {wsOut : WsOut}
  {spiOut : SpiOut} {f : Frame}
  (h : readFrame dm isWS (overlay old bytes) bytes.length ledsInChannel wsOut spiOut = .ok f)

include h

/-- What the header of a terminated datagram says of its frame. -/
theorem readFrame_announced :
    f.header.headerByteOffset = firstStop bytes / 2 * 2 + 2 ∧
      f.header.channels = (announced bytes).chanCntr ∧
      totalLedsNum dm bytes.length (firstStop bytes / 2 * 2 + 2) = (announced bytes).totalLedsNum ∧
      (∀ k < (announced bytes).chanCntr, f.header.leds k = (announced bytes).leds k) ∧
      f.header.maxLedsInChan = longestChannel bytes ∧
      f.pixels.loads = (announced bytes).outputLoad := by
  obtain ⟨hstop, hinside⟩ := hterm
  obtain ⟨_, hcntr, hoff, hch, hl⟩ := readFrame_headerEnds (own_headerEnds hmax old hstop) h
  have hleds : ∀ k < (announced bytes).chanCntr, f.header.leds k = (announced bytes).leds k := by
    intro k hk
    simp only [announced] at hk ⊢
    rw [hl k (by omega), countAt_own hmax old (by omega)]
  have htotal : totalLedsNum dm bytes.length (firstStop bytes / 2 * 2 + 2) =
      (announced bytes).totalLedsNum := totalLedsNum_of_le hinside hmax
  refine ⟨hoff, hch, htotal, hleds, ?_, ?_⟩
  · rw [headerLoop_longest (readFrame_writePixels h).1 rfl, hcntr, longestChannel]
    exact longest_congr fun k hk => by rw [countAt_own hmax old (by omega)]
  · have hoffset := chanOffset_congr hleds
    rw [(readFrame_writes h).1, Header.pixels, length_framePixels, hoff, hch, htotal,
      Announced.outputLoad, ← hoffset]
    rfl

/-- The LEDs after a frame, from the bytes of its datagram alone. -/
theorem readFrame_spiLed (hready : spiOut.Ready) (k : Nat) {m : Nat} (hm : m ≤ LED_COUNT_SPI) :
    f.pixels.spiOut.word k (m + 1) =
      if (announced bytes).SpiWritten isWS k m
      then payloadColour (ownPayload bytes) (chanOffset (announced bytes).leds k + m)
      else spiOut.word k (m + 1) := by
  obtain ⟨hoff, hch, htotal, hleds, _⟩ := readFrame_announced hmax hterm old h
  have hwritten : SpiWritten isWS f.header.leds (announced bytes).chanCntr
      (announced bytes).totalLedsNum k m ↔ (announced bytes).SpiWritten isWS k m :=
    SpiWritten.congr hleds
  rw [readFrame_spiWord hready h hm, hoff, hch, htotal]
  refine if_ctx_congr hwritten (fun hw => ?_) fun _ => rfl
  obtain ⟨⟨⟨hk, _⟩, ht⟩, _⟩ := hw
  rw [chanOffset_congr fun c hc => hleds c (by omega)]
  exact (pixelAt_own hmax hterm old k _ ht).1

theorem readFrame_wsOut (hready : spiOut.Ready) (r : Router) (hws : r.wsOut = wsOut) :
    f.pixels.wsOut = (r.write isWS bytes).wsOut := by
  obtain ⟨hoff, hch, htotal, hleds, _⟩ := readFrame_announced hmax hterm old h
  apply wsOut_ext
  intro k hk m hm
  have hwritten : WsWritten isWS f.header.leds (announced bytes).chanCntr
      (announced bytes).totalLedsNum k m ↔ (announced bytes).WsWritten isWS k m :=
    WsWritten.congr hleds
  rw [readFrame_wsLed hready h, r.write_wsLed isWS bytes hk hm, hoff, hch, htotal, hws]
  refine if_ctx_congr hwritten (fun hw => ?_) fun _ => rfl
  obtain ⟨⟨⟨hk', _⟩, ht⟩, _⟩ := hw
  rw [chanOffset_congr fun c hc => hleds c (by omega)]
  exact (pixelAt_own hmax hterm old k _ ht).2

theorem Router.Knows.write (hready : spiOut.Ready) {r : Router} (hr : r.Knows wsOut spiOut) :
    (r.write isWS bytes).Knows f.pixels.wsOut f.pixels.spiOut where
  fd := hr.fd.trans (readFrame_reflects hready h).fd.symm
  wsOut := (readFrame_wsOut hmax hterm old h hready r hr.wsOut).symm
  led k m hm := by
    rw [readFrame_spiLed hmax hterm old h hready k (Nat.le_of_lt hm), ← hr.led k m hm]
    rfl

end

theorem afterSend_led (n m : Nat) (word : Nat → Sk9822Color) :
    afterSend n word (m + 1) =
      if 0 < n ∧ n ≤ m ∧ m + 1 < wordsFor n then endFrame else word (m + 1) := by
  unfold afterSend
  by_cases hz : n = 0
  · rw [if_pos hz, if_neg (by omega)]
  · rw [if_neg hz, if_neg (Nat.succ_ne_zero m)]
    exact if_congr (by omega) rfl rfl

section

variable {dm : DataModel} {world : World} {s : MainState} {p : Pass} {r : Router}

theorem framePass_gpioSwitcher (h : framePass dm world s = .ok p) :
    p.state.gpioSwitcher = (s.gpioSwitcher.switchWsOut (loadOf s.isWS world.stores 0)).1 := by
  obtain ⟨t, received, hrec, ⟨_, rfl⟩ | ⟨n, q, _, hq, rfl⟩⟩ := framePass_cases h
  · obtain ⟨_, _, _, rfl, _⟩ := receiveFrame_cases hrec
    rfl
  · obtain ⟨_, _, _, rfl, _⟩ := receiveFrame_cases hrec
    obtain ⟨_, _, _, _, _, _, rfl⟩ := processFrame_cases hq
    rfl

theorem outputFrame_fd {isWS rendered looping : Bool} {f : Frame} {spiOut : SpiOut}
    {outputs : List Output} (hready : f.pixels.spiOut.Ready)
    (h : outputFrame dm isWS rendered f = .ok (spiOut, outputs, looping)) :
    spiOut.fd = f.pixels.spiOut.fd := by
  cases isWS with
  | true =>
    cases h
    rfl
  | false =>
    obtain ⟨sent, hs, h⟩ := bind_eq_ok.mp h
    have hfits := sendFrame_fits hready f.header.channels_le hs
    obtain ⟨_, hs', hfd, _⟩ :=
      sendFrame_ok dm f.header.maxLedsInChan hready f.header.channels_le hfits
    rw [hs] at hs'
    cases hs'
    cases h
    exact hfd

/-- What is sent of the channels is sent from the LEDs that the router knows. -/
theorem transmissions_routed {spiOut : SpiOut} {leds : Nat → Nat} {a : Announced}
    (hfd : r.fd = spiOut.fd)
    (hled : ∀ k m, m < LED_COUNT_SPI → r.led k m = spiOut.word k (m + 1))
    (hleds : ∀ k < a.chanCntr, leds k = a.leds k)
    (hfits : ∀ k < a.chanCntr, leds k ≤ LED_COUNT_SPI) :
    transmissions spiOut leds a.chanCntr =
      (List.range a.chanCntr).flatMap fun k =>
        if a.leds k = 0 then []
        else [.digitalWrite PIN_SWITCH_SPI (k == 0),
          .writeAll r.fd (stream ((List.range (a.leds k)).map (r.led k)))] := by
  rw [transmissions]
  apply List.flatMap_congr
  intro k hk
  have hk' := List.mem_range.mp hk
  have hle := hfits k hk'
  have hwords : (List.range (leds k)).map (fun m => spiOut.word k (m + 1)) =
      (List.range (leds k)).map (r.led k) := by
    apply List.map_congr_left
    intro m hm
    have hm' := List.mem_range.mp hm
    exact (hled k m (by omega)).symm
  rw [transmission, hwords, hfd, hleds k hk']

theorem Router.Knows.output {isWS rendered looping : Bool} {f : Frame} {spiOut : SpiOut}
    {outputs : List Output} {bytes : List UInt8} (hr : r.Knows f.pixels.wsOut f.pixels.spiOut)
    (hready : f.pixels.spiOut.Ready) (hch : f.header.channels = (announced bytes).chanCntr)
    (hleds : ∀ k < (announced bytes).chanCntr, f.header.leds k = (announced bytes).leds k)
    (hlongest : f.header.maxLedsInChan = longestChannel bytes)
    (h : outputFrame dm isWS rendered f = .ok (spiOut, outputs, looping)) :
    (r.output isWS bytes).1.Knows f.pixels.wsOut spiOut ∧ outputs = (r.output isWS bytes).2 := by
  have hfd := outputFrame_fd hready h
  rcases outputFrame_cases hready h with ⟨rfl, rfl, rfl⟩ | ⟨rfl, _, hfits, hword, rfl⟩
  · exact ⟨hr, by rw [← hr.wsOut]; rfl⟩
  · rw [hch] at hfits hword ⊢
    rw [transmissions_routed hr.fd hr.led hleds hfits, hlongest]
    refine ⟨⟨hr.fd.trans hfd.symm, hr.wsOut, fun k m hm => ?_⟩, rfl⟩
    rw [hword]
    by_cases hk : k < (announced bytes).chanCntr
    · have hended : (announced bytes).Ended k m ↔
          0 < f.header.leds k ∧ f.header.leds k ≤ m ∧ m + 1 < wordsFor (f.header.leds k) := by
        rw [Announced.Ended, hleds k hk]
        exact and_iff_right hk
      rw [if_pos hk, afterSend_led, ← hr.led k m hm]
      exact if_congr hended rfl rfl
    · rw [if_neg hk, ← hr.led k m hm]
      exact if_neg fun hended => hk hended.1

theorem Follows.switched (hr : Follows s r) (isWS : Bool) :
    (r.switch isWS).2 = (s.switch isWS).2 := by
  rw [Router.switch, hr.gpioSwitcher]
  rfl

theorem Follows.idle (hr : Follows s r) (h : framePass dm world s = .ok p)
    (hshort : ∀ d, s.pending.head? = some d → d.bytes.length ≤ 4) :
    Follows p.state (r.pass (routerInput ⟨s, (world, p), p.state⟩)).1 ∧
      p.outputs = (r.pass (routerInput ⟨s, (world, p), p.state⟩)).2 := by
  rw [framePass_leaves hr.manager hshort] at h
  cases h
  rw [r.pass_idle (takenIn_eq_none hshort), Router.switch, hr.gpioSwitcher]
  exact ⟨⟨hr.manager, hr.ready, rfl, hr.knows.fd, hr.knows.wsOut, hr.knows.led⟩, rfl⟩

theorem Follows.frame (hr : Follows s r) {d : Datagram} {rest : List Datagram}
    (hp : s.pending = d :: rest) (h4 : 4 < d.bytes.length) (hterm : Terminated d.bytes)
    (h : framePass dm world s = .ok p) :
    Follows p.state (r.pass (routerInput ⟨s, (world, p), p.state⟩)).1 ∧
      p.outputs = (r.pass (routerInput ⟨s, (world, p), p.state⟩)).2 := by
  have htake := framePass_takeable hr.manager hp h4 h
  have hmax := htake.2
  have htaken : takenIn ⟨s, (world, p), p.state⟩ = some d :=
    takenIn_eq_some (by rw [hp]; rfl) htake
  obtain ⟨f, spiOut, outputs, looping, hf, ho, _, hstate, hout, hws, _⟩ :=
    framePass_frame hr.manager hp h4 hmax h
  obtain ⟨_, hch, _, hleds, hlongest, hloads⟩ := readFrame_announced hmax hterm s.message hf
  have hpixels := hr.ready.of_shape (readFrame_reflects hr.ready hf).shape
  have hswitched : (r.switch (loadOf s.isWS world.stores 0)).1.Knows s.wsOut s.spiOut :=
    ⟨hr.knows.fd, hr.knows.wsOut, hr.knows.led⟩
  rw [hloads] at ho
  obtain ⟨hknows, houtputs⟩ :=
    (hswitched.write hmax hterm s.message hf hr.ready).output hpixels hch hleds hlongest ho
  rw [r.pass_taken htaken, hout, houtputs, hr.switched]
  refine ⟨⟨framePass_ready hr.manager h, framePass_spiReady hr.ready h, ?_, ?_⟩, rfl⟩
  · rw [framePass_gpioSwitcher h, ← hr.gpioSwitcher]
    exact (Router.output_kept _ _ _).2.1
  · rw [hws, hstate]
    exact hknows

/-- The step lemma: the router answers a pass with what the pass puts out. -/
theorem Follows.pass (hr : Follows s r)
    (hterm : ∀ d, s.pending.head? = some d → 4 < d.bytes.length → Terminated d.bytes)
    (h : framePass dm world s = .ok p) :
    Follows p.state (r.pass (routerInput ⟨s, (world, p), p.state⟩)).1 ∧
      p.outputs = (r.pass (routerInput ⟨s, (world, p), p.state⟩)).2 := by
  by_cases hframe : ∃ d, s.pending.head? = some d ∧ 4 < d.bytes.length
  · obtain ⟨d, hd, h4⟩ := hframe
    obtain ⟨rest, hp⟩ := List.head?_eq_some_iff.mp hd
    exact hr.frame hp h4 (hterm d hd h4) h
  · exact hr.idle h fun d hd => Nat.le_of_not_lt fun h4 => hframe ⟨d, hd, h4⟩

theorem Follows.step {t : Step MainState (World × Pass)} (hr : Follows t.before r)
    (hstep : PassStep dm t.before t.event t.after)
    (hterm : ∀ d, t.before.pending.head? = some d → 4 < d.bytes.length → Terminated d.bytes) :
    Follows t.after (r.pass (routerInput t)).1 ∧
      t.event.2.outputs = (r.pass (routerInput t)).2 := by
  obtain ⟨s, ⟨world, p⟩, s'⟩ := t
  obtain ⟨_, hpass, hafter⟩ := hstep
  obtain rfl : s' = p.state := hafter
  exact hr.pass hterm hpass

end

/-- The router at the start of `main`, over blocks that hold `content₁` and `content₂`. -/
def Router.start (fd : Int32) (wsOut : WsOut) (content₁ content₂ : Nat → Sk9822Color) : Router where
  fd
  gpioSwitcher := GpioOutSwitcher.new.1
  wsOut
  led k m := if k < MAX_CHANNELS then (if k = 0 then content₁ else content₂) (m + 1) else default

theorem spiSetup_fd (dm : DataModel) (spiOut : SpiOut)
    (malloc₁ malloc₂ : Option (Nat → Sk9822Color)) :
    (spiSetup dm spiOut malloc₁ malloc₂).fd = spiOut.fd := by
  have hadd : ∀ (s : SpiOut) malloc, (s.addChannel dm LED_COUNT_SPI malloc).2.fd = s.fd := by
    intro s malloc
    rw [SpiOut.addChannel]
    split
    next => rfl
    next => rfl
  rw [spiSetup, hadd, hadd]

theorem SpiOut.Ready.word_of_le {s : SpiOut} (h : s.Ready) {k : Nat} (hk : MAX_CHANNELS ≤ k)
    (i : Nat) : s.word k i = default := by
  have hl : s.buffers.length = MAX_CHANNELS := by
    have hshape := congrArg List.length h
    rwa [SpiOut.shape, List.length_map, List.length_replicate] at hshape
  rw [SpiOut.word, List.getElem?_eq_none (by omega)]
  rfl

theorem start_follows {frameInput : UdpManager} (hm : frameInput.Ready) (dm : DataModel)
    (message : Message) (wsOut : WsOut) (fd : Int32) (content₁ content₂ : Nat → Sk9822Color)
    (pending : List Datagram) :
    Follows (MainState.start frameInput message wsOut
        (spiSetup dm ⟨fd, []⟩ (some content₁) (some content₂)) pending)
      (Router.start fd wsOut content₁ content₂) where
  manager := hm
  ready := spiSetup_ready dm fd content₁ content₂
  gpioSwitcher := rfl
  knows := {
    fd := (spiSetup_fd dm ⟨fd, []⟩ _ _).symm
    wsOut := rfl
    led k m hlt := by
      have hi : m + 1 < wordsFor LED_COUNT_SPI := by
        unfold wordsFor
        omega
      by_cases hk : k < MAX_CHANNELS
      · exact (if_pos hk).trans (spiSetup_word dm fd content₁ content₂ hk hi).symm
      · have hready := spiSetup_ready dm fd content₁ content₂
        exact (if_neg hk).trans (hready.word_of_le (Nat.le_of_not_lt hk) _).symm }

/-- The run lemma. -/
theorem run_follows {dm : DataModel} {start s : MainState} {r : Router} (hr : Follows start r)
    {steps : List (Step MainState (World × Pass))} (h : Run (PassStep dm) start steps s)
    (hterm : ∀ t ∈ steps, ∀ d, t.before.pending.head? = some d → 4 < d.bytes.length →
      Terminated d.bytes) :
    Follows s (answers Router.pass r (steps.map routerInput)).1 ∧
      steps.map (fun t => t.event.2.outputs) =
        (answers Router.pass r (steps.map routerInput)).2 := by
  refine h.trace Follows routerInput (fun t => t.event.2.outputs) hr ?_
  intro t ht hstep r hr
  exact hr.step hstep (hterm t ht)

/-- The frame loop refines the router: in every run over terminated datagrams, in any interleaving
with the stores of the type listener, its passes put out what the router answers to the datagrams
they take and the values of the flag that they load. -/
theorem passes_routed {dm : DataModel} {s : MainState} {frameInput : UdpManager}
    (hm : frameInput.Ready) {message : Message} {wsOut : WsOut} {fd : Int32}
    {content₁ content₂ : Nat → Sk9822Color} {pending : List Datagram}
    {steps : List (Step MainState (World × Pass))}
    (h : Run (PassStep dm) (MainState.start frameInput message wsOut
      (spiSetup dm ⟨fd, []⟩ (some content₁) (some content₂)) pending) steps s)
    (hterm : ∀ t ∈ steps, ∀ d, t.before.pending.head? = some d → 4 < d.bytes.length →
      Terminated d.bytes) :
    steps.map (fun t => t.event.2.outputs) =
      (answers Router.pass (Router.start fd wsOut content₁ content₂) (steps.map routerInput)).2 :=
  (run_follows (start_follows hm dm message wsOut fd content₁ content₂ pending) h hterm).2

theorem passes_routed_one : ∃ p, framePass lp64 toSpi (waiting [oneLed]) = .ok p ∧
    [p.outputs] = (answers Router.pass (Router.start 3 (Vector.replicate _ (Vector.replicate _ 0))
      (fun _ => default) fun _ => default) [⟨some oneLed, loadOf true toSpi.stores⟩]).2 := by
  obtain ⟨p, _, hp, _⟩ := oneLed_pass [] toSpi
  have hrun : Run (PassStep lp64) (waiting [oneLed])
      ([] ++ [⟨waiting [oneLed], (toSpi, p), p.state⟩]) p.state := Run.nil.snoc ⟨rfl, hp, rfl⟩
  refine ⟨p, hp, passes_routed bound_ready hrun fun t ht d hd _ => ?_⟩
  obtain rfl := List.mem_singleton.mp ht
  obtain rfl : oneLed = d := Option.some.inj hd
  decide

end LmListener
