import LmListener.FrameLoop

namespace LmListener

open Checked CTypes Runs

def Header.pixels (dm : DataModel) (message : Message) (received : Nat) (h : Header) : List Pixel :=
  framePixels message h.headerByteOffset (totalLedsNum dm received h.headerByteOffset) h.leds
    h.channels

theorem Header.channels_eq (h : Header) : h.channels = min h.chanCntr MAX_CHANNELS := by
  unfold Header.channels
  split <;> omega

theorem Header.channels_le (h : Header) : h.channels ≤ MAX_CHANNELS := by
  rw [h.channels_eq]
  exact Nat.min_le_right _ _

theorem totalLedsNum_of_le {dm : DataModel} {received headerByteOffset : Nat}
    (hle : headerByteOffset ≤ received) (hr : received ≤ MAX_SENDBUFFER_SIZE) :
    totalLedsNum dm received headerByteOffset = (received - headerByteOffset) / 3 := by
  unfold MAX_SENDBUFFER_SIZE at hr
  have hw := dm.two_pow_le
  rw [totalLedsNum, ← Int.ofNat_sub hle, dm.toSize_natCast (by omega)]

/-- A header that ends past the datagram makes the pixel count wrap. -/
theorem totalLedsNum_of_lt (dm : DataModel) {received headerByteOffset : Nat}
    (hlt : received < headerByteOffset) (hr : headerByteOffset ≤ 2 ^ 31) :
    2 ^ 31 / 3 ≤ totalLedsNum dm received headerByteOffset :=
  Nat.div_le_div_right (dm.toSize_of_neg (by omega) (by omega))

section

variable {dm : DataModel} {isWS : Nat → Bool} {message : Message} {received : Nat}
  {ledsInChannel : Vector UInt16 6} {wsOut : WsOut} {spiOut : SpiOut}

theorem readFrame_writePixels {f : Frame}
    (h : readFrame dm isWS message received ledsInChannel wsOut spiOut = .ok f) :
    parseHeader message received ledsInChannel = .ok f.header ∧
      writePixels isWS (f.header.pixels dm message received) ⟨wsOut, spiOut, 1, []⟩ =
        .ok f.pixels := by
  obtain ⟨header, hh, h⟩ := bind_eq_ok.mp h
  obtain ⟨pixels, hp, hf⟩ := bind_eq_ok.mp h
  cases hf
  exact ⟨hh, ((pixelLoop_eq_ok_iff header.channels_le).mp hp).2⟩

theorem readFrame_ok (dm : DataModel) (isWS : Nat → Bool) (wsOut : WsOut) {h : Header}
    (hh : parseHeader message received ledsInChannel = .ok h)
    (hread : ∀ i < totalLedsNum dm received h.headerByteOffset, i < chanOffset h.leds h.channels →
      h.headerByteOffset + (i * 3 + 2) < MAX_SENDBUFFER_SIZE)
    (hready : spiOut.Ready) :
    ∃ f, readFrame dm isWS message received ledsInChannel wsOut spiOut = .ok f ∧
      f.header = h := by
  obtain ⟨pixels, hp⟩ :=
    pixelLoop_ok isWS ⟨wsOut, spiOut, 1, []⟩ h.channels_le hread hready rfl
  exact ⟨⟨h, pixels⟩, by rw [readFrame, hh, bind_ok, hp]; rfl, rfl⟩

theorem pixels_inRange {headerByteOffset : Nat} (hle : headerByteOffset ≤ received)
    (hr : received ≤ MAX_SENDBUFFER_SIZE) :
    ∀ i < totalLedsNum dm received headerByteOffset,
      headerByteOffset + (i * 3 + 2) < MAX_SENDBUFFER_SIZE := by
  intro i hi
  rw [totalLedsNum_of_le hle hr] at hi
  omega

theorem readFrame_writes {f : Frame}
    (h : readFrame dm isWS message received ledsInChannel wsOut spiOut = .ok f) :
    f.pixels.loads = 1 + (f.header.pixels dm message received).length ∧
      f.pixels.writes = route isWS 1 (f.header.pixels dm message received) := by
  obtain ⟨_, hw⟩ := readFrame_writePixels h
  obtain ⟨hl, hr⟩ := writePixels_recorded hw
  exact ⟨hl, by simpa using hr⟩

theorem Header.pixels_chan {h : Header} {p : Pixel} (hp : p ∈ h.pixels dm message received) :
    p.chan < MAX_CHANNELS :=
  lt_of_lt_of_le (framePixels_chan hp) h.channels_le

theorem readFrame_reflects (hready : spiOut.Ready) {f : Frame}
    (h : readFrame dm isWS message received ledsInChannel wsOut spiOut = .ok f) :
    Reflects ⟨wsOut, spiOut, 1, []⟩ f.pixels := by
  obtain ⟨_, hw⟩ := readFrame_writePixels h
  obtain ⟨s, hs, hr⟩ := writePixels_ok isWS (f.header.pixels dm message received)
    ⟨wsOut, spiOut, 1, []⟩ (fun p hp => Header.pixels_chan hp) hready rfl
  rw [hw] at hs
  cases hs
  exact hr

end

section

variable {dm : DataModel} {world : World} {s : MainState} {p : Pass}

/-- What a pass of the loop can do: nothing past `receiveFrame`, or one frame. -/
theorem framePass_cases (h : framePass dm world s = .ok p) :
    ∃ t received, receiveFrame dm (s.switch (loadOf s.isWS world.stores 0)).1 = .ok (t, received) ∧
      ((received = none ∧ p = ⟨t.arrive world.arrivals, none,
          (s.switch (loadOf s.isWS world.stores 0)).2⟩) ∨
        ∃ n q, received = some n ∧
          processFrame dm (loadOf s.isWS world.stores) world.rendered n t = .ok q ∧
          p = ⟨q.state.arrive world.arrivals, q.frame,
            (s.switch (loadOf s.isWS world.stores 0)).2 ++ q.outputs⟩) := by
  obtain ⟨⟨t, received⟩, ht, h⟩ := bind_eq_ok.mp h
  refine ⟨t, received, ht, ?_⟩
  cases received with
  | none => cases h; exact Or.inl ⟨rfl, rfl⟩
  | some n =>
    obtain ⟨q, hq, h⟩ := bind_eq_ok.mp h
    cases h
    exact Or.inr ⟨n, q, rfl, hq, rfl⟩

theorem processFrame_cases {isWS : Nat → Bool} {rendered : Bool} {received : Nat}
    (h : processFrame dm isWS rendered received s = .ok p) :
    ∃ f spiOut outputs looping,
      readFrame dm isWS s.message received s.ledsInChannel s.wsOut s.spiOut = .ok f ∧
      outputFrame dm (isWS f.pixels.loads) rendered f = .ok (spiOut, outputs, looping) ∧
      p = ⟨{ s with
          ledsInChannel := f.header.ledsInChannel
          wsOut := f.pixels.wsOut
          spiOut
          pins := levelAfter s.pins outputs
          isWS := isWS f.pixels.loads
          looping }, some f, outputs⟩ := by
  obtain ⟨f, hf, h⟩ := bind_eq_ok.mp h
  obtain ⟨⟨spiOut, outputs, looping⟩, ho, h⟩ := bind_eq_ok.mp h
  cases h
  exact ⟨f, spiOut, outputs, looping, hf, ho, rfl⟩

/-- The output of a frame is one render, or the transmissions of channels that all had room. -/
theorem outputFrame_cases {isWS rendered looping : Bool} {f : Frame} {spiOut : SpiOut}
    {outputs : List Output} (hready : f.pixels.spiOut.Ready)
    (h : outputFrame dm isWS rendered f = .ok (spiOut, outputs, looping)) :
    (isWS = true ∧ spiOut = f.pixels.spiOut ∧ outputs = [.render f.pixels.wsOut]) ∨
      (isWS = false ∧ spiOut.Ready ∧ (∀ k < f.header.channels, f.header.leds k ≤ LED_COUNT_SPI) ∧
        (∀ c i, spiOut.word c i = if c < f.header.channels
          then afterSend (f.header.leds c) (f.pixels.spiOut.word c) i
          else f.pixels.spiOut.word c i) ∧
        outputs = transmissions f.pixels.spiOut f.header.leds f.header.channels ++
          [.sleepFor f.header.maxLedsInChan]) := by
  cases isWS with
  | true => cases h; exact Or.inl ⟨rfl, rfl, rfl⟩
  | false =>
    obtain ⟨r, hs, h⟩ := bind_eq_ok.mp h
    have hfits := sendFrame_fits hready f.header.channels_le hs
    obtain ⟨spiOut', hs', _, hshape, hword⟩ :=
      sendFrame_ok dm f.header.maxLedsInChan hready f.header.channels_le hfits
    rw [hs] at hs'
    cases hs'
    cases h
    exact Or.inr ⟨rfl, hready.of_shape hshape, hfits, hword, rfl⟩

theorem outputFrame_ok (dm : DataModel) (isWS rendered : Bool) {f : Frame}
    (hready : f.pixels.spiOut.Ready)
    (hfits : isWS = false → ∀ k < f.header.channels, f.header.leds k ≤ LED_COUNT_SPI) :
    ∃ r, outputFrame dm isWS rendered f = .ok r := by
  cases isWS with
  | true => exact ⟨_, rfl⟩
  | false =>
    obtain ⟨spiOut, ho, _⟩ :=
      sendFrame_ok dm f.header.maxLedsInChan hready f.header.channels_le (hfits rfl)
    exact ⟨_, bind_eq_ok.mpr ⟨_, ho, rfl⟩⟩

theorem receiveFrame_cases {t : MainState} {received : Option Nat}
    (h : receiveFrame dm s = .ok (t, received)) :
    ∃ frameInput message pending, t = { s with frameInput, message, pending } ∧
      (s.frameInput.Ready → frameInput.Ready) := by
  unfold receiveFrame at h
  simp only at h
  split at h
  next => cases h; exact ⟨_, _, _, rfl, id⟩
  next =>
    obtain ⟨r, hr, h⟩ := bind_eq_ok.mp h
    cases h
    exact ⟨_, _, _, rfl, fun hm => UdpManager.receive_ready hm hr⟩

theorem framePass_spiReady (hready : s.spiOut.Ready) (h : framePass dm world s = .ok p) :
    p.state.spiOut.Ready := by
  obtain ⟨t, received, hrec, ⟨_, rfl⟩ | ⟨n, q, _, hq, rfl⟩⟩ := framePass_cases h
  · obtain ⟨_, _, _, rfl, _⟩ := receiveFrame_cases hrec
    exact hready
  · obtain ⟨_, _, _, rfl, _⟩ := receiveFrame_cases hrec
    obtain ⟨f, spiOut, outputs, looping, hf, ho, rfl⟩ := processFrame_cases hq
    have hpixels := hready.of_shape (readFrame_reflects hready hf).shape
    rcases outputFrame_cases hpixels ho with ⟨_, rfl, _⟩ | ⟨_, hsent, _⟩
    · exact hpixels
    · exact hsent

end

section

variable {dm : DataModel} {s : MainState} (hm : s.frameInput.Ready)

include hm

/-- What `received` holds after `PeekReceive`: the length of the head datagram. -/
theorem peekReceive_pending {n : Nat} (h : n < 2 ^ 31)
    (hn : fionreadQueue s.pending = some (toInt n)) :
    dm.toSize (s.frameInput.peekReceive 0 (fionreadQueue s.pending)).toInt = n := by
  rw [hn, hm.peekReceive, dm.toSize_toInt h]

theorem receiveFrame_leaves (dm : DataModel)
    (h : ∀ d, s.pending.head? = some d → d.bytes.length ≤ 4) :
    receiveFrame dm s = .ok (s, none) := by
  obtain ⟨n, hn, hle⟩ : ∃ n, fionreadQueue s.pending = some (toInt n) ∧ n ≤ 4 := by
    refine ⟨_, rfl, ?_⟩
    cases hd : s.pending.head? with
    | none => simp
    | some d => simpa using h d hd
  rw [receiveFrame, peekReceive_pending hm (by omega) hn]
  simp only [receiveSize, show ¬n > 4 by omega, if_false]

/-- The head datagram goes into the frame buffer when its length is in range. -/
theorem receiveFrame_takes (dm : DataModel) {d : Datagram} {rest : List Datagram}
    (hp : s.pending = d :: rest)
    (h4 : 4 < d.bytes.length) (hmax : d.bytes.length ≤ MAX_SENDBUFFER_SIZE) :
    ∃ frameInput, frameInput.Ready ∧ receiveFrame dm s =
      .ok ({ s with frameInput, message := overlay s.message d.bytes, pending := rest },
        some d.bytes.length) := by
  have hle := d.length_le
  have h31 : d.bytes.length < 2 ^ 31 := by omega
  have hsize := dm.toSize_toInt h31
  have hqueue : recvfromQueue (dm.toSize (toInt d.bytes.length).toInt) (d :: rest) =
      (.received d, rest) := rfl
  obtain ⟨r, ho, hret, hk, hr, hb⟩ :=
    UdpManager.receive_datagram hm s.message 0 (by omega) hqueue
  rw [hsize, Nat.min_self] at hret
  rw [hsize, List.take_length, overlay_overlay _ (by simp)] at hb
  have hpos : ¬r.ret ≤ 0 := by
    rw [Int32.le_iff_toInt_le, hret, toInt_toInt_of_lt h31, show (0 : Int32).toInt = 0 by decide]
    omega
  refine ⟨r.manager, hr, ?_⟩
  rw [receiveFrame, peekReceive_pending hm h31 (by rw [hp]; rfl)]
  simp only [receiveSize, h4, if_true, hp, ho, bind_ok, hpos, if_false, hk, hb]
  rfl

theorem framePass_frame {world : World} {p : Pass} {d : Datagram} {rest : List Datagram}
    (hp : s.pending = d :: rest) (h4 : 4 < d.bytes.length)
    (hmax : d.bytes.length ≤ MAX_SENDBUFFER_SIZE) (h : framePass dm world s = .ok p) :
    ∃ f spiOut outputs looping,
      readFrame dm (loadOf s.isWS world.stores) (overlay s.message d.bytes) d.bytes.length
        s.ledsInChannel s.wsOut s.spiOut = .ok f ∧
      outputFrame dm (loadOf s.isWS world.stores f.pixels.loads) world.rendered f =
        .ok (spiOut, outputs, looping) ∧
      p.frame = some f ∧ p.state.spiOut = spiOut ∧
      p.outputs = (s.switch (loadOf s.isWS world.stores 0)).2 ++ outputs ∧
      p.state.wsOut = f.pixels.wsOut ∧ p.state.looping = looping := by
  obtain ⟨frameInput, _, hr⟩ := receiveFrame_takes
    (s := (s.switch (loadOf s.isWS world.stores 0)).1) hm dm hp h4 hmax
  obtain ⟨t, received, hrec, ⟨hn, _⟩ | ⟨n, q, hn, hq, rfl⟩⟩ := framePass_cases h
  · rw [hr] at hrec
    cases hrec
    cases hn
  · rw [hr] at hrec
    cases hrec
    cases hn
    obtain ⟨f, spiOut, outputs, looping, hf, ho, rfl⟩ := processFrame_cases hq
    exact ⟨f, spiOut, outputs, looping, hf, ho, rfl, rfl, rfl, rfl, rfl⟩

/-- The converse: a frame that can be read and output makes a pass. -/
theorem framePass_ok {world : World} {d : Datagram} {rest : List Datagram}
    (hp : s.pending = d :: rest) (h4 : 4 < d.bytes.length)
    (hmax : d.bytes.length ≤ MAX_SENDBUFFER_SIZE) {f : Frame}
    (hf : readFrame dm (loadOf s.isWS world.stores) (overlay s.message d.bytes) d.bytes.length
      s.ledsInChannel s.wsOut s.spiOut = .ok f) {r : SpiOut × List Output × Bool}
    (ho : outputFrame dm (loadOf s.isWS world.stores f.pixels.loads) world.rendered f = .ok r) :
    ∃ p, framePass dm world s = .ok p ∧ p.frame = some f := by
  obtain ⟨frameInput, _, hr⟩ := receiveFrame_takes
    (s := (s.switch (loadOf s.isWS world.stores 0)).1) hm dm hp h4 hmax
  refine ⟨_, bind_eq_ok.mpr ⟨_, hr, bind_eq_ok.mpr ⟨_, bind_eq_ok.mpr
    ⟨f, hf, bind_eq_ok.mpr ⟨r, ho, rfl⟩⟩, rfl⟩⟩, rfl⟩

theorem receiveFrame_faults (dm : DataModel) {d : Datagram} {rest : List Datagram}
    (hp : s.pending = d :: rest)
    (hmax : MAX_SENDBUFFER_SIZE < d.bytes.length) :
    receiveFrame dm s = .error (.receiveBuffer d.bytes.length) := by
  have hle := d.length_le
  have h31 : d.bytes.length < 2 ^ 31 := by omega
  have hsize := dm.toSize_toInt h31
  have h4 : d.bytes.length > 4 := by unfold MAX_SENDBUFFER_SIZE at hmax; omega
  have hlarge : MAX_SENDBUFFER_SIZE < dm.toSize (toInt d.bytes.length).toInt := by omega
  have hf := UdpManager.receive_faults recvfromQueue hm s.message 0 (d :: rest) hlarge
  rw [receiveFrame, peekReceive_pending hm h31 (by rw [hp]; rfl)]
  simp only [receiveSize, h4, if_true, hp, hf, hsize, bind_error]

end

theorem spiSetup_ready (dm : DataModel) (fd : Int32) (content₁ content₂ : Nat → Sk9822Color) :
    (spiSetup dm ⟨fd, []⟩ (some content₁) (some content₂)).Ready := by
  have hl : LED_COUNT_SPI < 2 ^ 29 := by decide
  rw [SpiOut.Ready, spiSetup, SpiOut.addChannel_shape dm _ hl, SpiOut.addChannel_shape dm _ hl]
  rfl

theorem spiSetup_word (dm : DataModel) (fd : Int32) (content₁ content₂ : Nat → Sk9822Color)
    {k i : Nat} (hk : k < MAX_CHANNELS) (hi : i < wordsFor LED_COUNT_SPI) :
    (spiSetup dm ⟨fd, []⟩ (some content₁) (some content₂)).word k i =
      (if k = 0 then content₁ else content₂) i := by
  have hl : LED_COUNT_SPI < 2 ^ 29 := by decide
  obtain ⟨buf₁, hb₁, _, _, hw₁⟩ := sk9822Init_some dm content₁ hl
  obtain ⟨buf₂, hb₂, _, _, hw₂⟩ := sk9822Init_some dm content₂ hl
  have hsetup : (spiSetup dm ⟨fd, []⟩ (some content₁) (some content₂)).buffers = [buf₁, buf₂] := by
    simp [spiSetup, SpiOut.addChannel, hb₁, hb₂]
  unfold MAX_CHANNELS at hk
  obtain rfl | rfl : k = 0 ∨ k = 1 := by omega
  · simp [SpiOut.word, hsetup, hw₁ i hi]
  · simp [SpiOut.word, hsetup, hw₂ i hi]

def listening (message : Message) (pending : List Datagram) : MainState :=
  MainState.start bound message (Vector.replicate _ (Vector.replicate _ 0))
    (spiSetup lp64 ⟨3, []⟩ (some fun _ => default) (some fun _ => default)) pending

theorem listening_ready (message : Message) (pending : List Datagram) :
    (listening message pending).spiOut.Ready :=
  spiSetup_ready lp64 3 (fun _ => default) (fun _ => default)

def toSpi : World := ⟨fun _ => [false], true, []⟩

theorem loadOf_toSpi (isWS : Bool) (n : Nat) : loadOf isWS toSpi.stores n = false := by
  cases n <;> rfl

def toWs : World := ⟨fun _ => [true], true, []⟩

theorem loadOf_toWs (isWS : Bool) (n : Nat) : loadOf isWS toWs.stores n = true := by
  cases n <;> rfl

end LmListener
