import LmListener.PixelReads
import LmListener.PlainFrame

namespace LmListener

open Checked CTypes

/-- The buffers of the mode that is not selected hold what they held before. -/
def OthersKept (isWS : Bool) (wsOut wsOut' : WsOut) (spiOut spiOut' : SpiOut) : Prop :=
  if isWS then ∀ c i, spiOut'.word c i = spiOut.word c i
  else ∀ c i, wsLed wsOut' c i = wsLed wsOut c i

/-- The SPI LEDs behind the length of a WS strip already show what the payload has for them. -/
def LongStripsShown (spiOut : SpiOut) (counts : List UInt16) (payload : List UInt8) : Prop :=
  ∀ k < min counts.length MAX_CHANNELS, ∀ j < ledsOfCount counts k,
    LED_COUNT_WS ≤ j → j ≤ LED_COUNT_SPI →
      chanOffset (ledsOfCount counts) k + j < payload.length / 3 →
        spiOut.word k (j + 1) = payloadColour payload (chanOffset (ledsOfCount counts) k + j)

section

variable {dm : DataModel} {counts : List UInt16} {payload : List UInt8}
  (hmax : (frameBytes counts payload).length ≤ MAX_SENDBUFFER_SIZE)
  (hplain : ∀ count ∈ counts, Plain count) (old : Message) {ledsInChannel : Vector UInt16 6}
  {wsOut : WsOut} {spiOut : SpiOut} (hready : spiOut.Ready) {f : Frame}

include hmax hplain hready

theorem pixels_spare_spi_iff
    (h : readFrame dm (fun _ => true) (overlay old (frameBytes counts payload))
      (frameBytes counts payload).length ledsInChannel wsOut spiOut = .ok f) :
    (∀ c i, f.pixels.spiOut.word c i = spiOut.word c i) ↔
      LongStripsShown spiOut counts payload := by
  have hword := fun k m (hm : m ≤ LED_COUNT_SPI) =>
    readFrame_plain_spiWord hmax hplain old hready h (k := k) hm
  constructor
  · intro hsame k hk j hj hlong hcap ht
    have hshown := hsame k (j + 1)
    rw [hword k j hcap, if_pos ⟨⟨⟨hk, hj⟩, ht⟩, Or.inr hlong⟩] at hshown
    exact hshown.symm
  · intro hshown k i
    by_cases hi : i = 0 ∨ LED_COUNT_SPI + 1 < i
    · exact readFrame_spiWord_other hready h hi
    · obtain ⟨m, rfl⟩ : ∃ m, i = m + 1 := ⟨i - 1, by omega⟩
      rw [hword k m (by omega)]
      split
      next hw =>
        obtain ⟨⟨⟨hk, hm⟩, ht⟩, hlong⟩ := hw
        exact (hshown k hk m hm (hlong.resolve_left Bool.noConfusion) (by omega) ht).symm
      next => rfl

theorem pixels_spare_ws
    (h : readFrame dm (fun _ => false) (overlay old (frameBytes counts payload))
      (frameBytes counts payload).length ledsInChannel wsOut spiOut = .ok f) :
    ∀ c i, wsLed f.pixels.wsOut c i = wsLed wsOut c i := by
  intro c i
  rw [readFrame_plain_wsLed hmax hplain old hready h, if_neg]
  intro hw
  exact Bool.noConfusion hw.2.1

end

section

variable {world : World} {s : MainState} {counts : List UInt16} {payload : List UInt8}
  {d : Datagram} {rest : List Datagram} (dm : DataModel) (hm : s.frameInput.Ready)
  (hready : s.spiOut.Ready) (hpending : s.pending = d :: rest)
  (hd : d.bytes = frameBytes counts payload) (hmin : 5 ≤ d.bytes.length)
  (hmax : d.bytes.length ≤ MAX_SENDBUFFER_SIZE) (hcounts : counts.length ≤ 6)
  (hplain : ∀ count ∈ counts, lowByte count ≠ 0xff ∧ highByte count ≠ 0xff)

include hm hready hpending hd hmin hmax hcounts hplain

/-- A frame for the WS arrays is always processed. -/
theorem framePass_ws (hflag : ∀ n, loadOf s.isWS world.stores n = true) :
    ∃ p f, framePass dm world s = .ok p ∧ p.frame = some f ∧
      readFrame dm (fun _ => true) (overlay s.message (frameBytes counts payload))
        (frameBytes counts payload).length s.ledsInChannel s.wsOut s.spiOut = .ok f ∧
      p.state.wsOut = f.pixels.wsOut ∧ p.state.spiOut = f.pixels.spiOut := by
  have hload : loadOf s.isWS world.stores = fun _ => true := funext hflag
  obtain ⟨f, hf⟩ := readFrame_plain_ok (hd ▸ hmax) hplain s.message dm (fun _ => true) hcounts
    s.ledsInChannel s.wsOut hready
  have hpixels := hready.of_shape (readFrame_reflects hready hf).shape
  obtain ⟨r, ho⟩ := outputFrame_ok dm true world.rendered hpixels nofun
  rw [← hd, ← hload] at hf
  obtain ⟨p, hp, _⟩ := framePass_ok hm hpending (by omega) hmax hf (by rw [hflag]; exact ho)
  obtain ⟨f', spiOut, outputs, looping, hf', ho', hframe, hspi, _, hws, _⟩ :=
    framePass_frame hm hpending (by omega) hmax hp
  obtain rfl := Except.ok.inj (hf.symm.trans hf')
  rw [hflag] at ho'
  cases ho'
  rw [hd, hload] at hf
  exact ⟨p, f, hp, hframe, hf, hws, hspi⟩

theorem framePass_spi_iff (hflag : ∀ n, loadOf s.isWS world.stores n = false) :
    (∃ p, framePass dm world s = .ok p ∧
        OthersKept false s.wsOut p.state.wsOut s.spiOut p.state.spiOut) ↔
      ∀ k < min counts.length MAX_CHANNELS, ledsOfCount counts k ≤ LED_COUNT_SPI := by
  have hload : loadOf s.isWS world.stores = fun _ => false := funext hflag
  obtain ⟨f, hf⟩ := readFrame_plain_ok (hd ▸ hmax) hplain s.message dm (fun _ => false) hcounts
    s.ledsInChannel s.wsOut hready
  obtain ⟨_, hch, _, hleds⟩ := readFrame_plain (hd ▸ hmax) hplain s.message hf
  have hpixels := hready.of_shape (readFrame_reflects hready hf).shape
  have hws := pixels_spare_ws (hd ▸ hmax) hplain s.message hready hf
  rw [← hd, ← hload] at hf
  constructor
  · intro hex k hk
    obtain ⟨p, hp, _⟩ := hex
    obtain ⟨f', spiOut, outputs, looping, hf', ho, _⟩ :=
      framePass_frame hm hpending (by omega) hmax hp
    obtain rfl := Except.ok.inj (hf.symm.trans hf')
    rw [hflag] at ho
    obtain ⟨h, _⟩ | ⟨_, _, hfits, _⟩ := outputFrame_cases hpixels ho
    · cases h
    · rw [← hleds k (by omega)]
      exact hfits k (by omega)
  · intro hfits
    obtain ⟨r, ho⟩ := outputFrame_ok dm false world.rendered hpixels fun _ k hk => by
      rw [hleds k (by omega)]
      exact hfits k (by omega)
    obtain ⟨p, hp, _⟩ := framePass_ok hm hpending (by omega) hmax hf (by rw [hflag]; exact ho)
    obtain ⟨f', _, _, _, hf', _, _, _, _, hstate, _⟩ :=
      framePass_frame hm hpending (by omega) hmax hp
    obtain rfl := Except.ok.inj (hf.symm.trans hf')
    exact ⟨p, hp, hstate ▸ hws⟩

theorem framePass_ws_iff (hflag : ∀ n, loadOf s.isWS world.stores n = true) :
    (∃ p, framePass dm world s = .ok p ∧
        OthersKept true s.wsOut p.state.wsOut s.spiOut p.state.spiOut) ↔
      LongStripsShown s.spiOut counts payload := by
  obtain ⟨p, f, hp, _, hf, _, hspi⟩ :=
    framePass_ws dm hm hready hpending hd hmin hmax hcounts hplain hflag
  rw [← pixels_spare_spi_iff (hd ▸ hmax) hplain s.message hready hf, ← hspi]
  constructor
  · intro hex
    obtain ⟨p', hp', hkept⟩ := hex
    obtain rfl := Except.ok.inj (hp.symm.trans hp')
    exact hkept
  · exact fun hkept => ⟨p, hp, hkept⟩

end

/-- A frame touches only the buffers of its own mode. The pixel loop breaks this exactly when a WS
frame has something new for an SPI LED behind the length of a WS strip; an SPI frame must also fit
the buffers it is sent from. -/
theorem frame_spares_other_buffers_iff {dm : DataModel} {world : World} {s : MainState}
    {counts : List UInt16} {payload : List UInt8} {d : Datagram} {rest : List Datagram}
    {isWS : Bool}
    (hm : s.frameInput.Ready) (hready : s.spiOut.Ready) (hpending : s.pending = d :: rest)
    (hd : d.bytes = frameBytes counts payload) (hmin : 5 ≤ d.bytes.length)
    (hmax : d.bytes.length ≤ MAX_SENDBUFFER_SIZE) (hcounts : counts.length ≤ 6)
    (hplain : ∀ count ∈ counts, lowByte count ≠ 0xff ∧ highByte count ≠ 0xff)
    (hflag : ∀ n, loadOf s.isWS world.stores n = isWS) :
    (∃ f, readFrame dm (fun _ => isWS) (overlay s.message d.bytes) d.bytes.length s.ledsInChannel
        s.wsOut s.spiOut = .ok f ∧
      (OthersKept isWS s.wsOut f.pixels.wsOut s.spiOut f.pixels.spiOut ↔
        (isWS = true → LongStripsShown s.spiOut counts payload))) ∧
    ((∃ p, framePass dm world s = .ok p ∧
        OthersKept isWS s.wsOut p.state.wsOut s.spiOut p.state.spiOut) ↔
      if isWS then LongStripsShown s.spiOut counts payload
      else ∀ k < min counts.length MAX_CHANNELS, ledsOfCount counts k ≤ LED_COUNT_SPI) := by
  have hmax' : (frameBytes counts payload).length ≤ MAX_SENDBUFFER_SIZE := hd ▸ hmax
  obtain ⟨f, hf⟩ := readFrame_plain_ok hmax' hplain s.message dm (fun _ => isWS) hcounts
    s.ledsInChannel s.wsOut hready
  refine ⟨⟨f, by rw [hd]; exact hf, ?_⟩, ?_⟩
  · cases isWS with
    | true =>
      exact (pixels_spare_spi_iff hmax' hplain s.message hready hf).trans
        ⟨fun hshown _ => hshown, fun hshown => hshown rfl⟩
    | false =>
      exact ⟨fun _ hws => Bool.noConfusion hws,
        fun _ => pixels_spare_ws hmax' hplain s.message hready hf⟩
  · cases isWS with
    | true => exact framePass_ws_iff dm hm hready hpending hd hmin hmax hcounts hplain hflag
    | false => exact framePass_spi_iff dm hm hready hpending hd hmin hmax hcounts hplain hflag

def shortStrip : Datagram := ⟨frameBytes [2] [1, 2, 3, 4, 5, 6], default, by decide⟩

theorem shortStrip_plain : ∀ count ∈ [2], Plain count :=
  List.forall_mem_singleton.mpr (by decide)

theorem short_strip_spares_spi :
    ∃ p, framePass lp64 toWs (listening (Vector.replicate _ 0) [shortStrip]) = .ok p ∧
      ∀ c i, p.state.spiOut.word c i =
        (listening (Vector.replicate _ 0) [shortStrip]).spiOut.word c i := by
  have hpending : (listening (Vector.replicate _ 0) [shortStrip]).pending = [shortStrip] := rfl
  have hshown : LongStripsShown (listening (Vector.replicate _ 0) [shortStrip]).spiOut [2]
      [1, 2, 3, 4, 5, 6] := by
    intro k hk j hj hlong
    obtain rfl : k = 0 := Nat.lt_one_iff.mp hk
    have hone : ledsOfCount [2] 0 = 2 := by decide
    unfold LED_COUNT_WS at hlong
    omega
  exact (frame_spares_other_buffers_iff bound_ready (listening_ready _ _) hpending rfl (by decide)
    (by decide) (by decide) shortStrip_plain (loadOf_toWs _)).2.mpr hshown

/-- A strip of 1001 LEDs, one more than a WS array has. -/
def longStrip : Datagram where
  bytes := frameBytes [1001] (List.replicate 3003 1)
  sender := default
  length_le := by rw [length_frameBytes, List.length_replicate]; decide

/-- Its last LED goes to the SPI buffer although the flag is true throughout. -/
theorem long_strip_writes_spi :
    ¬∃ p, framePass lp64 toWs (listening (Vector.replicate _ 0) [longStrip]) = .ok p ∧
      ∀ c i, p.state.spiOut.word c i =
        (listening (Vector.replicate _ 0) [longStrip]).spiOut.word c i := by
  have hpending : (listening (Vector.replicate _ 0) [longStrip]).pending = [longStrip] := rfl
  have hlen : longStrip.bytes.length = 3007 := by
    rw [longStrip, length_frameBytes, List.length_replicate]
    rfl
  have hplain : ∀ count ∈ [1001], Plain count := List.forall_mem_singleton.mpr (by decide)
  intro hkept
  have hshown := (framePass_ws_iff lp64 bound_ready (listening_ready _ _) hpending rfl
    (by omega) (by rw [hlen]; decide) (by decide) hplain (loadOf_toWs _)).mp hkept
  have hled := hshown 0 (by decide) 1000 (by decide) (by decide) (by decide)
    (by rw [List.length_replicate]; decide)
  have hold : (listening (Vector.replicate _ 0) [longStrip]).spiOut.word 0 1001 = default :=
    spiSetup_word lp64 3 (fun _ => default) (fun _ => default) (by decide) (by decide)
  exact absurd (congrArg Sk9822Color.f (hold.symm.trans hled)) (by decide)

/-- What the pixel loop makes of a frame for the WS arrays: each LED that the frame has a triple
for shows it and the others keep theirs, with all writes inside the arrays and all reads inside
the payload. -/
theorem ws_frame_demultiplexed (dm : DataModel) {world : World} {s : MainState}
    {counts : List UInt16} {payload : List UInt8} {d : Datagram} {rest : List Datagram}
    (hm : s.frameInput.Ready) (hready : s.spiOut.Ready) (hpending : s.pending = d :: rest)
    (hd : d.bytes = frameBytes counts payload) (hmin : 5 ≤ d.bytes.length)
    (hmax : d.bytes.length ≤ MAX_SENDBUFFER_SIZE) (hcounts : counts.length ≤ 6)
    (hplain : ∀ count ∈ counts, lowByte count ≠ 0xff ∧ highByte count ≠ 0xff)
    (hflag : ∀ n, loadOf s.isWS world.stores n = true) :
    ∃ p f, framePass dm world s = .ok p ∧ p.frame = some f ∧ p.state.wsOut = f.pixels.wsOut ∧
      (∀ k < MAX_CHANNELS, ∀ j < LED_COUNT_WS, wsLed f.pixels.wsOut k j =
        if (k < counts.length ∧ j < ledsOfCount counts k) ∧
            chanOffset (ledsOfCount counts) k + j < payload.length / 3
        then payloadWsColour payload (chanOffset (ledsOfCount counts) k + j)
        else wsLed s.wsOut k j) ∧
      (∀ w ∈ f.pixels.writes, w.isWS = true →
        w.pixel.chan < MAX_CHANNELS ∧ w.pixel.index < LED_COUNT_WS) ∧
      ∀ a ∈ f.header.reads dm d.bytes.length,
        f.header.headerByteOffset ≤ a ∧ a < d.bytes.length := by
  obtain ⟨p, f, hp, hframe, hf, hws, _⟩ :=
    framePass_ws dm hm hready hpending hd hmin hmax hcounts hplain hflag
  have hmax' : (frameBytes counts payload).length ≤ MAX_SENDBUFFER_SIZE := hd ▸ hmax
  refine ⟨p, f, hp, hframe, hws, ?_, ?_, ?_⟩
  · intro k hk j hj
    rw [readFrame_plain_wsLed hmax' hplain s.message hready hf]
    refine if_congr ?_ rfl rfl
    simp only [WsWritten, hj, Nat.lt_min, hk, and_true]
  · intro w hw hisWS
    rw [(readFrame_writes hf).2] at hw
    obtain ⟨n, hn, rfl⟩ := mem_route.mp hw
    exact ⟨Header.pixels_chan (List.getElem_mem hn), by simpa using hisWS⟩
  · intro a ha
    obtain ⟨hoff, _, htotal, _⟩ := readFrame_plain hmax' hplain s.message hf
    have hlen := length_frameBytes counts payload
    rw [hd, Header.reads, hoff, htotal] at ha
    obtain ⟨i, hi, _, r, hr, rfl⟩ := mem_pixelReads.mp ha
    rw [hd, hoff]
    omega

theorem ws_frame_demultiplexed_short_strip :
    ∃ p, framePass lp64 toWs (listening (Vector.replicate _ 0) [shortStrip]) = .ok p ∧
      wsLed p.state.wsOut 0 1 = payloadWsColour [1, 2, 3, 4, 5, 6] 1 := by
  have hpending : (listening (Vector.replicate _ 0) [shortStrip]).pending = [shortStrip] := rfl
  obtain ⟨p, f, hp, _, hws, hled, _⟩ := ws_frame_demultiplexed lp64 bound_ready
    (listening_ready _ _) hpending rfl (by decide) (by decide) (by decide) shortStrip_plain
    (loadOf_toWs _)
  exact ⟨p, hp, hws ▸ hled 0 (by decide) 1 (by decide)⟩

end LmListener
