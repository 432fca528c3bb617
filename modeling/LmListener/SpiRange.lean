import LmListener.FramePass
import LmListener.HeaderCodec

namespace LmListener

open Checked CTypes

variable {dm : DataModel} {isWS : Nat → Bool} {rendered : Bool} {received j : Nat} {s : MainState}

theorem chanOffset_le {leds : Nat → Nat} {n b : Nat} (h : ∀ k < n, leds k ≤ b) :
    chanOffset leds n ≤ n * b := by
  induction n with
  | zero => rw [chanOffset, Nat.zero_mul]
  | succ n ih =>
    have := ih fun k hk => h k (by omega)
    have := h n (by omega)
    rw [chanOffset, Nat.succ_mul]
    omega

theorem parseHeader_leds {message : Message} (ledsInChannel : Vector UInt16 6)
    (hends : HeaderEnds message (received - 1) j) (hj : j ≤ 6) :
    ∃ h, parseHeader message received ledsInChannel = .ok h ∧ h.chanCntr = j ∧
      h.headerByteOffset = j * 2 + 2 ∧ h.channels = min j MAX_CHANNELS ∧
      ∀ k < j, h.leds k = (countAt message k).toNat := by
  obtain ⟨h, ho, hc, hl⟩ := parseHeader_ok ledsInChannel hends hj
  refine ⟨h, ho, hc, by rw [Header.headerByteOffset, hc], by rw [h.channels_eq, hc], ?_⟩
  intro k hk
  rw [Header.leds, ledsOfChannel, hl, if_pos hk]

theorem readFrame_headerEnds {message : Message} {ledsInChannel : Vector UInt16 6} {wsOut : WsOut}
    {spiOut : SpiOut} {f : Frame} (hends : HeaderEnds message (received - 1) j)
    (h : readFrame dm isWS message received ledsInChannel wsOut spiOut = .ok f) :
    j ≤ 6 ∧ f.header.chanCntr = j ∧ f.header.headerByteOffset = j * 2 + 2 ∧
      f.header.channels = min j MAX_CHANNELS ∧
      ∀ k < j, f.header.leds k = (countAt message k).toNat := by
  obtain ⟨hp, _⟩ := readFrame_writePixels h
  have hj : j ≤ 6 := by
    by_contra hj
    rw [parseHeader_overflow ledsInChannel hends (by omega)] at hp
    cases hp
  obtain ⟨h', hp', hh⟩ := parseHeader_leds ledsInChannel hends hj
  rw [hp] at hp'
  cases hp'
  exact ⟨hj, hh⟩

/-- With at most 2000 LEDs a channel, even a pixel count that wrapped keeps the pixel loop inside
the message. -/
theorem readFrame_ok_of_counts (dm : DataModel) (isWS : Nat → Bool) {message : Message}
    (ledsInChannel : Vector UInt16 6)
    (wsOut : WsOut) {spiOut : SpiOut} (hready : spiOut.Ready)
    (hends : HeaderEnds message (received - 1) j) (hj : j ≤ 6)
    (hcounts : ∀ k < min j MAX_CHANNELS, (countAt message k).toNat ≤ LED_COUNT_SPI) :
    ∃ f, readFrame dm isWS message received ledsInChannel wsOut spiOut = .ok f := by
  obtain ⟨h, hp, _, hoff, hch, hl⟩ := parseHeader_leds ledsInChannel hends hj
  have htotal : chanOffset h.leds h.channels ≤ h.channels * LED_COUNT_SPI :=
    chanOffset_le fun k hk => by
      rw [hl k (by omega)]
      exact hcounts k (by omega)
  have hmax : chanOffset h.leds h.channels ≤ MAX_CHANNELS * LED_COUNT_SPI :=
    Nat.le_trans htotal (Nat.mul_le_mul_right _ h.channels_le)
  obtain ⟨f, hf, _⟩ := readFrame_ok dm isWS wsOut hp (by
    intro i _ hi
    rw [hoff]
    unfold MAX_CHANNELS LED_COUNT_SPI at hmax
    unfold MAX_SENDBUFFER_SIZE
    omega) hready
  exact ⟨f, hf⟩

/-- And its output stays inside the buffers. -/
theorem frame_ok_of_counts (dm : DataModel) (isWS : Nat → Bool) (rendered : Bool)
    {message : Message} (ledsInChannel : Vector UInt16 6) (wsOut : WsOut) {spiOut : SpiOut}
    (hready : spiOut.Ready) (hends : HeaderEnds message (received - 1) j) (hj : j ≤ 6)
    (hcounts : ∀ k < min j MAX_CHANNELS, (countAt message k).toNat ≤ LED_COUNT_SPI) :
    ∃ f r, readFrame dm isWS message received ledsInChannel wsOut spiOut = .ok f ∧
      outputFrame dm (isWS f.pixels.loads) rendered f = .ok r := by
  obtain ⟨f, hf⟩ := readFrame_ok_of_counts dm isWS ledsInChannel wsOut hready hends hj hcounts
  obtain ⟨_, _, _, hch, hl⟩ := readFrame_headerEnds hends hf
  have hpixels := hready.of_shape (readFrame_reflects hready hf).shape
  have hfits : ∀ k < f.header.channels, f.header.leds k ≤ LED_COUNT_SPI := by
    intro k hk
    rw [hl k (by omega)]
    exact hcounts k (by omega)
  obtain ⟨r, hr⟩ := outputFrame_ok dm (isWS f.pixels.loads) rendered hpixels fun _ => hfits
  exact ⟨f, r, hf, hr⟩

theorem processFrame_ok_of_counts (dm : DataModel) (isWS : Nat → Bool) (rendered : Bool)
    (hready : s.spiOut.Ready)
    (hends : HeaderEnds s.message (received - 1) j) (hj : j ≤ 6)
    (hcounts : ∀ k < min j MAX_CHANNELS, (countAt s.message k).toNat ≤ LED_COUNT_SPI) :
    ∃ p, processFrame dm isWS rendered received s = .ok p := by
  obtain ⟨f, r, hf, hr⟩ :=
    frame_ok_of_counts dm isWS rendered s.ledsInChannel s.wsOut hready hends hj hcounts
  exact ⟨_, bind_eq_ok.mpr ⟨f, hf, bind_eq_ok.mpr ⟨r, hr, rfl⟩⟩⟩

theorem framePass_ok_of_counts (dm : DataModel) (world : World) (hm : s.frameInput.Ready)
    (hready : s.spiOut.Ready) {d : Datagram} {rest : List Datagram} (hp : s.pending = d :: rest)
    (h4 : 4 < d.bytes.length) (hmax : d.bytes.length ≤ MAX_SENDBUFFER_SIZE)
    (hends : HeaderEnds (overlay s.message d.bytes) (d.bytes.length - 1) j) (hj : j ≤ 6)
    (hcounts : ∀ k < min j MAX_CHANNELS,
      (countAt (overlay s.message d.bytes) k).toNat ≤ LED_COUNT_SPI) :
    ∃ p f, framePass dm world s = .ok p ∧ p.frame = some f := by
  obtain ⟨f, r, hf, hr⟩ := frame_ok_of_counts dm (loadOf s.isWS world.stores) world.rendered
    s.ledsInChannel s.wsOut hready hends hj hcounts
  obtain ⟨p, hpass, hframe⟩ := framePass_ok hm hp h4 hmax hf hr
  exact ⟨p, f, hpass, hframe⟩

theorem processFrame_fits (hready : s.spiOut.Ready)
    (hends : HeaderEnds s.message (received - 1) j) {p : Pass}
    (h : processFrame dm (fun _ => false) rendered received s = .ok p) :
    j ≤ 6 ∧ ∀ k < min j MAX_CHANNELS, (countAt s.message k).toNat ≤ LED_COUNT_SPI := by
  obtain ⟨f, spiOut, outputs, looping, hf, ho, _⟩ := processFrame_cases h
  obtain ⟨hj, _, _, hch, hl⟩ := readFrame_headerEnds hends hf
  have hpixels := hready.of_shape (readFrame_reflects hready hf).shape
  obtain ⟨hws, _⟩ | ⟨_, _, hfits, _⟩ := outputFrame_cases hpixels ho
  · cases hws
  refine ⟨hj, fun k hk => ?_⟩
  rw [← hl k (by omega)]
  exact hfits k (by omega)

theorem processFrame_error (hready : s.spiOut.Ready)
    (hends : HeaderEnds s.message (received - 1) j) (hj : j ≤ 6) (hle : j * 2 + 2 ≤ received)
    (hmax : received ≤ MAX_SENDBUFFER_SIZE) {e : Fault}
    (h : processFrame dm (fun _ => false) rendered received s = .error e) :
    ∃ i, e = .spiWord i := by
  obtain ⟨header, hp, _, hoff, _⟩ := parseHeader_leds s.ledsInChannel hends hj
  obtain ⟨f, hf, _⟩ := readFrame_ok dm (fun _ => false) s.wsOut hp
    (fun i hi _ => pixels_inRange (by omega) hmax i hi) hready
  have hshape := (readFrame_reflects hready hf).shape
  rcases bind_eq_error.mp h with h | ⟨f', hf', h⟩
  · rw [hf] at h
    cases h
  rw [hf] at hf'
  cases hf'
  rcases bind_eq_error.mp h with h | ⟨_, _, h⟩
  · rw [outputFrame, if_neg (by simp)] at h
    rcases bind_eq_error.mp h with h | ⟨_, _, h⟩
    · exact sendFrame_error (hready.of_shape hshape) f.header.channels_le h
    · cases h
  · cases h

/-- A frame for the SPI stays inside its buffers exactly when its header ends within the table of
counts and announces at most 2000 LEDs on each of the two channels. -/
theorem frame_spi_inRange_iff (hready : s.spiOut.Ready) :
    (∃ p, processFrame dm (fun _ => false) rendered received s = .ok p) ↔
      ∃ j ≤ 6, HeaderEnds s.message (received - 1) j ∧
        ∀ k < min j MAX_CHANNELS, (countAt s.message k).toNat ≤ LED_COUNT_SPI := by
  constructor
  · intro hex
    obtain ⟨p, hp⟩ := hex
    obtain ⟨j, hends⟩ := headerEnds_exists s.message (received - 1)
    obtain ⟨hj, hcounts⟩ := processFrame_fits hready hends hp
    exact ⟨j, hj, hends, hcounts⟩
  · intro hex
    obtain ⟨j, hj, hends, hcounts⟩ := hex
    exact processFrame_ok_of_counts dm _ rendered hready hends hj hcounts

def oneChannel (count : UInt16) : MainState :=
  listening (overlay (Vector.replicate _ 0) (frameBytes [count] [0])) []

theorem oneChannel_headerEnds {count : UInt16} (h : Plain count) :
    HeaderEnds (oneChannel count).message (5 - 1) 1 := by
  have hl : (frameBytes [count] [0]).length = 5 := by
    rw [length_frameBytes]
    rfl
  have hp : plainPrefix [count] = 1 := plainPrefix_eq_length_iff.mpr (by simpa using h)
  have hmax : (frameBytes [count] [0]).length ≤ MAX_SENDBUFFER_SIZE := by
    rw [hl]
    decide
  have := frame_headerEnds hmax (Vector.replicate _ 0)
  rwa [hl, hp] at this

theorem frame_spi_inRange_2000 :
    ∃ p, processFrame lp64 (fun _ => false) true 5 (oneChannel 2000) = .ok p :=
  (frame_spi_inRange_iff (listening_ready _ _)).mpr
    ⟨1, by decide, oneChannel_headerEnds (by decide), by decide⟩

theorem frame_2001_out_of_range :
    ∃ i, processFrame lp64 (fun _ => false) true 5 (oneChannel 2001) = .error (.spiWord i) := by
  have hends : HeaderEnds (oneChannel 2001).message (5 - 1) 1 := oneChannel_headerEnds (by decide)
  cases h : processFrame lp64 (fun _ => false) true 5 (oneChannel 2001) with
  | ok p =>
    obtain ⟨_, hcounts⟩ := processFrame_fits (listening_ready _ _) hends h
    exact absurd hcounts (by decide)
  | error e =>
    obtain ⟨i, rfl⟩ :=
      processFrame_error (listening_ready _ _) hends (by decide) (by decide) (by decide) h
    exact ⟨i, rfl⟩

end LmListener
