import LmListener.FrameWords
import LmListener.SpiRange

namespace LmListener

open Checked CTypes

def payloadColour (payload : List UInt8) (i : Nat) : Sk9822Color :=
  ⟨0xff, payload.getD (i * 3 + 2) 0, payload.getD (i * 3 + 1) 0, payload.getD (i * 3) 0⟩

/-- `(r << 16) | (g << 8) | b` of triple `i` of the payload. -/
def payloadWsColour (payload : List UInt8) (i : Nat) : UInt32 :=
  (payload.getD (i * 3) 0).toUInt32 <<< 16 ||| (payload.getD (i * 3 + 1) 0).toUInt32 <<< 8 |||
    (payload.getD (i * 3 + 2) 0).toUInt32

def ledsOfCount (counts : List UInt16) (k : Nat) : Nat := (counts.getD k 0).toNat

section

variable {counts : List UInt16} {payload : List UInt8}
  (hmax : (frameBytes counts payload).length ≤ MAX_SENDBUFFER_SIZE)
  (hplain : ∀ count ∈ counts, Plain count) (old : Message)

include hmax

theorem pixelAt_frame (k off : Nat) {i : Nat} (hi : i < payload.length / 3) :
    (pixelAt (overlay old (frameBytes counts payload)) (counts.length * 2 + 2) k off i).spiColour =
        payloadColour payload i ∧
      (pixelAt (overlay old (frameBytes counts payload)) (counts.length * 2 + 2) k off i).wsColour =
        payloadWsColour payload i := by
  have hcell : ∀ n < payload.length,
      cell (overlay old (frameBytes counts payload)) (counts.length * 2 + 2 + n) =
        payload.getD n 0 := by
    intro n hn
    rw [cell_frame_payload hmax old hn]
    simp [hn]
  simp only [Pixel.spiColour, Pixel.wsColour, pixelAt, payloadColour, hcell (i * 3 + 0) (by omega),
    hcell (i * 3 + 1) (by omega), hcell (i * 3 + 2) (by omega)]
  exact ⟨rfl, rfl⟩

theorem countAt_ledsOfCount {k : Nat} (hk : k < counts.length) :
    (countAt (overlay old (frameBytes counts payload)) k).toNat = ledsOfCount counts k := by
  rw [countAt_frame hmax old hk, ledsOfCount]
  simp [hk]

include hplain

theorem plain_headerEnds :
    HeaderEnds (overlay old (frameBytes counts payload)) ((frameBytes counts payload).length - 1)
      counts.length :=
  plainPrefix_eq_length_iff.mpr hplain ▸ frame_headerEnds hmax old

variable {dm : DataModel} {isWS : Nat → Bool} {ledsInChannel : Vector UInt16 6} {wsOut : WsOut}
  {spiOut : SpiOut} {f : Frame}

/-- What the header loop makes of a frame of plain counts. -/
theorem readFrame_plain
    (h : readFrame dm isWS (overlay old (frameBytes counts payload))
      (frameBytes counts payload).length ledsInChannel wsOut spiOut = .ok f) :
    f.header.headerByteOffset = counts.length * 2 + 2 ∧
      f.header.channels = min counts.length MAX_CHANNELS ∧
      totalLedsNum dm (frameBytes counts payload).length (counts.length * 2 + 2) =
        payload.length / 3 ∧
      ∀ c < counts.length, f.header.leds c = ledsOfCount counts c := by
  obtain ⟨_, _, hoff, hch, hl⟩ := readFrame_headerEnds (plain_headerEnds hmax hplain old) h
  have hlen := length_frameBytes counts payload
  refine ⟨hoff, hch, ?_, fun c hc => (hl c hc).trans (countAt_ledsOfCount hmax old hc)⟩
  rw [totalLedsNum_of_le (by omega) hmax]
  omega

theorem readFrame_plain_ok (dm : DataModel) (isWS : Nat → Bool) (hcounts : counts.length ≤ 6)
    (ledsInChannel : Vector UInt16 6) (wsOut : WsOut) (hready : spiOut.Ready) :
    ∃ f, readFrame dm isWS (overlay old (frameBytes counts payload))
      (frameBytes counts payload).length ledsInChannel wsOut spiOut = .ok f := by
  have hlen := length_frameBytes counts payload
  obtain ⟨h, hp, _, hoff, _⟩ :=
    parseHeader_leds ledsInChannel (plain_headerEnds hmax hplain old) hcounts
  obtain ⟨f, hf, _⟩ := readFrame_ok dm isWS wsOut hp
    (fun i hi _ => pixels_inRange (by omega) hmax i hi) hready
  exact ⟨f, hf⟩

section

variable (hready : spiOut.Ready)
  (h : readFrame dm isWS (overlay old (frameBytes counts payload))
    (frameBytes counts payload).length ledsInChannel wsOut spiOut = .ok f)

include hready h

theorem readFrame_plain_spiWord {k m : Nat} (hm : m ≤ LED_COUNT_SPI) :
    f.pixels.spiOut.word k (m + 1) =
      if SpiWritten isWS (ledsOfCount counts) (min counts.length MAX_CHANNELS)
        (payload.length / 3) k m
      then payloadColour payload (chanOffset (ledsOfCount counts) k + m)
      else spiOut.word k (m + 1) := by
  obtain ⟨hoff, hch, htotal, hleds⟩ := readFrame_plain hmax hplain old h
  rw [readFrame_spiWord hready h hm, hoff, hch, htotal]
  refine ite_congr (propext (SpiWritten.congr fun c hc => hleds c (by omega))) (fun hw => ?_)
    fun _ => rfl
  obtain ⟨⟨⟨hk, _⟩, ht⟩, _⟩ := hw
  rw [chanOffset_congr fun c hc => hleds c (by omega), (pixelAt_frame hmax old _ _ ht).1]

theorem readFrame_plain_wsLed (k m : Nat) :
    wsLed f.pixels.wsOut k m =
      if WsWritten isWS (ledsOfCount counts) (min counts.length MAX_CHANNELS)
        (payload.length / 3) k m
      then payloadWsColour payload (chanOffset (ledsOfCount counts) k + m)
      else wsLed wsOut k m := by
  obtain ⟨hoff, hch, htotal, hleds⟩ := readFrame_plain hmax hplain old h
  rw [readFrame_wsLed hready h, hoff, hch, htotal]
  refine ite_congr (propext (WsWritten.congr fun c hc => hleds c (by omega))) (fun hw => ?_)
    fun _ => rfl
  obtain ⟨⟨⟨hk, _⟩, ht⟩, _⟩ := hw
  rw [chanOffset_congr fun c hc => hleds c (by omega), (pixelAt_frame hmax old _ _ ht).2]

end

end

end LmListener
