import LmListener.FramePass

namespace LmListener

open Checked CTypes

/-- The indices of `message` read for pixel number `i`. -/
def tripleReads (headerByteOffset i : Nat) : List Nat :=
  [headerByteOffset + (i * 3 + 0), headerByteOffset + (i * 3 + 1), headerByteOffset + (i * 3 + 2)]

/-- The indices of `message` that the pixel loop reads, in their order. -/
def pixelReads (headerByteOffset totalLedsNum : Nat) (leds : Nat → Nat) (chanCntr : Nat) :
    List Nat :=
  (List.range chanCntr).flatMap fun k =>
    (List.range' (chanOffset leds k)
      (min (leds k + chanOffset leds k) totalLedsNum - chanOffset leds k)).flatMap
      (tripleReads headerByteOffset)

def Header.reads (dm : DataModel) (received : Nat) (h : Header) : List Nat :=
  pixelReads h.headerByteOffset (totalLedsNum dm received h.headerByteOffset) h.leds h.channels

variable {headerByteOffset totalLedsNum chanCntr : Nat} {leds : Nat → Nat}

theorem mem_tripleReads {i a : Nat} :
    a ∈ tripleReads headerByteOffset i ↔ ∃ r < 3, a = headerByteOffset + (i * 3 + r) := by
  simp only [tripleReads, List.mem_cons, List.not_mem_nil, or_false]
  constructor
  · rintro (rfl | rfl | rfl)
    exacts [⟨0, by omega, rfl⟩, ⟨1, by omega, rfl⟩, ⟨2, by omega, rfl⟩]
  · intro hex
    obtain ⟨r, hr, rfl⟩ := hex
    omega

theorem mem_pixelReads {a : Nat} :
    a ∈ pixelReads headerByteOffset totalLedsNum leds chanCntr ↔
      ∃ i < totalLedsNum, i < chanOffset leds chanCntr ∧
        ∃ r < 3, a = headerByteOffset + (i * 3 + r) := by
  simp only [pixelReads, List.mem_flatMap, List.mem_range, List.mem_range'_1, mem_tripleReads]
  constructor
  · intro hex
    obtain ⟨k, hk, i, ⟨hlo, hhi⟩, hr⟩ := hex
    have hend : chanOffset leds (k + 1) ≤ chanOffset leds chanCntr := chanOffset_mono leds hk
    rw [chanOffset] at hend
    exact ⟨i, by omega, by omega, hr⟩
  · intro hex
    obtain ⟨i, ht, hi, hr⟩ := hex
    obtain ⟨k, hk, hlo, hhi⟩ := exists_chanOffset hi
    rw [chanOffset] at hhi
    exact ⟨k, hk, i, ⟨hlo, by omega⟩, hr⟩

theorem reads_below_iff {bound : Nat} :
    (∀ a ∈ pixelReads headerByteOffset totalLedsNum leds chanCntr, a < bound) ↔
      ∀ i < totalLedsNum, i < chanOffset leds chanCntr →
        headerByteOffset + (i * 3 + 2) < bound := by
  constructor
  · exact fun h i ht hi => h _ (mem_pixelReads.mpr ⟨i, ht, hi, 2, by omega, rfl⟩)
  · intro h a ha
    obtain ⟨i, ht, hi, r, hr, rfl⟩ := mem_pixelReads.mp ha
    have := h i ht hi
    omega

section

variable {isWS : Nat → Bool} {message message' : Message} {ledsInChannel : Vector UInt16 6}
  {start s : PixelState}

/-- The pixel loop ends normally when each of its reads is inside the buffer, and the pixels it
writes are made of these bytes alone. -/
theorem pixelLoop_reads (hc : chanCntr ≤ MAX_CHANNELS) :
    pixelLoop isWS message headerByteOffset totalLedsNum ledsInChannel chanCntr start = .ok s ↔
      (∀ a ∈ pixelReads headerByteOffset totalLedsNum (ledsOfChannel ledsInChannel) chanCntr,
        a < MAX_SENDBUFFER_SIZE) ∧
      writePixels isWS (framePixels message headerByteOffset totalLedsNum
        (ledsOfChannel ledsInChannel) chanCntr) start = .ok s := by
  rw [pixelLoop_eq_ok_iff hc, reads_below_iff]

theorem pixelLoop_congr (hc : chanCntr ≤ MAX_CHANNELS)
    (h : ∀ a ∈ pixelReads headerByteOffset totalLedsNum (ledsOfChannel ledsInChannel) chanCntr,
      cell message a = cell message' a) :
    pixelLoop isWS message headerByteOffset totalLedsNum ledsInChannel chanCntr start = .ok s ↔
      pixelLoop isWS message' headerByteOffset totalLedsNum ledsInChannel chanCntr start =
        .ok s := by
  have hpixels : framePixels message headerByteOffset totalLedsNum (ledsOfChannel ledsInChannel)
      chanCntr = framePixels message' headerByteOffset totalLedsNum (ledsOfChannel ledsInChannel)
      chanCntr :=
    framePixels_congr (fun _ _ => rfl)
      fun i ht hi r hr => h _ (mem_pixelReads.mpr ⟨i, ht, hi, r, hr, rfl⟩)
  rw [pixelLoop_reads hc, pixelLoop_reads hc, hpixels]

end

end LmListener
