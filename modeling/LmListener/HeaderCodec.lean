import LmListener.FrameHeader

namespace LmListener

open Checked

def lowByte (count : UInt16) : UInt8 := count.toUInt8

def highByte (count : UInt16) : UInt8 := (count >>> 8).toUInt8

def countBytes (count : UInt16) : List UInt8 := [lowByte count, highByte count]

/-- The counts, low byte first, and the two bytes that end the header. -/
def encodeHeader (counts : List UInt16) : List UInt8 := counts.flatMap countBytes ++ [0xff, 0xff]

def frameBytes (counts : List UInt16) (payload : List UInt8) : List UInt8 :=
  encodeHeader counts ++ payload

def Plain (count : UInt16) : Prop := lowByte count ≠ 0xff ∧ highByte count ≠ 0xff

instance (count : UInt16) : Decidable (Plain count) := inferInstanceAs (Decidable (_ ∧ _))

/-- How many counts come before the first one that is not plain. -/
def plainPrefix (counts : List UInt16) : Nat := counts.findIdx fun count => decide ¬Plain count

theorem plainPrefix_le (counts : List UInt16) : plainPrefix counts ≤ counts.length :=
  List.findIdx_le_length

theorem plainPrefix_eq_length_iff {counts : List UInt16} :
    plainPrefix counts = counts.length ↔ ∀ count ∈ counts, Plain count := by
  simp [plainPrefix, List.findIdx_eq_length]

theorem ledsOf_toNat (hi lo : UInt8) : (ledsOf hi lo).toNat = hi.toNat * 256 + lo.toNat := by
  have hlo := lo.toNat_lt
  have hhi := hi.toNat_lt
  have hshift : (hi.toUInt16 <<< 8).toNat = hi.toNat <<< 8 := by
    simp [UInt16.toNat_shiftLeft, Nat.shiftLeft_eq]
    omega
  rw [ledsOf, UInt16.toNat_or, hshift, UInt8.toNat_toUInt16, ← Nat.shiftLeft_add_eq_or_of_lt hlo,
    Nat.shiftLeft_eq]

theorem ledsOf_bytes (count : UInt16) : ledsOf (highByte count) (lowByte count) = count := by
  apply UInt16.toNat_inj.mp
  have := count.toNat_lt
  rw [ledsOf_toNat, highByte, lowByte]
  simp [Nat.shiftRight_eq_div_pow]
  omega

theorem length_flatMap_countBytes (counts : List UInt16) :
    (counts.flatMap countBytes).length = counts.length * 2 := by
  induction counts with
  | nil => rfl
  | cons count counts ih => simp [countBytes, ih]; omega

theorem length_encodeHeader (counts : List UInt16) :
    (encodeHeader counts).length = counts.length * 2 + 2 := by
  rw [encodeHeader, List.length_append, length_flatMap_countBytes]
  rfl

theorem length_frameBytes (counts : List UInt16) (payload : List UInt8) :
    (frameBytes counts payload).length = counts.length * 2 + 2 + payload.length := by
  simp [frameBytes, length_encodeHeader]

theorem flatMap_countBytes_getElem? {counts : List UInt16} {k : Nat} (hk : k < counts.length) :
    (counts.flatMap countBytes)[k * 2]? = some (lowByte counts[k]) ∧
      (counts.flatMap countBytes)[k * 2 + 1]? = some (highByte counts[k]) := by
  induction counts generalizing k with
  | nil => simp at hk
  | cons count counts ih =>
    cases k with
    | zero => simp [countBytes]
    | succ k =>
      have := ih (k := k) (by simpa using hk)
      simpa [countBytes, Nat.succ_mul] using this

section

variable {counts : List UInt16} {payload : List UInt8}
  (hlen : (frameBytes counts payload).length ≤ MAX_SENDBUFFER_SIZE) (old : Message)

include hlen

theorem cell_frame_count {k : Nat} (hk : k < counts.length) :
    cell (overlay old (frameBytes counts payload)) (k * 2) = lowByte counts[k] ∧
      cell (overlay old (frameBytes counts payload)) (k * 2 + 1) = highByte counts[k] := by
  have hl := length_frameBytes counts payload
  have hf := length_flatMap_countBytes counts
  obtain ⟨hlow, hhigh⟩ := flatMap_countBytes_getElem? hk
  rw [cell_overlay old hlen, cell_overlay old hlen, if_pos (by omega), if_pos (by omega)]
  simp only [frameBytes, encodeHeader, List.append_assoc]
  rw [List.getElem?_append_left (by omega), List.getElem?_append_left (by omega), hlow, hhigh]
  exact ⟨rfl, rfl⟩

theorem cell_frame_terminator :
    cell (overlay old (frameBytes counts payload)) (counts.length * 2) = 0xff := by
  have hl := length_frameBytes counts payload
  have hf := length_flatMap_countBytes counts
  rw [cell_overlay old hlen, if_pos (by omega)]
  simp only [frameBytes, encodeHeader, List.append_assoc]
  rw [List.getElem?_append_right (by omega), hf, Nat.sub_self]
  rfl

theorem cell_frame_payload {i : Nat} (hi : i < payload.length) :
    cell (overlay old (frameBytes counts payload)) (counts.length * 2 + 2 + i) = payload[i] := by
  have hl := length_frameBytes counts payload
  have hh := length_encodeHeader counts
  rw [cell_overlay old hlen, if_pos (by omega), frameBytes,
    List.getElem?_append_right (by omega), hh, Nat.add_sub_cancel_left]
  simp [hi]

theorem countAt_frame {k : Nat} (hk : k < counts.length) :
    countAt (overlay old (frameBytes counts payload)) k = counts[k] := by
  obtain ⟨hlow, hhigh⟩ := cell_frame_count hlen old hk
  rw [countAt, hlow, hhigh, ledsOf_bytes]

theorem stops_frame_iff {k : Nat} (hk : k < counts.length) :
    Stops (overlay old (frameBytes counts payload)) k ↔ ¬Plain counts[k] := by
  obtain ⟨hlow, hhigh⟩ := cell_frame_count hlen old hk
  rw [Stops, hlow, hhigh, Plain]
  tauto

theorem frame_headerEnds :
    HeaderEnds (overlay old (frameBytes counts payload))
      ((frameBytes counts payload).length - 1) (plainPrefix counts) where
  le := by
    have hl := length_frameBytes counts payload
    have := plainPrefix_le counts
    omega
  before c hc := by
    have hcl : c < counts.length := lt_of_lt_of_le hc (plainPrefix_le counts)
    rw [stops_frame_iff hlen old hcl, not_not]
    simpa using List.not_of_lt_findIdx hc
  stop := by
    right
    by_cases hk : plainPrefix counts < counts.length
    · rw [stops_frame_iff hlen old hk]
      exact of_decide_eq_true (List.findIdx_getElem (w := hk))
    · have he : plainPrefix counts = counts.length :=
        le_antisymm (plainPrefix_le counts) (by omega)
      exact Or.inl (he ▸ cell_frame_terminator hlen old)

end

def DecodesTo (message : Message) (received : Nat) (ledsInChannel : Vector UInt16 6)
    (counts : List UInt16) : Prop :=
  ∃ h, parseHeader message received ledsInChannel = .ok h ∧ h.chanCntr = counts.length ∧
    (∀ k, (hk : k < counts.length) → h.ledsInChannel[k]? = some counts[k]) ∧
    h.headerByteOffset = (encodeHeader counts).length

/-- Decoding undoes encoding exactly when no count has a terminator byte; the count 0xffff,
which is the terminator itself, is one of those that have. -/
theorem header_decodes_iff {counts : List UInt16} (payload : List UInt8)
    (hcounts : counts.length ≤ 6)
    (hmax : (frameBytes counts payload).length ≤ MAX_SENDBUFFER_SIZE) (old : Message)
    (ledsInChannel : Vector UInt16 6) :
    DecodesTo (overlay old (frameBytes counts payload)) (frameBytes counts payload).length
      ledsInChannel counts ↔
    ∀ count ∈ counts, lowByte count ≠ 0xff ∧ highByte count ≠ 0xff := by
  have hle := plainPrefix_le counts
  obtain ⟨h, ho, hc, hl⟩ := parseHeader_ok ledsInChannel (frame_headerEnds hmax old) (by omega)
  refine Iff.trans ⟨?_, ?_⟩ plainPrefix_eq_length_iff
  · intro hdec
    obtain ⟨h', ho', hc', _⟩ := hdec
    rw [ho] at ho'
    cases ho'
    omega
  · intro he
    rw [he] at hc hl
    refine ⟨h, ho, hc, fun k hk => ?_, ?_⟩
    · have hcell := hl k
      rw [if_pos hk, countAt_frame hmax old hk] at hcell
      simpa [cell, show k < 6 by omega] using hcell
    · rw [Header.headerByteOffset, hc, length_encodeHeader]

theorem header_decodes_two_counts :
    DecodesTo (overlay (Vector.replicate _ 7) (frameBytes [300, 40] [1, 2, 3])) 9
      (Vector.replicate 6 0) [300, 40] := by
  have hplain : ∀ count ∈ [300, 40], Plain count :=
    List.forall_mem_cons.mpr ⟨by decide, List.forall_mem_singleton.mpr (by decide)⟩
  exact (header_decodes_iff [1, 2, 3] (by decide) (by decide) _ _).mpr hplain

/-- 255 LEDs: the low byte ends the header, so no channel is found. -/
theorem header_255_not_decoded :
    (parseHeader (overlay (Vector.replicate _ 7) (frameBytes [255] [1, 2, 3])) 7
        (Vector.replicate 6 0)).map (fun h => (h.chanCntr, h.headerByteOffset)) = .ok (0, 2) ∧
    ¬DecodesTo (overlay (Vector.replicate _ 7) (frameBytes [255] [1, 2, 3])) 7
      (Vector.replicate 6 0) [255] := by
  have hparse : (parseHeader (overlay (Vector.replicate _ 7) (frameBytes [255] [1, 2, 3])) 7
      (Vector.replicate 6 0)).map (fun h => (h.chanCntr, h.headerByteOffset)) = .ok (0, 2) := by
    decide
  refine ⟨hparse, ?_⟩
  intro hdec
  obtain ⟨h, ho, hc, _⟩ := hdec
  rw [ho] at hparse
  have := (Prod.mk.inj (Except.ok.inj hparse)).1
  rw [hc] at this
  cases this

end LmListener
