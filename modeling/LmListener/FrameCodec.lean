import LmListener.HeaderCodec

namespace LmListener

/-- A frame as its sender means it: counts, low byte first, up to the two bytes 0xff, then the
payload. No byte of a count is 0xff. -/
def decodeFrame : List UInt8 → Option (List UInt16 × List UInt8)
  | lo :: hi :: rest =>
    if lo = 0xff ∧ hi = 0xff then some ([], rest)
    else if lo = 0xff ∨ hi = 0xff then none
    else (decodeFrame rest).map fun frame => (ledsOf hi lo :: frame.1, frame.2)
  | _ => none

theorem lowByte_ledsOf (hi lo : UInt8) : lowByte (ledsOf hi lo) = lo := by
  apply UInt8.toNat_inj.mp
  have := lo.toNat_lt
  have := hi.toNat_lt
  rw [lowByte, UInt16.toNat_toUInt8, ledsOf_toNat]
  omega

theorem highByte_ledsOf (hi lo : UInt8) : highByte (ledsOf hi lo) = hi := by
  apply UInt8.toNat_inj.mp
  have := lo.toNat_lt
  have := hi.toNat_lt
  rw [highByte, UInt16.toNat_toUInt8, UInt16.toNat_shiftRight, ledsOf_toNat]
  simp [Nat.shiftRight_eq_div_pow]
  omega

theorem frameBytes_cons (count : UInt16) (counts : List UInt16) (payload : List UInt8) :
    frameBytes (count :: counts) payload =
      lowByte count :: highByte count :: frameBytes counts payload := by
  simp [frameBytes, encodeHeader, countBytes]

theorem decodeFrame_frameBytes {counts : List UInt16} (h : ∀ count ∈ counts, Plain count)
    (payload : List UInt8) : decodeFrame (frameBytes counts payload) = some (counts, payload) := by
  induction counts with
  | nil => simp [frameBytes, encodeHeader, decodeFrame]
  | cons count counts ih =>
    obtain ⟨⟨hlo, hhi⟩, hrest⟩ := List.forall_mem_cons.mp h
    rw [frameBytes_cons, decodeFrame, if_neg fun hend => hlo hend.1,
      if_neg (not_or.mpr ⟨hlo, hhi⟩), ih hrest, Option.map_some, ledsOf_bytes]

/-- The decoder accepts the frames of plain counts and nothing else, and undoes their encoding. -/
theorem decodeFrame_eq_some_iff {bytes : List UInt8} {counts : List UInt16}
    {payload : List UInt8} :
    decodeFrame bytes = some (counts, payload) ↔
      bytes = frameBytes counts payload ∧ ∀ count ∈ counts, Plain count := by
  constructor
  · intro h
    induction bytes using decodeFrame.induct generalizing counts payload with
    | case1 lo hi rest hend =>
      rw [decodeFrame, if_pos hend] at h
      obtain ⟨rfl, rfl⟩ := hend
      cases h
      exact ⟨rfl, by simp⟩
    | case2 lo hi rest hend hff =>
      rw [decodeFrame, if_neg hend, if_pos hff] at h
      cases h
    | case3 lo hi rest hend hff ih =>
      rw [decodeFrame, if_neg hend, if_neg hff] at h
      obtain ⟨⟨counts', payload'⟩, hrest, hframe⟩ := Option.map_eq_some_iff.mp h
      cases hframe
      obtain ⟨rfl, hplain⟩ := ih hrest
      obtain ⟨hlo, hhi⟩ := not_or.mp hff
      refine ⟨?_, List.forall_mem_cons.mpr ⟨⟨?_, ?_⟩, hplain⟩⟩
      · rw [frameBytes_cons, lowByte_ledsOf, highByte_ledsOf]
      · rwa [lowByte_ledsOf]
      · rwa [highByte_ledsOf]
    | case4 bytes hshort =>
      rw [decodeFrame.eq_2 bytes hshort] at h
      cases h
  · intro h
    obtain ⟨rfl, hplain⟩ := h
    exact decodeFrame_frameBytes hplain payload

end LmListener
