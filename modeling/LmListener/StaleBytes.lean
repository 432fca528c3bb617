import LmListener.FrameMeaning

namespace LmListener

open Checked CTypes

def filled (byte : UInt8) : Message := Vector.replicate _ byte

section

variable {dm : DataModel} {isWS : Nat → Bool} {d : Datagram} (h4 : 4 < d.bytes.length)
  (hmax : d.bytes.length ≤ MAX_SENDBUFFER_SIZE)

include h4 hmax

theorem OwnMeaning.agree (h : OwnMeaning dm isWS d) :
    ∃ chanCntr pixels, ∀ old j, HeaderEnds (overlay old d.bytes) (d.bytes.length - 1) j →
      j ≤ 6 ∧ j = chanCntr ∧
      framePixels (overlay old d.bytes) (j * 2 + 2) (totalLedsNum dm d.bytes.length (j * 2 + 2))
        (fun k => (countAt (overlay old d.bytes) k).toNat) (min j MAX_CHANNELS) = pixels := by
  obtain ⟨m, hm⟩ := h
  refine ⟨m.chanCntr, m.writes.map PixelWrite.pixel, fun old j hends => ?_⟩
  obtain ⟨f, hf, rfl⟩ := (readPending_ok_iff bound_ready rfl h4 hmax).mp
    (hm (listening old [d]) bound_ready (listening_ready old [d]) rfl)
  obtain ⟨hj, hcntr, hoff, hch, hl⟩ := readFrame_headerEnds hends hf
  have hwrites : f.pixels.writes.map PixelWrite.pixel =
      f.header.pixels dm (overlay old d.bytes) d.bytes.length := by
    rw [(readFrame_writes hf).2, route_pixels]
    rfl
  refine ⟨hj, hcntr.symm, ?_⟩
  refine Eq.trans ?_ hwrites.symm
  rw [Header.pixels, hoff, hch]
  exact framePixels_congr (fun k hk => (hl k (by omega)).symm) fun _ _ _ _ _ => rfl

/-- Without a 0xff in the datagram the header ends where the old content says. -/
theorem OwnMeaning.stops (h : OwnMeaning dm isWS d) : firstStop d.bytes < d.bytes.length := by
  obtain ⟨chanCntr, pixels, hagree⟩ := h.agree h4 hmax
  by_contra hnone
  have hall : firstStop d.bytes = d.bytes.length :=
    le_antisymm List.findIdx_le_length (Nat.le_of_not_lt hnone)
  have hown : ∀ old i, i < d.bytes.length → cell (overlay old d.bytes) i ≠ 0xff :=
    fun old i hi => cell_before_stop hmax old (by omega)
  have hzeros : HeaderEnds (overlay (filled 0) d.bytes) (d.bytes.length - 1)
      (d.bytes.length - 1) := by
    have hcell : ∀ i, cell (overlay (filled 0) d.bytes) i ≠ 0xff := by
      intro i
      by_cases hi : i < d.bytes.length
      · exact hown _ i hi
      · rw [cell_stale hmax _ (by omega), filled, cell_replicate]
        split <;> decide
    exact ⟨Nat.le_refl _, fun c _ => not_or.mpr ⟨hcell _, hcell _⟩, Or.inl rfl⟩
  obtain ⟨hj, hc, _⟩ := hagree _ _ hzeros
  have hones : HeaderEnds (overlay (filled 0xff) d.bytes) (d.bytes.length - 1)
      (d.bytes.length / 2) := by
    have hstale : ∀ i, d.bytes.length ≤ i → i ≤ 8 →
        cell (overlay (filled 0xff) d.bytes) i = 0xff := by
      intro i hi h8
      rw [cell_stale hmax _ hi, filled, cell_replicate,
        if_pos (by unfold MAX_SENDBUFFER_SIZE; omega)]
    refine ⟨by omega, fun c hc => not_or.mpr ⟨hown _ _ (by omega), hown _ _ (by omega)⟩, ?_⟩
    right
    exact Or.inr (hstale _ (by omega) (by omega))
  obtain ⟨_, hc', _⟩ := hagree _ _ hones
  omega

/-- A header that ends past the end of the datagram leaves the first pixel to the old content. -/
theorem OwnMeaning.no_pixels (h : OwnMeaning dm isWS d)
    (hpast : d.bytes.length < firstStop d.bytes / 2 * 2 + 2) {k : Nat} (hk : k < MAX_CHANNELS)
    (hoff : ∀ old, chanOffset (fun c => (countAt (overlay old d.bytes) c).toNat) k = 0) :
    (ownCount d.bytes k).toNat = 0 := by
  obtain ⟨chanCntr, pixels, hagree⟩ := h.agree h4 hmax
  have hlt := h.stops h4 hmax
  unfold MAX_CHANNELS at hk
  have hown : ∀ old, countAt (overlay old d.bytes) k = ownCount d.bytes k :=
    fun old => countAt_own hmax old (by omega)
  by_contra hne
  have hpixel : ∀ old, pixelAt (overlay old d.bytes) (firstStop d.bytes / 2 * 2 + 2) k 0 0 ∈
      pixels := by
    intro old
    obtain ⟨_, _, hp⟩ := hagree old _ (own_headerEnds hmax old hlt)
    rw [← hp]
    refine mem_framePixels.mpr ⟨k, by unfold MAX_CHANNELS; omega, 0, ?_, ?_, ?_⟩
    · rw [hown]
      omega
    · have := totalLedsNum_of_lt dm hpast (by omega)
      rw [hoff]
      omega
    · rw [hoff]
  obtain ⟨_, _, hp⟩ := hagree (filled 1) _ (own_headerEnds hmax _ hlt)
  have hzero := hpixel (filled 0)
  rw [← hp] at hzero
  obtain ⟨k', _, j', _, _, he⟩ := mem_framePixels.mp hzero
  simp only [pixelAt, Pixel.mk.injEq, Nat.add_sub_cancel_left, Nat.zero_sub] at he
  obtain ⟨rfl, rfl, hred, _⟩ := he
  rw [hoff, cell_stale hmax _ (by omega), cell_stale hmax _ (by omega), filled, filled,
    cell_replicate, cell_replicate, if_pos (by unfold MAX_SENDBUFFER_SIZE; omega),
    if_pos (by unfold MAX_SENDBUFFER_SIZE; omega)] at hred
  exact absurd hred (by decide)

theorem OwnMeaning.ownHeader (h : OwnMeaning dm isWS d) : OwnHeader d.bytes := by
  have hlt := h.stops h4 hmax
  refine ⟨hlt, ?_, ?_⟩
  · obtain ⟨_, _, hagree⟩ := h.agree h4 hmax
    obtain ⟨hj, _⟩ := hagree (filled 0) _ (own_headerEnds hmax _ hlt)
    omega
  by_cases hle : firstStop d.bytes / 2 * 2 + 2 ≤ d.bytes.length
  · exact Or.inl hle
  · right
    have h₀ := h.no_pixels h4 hmax (by omega) (k := 0) (by decide) fun _ => rfl
    have h₁ := h.no_pixels h4 hmax (by omega) (k := 1) (by decide) fun old => by
      rw [chanOffset, chanOffset, Nat.zero_add, countAt_own hmax old (by omega), h₀]
    have hb₀ : (d.bytes.getD 1 0).toNat * 256 + (d.bytes.getD 0 0).toNat = 0 :=
      (ledsOf_toNat _ _).symm.trans h₀
    have hb₁ : (d.bytes.getD 3 0).toNat * 256 + (d.bytes.getD 2 0).toNat = 0 :=
      (ledsOf_toNat _ _).symm.trans h₁
    intro i hi
    apply UInt8.toNat_inj.mp
    rw [show (0 : UInt8).toNat = 0 by decide]
    obtain rfl | rfl | rfl | rfl : i = 0 ∨ i = 1 ∨ i = 2 ∨ i = 3 := by omega
    all_goals omega

end

/-- A datagram means the same over every old content of the buffer exactly when its header is all
its own. -/
theorem frame_meaning_own_iff {dm : DataModel} {isWS : Nat → Bool} {d : Datagram}
    (hmin : 5 ≤ d.bytes.length) (hmax : d.bytes.length ≤ MAX_SENDBUFFER_SIZE) :
    OwnMeaning dm isWS d ↔ OwnHeader d.bytes :=
  ⟨OwnMeaning.ownHeader hmin hmax, ownMeaning_of_ownHeader hmin hmax⟩

theorem frame_meaning_own_one_led :
    OwnMeaning lp64 (fun _ => true) ⟨[1, 0, 0xff, 0xff, 9, 8, 7], default, by decide⟩ :=
  (frame_meaning_own_iff (by decide) (by decide)).mpr (by decide)

/-- One LED on each channel and half a terminator: the first pixel is made of old bytes. -/
theorem frame_meaning_of_old_bytes :
    ¬OwnMeaning lp64 (fun _ => true) ⟨[1, 0, 1, 0, 0xff], default, by decide⟩ := by
  intro h
  exact absurd (h.ownHeader (by decide) (by decide)) (by decide)

end LmListener
