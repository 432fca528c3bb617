import LmListener.PixelWrites

namespace LmListener

open Checked

def pixelStep (isWS : Nat → Bool) (message : Message) (headerByteOffset chan chanPixelOffset : Nat)
    (i : Nat) (s : PixelState) : Except Fault PixelState := do
  let red ← loadAt .message message (headerByteOffset + (i * 3 + 0))
  let green ← loadAt .message message (headerByteOffset + (i * 3 + 1))
  let blue ← loadAt .message message (headerByteOffset + (i * 3 + 2))
  writePixel isWS ⟨chan, i - chanPixelOffset, red, green, blue⟩ s

/-- `for (i = chanPixelOffset; i < leds + chanPixelOffset && i < total_leds_num; ++i)`, and the
step of `chanPixelOffset` after it. -/
def channelStep (isWS : Nat → Bool) (message : Message) (headerByteOffset totalLedsNum : Nat)
    (ledsInChannel : Vector UInt16 6) (curChannel : Nat) (s : PixelState × Nat) :
    Except Fault (PixelState × Nat) := do
  let (s, chanPixelOffset) := s
  let leds ← loadAt .ledsInChannel ledsInChannel curChannel
  let s ← forLoop (pixelStep isWS message headerByteOffset curChannel chanPixelOffset)
    (min (leds.toNat + chanPixelOffset) totalLedsNum - chanPixelOffset) chanPixelOffset s
  return (s, chanPixelOffset + leds.toNat)

def pixelLoop (isWS : Nat → Bool) (message : Message) (headerByteOffset totalLedsNum : Nat)
    (ledsInChannel : Vector UInt16 6) (chanCntr : Nat) (s : PixelState) :
    Except Fault PixelState := do
  return (← forLoop (channelStep isWS message headerByteOffset totalLedsNum ledsInChannel)
    chanCntr 0 (s, 0)).1

/-- Where the pixels of channel `k` start when channel `c` takes `leds c` of them. -/
def chanOffset (leds : Nat → Nat) : Nat → Nat
  | 0 => 0
  | k + 1 => chanOffset leds k + leds k

theorem chanOffset_mono (leds : Nat → Nat) {i k : Nat} (h : i ≤ k) :
    chanOffset leds i ≤ chanOffset leds k := by
  induction h with
  | refl => exact Nat.le_refl _
  | step _ ih => exact Nat.le_trans ih (Nat.le_add_right _ _)

theorem chanOffset_congr {leds leds' : Nat → Nat} {k : Nat} (h : ∀ c < k, leds c = leds' c) :
    chanOffset leds k = chanOffset leds' k := by
  induction k with
  | zero => rfl
  | succ k ih => rw [chanOffset, chanOffset, ih fun c hc => h c (by omega), h k (by omega)]

theorem exists_chanOffset {leds : Nat → Nat} {n chanCntr : Nat} (h : n < chanOffset leds chanCntr) :
    ∃ k < chanCntr, chanOffset leds k ≤ n ∧ n < chanOffset leds (k + 1) := by
  induction chanCntr with
  | zero => exact absurd h (Nat.not_lt_zero n)
  | succ k ih =>
    by_cases hlt : n < chanOffset leds k
    · obtain ⟨c, hc, hn⟩ := ih hlt
      exact ⟨c, by omega, hn⟩
    · exact ⟨k, Nat.lt_succ_self k, Nat.le_of_not_lt hlt, h⟩

def pixelAt (message : Message) (headerByteOffset chan chanPixelOffset i : Nat) : Pixel :=
  ⟨chan, i - chanPixelOffset, cell message (headerByteOffset + (i * 3 + 0)),
    cell message (headerByteOffset + (i * 3 + 1)), cell message (headerByteOffset + (i * 3 + 2))⟩

def pixelRun (message : Message) (headerByteOffset chan chanPixelOffset lo count : Nat) :
    List Pixel :=
  (List.range' lo count).map (pixelAt message headerByteOffset chan chanPixelOffset)

def framePixels (message : Message) (headerByteOffset totalLedsNum : Nat) (leds : Nat → Nat)
    (chanCntr : Nat) : List Pixel :=
  (List.range chanCntr).flatMap fun k =>
    pixelRun message headerByteOffset k (chanOffset leds k) (chanOffset leds k)
      (min (leds k + chanOffset leds k) totalLedsNum - chanOffset leds k)

theorem pixelStep_eq_ok_iff {isWS : Nat → Bool} {message : Message}
    {headerByteOffset chan chanPixelOffset i : Nat} {s s' : PixelState} :
    pixelStep isWS message headerByteOffset chan chanPixelOffset i s = .ok s' ↔
      headerByteOffset + (i * 3 + 2) < MAX_SENDBUFFER_SIZE ∧
        writePixel isWS (pixelAt message headerByteOffset chan chanPixelOffset i) s = .ok s' := by
  simp only [pixelStep, bind_eq_ok, loadAt_eq_ok_iff]
  constructor
  · intro hloads
    obtain ⟨_, ⟨_, rfl⟩, _, ⟨_, rfl⟩, _, ⟨h, rfl⟩, hp⟩ := hloads
    exact ⟨h, hp⟩
  · intro hboth
    obtain ⟨h, hp⟩ := hboth
    exact ⟨_, ⟨by omega, rfl⟩, _, ⟨by omega, rfl⟩, _, ⟨h, rfl⟩, hp⟩

theorem pixelRun_eq_ok_iff {isWS : Nat → Bool} {message : Message}
    {headerByteOffset chan chanPixelOffset lo count : Nat} {s s' : PixelState} :
    forLoop (pixelStep isWS message headerByteOffset chan chanPixelOffset) count lo s = .ok s' ↔
      (∀ i, lo ≤ i → i < lo + count → headerByteOffset + (i * 3 + 2) < MAX_SENDBUFFER_SIZE) ∧
        writePixels isWS (pixelRun message headerByteOffset chan chanPixelOffset lo count) s =
          .ok s' :=
  forLoop_eq_ok_iff (fun s p => writePixel isWS p s)
    (pixelAt message headerByteOffset chan chanPixelOffset)
    (fun i => headerByteOffset + (i * 3 + 2) < MAX_SENDBUFFER_SIZE)
    fun _ _ _ => pixelStep_eq_ok_iff

theorem framePixels_succ (message : Message) (headerByteOffset totalLedsNum : Nat)
    (leds : Nat → Nat) (k : Nat) :
    framePixels message headerByteOffset totalLedsNum leds (k + 1) =
      framePixels message headerByteOffset totalLedsNum leds k ++
        pixelRun message headerByteOffset k (chanOffset leds k) (chanOffset leds k)
          (min (leds k + chanOffset leds k) totalLedsNum - chanOffset leds k) := by
  simp [framePixels, List.range_succ]

theorem framePixels_prefix (message : Message) (headerByteOffset totalLedsNum : Nat)
    (leds : Nat → Nat) {k n : Nat} (h : k ≤ n) :
    ∃ rest, framePixels message headerByteOffset totalLedsNum leds n =
      framePixels message headerByteOffset totalLedsNum leds k ++ rest := by
  induction h with
  | refl => exact ⟨[], (List.append_nil _).symm⟩
  | @step n _ ih =>
    obtain ⟨rest, hrest⟩ := ih
    exact ⟨_, by rw [framePixels_succ, hrest, List.append_assoc]⟩

/-- Pixel `j` of channel `k` comes from triple `chanOffset leds k + j` of the payload. -/
theorem mem_framePixels {message : Message} {headerByteOffset totalLedsNum chanCntr : Nat}
    {leds : Nat → Nat} {p : Pixel} :
    p ∈ framePixels message headerByteOffset totalLedsNum leds chanCntr ↔
      ∃ k < chanCntr, ∃ j < leds k, chanOffset leds k + j < totalLedsNum ∧
        p = pixelAt message headerByteOffset k (chanOffset leds k) (chanOffset leds k + j) := by
  simp only [framePixels, pixelRun, List.mem_flatMap, List.mem_range, List.mem_map,
    List.mem_range'_1]
  constructor
  · intro hex
    obtain ⟨k, hk, i, ⟨hlo, hhi⟩, rfl⟩ := hex
    exact ⟨k, hk, i - chanOffset leds k, by omega, by omega, by rw [Nat.add_sub_cancel' hlo]⟩
  · intro hex
    obtain ⟨k, hk, j, hj, ht, rfl⟩ := hex
    exact ⟨k, hk, _, ⟨by omega, by omega⟩, rfl⟩

theorem framePixels_chan {message : Message} {headerByteOffset totalLedsNum chanCntr : Nat}
    {leds : Nat → Nat} {p : Pixel}
    (h : p ∈ framePixels message headerByteOffset totalLedsNum leds chanCntr) :
    p.chan < chanCntr := by
  obtain ⟨k, hk, _, _, _, rfl⟩ := mem_framePixels.mp h
  exact hk

theorem length_framePixels (message : Message) (headerByteOffset totalLedsNum : Nat)
    (leds : Nat → Nat) (k : Nat) :
    (framePixels message headerByteOffset totalLedsNum leds k).length =
      min (chanOffset leds k) totalLedsNum := by
  induction k with
  | zero => simp [framePixels, chanOffset]
  | succ k ih =>
    rw [framePixels_succ, List.length_append, ih, pixelRun, List.length_map, List.length_range',
      chanOffset]
    omega

theorem framePixels_getElem? (message : Message) (headerByteOffset : Nat)
    {totalLedsNum chanCntr n : Nat} {leds : Nat → Nat} (hn : n < chanOffset leds chanCntr)
    (ht : n < totalLedsNum) :
    ∃ k < chanCntr, chanOffset leds k ≤ n ∧ n < chanOffset leds (k + 1) ∧
      (framePixels message headerByteOffset totalLedsNum leds chanCntr)[n]? =
        some (pixelAt message headerByteOffset k (chanOffset leds k) n) := by
  obtain ⟨k, hk, hlo, hhi⟩ := exists_chanOffset hn
  obtain ⟨rest, hrest⟩ := framePixels_prefix message headerByteOffset totalLedsNum leds hk
  have hl := length_framePixels message headerByteOffset totalLedsNum leds k
  have hl' := length_framePixels message headerByteOffset totalLedsNum leds (k + 1)
  refine ⟨k, hk, hlo, hhi, ?_⟩
  rw [chanOffset] at hhi
  rw [hrest, List.getElem?_append_left (by rw [hl', chanOffset]; omega), framePixels_succ,
    List.getElem?_append_right (by omega), pixelRun, List.getElem?_map,
    List.getElem?_range' (by omega)]
  simp only [Option.map_some, Nat.one_mul]
  congr 2
  omega

theorem chanOffset_unique {leds : Nat → Nat} {i k n : Nat} (hi : chanOffset leds i ≤ n)
    (hi' : n < chanOffset leds (i + 1)) (hk : chanOffset leds k ≤ n)
    (hk' : n < chanOffset leds (k + 1)) : i = k := by
  rcases Nat.lt_trichotomy i k with h | h | h
  · have := chanOffset_mono leds (show i + 1 ≤ k from h)
    omega
  · exact h
  · have := chanOffset_mono leds (show k + 1 ≤ i from h)
    omega

theorem framePixels_congr {message message' : Message}
    {headerByteOffset totalLedsNum chanCntr : Nat} {leds leds' : Nat → Nat}
    (hl : ∀ k < chanCntr, leds k = leds' k)
    (hc : ∀ i < totalLedsNum, i < chanOffset leds chanCntr → ∀ r < 3,
      cell message (headerByteOffset + (i * 3 + r)) =
        cell message' (headerByteOffset + (i * 3 + r))) :
    framePixels message headerByteOffset totalLedsNum leds chanCntr =
      framePixels message' headerByteOffset totalLedsNum leds' chanCntr := by
  apply List.flatMap_congr
  intro k hk
  have hk' := List.mem_range.mp hk
  have hend : chanOffset leds (k + 1) ≤ chanOffset leds chanCntr := chanOffset_mono leds hk'
  rw [chanOffset] at hend
  rw [← hl k hk', ← chanOffset_congr fun c hc => hl c (by omega)]
  apply List.map_congr_left
  intro i hi
  obtain ⟨hlo, hhi⟩ := List.mem_range'_1.mp hi
  have hcell := hc i (by omega) (by omega)
  rw [pixelAt, pixelAt, hcell 0 (by omega), hcell 1 (by omega), hcell 2 (by omega)]

section

variable {isWS : Nat → Bool} {message : Message} {headerByteOffset totalLedsNum chanCntr : Nat}
  {ledsInChannel : Vector UInt16 6}

theorem channelStep_eq_ok_iff {k : Nat} (h6 : k < 6) {s : PixelState} {r : PixelState × Nat} :
    channelStep isWS message headerByteOffset totalLedsNum ledsInChannel k
        (s, chanOffset (ledsOfChannel ledsInChannel) k) = .ok r ↔
      (∀ i, chanOffset (ledsOfChannel ledsInChannel) k ≤ i →
        i < chanOffset (ledsOfChannel ledsInChannel) (k + 1) → i < totalLedsNum →
        headerByteOffset + (i * 3 + 2) < MAX_SENDBUFFER_SIZE) ∧
      writePixels isWS (pixelRun message headerByteOffset k
        (chanOffset (ledsOfChannel ledsInChannel) k) (chanOffset (ledsOfChannel ledsInChannel) k)
        (min (ledsOfChannel ledsInChannel k + chanOffset (ledsOfChannel ledsInChannel) k)
          totalLedsNum - chanOffset (ledsOfChannel ledsInChannel) k)) s = .ok r.1 ∧
      r.2 = chanOffset (ledsOfChannel ledsInChannel) (k + 1) := by
  obtain ⟨s', off⟩ := r
  have hleds : (cell ledsInChannel k).toNat = ledsOfChannel ledsInChannel k := rfl
  rw [channelStep, loadAt_of_lt h6, bind_ok, hleds]
  simp only [bind_eq_ok, pixelRun_eq_ok_iff]
  constructor
  · intro hex
    obtain ⟨t, ⟨hrange, ht⟩, hr⟩ := hex
    cases hr
    exact ⟨fun i h₁ h₂ h₃ => hrange i h₁ (by rw [chanOffset] at h₂; omega), ht, rfl⟩
  · intro hall
    obtain ⟨hrange, ht, rfl⟩ := hall
    exact ⟨s', ⟨fun i h₁ h₂ => hrange i h₁ (by rw [chanOffset]; omega) (by omega), ht⟩, rfl⟩

/-- The run lemma: the pixel loop ends normally when every triple it reads lies in the message, and
then it has written the pixels of the frame. -/
theorem pixelLoop_eq_ok_iff (hc : chanCntr ≤ MAX_CHANNELS) {start s : PixelState} :
    pixelLoop isWS message headerByteOffset totalLedsNum ledsInChannel chanCntr start = .ok s ↔
      (∀ i < totalLedsNum, i < chanOffset (ledsOfChannel ledsInChannel) chanCntr →
        headerByteOffset + (i * 3 + 2) < MAX_SENDBUFFER_SIZE) ∧
      writePixels isWS (framePixels message headerByteOffset totalLedsNum
        (ledsOfChannel ledsInChannel) chanCntr) start = .ok s := by
  have h6 : ∀ k < chanCntr, k < 6 := fun k hk => by unfold MAX_CHANNELS at hc; omega
  constructor
  · intro h
    obtain ⟨⟨t, off⟩, hl, hr⟩ := bind_eq_ok.mp h
    cases hr
    have hrun := forLoop_inv hl
      (fun k t => t.2 = chanOffset (ledsOfChannel ledsInChannel) k ∧
        (∀ i < totalLedsNum, i < chanOffset (ledsOfChannel ledsInChannel) k →
          headerByteOffset + (i * 3 + 2) < MAX_SENDBUFFER_SIZE) ∧
        writePixels isWS (framePixels message headerByteOffset totalLedsNum
          (ledsOfChannel ledsInChannel) k) start = .ok t.1)
      ⟨rfl, fun i _ hi => absurd hi (Nat.not_lt_zero i), rfl⟩ ?_
    · rw [Nat.zero_add] at hrun
      exact hrun.2
    intro k u t' _ hk ho hinv
    obtain ⟨t, off⟩ := u
    obtain ⟨rfl, hread, ht⟩ := hinv
    obtain ⟨hrange, hw, hoff⟩ := (channelStep_eq_ok_iff (h6 k (by omega))).mp ho
    refine ⟨hoff, fun i hi hlt => ?_, ?_⟩
    · by_cases hk' : i < chanOffset (ledsOfChannel ledsInChannel) k
      · exact hread i hi hk'
      · exact hrange i (Nat.le_of_not_lt hk') hlt hi
    · rw [framePixels_succ, writePixels_append, ht]
      exact hw
  · intro hboth
    obtain ⟨hread, hall⟩ := hboth
    let inv (k : Nat) (t : PixelState × Nat) : Prop :=
      t.2 = chanOffset (ledsOfChannel ledsInChannel) k ∧
      writePixels isWS (framePixels message headerByteOffset totalLedsNum
        (ledsOfChannel ledsInChannel) k) start = .ok t.1
    have step : ∀ k t, 0 ≤ k → k < 0 + chanCntr → inv k t →
        ∃ t', channelStep isWS message headerByteOffset totalLedsNum ledsInChannel k t = .ok t' ∧
          inv (k + 1) t' := by
      intro k u _ hk hinv
      obtain ⟨t, off⟩ := u
      obtain ⟨rfl, ht⟩ := hinv
      obtain ⟨rest, hrest⟩ := framePixels_prefix message headerByteOffset totalLedsNum
        (ledsOfChannel ledsInChannel) (show k + 1 ≤ chanCntr by omega)
      rw [hrest, writePixels_append] at hall
      obtain ⟨t', ht', _⟩ := bind_eq_ok.mp hall
      have hend : chanOffset (ledsOfChannel ledsInChannel) (k + 1) ≤
          chanOffset (ledsOfChannel ledsInChannel) chanCntr := chanOffset_mono _ (by omega)
      refine ⟨(t', chanOffset (ledsOfChannel ledsInChannel) (k + 1)), ?_, rfl, ht'⟩
      rw [framePixels_succ, writePixels_append, ht] at ht'
      exact (channelStep_eq_ok_iff (h6 k (by omega))).mpr
        ⟨fun i _ h₂ h₃ => hread i h₃ (by omega), ht', rfl⟩
    obtain ⟨⟨t, off⟩, ho, _, ht⟩ := forLoop_ok (s := (start, 0)) inv ⟨rfl, rfl⟩ step
    rw [Nat.zero_add, hall] at ht
    cases ht
    rw [pixelLoop, ho]
    rfl

theorem pixelLoop_ok (isWS : Nat → Bool) (start : PixelState) (hc : chanCntr ≤ MAX_CHANNELS)
    (hread : ∀ i < totalLedsNum, i < chanOffset (ledsOfChannel ledsInChannel) chanCntr →
      headerByteOffset + (i * 3 + 2) < MAX_SENDBUFFER_SIZE)
    (hready : start.spiOut.Ready) (hw : start.writes = []) :
    ∃ s, pixelLoop isWS message headerByteOffset totalLedsNum ledsInChannel chanCntr start =
      .ok s := by
  obtain ⟨s, hs, _⟩ := writePixels_ok isWS (framePixels message headerByteOffset totalLedsNum
    (ledsOfChannel ledsInChannel) chanCntr) start
    (fun p hp => lt_of_lt_of_le (framePixels_chan hp) hc) hready hw
  exact ⟨s, (pixelLoop_eq_ok_iff hc).mpr ⟨hread, hs⟩⟩

end

end LmListener
