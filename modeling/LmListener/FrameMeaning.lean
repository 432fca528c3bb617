import LmListener.SpiRange

namespace LmListener

open Checked CTypes

/-- What the header loop and the pixel loop make of a datagram. -/
structure Meaning where
  chanCntr : Nat
  counts : List UInt16
  headerByteOffset : Nat
  writes : List PixelWrite

def Frame.meaning (f : Frame) : Meaning where
  chanCntr := f.header.chanCntr
  counts := (List.range f.header.chanCntr).map (cell f.header.ledsInChannel)
  headerByteOffset := f.header.headerByteOffset
  writes := f.pixels.writes

def readPending (dm : DataModel) (isWS : Nat → Bool) (s : MainState) :
    Except Fault (Option Meaning) := do
  let (t, received) ← receiveFrame dm s
  match received with
  | none => return none
  | some received =>
    let f ← readFrame dm isWS t.message received t.ledsInChannel t.wsOut t.spiOut
    return some f.meaning

/-- The datagram means the same in every state of the listener. -/
def OwnMeaning (dm : DataModel) (isWS : Nat → Bool) (d : Datagram) : Prop :=
  ∃ m, ∀ s : MainState, s.frameInput.Ready → s.spiOut.Ready → s.pending.head? = some d →
    readPending dm isWS s = .ok (some m)

def firstStop (bytes : List UInt8) : Nat := bytes.findIdx fun byte => decide (byte = 0xff)

/-- The header stops at a byte of the datagram, within six pairs, and the payload starts inside
it; or else the two channels have no pixels. -/
def OwnHeader (bytes : List UInt8) : Prop :=
  firstStop bytes < bytes.length ∧ firstStop bytes ≤ 13 ∧
    (firstStop bytes / 2 * 2 + 2 ≤ bytes.length ∨ ∀ i < 4, bytes.getD i 0 = 0)

instance (bytes : List UInt8) : Decidable (OwnHeader bytes) :=
  inferInstanceAs (Decidable (_ ∧ _ ∧ _))

theorem readPending_ok_iff {dm : DataModel} {isWS : Nat → Bool} {s : MainState} {d : Datagram}
    {m : Meaning} (hm : s.frameInput.Ready) (hp : s.pending.head? = some d)
    (h4 : 4 < d.bytes.length) (hmax : d.bytes.length ≤ MAX_SENDBUFFER_SIZE) :
    readPending dm isWS s = .ok (some m) ↔
      ∃ f, readFrame dm isWS (overlay s.message d.bytes) d.bytes.length s.ledsInChannel s.wsOut
        s.spiOut = .ok f ∧ f.meaning = m := by
  obtain ⟨rest, hp⟩ := List.head?_eq_some_iff.mp hp
  obtain ⟨frameInput, _, hr⟩ := receiveFrame_takes hm dm hp h4 hmax
  rw [readPending, hr, bind_ok]
  constructor
  · intro h
    obtain ⟨f, hf, h⟩ := bind_eq_ok.mp h
    exact ⟨f, hf, Option.some.inj (Except.ok.inj h)⟩
  · intro hex
    obtain ⟨f, hf, rfl⟩ := hex
    exact bind_eq_ok.mpr ⟨f, hf, rfl⟩

section

variable {bytes : List UInt8} (hmax : bytes.length ≤ MAX_SENDBUFFER_SIZE) (old : Message)

include hmax

theorem cell_own {i : Nat} (hi : i < bytes.length) :
    cell (overlay old bytes) i = bytes.getD i 0 := by
  rw [cell_overlay old hmax, if_pos hi, List.getD_eq_getElem?_getD]
  rfl

theorem cell_stale {i : Nat} (hi : bytes.length ≤ i) : cell (overlay old bytes) i = cell old i := by
  rw [cell_overlay old hmax, if_neg (by omega)]

theorem cell_before_stop {i : Nat} (hi : i < firstStop bytes) :
    cell (overlay old bytes) i ≠ 0xff := by
  have hl : i < bytes.length := lt_of_lt_of_le hi List.findIdx_le_length
  have hn := List.not_of_lt_findIdx hi
  rw [cell_own hmax old hl]
  simpa [hl] using hn

theorem cell_at_stop (h : firstStop bytes < bytes.length) :
    cell (overlay old bytes) (firstStop bytes) = 0xff := by
  have hs : bytes[firstStop bytes] = 0xff :=
    of_decide_eq_true (List.findIdx_getElem (w := h))
  rw [cell_own hmax old h]
  simpa [h] using hs

theorem own_headerEnds (h : firstStop bytes < bytes.length) :
    HeaderEnds (overlay old bytes) (bytes.length - 1) (firstStop bytes / 2) where
  le := by omega
  before c hc := not_or.mpr
    ⟨cell_before_stop hmax old (by omega), cell_before_stop hmax old (by omega)⟩
  stop := by
    right
    have hs := cell_at_stop hmax old h
    rcases Nat.mod_two_eq_zero_or_one (firstStop bytes) with he | he
    · exact Or.inl (by rwa [show firstStop bytes / 2 * 2 = firstStop bytes by omega])
    · exact Or.inr (by rwa [show firstStop bytes / 2 * 2 + 1 = firstStop bytes by omega])

def ownCount (bytes : List UInt8) (k : Nat) : UInt16 :=
  ledsOf (bytes.getD (k * 2 + 1) 0) (bytes.getD (k * 2) 0)

theorem countAt_own {k : Nat} (hk : k * 2 + 1 < bytes.length) :
    countAt (overlay old bytes) k = ownCount bytes k := by
  rw [countAt, cell_own hmax old hk, cell_own hmax old (by omega), ownCount]

theorem own_pixel {dm : DataModel} {leds : Nat → Nat} (h : OwnHeader bytes)
    (hleds : ∀ k < min (firstStop bytes / 2) MAX_CHANNELS, leds k = (ownCount bytes k).toNat)
    {i : Nat}
    (hi : i < totalLedsNum dm bytes.length (firstStop bytes / 2 * 2 + 2))
    (hc : i < chanOffset leds (min (firstStop bytes / 2) MAX_CHANNELS)) :
    firstStop bytes / 2 * 2 + 2 + (i * 3 + 2) < bytes.length := by
  obtain ⟨hlt, _, hle | hzero⟩ := h
  · rw [totalLedsNum_of_le hle hmax] at hi
    omega
  · have hnone : ∀ k < min (firstStop bytes / 2) MAX_CHANNELS, leds k ≤ 0 := by
      intro k hk
      unfold MAX_CHANNELS at hk
      rw [hleds k hk, ownCount, hzero _ (by omega), hzero _ (by omega)]
      decide
    have := chanOffset_le hnone
    omega

end

section

variable {bytes : List UInt8} {dm : DataModel} {isWS : Nat → Bool}

def ownMeaning (dm : DataModel) (isWS : Nat → Bool) (bytes : List UInt8) : Meaning where
  chanCntr := firstStop bytes / 2
  counts := (List.range (firstStop bytes / 2)).map (ownCount bytes)
  headerByteOffset := firstStop bytes / 2 * 2 + 2
  writes := route isWS 1 (framePixels (overlay (Vector.replicate _ 0) bytes)
    (firstStop bytes / 2 * 2 + 2) (totalLedsNum dm bytes.length (firstStop bytes / 2 * 2 + 2))
    (fun k => (ownCount bytes k).toNat) (min (firstStop bytes / 2) MAX_CHANNELS))

theorem readFrame_ownMeaning (h : OwnHeader bytes)
    (hmax : bytes.length ≤ MAX_SENDBUFFER_SIZE) (old : Message) (ledsInChannel : Vector UInt16 6)
    (wsOut : WsOut) {spiOut : SpiOut} (hready : spiOut.Ready) :
    ∃ f, readFrame dm isWS (overlay old bytes) bytes.length ledsInChannel wsOut spiOut = .ok f ∧
      f.meaning = ownMeaning dm isWS bytes := by
  have hends := own_headerEnds hmax old h.1
  have hj : firstStop bytes / 2 ≤ 6 := by
    have := h.2.1
    omega
  have hlt := h.1
  obtain ⟨header, hp, hcntr, hoff, hch, hl⟩ := parseHeader_leds ledsInChannel hends hj
  have hleds : ∀ k < firstStop bytes / 2, header.leds k = (ownCount bytes k).toNat := by
    intro k hk
    rw [hl k hk, countAt_own hmax old (by omega)]
  have hpixel : ∀ i < totalLedsNum dm bytes.length (firstStop bytes / 2 * 2 + 2),
      i < chanOffset header.leds (min (firstStop bytes / 2) MAX_CHANNELS) →
      firstStop bytes / 2 * 2 + 2 + (i * 3 + 2) < bytes.length :=
    fun i hi hc => own_pixel hmax h (fun k hk => hleds k (by omega)) hi hc
  obtain ⟨f, hf, rfl⟩ := readFrame_ok dm isWS wsOut hp
    (fun i hi hc => by
      rw [hoff] at hi ⊢
      rw [hch] at hc
      have := hpixel i hi hc
      omega) hready
  refine ⟨f, hf, ?_⟩
  have hwrites := (readFrame_writes hf).2
  have hpixels : f.header.pixels dm (overlay old bytes) bytes.length =
      framePixels (overlay (Vector.replicate _ 0) bytes) (firstStop bytes / 2 * 2 + 2)
        (totalLedsNum dm bytes.length (firstStop bytes / 2 * 2 + 2))
        (fun k => (ownCount bytes k).toNat) (min (firstStop bytes / 2) MAX_CHANNELS) := by
    rw [Header.pixels, hoff, hch]
    apply framePixels_congr (fun k hk => hleds k (by omega))
    intro i hi hc r hr
    have := hpixel i hi hc
    rw [cell_own hmax old (by omega), cell_own hmax _ (by omega)]
  have hcounts : (List.range f.header.chanCntr).map (cell f.header.ledsInChannel) =
      (List.range (firstStop bytes / 2)).map (ownCount bytes) := by
    rw [hcntr]
    apply List.map_congr_left
    intro k hk
    exact UInt16.toNat_inj.mp (hleds k (List.mem_range.mp hk))
  rw [Frame.meaning, ownMeaning, hcounts, hcntr, hoff, hwrites, hpixels]

end

section

variable {dm : DataModel} {isWS : Nat → Bool} {d : Datagram} (h4 : 4 < d.bytes.length)
  (hmax : d.bytes.length ≤ MAX_SENDBUFFER_SIZE)

include h4 hmax

theorem ownMeaning_of_ownHeader (h : OwnHeader d.bytes) : OwnMeaning dm isWS d := by
  refine ⟨ownMeaning dm isWS d.bytes, fun s hm hready hp => ?_⟩
  exact (readPending_ok_iff hm hp h4 hmax).mpr
    (readFrame_ownMeaning h hmax s.message s.ledsInChannel s.wsOut hready)

end

end LmListener
