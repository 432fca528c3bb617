import LmListener.Checked
import LmListener.CTypes

namespace LmListener

open Checked CTypes

/-- The arrays of the listener. An access outside one of them stops the program. -/
inductive Fault
  | ledsInChannel (i : Nat)
  | message (i : Nat)
  | receiveBuffer (size : Nat)
  | wsLeds (i : Nat)
  | spiChannel (chan : Nat)
  | spiWord (i : Int)
deriving DecidableEq, Repr

/-- One LED on the wire: 11111111 BBBBBBBB GGGGGGGG RRRRRRRR. -/
structure Sk9822Color where
  f : UInt8
  b : UInt8
  g : UInt8
  r : UInt8
deriving DecidableEq, Repr, Inhabited

def Sk9822Color.bytes (c : Sk9822Color) : List UInt8 := [c.f, c.b, c.g, c.r]

def startFrame : Sk9822Color := ⟨0x00, 0x00, 0x00, 0x00⟩

def endFrame : Sk9822Color := ⟨0x00, 0x00, 0x00, 0x00⟩

/-- `size` counts bytes; the words behind `buffer` are the ones they hold. The pixels
start at word 1. -/
structure Sk9822Buffer where
  leds : Nat
  size : Nat
  buffer : Vector Sk9822Color (size / 4)

def Sk9822Buffer.word (buf : Sk9822Buffer) (i : Nat) : Sk9822Color := cell buf.buffer i

/-- `malloc` is `none` when it returns NULL, else the content it leaves in the new block. -/
def sk9822Init (dm : DataModel) (leds : Int32) (malloc : Option (Nat → Sk9822Color)) :
    Option Sk9822Buffer :=
  let size := dm.toSize ((leds.toInt + 2 + 1 + (leds.toInt - 1).tdiv 64) * 4)
  malloc.map fun content => ⟨dm.toSize leds.toInt, size, Vector.ofFn fun i => content i⟩

def writeRaw (buf : Sk9822Buffer) (i : Int) (color : Sk9822Color) : Except Fault Sk9822Buffer :=
  if i < 0 then .error (.spiWord i)
  else do
    let buffer ← storeAt (fun i => .spiWord i) buf.buffer i.toNat color
    return { buf with buffer }

def endFramesSize (ledsNum : Int) : Int := 2 + (ledsNum - 1).tdiv 64

def Sk9822Buffer.bytes (buf : Sk9822Buffer) (size : Nat) : Except Fault (List UInt8) :=
  if size ≤ buf.size then .ok ((buf.buffer.toList.take (size / 4)).flatMap Sk9822Color.bytes)
  else .error (.spiWord (buf.size / 4))

/-- The buffer afterwards and the bytes handed to `write_all`. -/
def sendBuffer (dm : DataModel) (buf : Sk9822Buffer) (ledsNum : Int32) :
    Except Fault (Sk9822Buffer × List UInt8) := do
  let n := ledsNum.toInt
  let buf ← writeRaw buf 0 startFrame
  let buf ← forLoop (fun i buf => writeRaw buf (1 + n + i) endFrame) (endFramesSize n).toNat 0 buf
  let bytes ← buf.bytes (dm.toSize ((n + 1 + endFramesSize n) * 4))
  return (buf, bytes)

/-- The SK9822 stream for a list of LED words: start frame, the words, and zero words for the
latch and half a clock edge for each LED. -/
def stream (leds : List Sk9822Color) : List UInt8 :=
  (startFrame :: leds ++ List.replicate (2 + (leds.length - 1) / 64) endFrame).flatMap
    Sk9822Color.bytes

theorem stream_eq (leds : List Sk9822Color) :
    stream leds = List.replicate 4 0 ++ leds.flatMap Sk9822Color.bytes ++
      List.replicate (4 * (2 + (leds.length - 1) / 64)) 0 := by
  have hend : ∀ n, (List.replicate n endFrame).flatMap Sk9822Color.bytes =
      List.replicate (4 * n) 0 := by
    intro n
    induction n with
    | zero => rfl
    | succ n ih => rw [List.replicate_succ, List.flatMap_cons, ih]; rfl
  rw [stream, List.flatMap_append, List.flatMap_cons, hend]
  rfl

theorem length_flatMap_bytes (words : List Sk9822Color) :
    (words.flatMap Sk9822Color.bytes).length = words.length * 4 := by
  simp [List.length_flatMap, Sk9822Color.bytes]

def wordsFor (n : Nat) : Nat := n + 3 + (n - 1) / 64

theorem length_stream (leds : List Sk9822Color) :
    (stream leds).length = wordsFor leds.length * 4 := by
  rw [stream, length_flatMap_bytes, List.length_append, List.length_cons, List.length_replicate,
    wordsFor]
  omega

theorem wordsFor_mono {m n : Nat} (h : m ≤ n) : wordsFor m ≤ wordsFor n := by
  have := Nat.div_le_div_right (c := 64) (Nat.sub_le_sub_right h 1)
  unfold wordsFor
  omega

theorem wordsFor_lt {m n : Nat} (h : m < n) : wordsFor m < wordsFor n := by
  have := wordsFor_mono h
  unfold wordsFor at *
  omega

theorem endFramesSize_natCast (n : Nat) : endFramesSize n = (2 + (n - 1) / 64 : Nat) := by
  unfold endFramesSize
  cases n with
  | zero => rfl
  | succ n =>
    have h : ((n + 1 : Nat) : Int) - 1 = n := by omega
    rw [h, Int.tdiv_eq_ediv_of_nonneg (by omega)]
    simp

theorem sk9822Init_fits (dm : DataModel) (content : Nat → Sk9822Color) {leds : Nat}
    (h : leds < 2 ^ 31) (hw : wordsFor leds * 4 < 2 ^ dm.sizeBits) :
    ∃ buf, sk9822Init dm (toInt leds) (some content) = some buf ∧ buf.leds = leds ∧
      buf.size = wordsFor leds * 4 ∧ ∀ i < wordsFor leds, buf.word i = content i := by
  have ht : (toInt leds).toInt = leds := toInt_toInt_of_lt h
  have hsize : dm.toSize (((toInt leds).toInt + 2 + 1 + ((toInt leds).toInt - 1).tdiv 64) * 4) =
      wordsFor leds * 4 := by
    have he := endFramesSize_natCast leds
    unfold endFramesSize at he
    have hs : (leds : Int) + 2 + 1 + (leds - 1 : Int).tdiv 64 = wordsFor leds := by
      unfold wordsFor
      omega
    simp only [ht, hs]
    exact_mod_cast dm.toSize_natCast hw
  refine ⟨_, rfl, ?_, hsize, fun i hi => ?_⟩
  · simpa only [ht] using dm.toSize_natCast (by have := dm.two_pow_le; omega)
  · have hi' : i < dm.toSize (((toInt leds).toInt + 2 + 1 + ((toInt leds).toInt - 1).tdiv 64) * 4) /
        4 := by
      rw [hsize]
      omega
    simp [Sk9822Buffer.word, cell, hi']

theorem wordsFor_size_lt (dm : DataModel) {leds : Nat} (h : leds < 2 ^ 29) :
    wordsFor leds * 4 < 2 ^ dm.sizeBits := by
  have := dm.two_pow_le
  unfold wordsFor
  omega

theorem sk9822Init_some (dm : DataModel) (content : Nat → Sk9822Color) {leds : Nat}
    (h : leds < 2 ^ 29) :
    ∃ buf, sk9822Init dm (toInt leds) (some content) = some buf ∧ buf.leds = leds ∧
      buf.size = wordsFor leds * 4 ∧ ∀ i < wordsFor leds, buf.word i = content i :=
  sk9822Init_fits dm content (by omega) (wordsFor_size_lt dm h)

theorem writeRaw_ok (buf : Sk9822Buffer) {i : Nat} (h : i < buf.size / 4) (color : Sk9822Color) :
    ∃ buf', writeRaw buf i color = .ok buf' ∧ buf'.leds = buf.leds ∧ buf'.size = buf.size ∧
      ∀ k, buf'.word k = if k = i then color else buf.word k := by
  refine ⟨{ buf with buffer := buf.buffer.set i color }, ?_, rfl, rfl, cell_set buf.buffer h color⟩
  simp [writeRaw, storeAt_of_lt h, show ¬(i : Int) < 0 by omega, bind_ok, pure, Except.pure]

theorem writeRaw_size {buf buf' : Sk9822Buffer} {i : Int} {color : Sk9822Color}
    (h : writeRaw buf i color = .ok buf') : buf'.leds = buf.leds ∧ buf'.size = buf.size := by
  unfold writeRaw at h
  split at h
  next => cases h
  next =>
    obtain ⟨buffer, _, h⟩ := bind_eq_ok.mp h
    cases h
    exact ⟨rfl, rfl⟩

theorem writeRaw_inRange {buf buf' : Sk9822Buffer} {i : Int} {color : Sk9822Color}
    (h : writeRaw buf i color = .ok buf') : 0 ≤ i ∧ i < (buf.size / 4 : Nat) := by
  unfold writeRaw at h
  split at h
  next => cases h
  next hi =>
    obtain ⟨buffer, hstore, _⟩ := bind_eq_ok.mp h
    unfold storeAt at hstore
    split at hstore
    next hlt => omega
    next => cases hstore

theorem Sk9822Buffer.toList_take (buf : Sk9822Buffer) {m : Nat} (h : m ≤ buf.size / 4) :
    buf.buffer.toList.take m = (List.range m).map buf.word := by
  apply List.ext_getElem (by simp; omega)
  intro i hi hj
  have hm : i < m := by simpa using hj
  simp [Sk9822Buffer.word, cell, show i < buf.size / 4 by omega]

/-- The bytes that `send_buffer` hands to `write_all`. -/
def sendSize (dm : DataModel) (ledsNum : Int32) : Nat :=
  dm.toSize ((ledsNum.toInt + 1 + endFramesSize ledsNum.toInt) * 4)

/-- A word that a send of that many LEDs sets to zero. -/
def Cleared (ledsNum : Int32) (k : Nat) : Prop :=
  k = 0 ∨ (1 + ledsNum.toInt ≤ k ∧ (k : Int) < 1 + ledsNum.toInt + endFramesSize ledsNum.toInt)

instance (ledsNum : Int32) (k : Nat) : Decidable (Cleared ledsNum k) :=
  inferInstanceAs (Decidable (_ ∨ _))

/-- The block has the words that a send sets, and the bytes it hands on. -/
structure SendFits (dm : DataModel) (buf : Sk9822Buffer) (ledsNum : Int32) : Prop where
  start : 0 < buf.size / 4
  endFrames : 0 < endFramesSize ledsNum.toInt → 0 ≤ 1 + ledsNum.toInt ∧
    1 + ledsNum.toInt + endFramesSize ledsNum.toInt ≤ (buf.size / 4 : Nat)
  bytes : sendSize dm ledsNum ≤ buf.size

theorem sendBuffer_sendFits {dm : DataModel} {buf : Sk9822Buffer} {ledsNum : Int32}
    {r : Sk9822Buffer × List UInt8} (h : sendBuffer dm buf ledsNum = .ok r) :
    SendFits dm buf ledsNum := by
  obtain ⟨b₁, h₁, h⟩ := bind_eq_ok.mp h
  obtain ⟨b₂, h₂, h⟩ := bind_eq_ok.mp h
  obtain ⟨bytes, h₃, _⟩ := bind_eq_ok.mp h
  have hs₁ := (writeRaw_size h₁).2
  let inv (i : Nat) (b : Sk9822Buffer) : Prop := b.size = b₁.size ∧
    (0 < i → 0 ≤ 1 + ledsNum.toInt ∧ 1 + ledsNum.toInt + i ≤ (b₁.size / 4 : Nat))
  have hinv : inv (0 + (endFramesSize ledsNum.toInt).toNat) b₂ := by
    refine forLoop_inv h₂ inv ⟨rfl, by omega⟩ ?_
    intro i b b' _ _ hb hi
    obtain ⟨hsize, hrange⟩ := hi
    have hin := writeRaw_inRange hb
    rw [hsize] at hin
    exact ⟨(writeRaw_size hb).2.trans hsize, by omega⟩
  obtain ⟨hs₂, hrange⟩ := hinv
  rw [hs₁] at hs₂ hrange
  refine ⟨by have := writeRaw_inRange h₁; omega, by omega, ?_⟩
  unfold Sk9822Buffer.bytes at h₃
  split at h₃
  next hle => rwa [hs₂] at hle
  next => cases h₃

/-- A send that stays inside its block, whatever its count. -/
theorem SendFits.sendBuffer {dm : DataModel} {buf : Sk9822Buffer} {ledsNum : Int32}
    (h : SendFits dm buf ledsNum) :
    ∃ buf', sendBuffer dm buf ledsNum = .ok (buf', ((List.range (sendSize dm ledsNum / 4)).map
        buf'.word).flatMap Sk9822Color.bytes) ∧ buf'.leds = buf.leds ∧ buf'.size = buf.size ∧
      ∀ k, buf'.word k = if Cleared ledsNum k then startFrame else buf.word k := by
  obtain ⟨b₁, ho₁, hl₁, hs₁, hw₁⟩ := writeRaw_ok buf h.start startFrame
  let inv (i : Nat) (b : Sk9822Buffer) : Prop := b.leds = buf.leds ∧ b.size = buf.size ∧
    ∀ k : Nat, b.word k =
      if k = 0 ∨ (1 + ledsNum.toInt ≤ k ∧ (k : Int) < 1 + ledsNum.toInt + i) then startFrame
      else buf.word k
  have start : inv 0 b₁ := by
    refine ⟨hl₁, hs₁, fun k => ?_⟩
    rw [hw₁]
    split_ifs <;> first | rfl | omega
  have step : ∀ i b, 0 ≤ i → i < 0 + (endFramesSize ledsNum.toInt).toNat → inv i b →
      ∃ b', writeRaw b (1 + ledsNum.toInt + i) endFrame = .ok b' ∧ inv (i + 1) b' := by
    intro i b _ hi hinv
    obtain ⟨hl, hs, hw⟩ := hinv
    obtain ⟨h0, hlt⟩ := h.endFrames (by omega)
    obtain ⟨m, hm⟩ := Int.eq_ofNat_of_zero_le (show 0 ≤ 1 + ledsNum.toInt + i by omega)
    obtain ⟨b', ho', hl', hs', hw'⟩ := writeRaw_ok b (i := m) (by omega) endFrame
    rw [hm]
    refine ⟨b', ho', hl'.trans hl, hs'.trans hs, fun k => ?_⟩
    rw [hw', hw]
    split_ifs <;> first | rfl | omega
  obtain ⟨b₂, ho₂, hl₂, hs₂, hw₂⟩ := forLoop_ok inv start step
  have hbytes : b₂.bytes (sendSize dm ledsNum) =
      .ok (((List.range (sendSize dm ledsNum / 4)).map b₂.word).flatMap Sk9822Color.bytes) := by
    have hle : sendSize dm ledsNum ≤ b₂.size := hs₂ ▸ h.bytes
    rw [Sk9822Buffer.bytes, if_pos hle, b₂.toList_take (Nat.div_le_div_right hle)]
  have hsend : LmListener.sendBuffer dm buf ledsNum = .ok (b₂,
      ((List.range (sendSize dm ledsNum / 4)).map b₂.word).flatMap Sk9822Color.bytes) := by
    unfold sendSize at hbytes ⊢
    simp only [Nat.cast_zero] at ho₁
    simp only [LmListener.sendBuffer, ho₁, bind_ok, ho₂, hbytes]
    rfl
  refine ⟨b₂, hsend, hl₂, hs₂, fun k => ?_⟩
  rw [hw₂]
  refine if_congr ?_ rfl rfl
  unfold Cleared
  omega

theorem stream_eq_words {n : Nat} {f : Nat → Sk9822Color} (h0 : f 0 = startFrame)
    (he : ∀ k, n < k → k < wordsFor n → f k = endFrame) :
    ((List.range (wordsFor n)).map f).flatMap Sk9822Color.bytes =
      stream ((List.range n).map fun j => f (j + 1)) := by
  have hsplit : wordsFor n = n + 1 + (2 + (n - 1) / 64) := by
    unfold wordsFor
    omega
  have htail : (List.range (2 + (n - 1) / 64)).map (fun i => f (n + 1 + i)) =
      List.replicate (2 + (n - 1) / 64) endFrame := by
    apply List.eq_replicate_iff.mpr
    refine ⟨by simp, fun w hw => ?_⟩
    obtain ⟨i, hi, rfl⟩ := List.mem_map.mp hw
    have hi' := List.mem_range.mp hi
    exact he _ (by omega) (by omega)
  rw [hsplit, List.range_add, List.range_succ_eq_map]
  simp only [List.map_append, List.map_cons, List.map_map, h0, stream, List.length_map,
    List.length_range]
  congr 2

theorem sendSize_toInt {dm : DataModel} {n : Nat} (hn : n < 2 ^ 31)
    (h : wordsFor n * 4 < 2 ^ dm.sizeBits) : sendSize dm (toInt n) = wordsFor n * 4 := by
  have hwords : ((n : Int) + 1 + (2 + (n - 1) / 64 : Nat)) * 4 = (wordsFor n * 4 : Nat) := by
    unfold wordsFor
    omega
  rw [sendSize, toInt_toInt_of_lt hn, endFramesSize_natCast, hwords, dm.toSize_natCast h]

theorem cleared_toInt {n : Nat} (hn : n < 2 ^ 31) (k : Nat) :
    Cleared (toInt n) k ↔ k = 0 ∨ (n < k ∧ k < wordsFor n) := by
  unfold Cleared wordsFor
  rw [toInt_toInt_of_lt hn, endFramesSize_natCast]
  omega

theorem sendFits_toInt {dm : DataModel} {buf : Sk9822Buffer} {n : Nat} (hn : n < 2 ^ 31)
    (hsize : wordsFor n * 4 < 2 ^ dm.sizeBits) :
    SendFits dm buf (toInt n) ↔ wordsFor n ≤ buf.size / 4 := by
  have hsend := sendSize_toInt hn hsize
  constructor
  · intro h
    have := h.bytes
    omega
  · intro h
    unfold wordsFor at *
    refine ⟨by omega, fun _ => ?_, by omega⟩
    rw [toInt_toInt_of_lt hn, endFramesSize_natCast]
    omega

/-- A send that fits in the allocation puts one stream on the wire. It keeps the LED words it
sends and overwrites the words after them with end frames. -/
theorem sendBuffer_ok {dm : DataModel} {buf : Sk9822Buffer} {n : Nat} (hn : n < 2 ^ 31)
    (hsize : wordsFor n * 4 < 2 ^ dm.sizeBits) (h : wordsFor n ≤ buf.size / 4) :
    ∃ buf', sendBuffer dm buf (toInt n) =
        .ok (buf', stream ((List.range n).map fun j => buf.word (j + 1))) ∧
      buf'.leds = buf.leds ∧ buf'.size = buf.size ∧
      ∀ k, buf'.word k =
        if k = 0 then startFrame else if n < k ∧ k < wordsFor n then endFrame else buf.word k := by
  obtain ⟨buf', ho, hl, hs, hw⟩ := ((sendFits_toInt hn hsize).mpr h).sendBuffer
  have hword : ∀ k, buf'.word k =
      if k = 0 then startFrame else if n < k ∧ k < wordsFor n then endFrame else buf.word k := by
    intro k
    rw [hw, if_congr (cleared_toInt hn k) rfl rfl]
    split_ifs <;> first | rfl | omega
  have hleds : (List.range n).map (fun j => buf'.word (j + 1)) =
      (List.range n).map fun j => buf.word (j + 1) := by
    apply List.map_congr_left
    intro j hj
    have := List.mem_range.mp hj
    rw [hword, if_neg (by omega), if_neg (by omega)]
  refine ⟨buf', ?_, hl, hs, hword⟩
  rw [ho, sendSize_toInt hn hsize, Nat.mul_div_cancel _ (by omega),
    stream_eq_words (by simp [hword]), hleds]
  intro k hk hk'
  rw [hword, if_neg (by omega), if_pos ⟨hk, hk'⟩]

theorem sendBuffer_fits {dm : DataModel} {buf : Sk9822Buffer} {n : Nat} (hn : n < 2 ^ 31)
    (hsize : wordsFor n * 4 < 2 ^ dm.sizeBits) {r : Sk9822Buffer × List UInt8}
    (h : sendBuffer dm buf (toInt n) = .ok r) : wordsFor n ≤ buf.size / 4 :=
  (sendFits_toInt hn hsize).mp (sendBuffer_sendFits h)

theorem writeRaw_error {buf : Sk9822Buffer} {i : Int} {color : Sk9822Color} {e : Fault}
    (h : writeRaw buf i color = .error e) : ∃ k, e = .spiWord k := by
  unfold writeRaw at h
  split at h
  next => cases h; exact ⟨_, rfl⟩
  next =>
    rcases bind_eq_error.mp h with h | ⟨_, _, h⟩
    · unfold storeAt at h
      split at h
      next => cases h
      next => cases h; exact ⟨_, rfl⟩
    · cases h

theorem sendBuffer_error {dm : DataModel} {buf : Sk9822Buffer} {ledsNum : Int32} {e : Fault}
    (h : sendBuffer dm buf ledsNum = .error e) : ∃ k, e = .spiWord k := by
  rcases bind_eq_error.mp h with h | ⟨b₁, _, h⟩
  · exact writeRaw_error h
  rcases bind_eq_error.mp h with h | ⟨b₂, _, h⟩
  · obtain ⟨_, _, _, _, _, h⟩ :=
      forLoop_error h (fun _ => True) trivial (fun _ _ _ _ _ _ _ => trivial)
    exact writeRaw_error h
  rcases bind_eq_error.mp h with h | ⟨bytes, _, h⟩
  · unfold Sk9822Buffer.bytes at h
    split at h
    next => cases h
    next => cases h; exact ⟨_, rfl⟩
  · cases h

end LmListener
