import LmListener.Sk9822

namespace LmListener

open Checked CTypes

structure SpiOut where
  fd : Int32
  buffers : List Sk9822Buffer

def SpiOut.new : SpiOut := ⟨-1, []⟩

def spiInit (mode bits speed : Int32) : Int32 :=
  if mode = -1 then -1 else if bits = -1 then -1 else if speed = -1 then -1 else 0

def SpiOut.init (s : SpiOut) (opened mode bits speed : Int32) : Bool × SpiOut :=
  let s := { s with fd := opened }
  if s.fd < 0 then (false, s)
  else if spiInit mode bits speed = -1 then (false, s)
  else (true, s)

def SpiOut.addChannel (dm : DataModel) (s : SpiOut) (maxLedsNumber : Nat)
    (malloc : Option (Nat → Sk9822Color)) : Bool × SpiOut :=
  match sk9822Init dm (toInt maxLedsNumber) malloc with
  | none => (false, s)
  | some buf => (true, { s with buffers := s.buffers ++ [buf] })

def SpiOut.writeLed (s : SpiOut) (chan index : Nat) (red green blue : UInt8) :
    Except Fault SpiOut :=
  if chan > s.buffers.length then .ok s
  else
    match s.buffers[chan]? with
    -- chan == buffers.size() passes the first test, and buffers[chan] is past the vector
    | none => .error (.spiChannel chan)
    | some buf =>
      if index > buf.leds then .ok s
      else do
        let buf ← writeRaw buf (1 + index) ⟨255, blue, green, red⟩
        return { s with buffers := s.buffers.set chan buf }

/-- The bad cases are logged and go on to `send_buffer` all the same. -/
def SpiOut.send (dm : DataModel) (s : SpiOut) (chan ledsNumber : Nat) :
    Except Fault (SpiOut × List UInt8) :=
  match s.buffers[chan]? with
  | none => .error (.spiChannel chan)
  | some buf => do
    let (buf, bytes) ← sendBuffer dm buf (toInt ledsNumber)
    return ({ s with buffers := s.buffers.set chan buf }, bytes)

/-- Capacity and allocated bytes of each channel; no operation on LEDs changes them. -/
def SpiOut.shape (s : SpiOut) : List (Nat × Nat) := s.buffers.map fun buf => (buf.leds, buf.size)

def SpiOut.word (s : SpiOut) (chan i : Nat) : Sk9822Color :=
  (s.buffers[chan]?.map fun buf => buf.word i).getD default

structure Covers (dm : DataModel) (p : Nat × Nat) : Prop where
  leds_lt : p.1 < 2 ^ 31
  size_lt : p.2 < 2 ^ dm.sizeBits
  room : wordsFor p.1 * 4 ≤ p.2

def SpiOut.Covered (dm : DataModel) (s : SpiOut) : Prop := ∀ p ∈ s.shape, Covers dm p

theorem SpiOut.shape_getElem? {s : SpiOut} {chan : Nat} {p : Nat × Nat}
    (h : s.shape[chan]? = some p) :
    ∃ buf, s.buffers[chan]? = some buf ∧ buf.leds = p.1 ∧ buf.size = p.2 := by
  simp only [SpiOut.shape, List.getElem?_map] at h
  obtain ⟨buf, hb, rfl⟩ := Option.map_eq_some_iff.mp h
  exact ⟨buf, hb, rfl, rfl⟩

theorem SpiOut.set_shape {s : SpiOut} {chan : Nat} {buf buf' : Sk9822Buffer}
    (hb : s.buffers[chan]? = some buf) (hl : buf'.leds = buf.leds) (hs : buf'.size = buf.size) :
    ({ s with buffers := s.buffers.set chan buf' } : SpiOut).shape = s.shape := by
  obtain ⟨hi, hv⟩ := List.getElem?_eq_some_iff.mp hb
  simp only [SpiOut.shape, List.map_set, hl, hs]
  apply List.ext_getElem (by simp)
  intro i h₁ h₂
  rw [List.getElem_set]
  split
  next he => subst i; simp [hv]
  next => rfl

theorem SpiOut.word_of_getElem? {s : SpiOut} {chan : Nat} {buf : Sk9822Buffer}
    (hb : s.buffers[chan]? = some buf) (i : Nat) : s.word chan i = buf.word i := by
  simp [SpiOut.word, hb]

theorem SpiOut.set_word {s : SpiOut} {chan : Nat} {buf buf' : Sk9822Buffer}
    (hb : s.buffers[chan]? = some buf) (c i : Nat) :
    ({ s with buffers := s.buffers.set chan buf' } : SpiOut).word c i =
      if c = chan then buf'.word i else s.word c i := by
  obtain ⟨hi, _⟩ := List.getElem?_eq_some_iff.mp hb
  by_cases hc : c = chan
  · subst c; simp [SpiOut.word, hi]
  · simp [SpiOut.word, hc, List.getElem?_set_ne (Ne.symm hc)]

/-- One LED word changes, and none when the guard rejects the index. -/
theorem SpiOut.writeLed_room {s : SpiOut} {chan index : Nat} {buf : Sk9822Buffer}
    (hb : s.buffers[chan]? = some buf) (hroom : index ≤ buf.leds → index + 1 < buf.size / 4)
    (red green blue : UInt8) :
    ∃ s', s.writeLed chan index red green blue = .ok s' ∧ s'.fd = s.fd ∧ s'.shape = s.shape ∧
      ∀ c i, s'.word c i =
        if c = chan ∧ i = index + 1 ∧ index ≤ buf.leds then ⟨255, blue, green, red⟩
        else s.word c i := by
  obtain ⟨hi, _⟩ := List.getElem?_eq_some_iff.mp hb
  have hc : ¬chan > s.buffers.length := by omega
  by_cases hindex : index > buf.leds
  · refine ⟨s, by simp [SpiOut.writeLed, hc, hb, hindex], rfl, rfl, fun c i => ?_⟩
    rw [if_neg (by omega)]
  · have hword : 1 + index < buf.size / 4 := by
      rw [Nat.add_comm]
      exact hroom (Nat.le_of_not_lt hindex)
    obtain ⟨buf', ho, hl, hz, hw⟩ := writeRaw_ok buf hword ⟨255, blue, green, red⟩
    refine ⟨{ s with buffers := s.buffers.set chan buf' }, ?_, rfl, SpiOut.set_shape hb hl hz, ?_⟩
    · simp only [Nat.cast_add, Nat.cast_one] at ho
      simp only [SpiOut.writeLed, hc, hb, hindex, if_false, ho]
      rfl
    · intro c i
      rw [SpiOut.set_word hb, hw]
      by_cases he : c = chan
      · subst c
        simp only [SpiOut.word_of_getElem? hb, true_and, if_true, Nat.add_comm 1 index]
        split_ifs <;> first | rfl | omega
      · simp [he]

theorem SpiOut.writeLed_spec {s : SpiOut} {chan leds size : Nat}
    (hs : s.shape[chan]? = some (leds, size)) (hroom : wordsFor leds ≤ size / 4) (index : Nat)
    (red green blue : UInt8) :
    ∃ s', s.writeLed chan index red green blue = .ok s' ∧ s'.fd = s.fd ∧ s'.shape = s.shape ∧
      ∀ c i, s'.word c i =
        if c = chan ∧ i = index + 1 ∧ index ≤ leds then ⟨255, blue, green, red⟩
        else s.word c i := by
  obtain ⟨buf, hb, rfl, rfl⟩ := SpiOut.shape_getElem? hs
  unfold wordsFor at hroom
  exact SpiOut.writeLed_room hb (fun _ => by omega) red green blue

/-- A write that passes the guard into words the block does not have. -/
theorem SpiOut.writeLed_faults {s : SpiOut} {chan index : Nat} {buf : Sk9822Buffer}
    (hb : s.buffers[chan]? = some buf) (hindex : index ≤ buf.leds)
    (hroom : buf.size / 4 ≤ index + 1) (red green blue : UInt8) :
    s.writeLed chan index red green blue = .error (.spiWord (index + 1 : Nat)) := by
  obtain ⟨hi, _⟩ := List.getElem?_eq_some_iff.mp hb
  have hn : ((1 : Int) + index).toNat = index + 1 := by omega
  simp only [SpiOut.writeLed, show ¬chan > s.buffers.length by omega, hb,
    show ¬index > buf.leds by omega, if_false, writeRaw, show ¬(1 : Int) + index < 0 by omega, hn,
    storeAt_of_le hroom]
  rfl

theorem SpiOut.send_spec {dm : DataModel} {s : SpiOut} {chan n leds size : Nat}
    (hs : s.shape[chan]? = some (leds, size)) (hn : n < 2 ^ 31)
    (hsize : wordsFor n * 4 < 2 ^ dm.sizeBits) (hroom : wordsFor n ≤ size / 4) :
    ∃ s', s.send dm chan n = .ok (s', stream ((List.range n).map fun j => s.word chan (j + 1))) ∧
      s'.fd = s.fd ∧ s'.shape = s.shape ∧
      ∀ c i, s'.word c i =
        if c = chan ∧ i = 0 then startFrame
        else if c = chan ∧ n < i ∧ i < wordsFor n then endFrame
        else s.word c i := by
  obtain ⟨buf, hb, rfl, rfl⟩ := SpiOut.shape_getElem? hs
  obtain ⟨buf', ho, hl, hz, hw⟩ := sendBuffer_ok hn hsize hroom
  refine ⟨{ s with buffers := s.buffers.set chan buf' }, ?_, rfl, SpiOut.set_shape hb hl hz, ?_⟩
  · simp only [SpiOut.send, hb, ho, SpiOut.word_of_getElem? hb]
    rfl
  · intro c i
    rw [SpiOut.set_word hb, hw]
    by_cases he : c = chan
    · subst c
      simp [SpiOut.word_of_getElem? hb]
    · simp [he]

theorem SpiOut.send_fits {dm : DataModel} {s : SpiOut} {chan n leds size : Nat}
    (hs : s.shape[chan]? = some (leds, size)) (hn : n < 2 ^ 31)
    (hsize : wordsFor n * 4 < 2 ^ dm.sizeBits) {r : SpiOut × List UInt8}
    (h : s.send dm chan n = .ok r) : wordsFor n ≤ size / 4 := by
  obtain ⟨buf, hb, rfl, rfl⟩ := SpiOut.shape_getElem? hs
  simp only [SpiOut.send, hb] at h
  obtain ⟨p, hp, _⟩ := bind_eq_ok.mp h
  exact sendBuffer_fits hn hsize hp

theorem SpiOut.addChannel_shape (dm : DataModel) (s : SpiOut) {maxLedsNumber : Nat}
    (h : maxLedsNumber < 2 ^ 29) (content : Nat → Sk9822Color) :
    (s.addChannel dm maxLedsNumber (some content)).2.shape =
      s.shape ++ [(maxLedsNumber, wordsFor maxLedsNumber * 4)] := by
  obtain ⟨buf, hb, hl, hz, _⟩ := sk9822Init_some dm content h
  simp [SpiOut.addChannel, hb, SpiOut.shape, hl, hz]

end LmListener
