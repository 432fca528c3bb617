import Mathlib.Data.Nat.Prime.Basic
import LmListener.SpiHistory
import LmListener.WriteCalls

namespace LmListener

open Checked CTypes

theorem endFramesSize_of_neg {v : Int} (h : v < 0) : endFramesSize v = 2 - (1 - v) / 64 := by
  have hneg : v - 1 = -(1 - v) := by omega
  rw [endFramesSize, hneg, Int.neg_tdiv, Int.tdiv_eq_ediv_of_nonneg (by omega)]
  omega

theorem sendSize_lt (dm : DataModel) (ledsNum : Int32) : sendSize dm ledsNum < 2 ^ dm.sizeBits := by
  have hw := dm.two_pow_le
  have hc := dm.toSize_cast ((ledsNum.toInt + 1 + endFramesSize ledsNum.toInt) * 4)
  have := Int.emod_lt_of_pos ((ledsNum.toInt + 1 + endFramesSize ledsNum.toInt) * 4)
    (show (0 : Int) < (2 ^ dm.sizeBits : Nat) by omega)
  unfold sendSize
  omega

theorem sendSize_dvd (dm : DataModel) (ledsNum : Int32) : 4 ∣ sendSize dm ledsNum := by
  have hc := dm.toSize_cast ((ledsNum.toInt + 1 + endFramesSize ledsNum.toInt) * 4)
  have hdiv := Int.emod_add_mul_ediv ((ledsNum.toInt + 1 + endFramesSize ledsNum.toInt) * 4)
    (2 ^ dm.sizeBits : Nat)
  obtain ⟨p, hp⟩ : 4 ∣ 2 ^ dm.sizeBits :=
    pow_dvd_pow 2 (show 2 ≤ dm.sizeBits by have := dm.int_le_size; omega)
  rw [hp, Nat.cast_mul, Int.mul_assoc] at hdiv
  rw [hp, Nat.cast_mul] at hc
  unfold sendSize
  push_cast at hc hdiv
  omega

theorem toInt_emod (n : Nat) : (toInt n).toInt % 2 ^ 32 = (n : Int) % 2 ^ 32 := by
  rw [toInt, Int32.toInt_ofNat']
  exact Int.bmod_emod

theorem sendSize_le (dm : DataModel) (m : Nat) :
    dm.toSize (((m : Int) + 1 + endFramesSize m) * 4) ≤ wordsFor m * 4 := by
  have hwords : ((m : Int) + 1 + endFramesSize m) * 4 = (wordsFor m * 4 : Nat) := by
    rw [endFramesSize_natCast]
    unfold wordsFor
    omega
  have hc := dm.toSize_cast ((wordsFor m * 4 : Nat) : Int)
  rw [hwords]
  have := Nat.mod_le (wordsFor m * 4) (2 ^ dm.sizeBits)
  omega

/-- With a negative count both end frame counts round down, so the two sizes are 65/64 of a multiple
of `2 ^ 32` apart, and no power of two is that. -/
theorem wordsFor_ne_wrapped {bits n : Nat} {v k : Int} (hbits : 32 ≤ bits) (hn : 2 ^ 31 ≤ n)
    (hv : v < 0) (hlo : -2 ^ 31 ≤ v) (hmod : v % 2 ^ 32 = n % 2 ^ 32)
    (hlt : wordsFor n * 4 < 2 ^ bits)
    (hk : (v + 3 - (1 - v) / 64) * 4 = (wordsFor n * 4 : Nat) + (2 ^ bits : Nat) * k) : False := by
  have hneg : k < 0 := by
    by_contra hpos
    have := Int.mul_nonneg (Int.natCast_nonneg (2 ^ bits)) (Int.not_lt.mp hpos)
    unfold wordsFor at hk
    omega
  have hone : k = -1 := by
    by_contra hne
    have := Int.mul_le_mul_of_nonneg_left (show k ≤ -2 by omega)
      (Int.natCast_nonneg (2 ^ bits))
    unfold wordsFor at hk hlt
    omega
  subst hone
  obtain ⟨p, hp⟩ : ∃ p, 2 ^ bits = 2 ^ 32 * 2 ^ p :=
    ⟨bits - 32, by rw [← Nat.pow_add, Nat.add_sub_cancel' hbits]⟩
  have h5 : 5 ∣ 2 ^ p := by
    unfold wordsFor at hk
    rw [hp] at hk
    omega
  exact absurd (Nat.prime_five.dvd_of_dvd_pow h5) (by decide)

/-- A send whose size is right for `n` LEDs was given a count that fits in an `int`. -/
theorem sendSize_exact {dm : DataModel} {n : Nat} (h : sendSize dm (toInt n) = wordsFor n * 4) :
    n < 2 ^ 31 := by
  by_contra hn
  have hlt := sendSize_lt dm (toInt n)
  have hc := dm.toSize_cast (((toInt n).toInt + 1 + endFramesSize (toInt n).toInt) * 4)
  have hmod := toInt_emod n
  have hlo := (toInt n).le_toInt
  have hhi := (toInt n).toInt_lt
  unfold sendSize at h hlt
  generalize (toInt n).toInt = v at *
  rcases Int.lt_or_le v 0 with hv | hv
  · rw [endFramesSize_of_neg hv] at h hlt hc
    have hdiv := Int.emod_add_mul_ediv ((v + 1 + (2 - (1 - v) / 64)) * 4) (2 ^ dm.sizeBits : Nat)
    refine wordsFor_ne_wrapped dm.int_le_size (Nat.le_of_not_lt hn) hv hlo hmod (h ▸ hlt)
      (k := (v + 1 + (2 - (1 - v) / 64)) * 4 / (2 ^ dm.sizeBits : Nat)) ?_
    omega
  · obtain ⟨m, rfl⟩ := Int.eq_ofNat_of_zero_le hv
    have hle := sendSize_le dm m
    have hwords := wordsFor_lt (show m < n by omega)
    omega

/-- The capacity counts as the code keeps it in `leds`. -/
def SpiOut.CannotSend (s : SpiOut) (chan n : Nat) : Prop :=
  s.fd < 0 ∨ s.buffers.length ≤ chan ∨ ∃ buf, s.buffers[chan]? = some buf ∧ buf.leds < n

/-- A send that cannot be carried out changes no word and calls no `write`; any other transmits the
LEDs of its channel. -/
def SpiOut.SendsExactly (dm : DataModel) (s : SpiOut) (chan n : Nat) : Prop :=
  (s.CannotSend chan n → ∃ s' bytes, s.send dm chan n = .ok (s', bytes) ∧
    (∀ c i, s'.word c i = s.word c i) ∧
    ∀ dev calls fuel, writeCalls dev bytes.length fuel (writeAllStart calls bytes) = []) ∧
  (¬s.CannotSend chan n → ∃ s', s.send dm chan n =
    .ok (s', stream ((List.range n).map fun j => s.word chan (j + 1))))

/-- The device is open and the channel has `n` LEDs; the counts fit in their types and the block has
the words. -/
def SpiOut.Sendable (dm : DataModel) (s : SpiOut) (chan n : Nat) : Prop :=
  ¬s.fd < 0 ∧ ∃ buf, s.buffers[chan]? = some buf ∧ n ≤ buf.leds ∧ n < 2 ^ 31 ∧
    wordsFor n * 4 < 2 ^ dm.sizeBits ∧ wordsFor n ≤ buf.size / 4

/-- The size of the message wraps to 0, and the words to be cleared are zero already. -/
def SpiOut.SendsNothing (dm : DataModel) (s : SpiOut) (chan n : Nat) : Prop :=
  ∃ buf, s.buffers[chan]? = some buf ∧ (s.fd < 0 ∨ buf.leds < n) ∧ SendFits dm buf (toInt n) ∧
    sendSize dm (toInt n) = 0 ∧ ∀ k, Cleared (toInt n) k → s.word chan k = startFrame

section

variable {dm : DataModel} {s : SpiOut} {chan n : Nat} {buf : Sk9822Buffer}

theorem SpiOut.cannotSend_iff (hb : s.buffers[chan]? = some buf) :
    s.CannotSend chan n ↔ s.fd < 0 ∨ buf.leds < n := by
  obtain ⟨hi, _⟩ := List.getElem?_eq_some_iff.mp hb
  unfold SpiOut.CannotSend
  rw [hb]
  constructor
  · intro h
    rcases h with h | h | ⟨buf', hb', h⟩
    · exact Or.inl h
    · omega
    · cases hb'
      exact Or.inr h
  · intro h
    exact h.imp_right fun h => Or.inr ⟨buf, rfl, h⟩

theorem SpiOut.sendable_iff (hb : s.buffers[chan]? = some buf) :
    s.Sendable dm chan n ↔ ¬s.CannotSend chan n ∧ n < 2 ^ 31 ∧
      wordsFor n * 4 < 2 ^ dm.sizeBits ∧ wordsFor n ≤ buf.size / 4 := by
  rw [SpiOut.cannotSend_iff hb, not_or, Nat.not_lt, and_assoc, SpiOut.Sendable, hb]
  simp

theorem SpiOut.sendsNothing_iff (hb : s.buffers[chan]? = some buf) :
    s.SendsNothing dm chan n ↔ s.CannotSend chan n ∧ SendFits dm buf (toInt n) ∧
      sendSize dm (toInt n) = 0 ∧ ∀ k, Cleared (toInt n) k → s.word chan k = startFrame := by
  rw [SpiOut.cannotSend_iff hb, SpiOut.SendsNothing, hb]
  simp

theorem SpiOut.send_sendFits (hb : s.buffers[chan]? = some buf) {r : SpiOut × List UInt8}
    (h : s.send dm chan n = .ok r) : SendFits dm buf (toInt n) := by
  simp only [SpiOut.send, hb] at h
  obtain ⟨p, hp, _⟩ := bind_eq_ok.mp h
  exact sendBuffer_sendFits hp

/-- What a send does that stays inside its block. -/
theorem SpiOut.send_of_sendFits (hb : s.buffers[chan]? = some buf)
    (h : SendFits dm buf (toInt n)) :
    ∃ s' bytes, s.send dm chan n = .ok (s', bytes) ∧ bytes.length = sendSize dm (toInt n) ∧
      ∀ c i, s'.word c i =
        if c = chan ∧ Cleared (toInt n) i then startFrame else s.word c i := by
  obtain ⟨buf', ho, _, _, hw⟩ := h.sendBuffer
  have hsend : s.send dm chan n = .ok ({ s with buffers := s.buffers.set chan buf' },
      ((List.range (sendSize dm (toInt n) / 4)).map buf'.word).flatMap Sk9822Color.bytes) := by
    simp only [SpiOut.send, hb, ho]
    rfl
  refine ⟨_, _, hsend, ?_, fun c i => ?_⟩
  · rw [length_flatMap_bytes, List.length_map, List.length_range]
    exact Nat.div_mul_cancel (sendSize_dvd dm (toInt n))
  · rw [SpiOut.set_word hb, hw]
    by_cases hc : c = chan
    · subst c
      simp [SpiOut.word_of_getElem? hb]
    · simp [hc]

/-- A send that changes no word and calls no `write`. -/
theorem SpiOut.silent_iff (hb : s.buffers[chan]? = some buf) :
    (∃ s' bytes, s.send dm chan n = .ok (s', bytes) ∧ (∀ c i, s'.word c i = s.word c i) ∧
      ∀ dev calls fuel, writeCalls dev bytes.length fuel (writeAllStart calls bytes) = []) ↔
    SendFits dm buf (toInt n) ∧ sendSize dm (toInt n) = 0 ∧
      ∀ k, Cleared (toInt n) k → s.word chan k = startFrame := by
  constructor
  · intro h
    obtain ⟨s', bytes, ho, hsame, hcalls⟩ := h
    have hfits := SpiOut.send_sendFits hb ho
    obtain ⟨t, sent, ht, hlen, hw⟩ := SpiOut.send_of_sendFits hb hfits
    rw [ho] at ht
    cases ht
    refine ⟨hfits, ?_, fun k hk => ?_⟩
    · by_contra hne
      have hpos : (writeAllStart 0 bytes).size > 0 := by
        rw [← hlen] at hne
        exact Nat.pos_of_ne_zero hne
      have hfirst := hcalls takesTwo 0 1
      rw [writeCalls, if_pos hpos] at hfirst
      cases hfirst
    · rw [← hsame, hw, if_pos ⟨rfl, hk⟩]
  · intro h
    obtain ⟨hfits, hzero, hclear⟩ := h
    obtain ⟨s', bytes, ho, hlen, hw⟩ := SpiOut.send_of_sendFits hb hfits
    refine ⟨s', bytes, ho, fun c i => ?_, fun dev calls fuel => ?_⟩
    · rw [hw]
      split
      next hc =>
        obtain ⟨rfl, hc⟩ := hc
        exact (hclear i hc).symm
      next => rfl
    · obtain rfl : bytes = [] := List.length_eq_zero_iff.mp (hlen.trans hzero)
      cases fuel <;> rfl

theorem SpiOut.sends_iff (hb : s.buffers[chan]? = some buf) :
    (∃ s', s.send dm chan n =
      .ok (s', stream ((List.range n).map fun j => s.word chan (j + 1)))) ↔
    n < 2 ^ 31 ∧ wordsFor n * 4 < 2 ^ dm.sizeBits ∧ wordsFor n ≤ buf.size / 4 := by
  constructor
  · intro h
    obtain ⟨s', ho⟩ := h
    have hfits := SpiOut.send_sendFits hb ho
    obtain ⟨t, sent, ht, hlen, _⟩ := SpiOut.send_of_sendFits hb hfits
    rw [ho] at ht
    cases ht
    rw [length_stream, List.length_map, List.length_range] at hlen
    have hn := sendSize_exact hlen.symm
    have hsize : wordsFor n * 4 < 2 ^ dm.sizeBits := hlen ▸ sendSize_lt dm (toInt n)
    exact ⟨hn, hsize, (sendFits_toInt hn hsize).mp hfits⟩
  · intro h
    obtain ⟨hn, hsize, hroom⟩ := h
    have hshape : s.shape[chan]? = some (buf.leds, buf.size) := by simp [SpiOut.shape, hb]
    obtain ⟨s', ho, _⟩ := SpiOut.send_spec hshape hn hsize hroom
    exact ⟨s', ho⟩

/-- The size wraps to 0 on targets with a narrow `size_t` only. -/
theorem SpiOut.SendsNothing.sizeBits_lt (h : s.SendsNothing dm chan n) : dm.sizeBits < 34 := by
  obtain ⟨buf, _, _, hfits, hzero, _⟩ := h
  by_contra hwide
  have hw : 2 ^ 34 ≤ 2 ^ dm.sizeBits := Nat.pow_le_pow_right (by omega) (Nat.le_of_not_lt hwide)
  have hc := dm.toSize_cast (((toInt n).toInt + 1 + endFramesSize (toInt n).toInt) * 4)
  have hends := hfits.endFrames
  have hlo := (toInt n).le_toInt
  have hhi := (toInt n).toInt_lt
  unfold sendSize at hzero
  rw [hzero] at hc
  have hdvd := Int.dvd_of_emod_eq_zero hc.symm
  generalize (toInt n).toInt = v at *
  rcases Int.lt_or_le v 0 with hv | hv
  · rw [endFramesSize_of_neg hv] at hdvd hends
    have := Int.eq_zero_of_abs_lt_dvd hdvd (by rw [abs_lt]; omega)
    omega
  · obtain ⟨m, rfl⟩ := Int.eq_ofNat_of_zero_le hv
    rw [endFramesSize_natCast] at hdvd
    have := Int.eq_zero_of_abs_lt_dvd hdvd (by rw [abs_lt]; omega)
    omega

end

/-- `send` logs a call it cannot carry out and goes on, so that it is right only about calls it
can carry out, and about those that happen to do nothing. -/
theorem send_exact_iff (dm : DataModel) (s : SpiOut) (chan n : Nat) :
    s.SendsExactly dm chan n ↔ s.Sendable dm chan n ∨ s.SendsNothing dm chan n := by
  cases hb : s.buffers[chan]? with
  | none =>
    have hcannot : s.CannotSend chan n := Or.inr (Or.inl (List.getElem?_eq_none_iff.mp hb))
    constructor
    · intro h
      obtain ⟨s', bytes, ho, _⟩ := h.1 hcannot
      simp only [SpiOut.send, hb] at ho
      cases ho
    · intro h
      rcases h with ⟨_, buf, hb', _⟩ | ⟨buf, hb', _⟩ <;> rw [hb] at hb' <;> cases hb'
  | some buf =>
    unfold SpiOut.SendsExactly
    rw [SpiOut.sendable_iff hb, SpiOut.sendsNothing_iff hb, SpiOut.silent_iff hb,
      SpiOut.sends_iff hb]
    by_cases hc : s.CannotSend chan n
    · simp only [hc, not_true_eq_false, false_implies, true_implies, false_and, true_and, and_true,
        false_or]
    · simp only [hc, not_false_eq_true, false_implies, true_implies, false_and, true_and, or_false]

/-- Without a device a send of one LED turns the second LED off and hands 16 bytes to `write_all`;
the channel behind the last is read past the vector; a third LED on a channel of two is written past
its block. -/
theorem send_not_refused :
    ¬twoLeds.SendsExactly lp64 0 1 ∧ ¬twoLeds.SendsExactly lp64 1 1 ∧
    ¬({ twoLeds with fd := 3 } : SpiOut).SendsExactly lp64 0 3 ∧
    ((twoLeds.writeLed 0 1 9 8 7).map fun s => s.word 0 2) = .ok ⟨255, 7, 8, 9⟩ ∧
    ((twoLeds.writeLed 0 1 9 8 7).bind fun s =>
      (s.send lp64 0 1).map fun r => (r.1.word 0 2, r.2.length)) = .ok (⟨0, 0, 0, 0⟩, 16) := by
  obtain ⟨buf, hb, hleds, hsize⟩ := SpiOut.shape_getElem?
    (show twoLeds.shape[0]? = some (2, 20) by rw [twoLeds_shape]; rfl)
  refine ⟨fun h => ?_, fun h => ?_, fun h => ?_, by decide, by decide⟩
  · obtain ⟨_, hzero, _⟩ := (SpiOut.silent_iff hb).mp (h.1 (Or.inl (by decide)))
    exact absurd hzero (by decide)
  · obtain ⟨s', bytes, ho, _⟩ := h.1 (Or.inl (by decide))
    have hfault : (twoLeds.send lp64 1 1).map (fun r => r.2) = .error (.spiChannel 1) := by decide
    rw [ho] at hfault
    cases hfault
  · have hb' : ({ twoLeds with fd := 3 } : SpiOut).buffers[0]? = some buf := hb
    obtain ⟨hfits, _⟩ := (SpiOut.silent_iff hb').mp
      (h.1 ((SpiOut.cannotSend_iff hb').mpr (Or.inr (by rw [hleds]; decide))))
    have hroom := hfits.endFrames (by decide)
    rw [hsize] at hroom
    exact absurd hroom (by decide)

end LmListener
