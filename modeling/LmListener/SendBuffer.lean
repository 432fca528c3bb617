import LmListener.Sk9822

namespace LmListener

open Checked CTypes

/-- A buffer for `leds` LEDs as `sk9822_init` leaves it, where its computation of the size does not
overflow, as `int` or as `size_t`. The block may hold anything. -/
structure Initialised (dm : DataModel) (leds : Nat) (buf : Sk9822Buffer) : Prop where
  words_lt : wordsFor leds < 2 ^ 31
  size_lt : wordsFor leds * 4 < 2 ^ dm.sizeBits
  init : ∃ content, sk9822Init dm (toInt leds) (some content) = some buf

theorem Initialised.leds_lt {dm : DataModel} {leds : Nat} {buf : Sk9822Buffer}
    (h : Initialised dm leds buf) : leds < 2 ^ 31 := by
  have hwords := h.words_lt
  unfold wordsFor at hwords
  omega

theorem Initialised.size {dm : DataModel} {leds : Nat} {buf : Sk9822Buffer}
    (h : Initialised dm leds buf) : buf.size = wordsFor leds * 4 := by
  obtain ⟨content, hinit⟩ := h.init
  obtain ⟨buf', hbuf', _, hsize, _⟩ := sk9822Init_fits dm content h.leds_lt h.size_lt
  obtain rfl := Option.some.inj (hinit.symm.trans hbuf')
  exact hsize

/-- The zero words after the LEDs have 32 bits for the latch and half a bit for each LED, and
less than a word more. -/
theorem endFrames_bits {n : Nat} (h : 1 ≤ n) :
    32 + (n + 1) / 2 ≤ 32 * (2 + (n - 1) / 64) ∧ 32 * (2 + (n - 1) / 64) < 64 + (n + 1) / 2 := by
  omega

/-- A send within the capacity emits one stream with the words the buffer holds, and changes only
the words behind them. -/
theorem send_buffer_one_stream {dm : DataModel} {leds n : Nat} {buf : Sk9822Buffer}
    (hbuf : Initialised dm leds buf) (h1 : 1 ≤ n) (hn : n ≤ leds) :
    ∃ buf' bytes, sendBuffer dm buf (toInt n) = .ok (buf', bytes) ∧
      bytes = List.replicate 4 0 ++
        (List.range n).flatMap (fun j => (buf.word (j + 1)).bytes) ++
        List.replicate (4 * (2 + (n - 1) / 64)) 0 ∧
      32 + (n + 1) / 2 ≤ 8 * (bytes.drop (4 + 4 * n)).length ∧
      8 * (bytes.drop (4 + 4 * n)).length < 64 + (n + 1) / 2 ∧
      (∀ j < n, buf'.word (j + 1) = buf.word (j + 1)) ∧
      (∀ j, n ≤ j → j < n + (2 + (n - 1) / 64) → buf'.word (j + 1) = ⟨0, 0, 0, 0⟩) ∧
      ∀ j, n + (2 + (n - 1) / 64) ≤ j → buf'.word (j + 1) = buf.word (j + 1) := by
  have hleds := hbuf.leds_lt
  have hsize := hbuf.size_lt
  have hwords := wordsFor_mono hn
  have hroom : wordsFor n ≤ buf.size / 4 := by
    rw [hbuf.size]
    omega
  have hbits : wordsFor n * 4 < 2 ^ dm.sizeBits := by omega
  obtain ⟨buf', ho, _, _, hword⟩ := sendBuffer_ok (by omega) hbits hroom
  have hbytes : stream ((List.range n).map fun j => buf.word (j + 1)) = List.replicate 4 0 ++
      (List.range n).flatMap (fun j => (buf.word (j + 1)).bytes) ++
      List.replicate (4 * (2 + (n - 1) / 64)) 0 := by
    rw [stream_eq, List.flatMap_map, List.length_map, List.length_range]
  have hlen : ((List.range n).flatMap fun j => (buf.word (j + 1)).bytes).length = 4 * n := by
    simp [List.length_flatMap, Sk9822Color.bytes, Nat.mul_comm]
  have hzeros : 8 * ((List.replicate 4 (0 : UInt8) ++
      (List.range n).flatMap (fun j => (buf.word (j + 1)).bytes) ++
      List.replicate (4 * (2 + (n - 1) / 64)) 0).drop (4 + 4 * n)).length =
      32 * (2 + (n - 1) / 64) := by
    rw [List.length_drop, List.length_append, List.length_append, hlen, List.length_replicate,
      List.length_replicate]
    omega
  obtain ⟨hlo, hhi⟩ := endFrames_bits h1
  rw [hbytes] at ho
  refine ⟨buf', _, ho, rfl, by rwa [hzeros], by rwa [hzeros], ?_, ?_, ?_⟩
  · intro j hj
    rw [hword, if_neg (by omega), if_neg (by omega)]
  · intro j hj hj'
    rw [hword, if_neg (by omega), if_pos (by unfold wordsFor; omega)]
    rfl
  · intro j hj
    rw [hword, if_neg (by omega), if_neg (by unfold wordsFor; omega)]

theorem send_buffer_one_stream_two :
    ∃ buf buf', sk9822Init lp64 (toInt 2) (some fun _ => ⟨255, 1, 2, 3⟩) = some buf ∧
      sendBuffer lp64 buf (toInt 1) =
        .ok (buf', [0, 0, 0, 0, 255, 1, 2, 3, 0, 0, 0, 0, 0, 0, 0, 0]) ∧
      buf'.word 2 = ⟨0, 0, 0, 0⟩ := by
  have hleds : 2 < 2 ^ 31 := by decide
  obtain ⟨buf, hinit, _, _, hword⟩ :=
    sk9822Init_fits lp64 (fun _ => ⟨255, 1, 2, 3⟩) hleds (by decide)
  obtain ⟨buf', bytes, ho, hbytes, _, _, _, hzero, _⟩ := send_buffer_one_stream
    (n := 1) ⟨by decide, by decide, _, hinit⟩ (Nat.le_refl 1) (by decide)
  have hfirst : buf.word 1 = ⟨255, 1, 2, 3⟩ := hword 1 (by decide)
  refine ⟨buf, buf', hinit, ?_, hzero 1 (Nat.le_refl 1) (by decide)⟩
  rw [ho, hbytes]
  simp [hfirst, Sk9822Color.bytes]

end LmListener
