import LmListener.FrameLoop

namespace LmListener

open Checked CTypes

/-- After `PeekReceive` has returned `peeked`: the size `Receive` is called with is that of a frame
and inside the frame buffer, `Receive` stays inside it, and an error is not followed by a call. -/
structure ReceiveFits (dm : DataModel) (peeked : Int32) : Prop where
  size : ∀ iSize, receiveSize (dm.toSize peeked.toInt) = some iSize →
    4 < iSize.toInt ∧ iSize.toInt ≤ MAX_SENDBUFFER_SIZE
  inside : ∀ iSize, receiveSize (dm.toSize peeked.toInt) = some iSize →
    ∀ (m : UdpManager) (message : Message)
      (recvfrom : Nat → List Datagram → RecvFrom × List Datagram)
      (select : Int32) (pending : List Datagram),
      ∃ r, m.receive dm recvfrom message iSize select pending = .ok r
  error : peeked.toInt < 0 → receiveSize (dm.toSize peeked.toInt) = none

/-- The two conversions between `int` and `size_t` cancel out: what is tested is the value as a
`size_t`, what is passed on is the value itself. -/
theorem receiveSize_eq_some_iff (dm : DataModel) {peeked iSize : Int32} :
    receiveSize (dm.toSize peeked.toInt) = some iSize ↔
      (peeked.toInt < 0 ∨ 4 < peeked.toInt) ∧ iSize = peeked := by
  have hlo := peeked.le_toInt
  have hhi := peeked.toInt_lt
  have hlarge : dm.toSize peeked.toInt > 4 ↔ peeked.toInt < 0 ∨ 4 < peeked.toInt := by
    rcases Int.lt_or_le peeked.toInt 0 with hneg | hnonneg
    · have := dm.toSize_of_neg hneg hlo
      omega
    · rw [dm.toSize_of_nonneg hnonneg (by omega)]
      omega
  rw [receiveSize, toInt_toSize]
  split
  next h => simp [hlarge.mp h, eq_comm]
  next h => simp [mt hlarge.mpr h]

theorem receiveFits_of_range {dm : DataModel} {peeked : Int32} (h0 : 0 ≤ peeked.toInt)
    (hmax : peeked.toInt ≤ MAX_SENDBUFFER_SIZE) : ReceiveFits dm peeked where
  size iSize h := by
    obtain ⟨hlarge, rfl⟩ := (receiveSize_eq_some_iff dm).mp h
    exact ⟨by omega, hmax⟩
  inside iSize h := by
    intro m message recvfrom select pending
    obtain ⟨_, rfl⟩ := (receiveSize_eq_some_iff dm).mp h
    unfold MAX_SENDBUFFER_SIZE at hmax
    apply UdpManager.receive_ok
    rw [dm.toSize_of_nonneg h0 (by omega)]
    unfold MAX_SENDBUFFER_SIZE
    omega
  error h := by omega

theorem ReceiveFits.range {dm : DataModel} {peeked : Int32} (h : ReceiveFits dm peeked) :
    0 ≤ peeked.toInt ∧ peeked.toInt ≤ MAX_SENDBUFFER_SIZE := by
  have h0 : 0 ≤ peeked.toInt := by
    by_contra hneg
    have hcall := (receiveSize_eq_some_iff dm).mpr ⟨Or.inl (Int.not_le.mp hneg), rfl⟩
    rw [h.error (Int.not_le.mp hneg)] at hcall
    cases hcall
  refine ⟨h0, ?_⟩
  by_cases hlarge : 4 < peeked.toInt
  · exact (h.size peeked ((receiveSize_eq_some_iff dm).mpr ⟨Or.inr hlarge, rfl⟩)).2
  · unfold MAX_SENDBUFFER_SIZE
    omega

/-- Whatever `PeekReceive` returns, `Receive` stays inside the frame buffer exactly when that is
no error code and at most the size of the buffer. -/
theorem receive_fits_iff (dm : DataModel) (m : UdpManager) (select : Int32)
    (fionread : Option Int32) :
    ReceiveFits dm (m.peekReceive select fionread) ↔
      0 ≤ (m.peekReceive select fionread).toInt ∧
        (m.peekReceive select fionread).toInt ≤ MAX_SENDBUFFER_SIZE :=
  ⟨ReceiveFits.range, fun h => receiveFits_of_range h.1 h.2⟩

theorem receive_called_out_of_range :
    receiveSize (lp64.toSize (bound.peekReceive 0 none).toInt) = some (-1) ∧
    receiveSize (lp64.toSize (bound.peekReceive 0 (some 12289)).toInt) = some 12289 ∧
    ¬ReceiveFits lp64 (bound.peekReceive 0 none) ∧
    ¬ReceiveFits lp64 (bound.peekReceive 0 (some 12289)) := by
  refine ⟨by decide, by decide, fun h => ?_, fun h => ?_⟩
  · exact absurd h.range.1 (by decide)
  · exact absurd h.range.2 (by decide)

end LmListener
