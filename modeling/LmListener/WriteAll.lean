import Mathlib.Data.List.Basic
import Mathlib.Tactic.Common

namespace LmListener

inductive Errno
  | EINTR
  | EMSGSIZE
  | other (code : Nat)
deriving DecidableEq, Repr

/-- The answer to one `write(filedes, buf, attempt)`: it never accepts more than it is given. -/
inductive WriteResult (attempt : Nat)
  | accepted (n : Nat) (le : n ≤ attempt)
  | failed (errno : Errno)

/-- A device answers each call of `write` by the number of the call and the length asked for. -/
abbrev Device := (call attempt : Nat) → WriteResult attempt

/-- The variables of the loop of `write_all`. `buf` holds the bytes from the pointer on;
`calls` and `chunks` record the calls made and the bytes the device took in each. -/
structure WriteAllState where
  buf : List UInt8
  size : Nat
  attempt : Nat
  calls : Nat
  chunks : List (List UInt8)

inductive WriteAllOutcome
  | running (s : WriteAllState)
  | returned (result : Int) (s : WriteAllState)

def WriteAllState.advance (s : WriteAllState) (attempt result : Nat) : WriteAllState where
  buf := s.buf.drop result
  size := s.size - result
  attempt := if attempt > s.size - result then s.size - result else attempt
  calls := s.calls + 1
  chunks := s.chunks

def writeAllStep (dev : Device) (bufLen : Nat) (s : WriteAllState) : WriteAllOutcome :=
  if s.size > 0 then
    match dev s.calls s.attempt with
    | .accepted n _ =>
      .running { s.advance s.attempt n with chunks := s.chunks ++ [s.buf.take n] }
    | .failed .EINTR => .running { s with calls := s.calls + 1 }
    | .failed .EMSGSIZE => .running (s.advance (s.attempt / 2) 0)
    | .failed (.other _) => .returned (-1) { s with calls := s.calls + 1 }
  else .returned bufLen s

def writeAllFuel (dev : Device) (bufLen : Nat) : Nat → WriteAllState → Option (Int × WriteAllState)
  | 0, _ => none
  | fuel + 1, s =>
    match writeAllStep dev bufLen s with
    | .running s => writeAllFuel dev bufLen fuel s
    | .returned result s => some (result, s)

def writeAllStart (calls : Nat) (buf : List UInt8) : WriteAllState :=
  ⟨buf, buf.length, buf.length, calls, []⟩

def writeAll (dev : Device) (fuel calls : Nat) (buf : List UInt8) : Option (Int × WriteAllState) :=
  writeAllFuel dev buf.length fuel (writeAllStart calls buf)

def WriteAllState.Splits (buf : List UInt8) (s : WriteAllState) : Prop :=
  s.chunks.flatten ++ s.buf = buf ∧ s.size = s.buf.length ∧ s.attempt ≤ s.size

theorem writeAllStart_splits (calls : Nat) (buf : List UInt8) :
    (writeAllStart calls buf).Splits buf := by
  simp [writeAllStart, WriteAllState.Splits]

theorem WriteAllState.attempt_advance_le (s : WriteAllState) (attempt result : Nat) :
    (s.advance attempt result).attempt ≤ (s.advance attempt result).size := by
  simp only [WriteAllState.advance]
  split <;> omega

theorem writeAllStep_splits {dev : Device} {bufLen : Nat} {buf : List UInt8}
    {s s' : WriteAllState} (hs : s.Splits buf) (h : writeAllStep dev bufLen s = .running s') :
    s'.Splits buf := by
  unfold writeAllStep at h
  split at h
  next =>
    split at h
    next n hn hd =>
      cases h
      obtain ⟨hb, hl, _⟩ := hs
      refine ⟨?_, by simp [WriteAllState.advance, hl], s.attempt_advance_le s.attempt n⟩
      simp only [WriteAllState.advance, List.flatten_append, List.flatten_singleton,
        List.append_assoc, List.take_append_drop, hb]
    next => cases h; exact hs
    next => cases h; exact ⟨hs.1, hs.2.1, s.attempt_advance_le (s.attempt / 2) 0⟩
    next => cases h
  next => cases h

theorem writeAllStep_size {dev : Device} {bufLen : Nat} {s t : WriteAllState}
    (ht : writeAllStep dev bufLen s = .running t) :
    0 < s.size ∧ t.calls = s.calls + 1 := by
  unfold writeAllStep at ht
  split at ht
  next hz =>
    refine ⟨hz, ?_⟩
    split at ht <;> cases ht <;> rfl
  next => cases ht

theorem writeAllStep_returned {dev : Device} {bufLen : Nat} {s s' : WriteAllState} {result : Int}
    (h : writeAllStep dev bufLen s = .returned result s') :
    (s.size = 0 ∧ result = bufLen ∧ s' = s) ∨
      (0 < s.size ∧ result = -1 ∧ s' = { s with calls := s.calls + 1 } ∧
        ∃ code, dev s.calls s.attempt = .failed (.other code)) := by
  unfold writeAllStep at h
  split at h
  next hz =>
    split at h <;> cases h
    exact Or.inr ⟨hz, rfl, rfl, _, by assumption⟩
  next hz => cases h; exact Or.inl ⟨by omega, rfl, rfl⟩

theorem WriteAllState.Splits.complete {buf : List UInt8} {s : WriteAllState} (hs : s.Splits buf)
    (hz : s.size = 0) : s.chunks.flatten = buf := by
  obtain ⟨hb, hl, _⟩ := hs
  have hnil : s.buf = [] := List.length_eq_zero_iff.mp (by omega)
  simpa [hnil] using hb

theorem writeAllFuel_delivers {dev : Device} {fuel : Nat} {buf : List UInt8}
    {s s' : WriteAllState} {result : Int} (hs : s.Splits buf)
    (h : writeAllFuel dev buf.length fuel s = some (result, s')) (hr : 0 ≤ result) :
    s'.chunks.flatten = buf ∧ result = buf.length := by
  induction fuel generalizing s with
  | zero => simp [writeAllFuel] at h
  | succ fuel ih =>
    unfold writeAllFuel at h
    split at h
    next t ht => exact ih (writeAllStep_splits hs ht) h
    next r t ht =>
      obtain ⟨rfl, rfl⟩ := Prod.mk.inj (Option.some.inj h)
      rcases writeAllStep_returned ht with ⟨hz, rfl, rfl⟩ | ⟨_, rfl, _⟩
      · exact ⟨hs.complete hz, rfl⟩
      · omega

theorem writeAllFuel_mono {dev : Device} {bufLen fuel fuel' : Nat} {s : WriteAllState}
    {r : Int × WriteAllState} (h : writeAllFuel dev bufLen fuel s = some r) (hle : fuel ≤ fuel') :
    writeAllFuel dev bufLen fuel' s = some r := by
  induction fuel generalizing fuel' s with
  | zero => simp [writeAllFuel] at h
  | succ fuel ih =>
    obtain ⟨k, rfl⟩ : ∃ k, fuel' = k + 1 := ⟨fuel' - 1, by omega⟩
    unfold writeAllFuel at h ⊢
    split at h
    next t ht => exact ih h (by omega)
    next r t ht => exact h

end LmListener
