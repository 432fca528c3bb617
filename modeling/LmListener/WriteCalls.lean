import Mathlib.Data.Nat.Log
import LmListener.WriteAll

namespace LmListener

variable {dev : Device} {bufLen : Nat}

/-- One call `write(filedes, buf, attempt)`, made with `size` bytes left. -/
structure WriteCall where
  size : Nat
  attempt : Nat
  answer : WriteResult attempt

def WriteCall.interrupted (c : WriteCall) : Bool :=
  match c.answer with
  | .failed .EINTR => true
  | _ => false

def WriteAllState.call (s : WriteAllState) (dev : Device) : WriteCall :=
  ⟨s.size, s.attempt, dev s.calls s.attempt⟩

/-- The calls of `write` that the loop of `write_all` makes from a state on. -/
def writeCalls (dev : Device) (bufLen : Nat) : Nat → WriteAllState → List WriteCall
  | 0, _ => []
  | fuel + 1, s =>
    if s.size > 0 then
      s.call dev ::
        match writeAllStep dev bufLen s with
        | .running s => writeCalls dev bufLen fuel s
        | .returned _ _ => []
    else []

theorem writeCalls_running {fuel : Nat} {s t : WriteAllState} (hz : 0 < s.size)
    (ht : writeAllStep dev bufLen s = .running t) :
    writeCalls dev bufLen (fuel + 1) s = s.call dev :: writeCalls dev bufLen fuel t := by
  rw [writeCalls, if_pos hz, ht]

/-- How a run ends: with nothing left, or at a call that failed for good. -/
theorem writeAllFuel_ends {fuel : Nat} {buf : List UInt8} {s s' : WriteAllState} {result : Int}
    (hs : s.Splits buf) (h : writeAllFuel dev bufLen fuel s = some (result, s')) :
    s'.Splits buf ∧ s'.calls = s.calls + (writeCalls dev bufLen fuel s).length ∧
      ((s'.size = 0 ∧ result = bufLen) ∨
        (0 < s'.size ∧ result = -1 ∧ ∃ last code,
          (writeCalls dev bufLen fuel s).getLast? = some last ∧
            last.answer = .failed (.other code))) := by
  induction fuel generalizing s with
  | zero => simp [writeAllFuel] at h
  | succ fuel ih =>
    unfold writeAllFuel at h
    split at h
    next t ht =>
      obtain ⟨hz, hc⟩ := writeAllStep_size ht
      obtain ⟨hs', hcalls, hends⟩ := ih (writeAllStep_splits hs ht) h
      rw [writeCalls_running hz ht]
      refine ⟨hs', by simp [hcalls, hc, Nat.add_assoc, Nat.add_comm 1], hends.imp_right ?_⟩
      intro hfailed
      obtain ⟨hz', hr, last, code, hl, ha⟩ := hfailed
      exact ⟨hz', hr, last, code, by rw [List.getLast?_cons, hl]; rfl, ha⟩
    next r t ht =>
      obtain ⟨rfl, rfl⟩ := Prod.mk.inj (Option.some.inj h)
      rcases writeAllStep_returned ht with ⟨hz, hr, rfl⟩ | ⟨hz, hr, rfl, code, hd⟩
      · exact ⟨hs, by simp [writeCalls, hz], Or.inl ⟨hz, hr⟩⟩
      · have hcalls : writeCalls dev bufLen (fuel + 1) s = [s.call dev] := by
          rw [writeCalls, if_pos hz, ht]
        rw [hcalls]
        exact ⟨hs, rfl, Or.inr ⟨hz, hr, _, code, rfl, hd⟩⟩

/-- Takes a byte, is interrupted, and then fails with EIO. -/
def failsAfterOne : Device := fun call attempt =>
  match call with
  | 0 => .accepted (min 1 attempt) (Nat.min_le_right _ _)
  | 1 => .failed .EINTR
  | _ => .failed (.other 5)

/-- A device that takes at most `limit` bytes at once and something of each shorter write, if it is
not interrupted. -/
structure Device.LimitedTo (dev : Device) (limit : Nat) : Prop where
  long : ∀ call attempt, limit < attempt →
    dev call attempt = .failed .EMSGSIZE ∨ dev call attempt = .failed .EINTR
  short : ∀ call attempt, 0 < attempt → attempt ≤ limit →
    (∃ n le, dev call attempt = .accepted n le ∧ 0 < n) ∨ dev call attempt = .failed .EINTR

structure WriteAllState.Sending (buf : List UInt8) (limit : Nat) (s : WriteAllState) : Prop where
  splits : s.Splits buf
  attempt_pos : 0 < s.size → 0 < s.attempt
  chunks_le : ∀ chunk ∈ s.chunks, chunk.length ≤ limit

/-- A call that is not interrupted shrinks the rest of the buffer or halves the attempt. -/
def WriteAllState.potential (s : WriteAllState) : Nat := s.size + Nat.log 2 s.attempt

theorem WriteAllState.log_advance_le (s : WriteAllState) (attempt result : Nat) :
    Nat.log 2 (s.advance attempt result).attempt ≤ Nat.log 2 attempt := by
  apply Nat.log_mono_right
  simp only [WriteAllState.advance]
  split <;> omega

theorem Device.LimitedTo.answers {limit : Nat} (hdev : dev.LimitedTo limit) (call : Nat)
    {attempt : Nat} (hpos : 0 < attempt) :
    dev call attempt = .failed .EINTR ∨
      (limit < attempt ∧ dev call attempt = .failed .EMSGSIZE) ∨
      (attempt ≤ limit ∧ ∃ n le, dev call attempt = .accepted n le ∧ 0 < n) := by
  by_cases hshort : attempt ≤ limit
  · rcases hdev.short call attempt hpos hshort with h | h
    · exact Or.inr (Or.inr ⟨hshort, h⟩)
    · exact Or.inl h
  · rcases hdev.long call attempt (Nat.lt_of_not_le hshort) with h | h
    · exact Or.inr (Or.inl ⟨Nat.lt_of_not_le hshort, h⟩)
    · exact Or.inl h

/-- The step lemma: an interrupted call changes nothing, any other lowers the potential. -/
theorem Device.LimitedTo.step (bufLen : Nat) {limit : Nat} (hdev : dev.LimitedTo limit)
    (hlimit : 1 ≤ limit) {buf : List UInt8} {s : WriteAllState} (hs : s.Sending buf limit)
    (hz : 0 < s.size) :
    ∃ t, writeAllStep dev bufLen s = .running t ∧ t.Sending buf limit ∧
      t.potential + (if (s.call dev).interrupted then 0 else 1) ≤ s.potential := by
  have hpos := hs.attempt_pos hz
  have hsplits : ∀ t, writeAllStep dev bufLen s = .running t → t.Splits buf :=
    fun t ht => writeAllStep_splits hs.splits ht
  rw [writeAllStep, if_pos hz] at hsplits ⊢
  unfold WriteAllState.call WriteCall.interrupted WriteAllState.potential
  rcases hdev.answers s.calls hpos with hd | ⟨hlong, hd⟩ | ⟨hshort, n, le, hd, hn⟩
  · rw [hd] at hsplits ⊢
    exact ⟨_, rfl, ⟨hsplits _ rfl, hs.attempt_pos, hs.chunks_le⟩, by simp⟩
  · -- the attempt was longer than the limit, so half of it is still not 0
    rw [hd] at hsplits ⊢
    have hhalf : Nat.log 2 (s.attempt / 2) = Nat.log 2 s.attempt - 1 := Nat.log_div_base 2 _
    have hone : 0 < Nat.log 2 s.attempt := Nat.log_pos (by omega) (by omega)
    refine ⟨_, rfl, ⟨hsplits _ rfl, ?_, hs.chunks_le⟩, ?_⟩
    · simp only [WriteAllState.advance]
      split <;> omega
    · have hlog := s.log_advance_le (s.attempt / 2) 0
      simp only [WriteAllState.advance, Nat.sub_zero] at hlog ⊢
      simp only [Bool.false_eq_true, if_false]
      omega
  · rw [hd] at hsplits ⊢
    refine ⟨_, rfl, ⟨hsplits _ rfl, ?_, ?_⟩, ?_⟩
    · simp only [WriteAllState.advance]
      split <;> omega
    · intro chunk hc
      rcases List.mem_append.mp hc with hc | hc
      · exact hs.chunks_le chunk hc
      · obtain rfl := List.mem_singleton.mp hc
        rw [List.length_take]
        omega
    · have hlog := s.log_advance_le s.attempt n
      have hle := hs.splits.2.2
      simp only [WriteAllState.advance] at hlog ⊢
      simp only [Bool.false_eq_true, if_false]
      omega

/-- The run lemma: the calls that are not interrupted use up the potential. -/
theorem Device.LimitedTo.run (bufLen : Nat) {limit : Nat} (hdev : dev.LimitedTo limit)
    (hlimit : 1 ≤ limit) {buf : List UInt8} (fuel : Nat) {s : WriteAllState}
    (hs : s.Sending buf limit) :
    (writeCalls dev bufLen fuel s).countP (fun c => !c.interrupted) ≤ s.potential ∧
    (∀ result s', writeAllFuel dev bufLen fuel s = some (result, s') →
      result = bufLen ∧ s'.Sending buf limit) ∧
    (writeAllFuel dev bufLen fuel s = none → (writeCalls dev bufLen fuel s).length = fuel) := by
  induction fuel generalizing s with
  | zero =>
    refine ⟨Nat.zero_le _, fun result s' h => ?_, fun _ => rfl⟩
    cases h
  | succ fuel ih =>
    by_cases hz : 0 < s.size
    · obtain ⟨t, ht, hs', hpot⟩ := hdev.step bufLen hlimit hs hz
      obtain ⟨hcount, hends, hnone⟩ := ih hs'
      rw [writeCalls_running hz ht, writeAllFuel, ht]
      refine ⟨?_, hends, fun h => congrArg Nat.succ (hnone h)⟩
      rw [List.countP_cons]
      cases hi : (s.call dev).interrupted <;> rw [hi] at hpot <;> simp at hpot ⊢ <;> omega
    · have ht : writeAllStep dev bufLen s = .returned bufLen s := by
        rw [writeAllStep, if_neg hz]
      rw [writeCalls, if_neg hz, writeAllFuel, ht]
      refine ⟨Nat.zero_le _, fun result s' h => ?_, fun hnone => ?_⟩
      · obtain ⟨rfl, rfl⟩ := Prod.mk.inj (Option.some.inj h)
        exact ⟨rfl, hs⟩
      · cases hnone

theorem writeAllStart_sending (buf : List UInt8) (limit calls : Nat) :
    (writeAllStart calls buf).Sending buf limit where
  splits := writeAllStart_splits calls buf
  attempt_pos h := h
  chunks_le chunk h := by cases h

/-- On a device with a message limit that interrupts the run finitely often, `write_all` sends the
whole buffer, in pieces the device takes, with few calls. -/
theorem write_all_finishes {limit calls : Nat} {buf : List UInt8} (hlimit : 1 ≤ limit)
    (hdev : dev.LimitedTo limit)
    (hint : ∃ k, ∀ fuel, (writeCalls dev buf.length fuel (writeAllStart calls buf)).countP
      WriteCall.interrupted ≤ k) :
    ∃ fuel s, writeAll dev fuel calls buf = some ((buf.length : Int), s) ∧
      s.chunks.flatten = buf ∧ (∀ chunk ∈ s.chunks, chunk.length ≤ limit) ∧
      s.calls = calls + (writeCalls dev buf.length fuel (writeAllStart calls buf)).length ∧
      (writeCalls dev buf.length fuel (writeAllStart calls buf)).countP
        (fun c => !c.interrupted) ≤ buf.length + Nat.log 2 buf.length := by
  obtain ⟨k, hk⟩ := hint
  have hrun := fun fuel => hdev.run buf.length hlimit fuel
    (writeAllStart_sending buf limit calls)
  have hpot : (writeAllStart calls buf).potential = buf.length + Nat.log 2 buf.length := rfl
  refine ⟨k + (buf.length + Nat.log 2 buf.length) + 1, ?_⟩
  obtain ⟨hcount, hends, hnone⟩ := hrun (k + (buf.length + Nat.log 2 buf.length) + 1)
  cases h : writeAll dev (k + (buf.length + Nat.log 2 buf.length) + 1) calls buf with
  | none =>
    have hlen := hnone h
    have hint := hk (k + (buf.length + Nat.log 2 buf.length) + 1)
    have hsum := List.length_eq_countP_add_countP WriteCall.interrupted (l := writeCalls dev
      buf.length (k + (buf.length + Nat.log 2 buf.length) + 1) (writeAllStart calls buf))
    simp only [Bool.not_eq_true, Bool.decide_eq_false] at hsum
    omega
  | some r =>
    obtain ⟨result, s⟩ := r
    obtain ⟨rfl, hs⟩ := hends result s h
    have hstart := writeAllStart_splits calls buf
    obtain ⟨_, hcalls, _⟩ := writeAllFuel_ends hstart h
    obtain ⟨hflat, _⟩ := writeAllFuel_delivers hstart h (by omega)
    exact ⟨s, rfl, hflat, hs.chunks_le, hcalls, hpot ▸ hcount⟩

theorem countP_interrupted_le {k : Nat}
    (hdev : ∀ call, k ≤ call → ∀ attempt, dev call attempt ≠ .failed .EINTR) (fuel : Nat)
    (s : WriteAllState) :
    (writeCalls dev bufLen fuel s).countP WriteCall.interrupted ≤ k - s.calls := by
  induction fuel generalizing s with
  | zero => exact Nat.zero_le _
  | succ fuel ih =>
    have hcall : (s.call dev).interrupted = true → s.calls < k := by
      intro hi
      by_contra hk
      unfold WriteCall.interrupted WriteAllState.call at hi
      split at hi
      next h => exact hdev s.calls (Nat.le_of_not_lt hk) s.attempt h
      next => cases hi
    unfold writeCalls
    split
    next hz =>
      rw [List.countP_cons]
      cases ht : writeAllStep dev bufLen s with
      | running t =>
        have hrest := ih t
        have hc := (writeAllStep_size ht).2
        simp only
        split
        next hi => have := hcall hi; omega
        next => omega
      | returned result t =>
        simp only [List.countP_nil]
        split
        next hi => have := hcall hi; omega
        next => omega
    next => exact Nat.zero_le _

/-- Interrupts the first call and takes two bytes at once. -/
def takesTwo : Device := fun call attempt =>
  if call = 0 then .failed .EINTR
  else if attempt ≤ 2 then .accepted attempt (Nat.le_refl _)
  else .failed .EMSGSIZE

theorem write_all_finishes_two :
    ∃ fuel s, writeAll takesTwo fuel 0 [1, 2, 3, 4, 5] = some (5, s) ∧
      s.chunks.flatten = [1, 2, 3, 4, 5] := by
  have hdev : takesTwo.LimitedTo 2 := by
    refine ⟨fun call attempt hlong => ?_, fun call attempt hpos hshort => ?_⟩
    · unfold takesTwo
      split
      next => exact Or.inr rfl
      next => rw [if_neg (by omega)]; exact Or.inl rfl
    · unfold takesTwo
      split
      next => exact Or.inr rfl
      next => exact Or.inl ⟨attempt, Nat.le_refl _, rfl, hpos⟩
  have hint : ∀ call, 1 ≤ call → ∀ attempt, takesTwo call attempt ≠ .failed .EINTR := by
    intro call hcall attempt
    unfold takesTwo
    rw [if_neg (by omega)]
    intro he
    split at he <;> cases he
  have hfew : ∃ k, ∀ fuel, (writeCalls takesTwo [(1 : UInt8), 2, 3, 4, 5].length fuel
      (writeAllStart 0 [1, 2, 3, 4, 5])).countP WriteCall.interrupted ≤ k :=
    ⟨1, fun fuel => countP_interrupted_le hint fuel _⟩
  obtain ⟨fuel, s, hw, hflat, _⟩ := write_all_finishes (by decide) hdev hfew
  exact ⟨fuel, s, hw, hflat⟩

def WriteCall.RefusesByte (c : WriteCall) : Prop := c.attempt = 1 ∧ c.answer = .failed .EMSGSIZE

structure WriteAllState.Attempting (s : WriteAllState) : Prop where
  pos : 0 < s.size → 0 < s.attempt
  le : s.attempt ≤ s.size

theorem writeAllStart_attempting (calls : Nat) (buf : List UInt8) :
    (writeAllStart calls buf).Attempting := ⟨fun h => h, Nat.le_refl _⟩

/-- Halving loses the attempt at one byte only. -/
theorem writeAllStep_attempting {s t : WriteAllState} (hs : s.Attempting)
    (ht : writeAllStep dev bufLen s = .running t) (hbyte : ¬(s.call dev).RefusesByte) :
    t.Attempting := by
  obtain ⟨hz, _⟩ := writeAllStep_size ht
  have hpos := hs.pos hz
  rw [writeAllStep, if_pos hz] at ht
  split at ht
  next n hn hd =>
    cases ht
    refine ⟨fun hrest => ?_, s.attempt_advance_le s.attempt n⟩
    simp only [WriteAllState.advance] at hrest ⊢
    split <;> omega
  next => cases ht; exact ⟨hs.pos, hs.le⟩
  next hd =>
    cases ht
    have hone : s.attempt ≠ 1 := fun h => hbyte ⟨h, hd⟩
    refine ⟨fun hrest => ?_, s.attempt_advance_le (s.attempt / 2) 0⟩
    simp only [WriteAllState.advance] at hrest ⊢
    split <;> omega
  next => cases ht

theorem writeCalls_attempts {fuel : Nat} {s : WriteAllState} (hs : s.Attempting)
    (hbyte : ∀ c ∈ writeCalls dev bufLen fuel s, ¬c.RefusesByte) :
    ∀ c ∈ writeCalls dev bufLen fuel s, 1 ≤ c.attempt ∧ c.attempt ≤ c.size := by
  induction fuel generalizing s with
  | zero => intro c hc; cases hc
  | succ fuel ih =>
    unfold writeCalls at hbyte ⊢
    split at hbyte
    next hz =>
      rw [if_pos hz]
      obtain ⟨hfirst, hrest⟩ := List.forall_mem_cons.mp hbyte
      intro c hc
      rcases List.mem_cons.mp hc with rfl | hc
      · exact ⟨hs.pos hz, hs.le⟩
      · cases ht : writeAllStep dev bufLen s with
        | running t =>
          rw [ht] at hrest hc
          exact ih (writeAllStep_attempting hs ht hfirst) hrest c hc
        | returned result t => rw [ht] at hc; cases hc
    next hz => rw [if_neg hz]; intro c hc; cases hc

theorem writeAllStep_refused {s : WriteAllState} (hz : 0 < s.size)
    (hr : (s.call dev).RefusesByte) :
    writeAllStep dev bufLen s = .running (s.advance 0 0) := by
  obtain ⟨hone, hd⟩ := hr
  change s.attempt = 1 at hone
  change dev s.calls s.attempt = .failed .EMSGSIZE at hd
  have ht : writeAllStep dev bufLen s = .running (s.advance (s.attempt / 2) 0) := by
    rw [writeAllStep, if_pos hz, hd]
  rw [ht, hone]

/-- After the refused byte the loop asks for nothing. -/
theorem writeCalls_refused {fuel : Nat} {s : WriteAllState} {c : WriteCall}
    (hc : c ∈ writeCalls dev bufLen fuel s) (hr : c.RefusesByte) :
    ∃ e ∈ writeCalls dev bufLen (fuel + 1) s, e.attempt = 0 := by
  induction fuel generalizing s with
  | zero => cases hc
  | succ fuel ih =>
    by_cases hz : 0 < s.size
    · rw [writeCalls, if_pos hz] at hc
      rcases List.mem_cons.mp hc with rfl | hc
      · have ht : writeAllStep dev bufLen s = .running (s.advance 0 0) :=
          writeAllStep_refused hz hr
        have hz' : 0 < (s.advance 0 0).size := hz
        rw [writeCalls_running hz ht, writeCalls, if_pos hz']
        exact ⟨(s.advance 0 0).call dev, by simp, rfl⟩
      · cases ht : writeAllStep dev bufLen s with
        | running t =>
          rw [ht] at hc
          obtain ⟨e, he, hzero⟩ := ih hc
          rw [writeCalls_running hz ht]
          exact ⟨e, List.mem_cons_of_mem _ he, hzero⟩
        | returned result t => rw [ht] at hc; cases hc
    · rw [writeCalls, if_neg hz] at hc
      cases hc

/-- From an empty attempt on, a device without other errors keeps the loop for ever. -/
theorem writeAllFuel_stuck
    (hdev : ∀ call attempt code, attempt = 0 → dev call attempt ≠ .failed (.other code))
    (fuel : Nat) {s : WriteAllState} (hz : 0 < s.size) (ha : s.attempt = 0) :
    writeAllFuel dev bufLen fuel s = none := by
  induction fuel generalizing s with
  | zero => rfl
  | succ fuel ih =>
    obtain ⟨t, ht, hz', ha'⟩ : ∃ t, writeAllStep dev bufLen s = .running t ∧ 0 < t.size ∧
        t.attempt = 0 := by
      rw [writeAllStep, if_pos hz]
      split
      next n hn hd =>
        obtain rfl : n = 0 := by omega
        exact ⟨_, rfl, hz, by simp [WriteAllState.advance, ha]⟩
      next => exact ⟨_, rfl, hz, ha⟩
      next => exact ⟨_, rfl, hz, by simp [WriteAllState.advance, ha]⟩
      next code hd => exact absurd hd (hdev _ _ code ha)
    rw [writeAllFuel, ht]
    exact ih hz' ha'

/-- No call asks for nothing or for more than is left, and a device that refuses a byte is
reported. -/
def NeverEmpty (dev : Device) (calls : Nat) (buf : List UInt8) : Prop :=
  (∀ fuel, ∀ c ∈ writeCalls dev buf.length fuel (writeAllStart calls buf),
    1 ≤ c.attempt ∧ c.attempt ≤ c.size) ∧
  ((∃ fuel, ∃ c ∈ writeCalls dev buf.length fuel (writeAllStart calls buf), c.RefusesByte) →
    ∃ fuel result s, writeAll dev fuel calls buf = some (result, s) ∧ result < 0)

theorem write_all_attempts_iff (dev : Device) (calls : Nat) (buf : List UInt8) :
    NeverEmpty dev calls buf ↔
      ∀ fuel, ∀ c ∈ writeCalls dev buf.length fuel (writeAllStart calls buf), ¬c.RefusesByte := by
  constructor
  · intro h fuel c hc hr
    obtain ⟨e, he, hzero⟩ := writeCalls_refused hc hr
    have hpos := (h.1 (fuel + 1) e he).1
    omega
  · intro h
    refine ⟨fun fuel => writeCalls_attempts (writeAllStart_attempting calls buf) (h fuel), ?_⟩
    intro hrefused
    obtain ⟨fuel, c, hc, hr⟩ := hrefused
    exact absurd hr (h fuel c hc)

def refusesAll : Device := fun _ _ => .failed .EMSGSIZE

/-- One refused byte, and `write_all` asks for nothing for ever. -/
theorem write_all_empty : ¬NeverEmpty refusesAll 0 [7] ∧
    ∀ fuel, writeAll refusesAll fuel 0 [7] = none := by
  have hz : 0 < (writeAllStart 0 [(7 : UInt8)]).size := Nat.one_pos
  have hr : ((writeAllStart 0 [(7 : UInt8)]).call refusesAll).RefusesByte := ⟨rfl, rfl⟩
  have ht : writeAllStep refusesAll [(7 : UInt8)].length (writeAllStart 0 [7]) =
      .running ((writeAllStart 0 [7]).advance 0 0) := writeAllStep_refused hz hr
  have hnone : ∀ fuel, writeAll refusesAll fuel 0 [7] = none := by
    intro fuel
    cases fuel with
    | zero => rfl
    | succ fuel =>
      have hdev : ∀ call attempt code, attempt = 0 →
          refusesAll call attempt ≠ .failed (.other code) := by
        intro call attempt code _ hd
        cases hd
      have hz' : 0 < ((writeAllStart 0 [(7 : UInt8)]).advance 0 0).size := hz
      rw [writeAll, writeAllFuel, ht]
      exact writeAllFuel_stuck hdev fuel hz' rfl
  refine ⟨fun h => ?_, hnone⟩
  obtain ⟨fuel, result, s, hf, _⟩ := h.2 ⟨1, _, List.mem_cons_self, hr⟩
  rw [hnone fuel] at hf
  cases hf

end LmListener
