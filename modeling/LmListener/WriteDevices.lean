import LmListener.WriteCalls

namespace LmListener

variable {dev : Device} {bufLen : Nat}

/-- The call is over: the device took a byte, or refused the length it was asked for. After any
other answer the same call comes again. -/
def WriteResult.settles {attempt : Nat} : WriteResult attempt → Bool
  | .accepted n _ => decide (0 < n)
  | .failed errno => decide (errno = .EMSGSIZE)

/-- A device that takes all bytes in the end. It may interrupt calls, take a part of what it is
given and refuse a length, but not a single byte, and it keeps no call waiting for ever. -/
structure Device.AcceptsAll (dev : Device) : Prop where
  no_error : ∀ call attempt errno, 0 < attempt → dev call attempt = .failed errno →
    errno = .EINTR ∨ errno = .EMSGSIZE ∧ 1 < attempt
  progress : ∀ call attempt, 0 < attempt →
    ∃ later, call ≤ later ∧ (dev later attempt).settles = true

/-- A device with a limit is one of these, if it does not interrupt a length for ever. -/
theorem Device.LimitedTo.acceptsAll {limit : Nat} (hdev : dev.LimitedTo limit) (hlimit : 1 ≤ limit)
    (hint : ∀ call attempt, ∃ later, call ≤ later ∧ dev later attempt ≠ .failed .EINTR) :
    dev.AcceptsAll where
  no_error call attempt errno hpos hd := by
    rcases hdev.answers call hpos with he | ⟨hlong, he⟩ | ⟨_, n, le, he, _⟩
    · rw [hd] at he
      cases he
      exact Or.inl rfl
    · rw [hd] at he
      cases he
      exact Or.inr ⟨rfl, by omega⟩
    · rw [hd] at he
      cases he
  progress call attempt hpos := by
    obtain ⟨later, hle, hd⟩ := hint call attempt
    refine ⟨later, hle, ?_⟩
    rcases hdev.answers later hpos with he | ⟨_, he⟩ | ⟨_, n, le, he, hn⟩
    · exact absurd he hd
    · rw [he]
      rfl
    · rw [he]
      exact decide_eq_true hn

def WriteAllState.Returns (dev : Device) (bufLen : Nat) (s : WriteAllState) : Prop :=
  ∃ fuel s', writeAllFuel dev bufLen fuel s = some ((bufLen : Int), s')

theorem WriteAllState.Returns.of_running {s t : WriteAllState}
    (ht : writeAllStep dev bufLen s = .running t) (h : t.Returns dev bufLen) :
    s.Returns dev bufLen := by
  obtain ⟨fuel, s', hf⟩ := h
  exact ⟨fuel + 1, s', by rw [writeAllFuel, ht]; exact hf⟩

/-- The step lemma: a call that is over shrinks the rest of the buffer or the attempt. -/
theorem Device.AcceptsAll.step (bufLen : Nat) (hdev : dev.AcceptsAll) {s : WriteAllState}
    (hs : s.Attempting) (hz : 0 < s.size) :
    ∃ t, writeAllStep dev bufLen s = .running t ∧ t.Attempting ∧ t.calls = s.calls + 1 ∧
      if (dev s.calls s.attempt).settles then t.size + t.attempt < s.size + s.attempt
      else t.size = s.size ∧ t.attempt = s.attempt := by
  have hpos := hs.pos hz
  have hbyte : ¬(s.call dev).RefusesByte := by
    intro hr
    obtain ⟨hone, hd⟩ := hr
    change s.attempt = 1 at hone
    rcases hdev.no_error _ _ _ hpos hd with he | ⟨_, hlt⟩
    · cases he
    · omega
  have hattempting : ∀ t, writeAllStep dev bufLen s = .running t → t.Attempting :=
    fun t ht => writeAllStep_attempting hs ht hbyte
  have hle := hs.le
  rw [writeAllStep, if_pos hz] at hattempting ⊢
  cases hd : dev s.calls s.attempt with
  | accepted n le =>
    rw [hd] at hattempting
    refine ⟨_, rfl, hattempting _ rfl, rfl, ?_⟩
    simp only [WriteResult.settles, WriteAllState.advance, decide_eq_true_eq]
    split <;> split <;> omega
  | failed errno =>
    rw [hd] at hattempting
    rcases hdev.no_error _ _ _ hpos hd with rfl | ⟨rfl, hlt⟩
    · exact ⟨_, rfl, hattempting _ rfl, rfl, rfl, rfl⟩
    · refine ⟨_, rfl, hattempting _ rfl, rfl, ?_⟩
      simp only [WriteResult.settles, WriteAllState.advance, decide_true, if_true, Nat.sub_zero]
      split <;> omega

/-- The wait for the call that is over: `d` more calls. -/
theorem Device.AcceptsAll.waits (hdev : dev.AcceptsAll) {weight d : Nat}
    (finish : ∀ t : WriteAllState, t.Attempting → t.size + t.attempt < weight →
      t.Returns dev bufLen) {s : WriteAllState} (hs : s.Attempting) (hz : 0 < s.size)
    (hw : s.size + s.attempt = weight) (hd : (dev (s.calls + d) s.attempt).settles = true) :
    s.Returns dev bufLen := by
  induction d generalizing s with
  | zero =>
    obtain ⟨t, ht, hs', _, hless⟩ := hdev.step bufLen hs hz
    rw [Nat.add_zero] at hd
    rw [if_pos hd] at hless
    exact .of_running ht (finish t hs' (hw ▸ hless))
  | succ d ih =>
    obtain ⟨t, ht, hs', hcalls, hless⟩ := hdev.step bufLen hs hz
    apply WriteAllState.Returns.of_running ht
    split at hless
    next => exact finish t hs' (hw ▸ hless)
    next =>
      obtain ⟨hsize, hattempt⟩ := hless
      refine ih hs' (by omega) (by omega) ?_
      rw [hcalls, hattempt, Nat.add_assoc, Nat.add_comm 1 d]
      exact hd

/-- The run lemma. -/
theorem Device.AcceptsAll.returns (bufLen : Nat) (hdev : dev.AcceptsAll) (weight : Nat) :
    ∀ s : WriteAllState, s.Attempting → s.size + s.attempt = weight → s.Returns dev bufLen := by
  induction weight using Nat.strongRecOn with
  | ind weight ih =>
    intro s hs hw
    by_cases hz : 0 < s.size
    · obtain ⟨later, hle, hsettles⟩ := hdev.progress s.calls s.attempt (hs.pos hz)
      refine hdev.waits (fun t ht hlt => ih _ hlt t ht rfl) hs hz hw (d := later - s.calls) ?_
      rwa [Nat.add_sub_cancel' hle]
    · exact ⟨1, s, by rw [writeAllFuel, writeAllStep, if_neg hz]⟩

theorem writeAll_delivers (hdev : dev.AcceptsAll) (calls : Nat) (buf : List UInt8) :
    ∃ fuel s, writeAll dev fuel calls buf = some ((buf.length : Int), s) ∧
      s.chunks.flatten = buf := by
  obtain ⟨fuel, s, hf⟩ :=
    hdev.returns buf.length _ (writeAllStart calls buf) (writeAllStart_attempting calls buf) rfl
  exact ⟨fuel, s, hf, (writeAllFuel_delivers (writeAllStart_splits calls buf) hf (by omega)).1⟩

/-- Interrupts every other call, refuses more than four bytes at once and takes three of them. -/
def takesThree : Device := fun call attempt =>
  if call % 2 = 0 then .failed .EINTR
  else if attempt ≤ 4 then .accepted (min 3 attempt) (Nat.min_le_right _ _)
  else .failed .EMSGSIZE

theorem takesThree_acceptsAll : takesThree.AcceptsAll := by
  have hdev : takesThree.LimitedTo 4 := by
    refine ⟨fun call attempt hlong => ?_, fun call attempt hpos hshort => ?_⟩
    · unfold takesThree
      split
      next => exact Or.inr rfl
      next => rw [if_neg (by omega)]; exact Or.inl rfl
    · unfold takesThree
      split
      next => exact Or.inr rfl
      next => exact Or.inl ⟨min 3 attempt, Nat.min_le_right _ _, rfl, by omega⟩
  refine hdev.acceptsAll (by decide) fun call attempt => ⟨call * 2 + 1, by omega, ?_⟩
  unfold takesThree
  rw [if_neg (by omega)]
  intro he
  split at he <;> cases he

end LmListener
