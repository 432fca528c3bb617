import Mathlib.Data.List.Basic
import Mathlib.Tactic.Common

namespace Checked

variable {ε α β σ : Type} {n : Nat}

theorem bind_ok (a : α) (f : α → Except ε β) : (Except.ok a >>= f) = f a := rfl

theorem bind_error (e : ε) (f : α → Except ε β) : (Except.error e >>= f) = .error e := rfl

theorem bind_eq_ok {x : Except ε α} {f : α → Except ε β} {b : β} :
    (x >>= f) = .ok b ↔ ∃ a, x = .ok a ∧ f a = .ok b := by
  cases x with
  | error e => simp [bind_error]
  | ok a => simp [bind_ok]

theorem bind_eq_error {x : Except ε α} {f : α → Except ε β} {e : ε} :
    (x >>= f) = .error e ↔ x = .error e ∨ ∃ a, x = .ok a ∧ f a = .error e := by
  cases x with
  | error e' => simp [bind_error]
  | ok a => simp [bind_ok]

def cell [Inhabited α] (xs : Vector α n) (i : Nat) : α := xs[i]?.getD default

/-- A read of an array. Past its end the program has no meaning, so it stops there. -/
def loadAt (fault : Nat → ε) (xs : Vector α n) (i : Nat) : Except ε α :=
  if h : i < n then .ok xs[i] else .error (fault i)

def storeAt (fault : Nat → ε) (xs : Vector α n) (i : Nat) (x : α) : Except ε (Vector α n) :=
  if h : i < n then .ok (xs.set i x) else .error (fault i)

/-- A block copy of `data` over the first cells of an array. -/
def overlay (xs : Vector α n) (data : List α) : Vector α n :=
  ⟨((data ++ xs.toList.drop data.length).take n).toArray, by simp; omega⟩

theorem loadAt_of_lt [Inhabited α] {fault : Nat → ε} {xs : Vector α n} {i : Nat} (h : i < n) :
    loadAt fault xs i = .ok (cell xs i) := by
  simp [loadAt, cell, h]

theorem loadAt_of_le {fault : Nat → ε} {xs : Vector α n} {i : Nat} (h : n ≤ i) :
    loadAt fault xs i = .error (fault i) := by
  simp [loadAt, show ¬i < n by omega]

theorem loadAt_eq_ok_iff [Inhabited α] {fault : Nat → ε} {xs : Vector α n} {i : Nat} {x : α} :
    loadAt fault xs i = .ok x ↔ i < n ∧ x = cell xs i := by
  by_cases h : i < n
  · rw [loadAt_of_lt h, Except.ok.injEq]
    exact ⟨fun he => ⟨h, he.symm⟩, fun he => he.2.symm⟩
  · simp [loadAt_of_le (Nat.le_of_not_lt h), h]

theorem storeAt_of_lt {fault : Nat → ε} {xs : Vector α n} {i : Nat} {x : α} (h : i < n) :
    storeAt fault xs i x = .ok (xs.set i x) := by
  simp [storeAt, h]

theorem storeAt_of_le {fault : Nat → ε} {xs : Vector α n} {i : Nat} {x : α} (h : n ≤ i) :
    storeAt fault xs i x = .error (fault i) := by
  simp [storeAt, show ¬i < n by omega]

theorem cell_set [Inhabited α] (xs : Vector α n) {i : Nat} (h : i < n) (x : α) (j : Nat) :
    cell (xs.set i x) j = if j = i then x else cell xs j := by
  by_cases hj : j = i
  · subst j; simp [cell, h]
  · simp [cell, hj, Vector.getElem?_set_ne h (Ne.symm hj)]

theorem cell_replicate [Inhabited α] (x : α) (i : Nat) :
    cell (Vector.replicate n x) i = if i < n then x else default := by
  by_cases h : i < n <;> simp [cell, h]

theorem cell_overlay [Inhabited α] (xs : Vector α n) {data : List α} (h : data.length ≤ n)
    (i : Nat) :
    cell (overlay xs data) i = if i < data.length then data[i]?.getD default else cell xs i := by
  unfold cell overlay
  rw [Vector.getElem?_mk]
  simp only [List.getElem?_toArray, List.getElem?_take, List.getElem?_append, List.getElem?_drop,
    Vector.getElem?_toList]
  by_cases hi : i < data.length
  · simp [hi, show i < n by omega]
  · by_cases hn : i < n
    · simp [hi, hn, show data.length + (i - data.length) = i by omega]
    · simp [hi, hn]

theorem overlay_overlay (xs : Vector α n) {data data' : List α} (h : data.length = data'.length) :
    overlay (overlay xs data) data' = overlay xs data' := by
  apply Vector.toArray_inj.mp
  simp only [overlay, Vector.toList, ← h, List.drop_take, List.drop_left]
  simp [List.take_append, List.take_take, h]

/-- `for (i = lo; i < lo + count; ++i) body`. -/
def forLoop (body : Nat → σ → Except ε σ) : (count lo : Nat) → σ → Except ε σ
  | 0, _, s => .ok s
  | count + 1, i, s => body i s >>= forLoop body count (i + 1)

theorem forLoop_ok {body : Nat → σ → Except ε σ} {count lo : Nat} {s : σ}
    (inv : Nat → σ → Prop) (start : inv lo s)
    (step : ∀ i t, lo ≤ i → i < lo + count → inv i t → ∃ t', body i t = .ok t' ∧ inv (i + 1) t') :
    ∃ s', forLoop body count lo s = .ok s' ∧ inv (lo + count) s' := by
  induction count generalizing lo s with
  | zero => exact ⟨s, rfl, start⟩
  | succ count ih =>
    obtain ⟨t, ht, hi⟩ := step lo s (Nat.le_refl _) (by omega) start
    obtain ⟨s', hs, hf⟩ := ih hi (fun i u hlo hhi => step i u (by omega) (by omega))
    refine ⟨s', ?_, by simpa [Nat.add_comm, Nat.add_left_comm] using hf⟩
    rw [forLoop, ht, bind_ok, hs]

theorem forLoop_inv {body : Nat → σ → Except ε σ} {count lo : Nat} {s s' : σ}
    (h : forLoop body count lo s = .ok s') (inv : Nat → σ → Prop) (start : inv lo s)
    (step : ∀ i t t', lo ≤ i → i < lo + count → body i t = .ok t' → inv i t → inv (i + 1) t') :
    inv (lo + count) s' := by
  induction count generalizing lo s with
  | zero => cases h; exact start
  | succ count ih =>
    obtain ⟨t, ht, hrest⟩ := bind_eq_ok.mp h
    have := ih hrest (step lo s t (Nat.le_refl _) (by omega) ht start)
      (fun i u u' hlo hhi => step i u u' (by omega) (by omega))
    simpa [Nat.add_comm, Nat.add_left_comm] using this

theorem forLoop_error {body : Nat → σ → Except ε σ} {count lo : Nat} {s : σ} {e : ε}
    (h : forLoop body count lo s = .error e) (inv : σ → Prop) (start : inv s)
    (step : ∀ i t t', lo ≤ i → i < lo + count → body i t = .ok t' → inv t → inv t') :
    ∃ i t, lo ≤ i ∧ i < lo + count ∧ inv t ∧ body i t = .error e := by
  induction count generalizing lo s with
  | zero => cases h
  | succ count ih =>
    rcases bind_eq_error.mp h with h | ⟨t, ht, h⟩
    · exact ⟨lo, s, Nat.le_refl _, by omega, start, h⟩
    · obtain ⟨i, u, hlo, hhi, hu, he⟩ := ih h (step lo s t (Nat.le_refl _) (by omega) ht start)
        (fun i u u' hlo hhi => step i u u' (by omega) (by omega))
      exact ⟨i, u, by omega, by omega, hu, he⟩

/-- A loop whose body checks `inRange` and then does `f` with `item i` is the fold of `f` over
its items, as long as all of them are in range. -/
theorem forLoop_eq_ok_iff {body : Nat → σ → Except ε σ} (f : σ → α → Except ε σ)
    (item : Nat → α) (inRange : Nat → Prop)
    (spec : ∀ i s s', body i s = .ok s' ↔ inRange i ∧ f s (item i) = .ok s')
    {count lo : Nat} {s s' : σ} :
    forLoop body count lo s = .ok s' ↔
      (∀ i, lo ≤ i → i < lo + count → inRange i) ∧
        ((List.range' lo count).map item).foldlM f s = .ok s' := by
  induction count generalizing lo s with
  | zero =>
    refine ⟨fun h => ⟨fun i _ _ => by omega, h⟩, fun h => h.2⟩
  | succ count ih =>
    rw [forLoop, List.range'_succ, List.map_cons, List.foldlM_cons, bind_eq_ok, bind_eq_ok]
    constructor
    · intro hrun
      obtain ⟨t, ht, hrest⟩ := hrun
      obtain ⟨hlo, hf⟩ := (spec lo s t).mp ht
      obtain ⟨hrange, hfold⟩ := ih.mp hrest
      refine ⟨fun i h₁ h₂ => ?_, t, hf, hfold⟩
      rcases Nat.eq_or_lt_of_le h₁ with rfl | h₁
      · exact hlo
      · exact hrange i h₁ (by omega)
    · intro hfold
      obtain ⟨hrange, t, hf, hfold⟩ := hfold
      exact ⟨t, (spec lo s t).mpr ⟨hrange lo (Nat.le_refl _) (by omega), hf⟩,
        ih.mpr ⟨fun i h₁ h₂ => hrange i (by omega) (by omega), hfold⟩⟩

end Checked
