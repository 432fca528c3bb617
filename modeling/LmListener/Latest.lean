import Mathlib.Data.List.Induction
import LmListener.Checked
import LmListener.Runs

namespace Latest

variable {α β ε σ κ : Type}

/-- The value `f` finds in the last entry of a history that has one. -/
def lastSome (f : α → Option β) (xs : List α) : Option β := xs.reverse.findSome? f

@[simp] theorem lastSome_nil (f : α → Option β) : lastSome f [] = none := rfl

theorem lastSome_cons (f : α → Option β) (x : α) (xs : List α) :
    lastSome f (x :: xs) = (lastSome f xs).or (f x) := by
  simp only [lastSome, List.reverse_cons, List.findSome?_append, List.findSome?_singleton]

theorem lastSome_append (f : α → Option β) (xs ys : List α) :
    lastSome f (xs ++ ys) = (lastSome f ys).or (lastSome f xs) := by
  simp only [lastSome, List.reverse_append, List.findSome?_append]

@[simp] theorem lastSome_concat (f : α → Option β) (xs : List α) (x : α) :
    lastSome f (xs ++ [x]) = (f x).or (lastSome f xs) := by
  rw [lastSome_append, lastSome_cons, lastSome_nil, Option.none_or]

theorem lastSome_eq_none_iff {f : α → Option β} {xs : List α} :
    lastSome f xs = none ↔ ∀ x ∈ xs, f x = none := by
  simp [lastSome]

theorem lastSome_mem {f : α → Option β} {xs : List α} {b : β} (h : lastSome f xs = some b) :
    ∃ x ∈ xs, f x = some b := by
  obtain ⟨x, hx, hb⟩ := List.exists_of_findSome?_eq_some h
  exact ⟨x, List.mem_reverse.mp hx, hb⟩

theorem lastSome_of_agree {f : α → Option β} {xs : List α} {b : β} (hex : ∃ x ∈ xs, f x = some b)
    (hall : ∀ x ∈ xs, ∀ b', f x = some b' → b' = b) : lastSome f xs = some b := by
  cases h : lastSome f xs with
  | none =>
    obtain ⟨x, hx, hb⟩ := hex
    rw [lastSome_eq_none_iff.mp h x hx] at hb
    cases hb
  | some b' =>
    obtain ⟨x, hx, hb⟩ := lastSome_mem h
    rw [hall x hx b' hb]

/-- A store whose every step has the effect `effect` on its cells holds in each cell what the
history of the steps last put there. -/
theorem run_reads_lastSome {step : σ → α → Except ε σ} (read : σ → κ → β)
    (effect : κ → α → Option β) (inv : σ → Prop) (valid : α → Prop)
    (spec : ∀ s x, inv s → valid x → ∃ s', step s x = .ok s' ∧ inv s' ∧
      ∀ k, read s' k = (effect k x).getD (read s k))
    {s : σ} (hs : inv s) {xs : List α} (hx : ∀ x ∈ xs, valid x) :
    ∃ s', xs.foldlM step s = .ok s' ∧ inv s' ∧
      ∀ k, read s' k = (lastSome (effect k) xs).getD (read s k) := by
  induction xs using List.reverseRecOn with
  | nil => exact ⟨s, rfl, hs, fun k => rfl⟩
  | append_singleton xs x ih =>
    obtain ⟨t, ht, hi, hr⟩ := ih fun y hy => hx y (by simp [hy])
    obtain ⟨t', ht', hi', hr'⟩ := spec t x hi (hx x (by simp))
    refine ⟨t', ?_, hi', fun k => ?_⟩
    · rw [List.foldlM_append, ht, Checked.bind_ok, List.foldlM_cons, ht', Checked.bind_ok]
      rfl
    · rw [lastSome_concat, hr', hr]
      cases effect k x <;> rfl

/-- What each step of a run sets or keeps has, at its end, the value that was set last. -/
theorem run_reads_last {step : σ → α → σ → Prop} (read : σ → β)
    (effect : Runs.Step σ α → Option β) {start s : σ} {steps : List (Runs.Step σ α)}
    (h : Runs.Run step start steps s)
    (spec : ∀ t ∈ steps, step t.before t.event t.after →
      read t.after = (effect t).getD (read t.before)) :
    read s = (lastSome effect steps).getD (read start) := by
  induction h with
  | nil => rfl
  | @snoc steps s s' e before last ih =>
    rw [lastSome_concat]
    have hlast := spec ⟨s, e, s'⟩ (by simp) last
    rw [ih fun t ht => spec t (List.mem_append_left _ ht)] at hlast
    rw [hlast]
    cases effect ⟨s, e, s'⟩ <;> rfl

end Latest
