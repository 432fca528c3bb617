import LmListener.Latest

namespace Latest

/-- How the events of a log open and close resources, and which they use. An event may use some
resources without their being open. -/
structure Ledger (ε κ : Type) where
  acts : κ → ε → Option Bool
  uses : ε → Option κ
  excused : ε → κ → Prop

variable {ε κ : Type} (L : Ledger ε κ)

/-- The last event of the log that opens or closes a resource opens it. -/
def Ledger.IsOpen (log : List ε) (k : κ) : Prop := lastSome (L.acts k) log = some true

/-- Each event of a log uses a resource that is open when it happens, unless it is excused. -/
def Ledger.UsesOpen (log : List ε) : Prop :=
  ∀ earlier e later, log = earlier ++ e :: later → ∀ k, L.uses e = some k →
    L.IsOpen earlier k ∨ L.excused e k

/-- The owner of the log holds what is open, and nothing else is used. -/
structure Ledger.Accounts (log : List ε) (held : κ → Prop) : Prop where
  isOpen : ∀ k, L.IsOpen log k ↔ held k
  usesOpen : L.UsesOpen log

variable {L} {log : List ε} {held held' : κ → Prop} {e : ε}

theorem Ledger.accounts_nil (h : ∀ k, ¬held k) : L.Accounts [] held := by
  refine ⟨fun k => ⟨fun hk => ?_, fun hk => absurd hk (h k)⟩, fun earlier e later he => ?_⟩
  · cases hk
  · simp at he

theorem Ledger.isOpen_concat {k : κ} : L.IsOpen (log ++ [e]) k ↔
    L.acts k e = some true ∨ L.acts k e = none ∧ L.IsOpen log k := by
  unfold IsOpen
  rw [lastSome_concat]
  cases L.acts k e <;> simp

theorem Ledger.UsesOpen.concat (h : L.UsesOpen log)
    (huses : ∀ k, L.uses e = some k → L.IsOpen log k ∨ L.excused e k) :
    L.UsesOpen (log ++ [e]) := by
  intro earlier e' later he
  rcases List.eq_nil_or_concat later with rfl | ⟨later, last, rfl⟩
  · obtain ⟨rfl, hlast⟩ := List.append_inj' he rfl
    cases hlast
    exact huses
  · rw [List.concat_eq_append, ← List.cons_append, ← List.append_assoc] at he
    obtain ⟨rfl, _⟩ := List.append_inj' he rfl
    exact h earlier e' later rfl

/-- The step rule: the event uses what is held, and what it opens and closes is taken and given
back. -/
theorem Ledger.Accounts.concat (h : L.Accounts log held)
    (huses : ∀ k, L.uses e = some k → held k ∨ L.excused e k)
    (hheld : ∀ k, held' k ↔ L.acts k e = some true ∨ L.acts k e = none ∧ held k) :
    L.Accounts (log ++ [e]) held' := by
  refine ⟨fun k => ?_, h.usesOpen.concat fun k hk => ?_⟩
  · rw [Ledger.isOpen_concat, hheld, h.isOpen]
  · rw [h.isOpen]
    exact huses k hk

end Latest
