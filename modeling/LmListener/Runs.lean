import Mathlib.Data.List.Induction
import Mathlib.Tactic.Common

namespace Runs

variable {σ ε : Type} {step : σ → ε → σ → Prop} {start s : σ}

/-- One step of a run: the state it starts from, what happens in it, and the state it leaves. -/
structure Step (σ ε : Type) where
  before : σ
  event : ε
  after : σ

inductive Run (step : σ → ε → σ → Prop) (start : σ) : List (Step σ ε) → σ → Prop
  | nil : Run step start [] start
  | snoc {steps : List (Step σ ε)} {s s' : σ} {e : ε} (before : Run step start steps s)
      (last : step s e s') : Run step start (steps ++ [⟨s, e, s'⟩]) s'

/-- The invariant rule: what the start has and each step of a run keeps, all its states have. -/
theorem Run.inv_steps {steps : List (Step σ ε)} (h : Run step start steps s) (I : σ → Prop)
    (first : I start)
    (keep : ∀ t ∈ steps, I t.before → step t.before t.event t.after → I t.after) :
    I s ∧ ∀ t ∈ steps, I t.before ∧ step t.before t.event t.after ∧ I t.after := by
  induction h with
  | nil => exact ⟨first, by simp⟩
  | @snoc steps s s' e before last ih =>
    obtain ⟨hs, hall⟩ := ih fun t ht => keep t (List.mem_append_left _ ht)
    have hs' : I s' := keep ⟨s, e, s'⟩ (by simp) hs last
    refine ⟨hs', fun t ht => ?_⟩
    rcases List.mem_append.mp ht with ht | ht
    · exact hall t ht
    · obtain rfl := List.mem_singleton.mp ht
      exact ⟨hs, last, hs'⟩

theorem Run.inv {steps : List (Step σ ε)} (h : Run step start steps s) (I : σ → Prop)
    (first : I start) (keep : ∀ s e s', I s → step s e s' → I s') : I s :=
  (h.inv_steps I first fun _ _ => keep _ _ _).1

theorem Run.step_inv {steps : List (Step σ ε)} (h : Run step start steps s) (I : σ → Prop)
    (first : I start) (keep : ∀ s e s', I s → step s e s' → I s') :
    ∀ t ∈ steps, I t.before ∧ step t.before t.event t.after := by
  intro t ht
  obtain ⟨hbefore, hstep, _⟩ := (h.inv_steps I first fun _ _ => keep _ _ _).2 t ht
  exact ⟨hbefore, hstep⟩

/-- A step seen through `view`, when its event has a label there. -/
def Step.project {τ δ : Type} (view : σ → τ) (label : ε → Option δ) (t : Step σ ε) :
    Option (Step τ δ) :=
  (label t.event).map fun d => ⟨view t.before, d, view t.after⟩

/-- A run whose steps are steps of another system, or do nothing to the view, is a run of it. -/
theorem Run.project {τ δ : Type} {other : τ → δ → τ → Prop} (view : σ → τ) (label : ε → Option δ)
    {steps : List (Step σ ε)} (h : Run step start steps s)
    (seen : ∀ t ∈ steps, ∀ d, label t.event = some d → other (view t.before) d (view t.after))
    (unseen : ∀ t ∈ steps, label t.event = none → view t.after = view t.before) :
    Run other (view start) (steps.filterMap (Step.project view label)) (view s) := by
  induction h with
  | nil => exact .nil
  | @snoc steps s s' e before last ih =>
    have hrun := ih (fun t ht => seen t (List.mem_append_left _ ht))
      fun t ht => unseen t (List.mem_append_left _ ht)
    have hmem : (⟨s, e, s'⟩ : Step σ ε) ∈ steps ++ [⟨s, e, s'⟩] := by simp
    rw [List.filterMap_append]
    cases hl : label e with
    | none =>
      have hnone : [(⟨s, e, s'⟩ : Step σ ε)].filterMap (Step.project view label) = [] := by
        simp [Step.project, hl]
      have hview : view s' = view s := unseen _ hmem hl
      rw [hnone, List.append_nil, hview]
      exact hrun
    | some d =>
      have hone : [(⟨s, e, s'⟩ : Step σ ε)].filterMap (Step.project view label) =
          [⟨view s, d, view s'⟩] := by
        simp [Step.project, hl]
      rw [hone]
      exact hrun.snoc (seen _ hmem d hl)

theorem Run.of_concat {steps : List (Step σ ε)} {t : Step σ ε}
    (h : Run step start (steps ++ [t]) s) :
    Run step start steps t.before ∧ step t.before t.event t.after ∧ s = t.after := by
  generalize hall : steps ++ [t] = all at h
  cases h with
  | nil => simp at hall
  | snoc before last =>
    obtain ⟨rfl, ht⟩ := List.append_inj' hall rfl
    cases ht
    exact ⟨before, last, rfl⟩

/-- A run goes on from where its first part ends. -/
theorem Run.append {first : List (Step σ ε)} (rest : List (Step σ ε))
    (h : Run step start (first ++ rest) s) :
    ∃ middle, Run step start first middle ∧ Run step middle rest s := by
  induction rest using List.reverseRecOn generalizing s with
  | nil => exact ⟨s, by simpa using h, .nil⟩
  | append_singleton rest t ih =>
    rw [← List.append_assoc] at h
    obtain ⟨hbefore, hlast, rfl⟩ := h.of_concat
    obtain ⟨middle, hfirst, hrest⟩ := ih hbefore
    exact ⟨middle, hfirst, hrest.snoc hlast⟩

theorem Run.split {steps : List (Step σ ε)} (h : Run step start steps s) :
    ∀ earlier t later, steps = earlier ++ t :: later →
      Run step start earlier t.before ∧ step t.before t.event t.after := by
  intro earlier t later he
  rw [he, List.append_cons] at h
  obtain ⟨middle, hfirst, _⟩ := h.append later
  obtain ⟨hbefore, hlast, _⟩ := hfirst.of_concat
  exact ⟨hbefore, hlast⟩

/-- Of a system whose steps are determined by labels of their events, the labels determine a run. -/
theorem Run.unique {δ : Type} (label : ε → δ)
    (determined : ∀ s e₁ e₂ s₁ s₂, step s e₁ s₁ → step s e₂ s₂ → label e₁ = label e₂ →
      e₁ = e₂ ∧ s₁ = s₂) {steps₁ steps₂ : List (Step σ ε)} {s₁ s₂ : σ}
    (h₁ : Run step start steps₁ s₁) (h₂ : Run step start steps₂ s₂)
    (hlabels : steps₁.map (fun t => label t.event) = steps₂.map (fun t => label t.event)) :
    steps₁ = steps₂ ∧ s₁ = s₂ := by
  induction h₁ generalizing steps₂ s₂ with
  | nil =>
    obtain rfl : steps₂ = [] := List.map_eq_nil_iff.mp hlabels.symm
    generalize hnil : ([] : List (Step σ ε)) = steps at h₂
    cases h₂ with
    | nil => exact ⟨rfl, rfl⟩
    | snoc => simp at hnil
  | @snoc steps s s' e before last ih =>
    rcases List.eq_nil_or_concat steps₂ with rfl | ⟨earlier, t, rfl⟩
    · simp at hlabels
    · rw [List.concat_eq_append] at h₂ hlabels ⊢
      rw [List.map_append, List.map_append] at hlabels
      obtain ⟨hearlier, hlast⟩ := List.append_inj' hlabels rfl
      obtain ⟨hbefore, hstep, rfl⟩ := h₂.of_concat
      obtain ⟨rfl, rfl⟩ := ih hbefore hearlier
      obtain ⟨rfl, rfl⟩ := determined _ _ _ _ _ last hstep (List.singleton_inj.mp hlast)
      exact ⟨rfl, rfl⟩

/-- What follows a step of a run is a run from the state this step leaves. -/
theorem Run.after {earlier : List (Step σ ε)} {t : Step σ ε} {later : List (Step σ ε)}
    (h : Run step start (earlier ++ t :: later) s) :
    step t.before t.event t.after ∧ Run step t.after later s := by
  rw [List.append_cons] at h
  obtain ⟨middle, hfirst, hrest⟩ := h.append later
  obtain ⟨_, hstep, rfl⟩ := hfirst.of_concat
  exact ⟨hstep, hrest⟩

/-- Forward simulation: what another system can follow step by step, it follows over a whole run,
with the labels of its steps. -/
theorem Run.simulate {τ δ : Type} {other : τ → δ → τ → Prop} (R : σ → τ → Prop)
    (label : Step σ ε → Option δ) {steps : List (Step σ ε)} (h : Run step start steps s) {a : τ}
    (first : R start a)
    (seen : ∀ t ∈ steps, step t.before t.event t.after → ∀ d, label t = some d →
      ∀ a, R t.before a → ∃ a', other a d a' ∧ R t.after a')
    (unseen : ∀ t ∈ steps, step t.before t.event t.after → label t = none →
      ∀ a, R t.before a → R t.after a) :
    ∃ followed b, Run other a followed b ∧ R s b ∧
      followed.map Step.event = steps.filterMap label := by
  induction h with
  | nil => exact ⟨[], a, .nil, first, rfl⟩
  | @snoc steps s s' e before last ih =>
    obtain ⟨followed, b, hrun, hr, hevents⟩ := ih
      (fun t ht => seen t (List.mem_append_left _ ht))
      fun t ht => unseen t (List.mem_append_left _ ht)
    have hmem : (⟨s, e, s'⟩ : Step σ ε) ∈ steps ++ [⟨s, e, s'⟩] := by simp
    cases hl : label ⟨s, e, s'⟩ with
    | none =>
      exact ⟨followed, b, hrun, unseen _ hmem last hl b hr, by simp [hevents, hl]⟩
    | some d =>
      obtain ⟨b', hother, hr'⟩ := seen _ hmem last d hl b hr
      exact ⟨_, b', hrun.snoc hother, hr', by simp [hevents, hl]⟩

/-- What a machine answers to its inputs, one after the other, with the state it ends in. -/
def answers {τ δ κ : Type} (next : τ → δ → τ × κ) (a : τ) (inputs : List δ) : τ × List κ :=
  inputs.foldl (fun b x => ((next b.1 x).1, b.2 ++ [(next b.1 x).2])) (a, [])

theorem answers_concat {τ δ κ : Type} (next : τ → δ → τ × κ) (a : τ) (inputs : List δ) (x : δ) :
    answers next a (inputs ++ [x]) =
      ((next (answers next a inputs).1 x).1,
        (answers next a inputs).2 ++ [(next (answers next a inputs).1 x).2]) := by
  rw [answers, List.foldl_append]
  rfl

/-- The trace rule: what a machine follows step by step with the outputs of each step, it follows
over a whole run with all its outputs. -/
theorem Run.trace {τ δ κ : Type} {next : τ → δ → τ × κ} (R : σ → τ → Prop) (input : Step σ ε → δ)
    (output : Step σ ε → κ) {steps : List (Step σ ε)} (h : Run step start steps s) {a : τ}
    (first : R start a)
    (follow : ∀ t ∈ steps, step t.before t.event t.after → ∀ a, R t.before a →
      R t.after (next a (input t)).1 ∧ output t = (next a (input t)).2) :
    R s (answers next a (steps.map input)).1 ∧
      steps.map output = (answers next a (steps.map input)).2 := by
  induction h with
  | nil => exact ⟨first, rfl⟩
  | @snoc steps s s' e before last ih =>
    obtain ⟨hr, houtputs⟩ := ih fun t ht => follow t (List.mem_append_left _ ht)
    obtain ⟨hr', houtput⟩ := follow ⟨s, e, s'⟩ (by simp) last _ hr
    rw [List.map_append, List.map_append, List.map_singleton, List.map_singleton, answers_concat]
    exact ⟨hr', congrArg₂ (· ++ [·]) houtputs houtput⟩

/-- The ranking rule: of the steps that lower a rank no other step raises, there are no more than it
was at the start. -/
theorem Run.count_le_rank {steps : List (Step σ ε)} (h : Run step start steps s) (rank : σ → Nat)
    (counted : Step σ ε → Bool) (I : σ → Prop) (first : I start)
    (keep : ∀ t, I t.before → step t.before t.event t.after →
      I t.after ∧ rank t.after + (counted t).toNat ≤ rank t.before) :
    I s ∧ steps.countP counted + rank s ≤ rank start := by
  induction h with
  | nil => exact ⟨first, by simp⟩
  | @snoc steps s s' e before last ih =>
    obtain ⟨hs, hcount⟩ := ih
    obtain ⟨hs', hrank⟩ := keep ⟨s, e, s'⟩ hs last
    refine ⟨hs', ?_⟩
    rw [List.countP_append, List.countP_singleton]
    cases hc : counted ⟨s, e, s'⟩ <;> simp [hc] at hrank ⊢ <;> omega

/-- The phase rule: a run has the invariant of its first phase until a step of a kind, and that of
its second phase from then on. -/
theorem Run.phases {steps : List (Step σ ε)} (h : Run step start steps s)
    (turns : Step σ ε → Prop) (I J : σ → Prop) (first : I start)
    (stay : ∀ t : Step σ ε, I t.before → step t.before t.event t.after → ¬turns t → I t.after)
    (turn : ∀ t : Step σ ε, I t.before → step t.before t.event t.after → turns t → J t.after)
    (keep : ∀ t : Step σ ε, J t.before → step t.before t.event t.after → J t.after) :
    (∀ t ∈ steps, ¬turns t) ∧ I s ∨ (∃ t ∈ steps, turns t) ∧ J s := by
  induction h with
  | nil => exact Or.inl ⟨by simp, first⟩
  | @snoc steps s s' e before last ih =>
    obtain ⟨hnone, hs⟩ | ⟨⟨t, ht, hturn⟩, hs⟩ := ih
    · by_cases hlast : turns ⟨s, e, s'⟩
      · exact Or.inr ⟨⟨_, by simp, hlast⟩, turn ⟨s, e, s'⟩ hs last hlast⟩
      · refine Or.inl ⟨fun t ht => ?_, stay ⟨s, e, s'⟩ hs last hlast⟩
        rcases List.mem_append.mp ht with ht | ht
        · exact hnone t ht
        · rwa [List.mem_singleton.mp ht]
    · exact Or.inr ⟨⟨t, by simp [ht], hturn⟩, keep ⟨s, e, s'⟩ hs last⟩

end Runs
