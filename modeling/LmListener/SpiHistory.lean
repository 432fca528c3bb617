import LmListener.Latest
import LmListener.SpiOut

namespace LmListener

open Checked CTypes Latest

inductive SpiOp
  | writeLed (chan index : Nat) (red green blue : UInt8)
  | send (chan ledsNumber : Nat)
deriving DecidableEq, Repr

def SpiOut.apply (dm : DataModel) (s : SpiOut) : SpiOp → Except Fault SpiOut
  | .writeLed chan index red green blue => s.writeLed chan index red green blue
  | .send chan ledsNumber => return (← s.send dm chan ledsNumber).1

def SpiOut.run (dm : DataModel) (s : SpiOut) (ops : List SpiOp) : Except Fault SpiOut :=
  ops.foldlM (SpiOut.apply dm) s

def colourOf (chan index : Nat) : SpiOp → Option Sk9822Color
  | .writeLed c i red green blue =>
    if c = chan ∧ i = index then some ⟨255, blue, green, red⟩ else none
  | .send _ _ => none

def lastColour (chan index : Nat) (ops : List SpiOp) : Option Sk9822Color :=
  lastSome (colourOf chan index) ops

/-- What a call leaves in word `k.2` of channel `k.1`, if it writes there. -/
def wordEffect (k : Nat × Nat) : SpiOp → Option Sk9822Color
  | .writeLed chan index red green blue =>
    if k.1 = chan ∧ k.2 = index + 1 then some ⟨255, blue, green, red⟩ else none
  | .send chan n =>
    if k.1 = chan ∧ k.2 = 0 then some startFrame
    else if k.1 = chan ∧ n < k.2 ∧ k.2 < wordsFor n then some endFrame
    else none

def SpiOp.Valid (shape : List (Nat × Nat)) : SpiOp → Prop
  | .writeLed chan index _ _ _ => ∃ p, shape[chan]? = some p ∧ index < p.1
  | .send chan n => ∃ p, shape[chan]? = some p ∧ 1 ≤ n ∧ n ≤ p.1

theorem Covers.send_bounds {dm : DataModel} {p : Nat × Nat} (h : Covers dm p) {n : Nat}
    (hn : n ≤ p.1) : n < 2 ^ 31 ∧ wordsFor n * 4 < 2 ^ dm.sizeBits ∧ wordsFor n ≤ p.2 / 4 := by
  have := h.leds_lt
  have := h.size_lt
  have := h.room
  have := wordsFor_mono hn
  omega

theorem SpiOut.apply_spec {dm : DataModel} {shape : List (Nat × Nat)}
    (hcov : ∀ p ∈ shape, Covers dm p) {s : SpiOut} (hs : s.shape = shape) {op : SpiOp}
    (hv : op.Valid shape) :
    ∃ s', s.apply dm op = .ok s' ∧ s'.shape = shape ∧
      ∀ k : Nat × Nat, s'.word k.1 k.2 = (wordEffect k op).getD (s.word k.1 k.2) := by
  subst hs
  cases op with
  | writeLed chan index red green blue =>
    obtain ⟨⟨leds, size⟩, hp, hi⟩ := hv
    have hc := hcov _ (List.mem_of_getElem? hp)
    obtain ⟨s', ho, _, hsh, hw⟩ := SpiOut.writeLed_spec hp
      (hc.send_bounds (Nat.le_refl _)).2.2 index red green blue
    refine ⟨s', ho, hsh, fun k => ?_⟩
    rw [hw, wordEffect]
    simp only at hi
    split_ifs <;> first | rfl | omega
  | send chan n =>
    obtain ⟨⟨leds, size⟩, hp, _, hn⟩ := hv
    obtain ⟨h31, hsize, hroom⟩ := (hcov _ (List.mem_of_getElem? hp)).send_bounds hn
    obtain ⟨s', ho, _, hsh, hw⟩ := SpiOut.send_spec hp h31 hsize hroom
    refine ⟨s', by simp only [SpiOut.apply, ho]; rfl, hsh, fun k => ?_⟩
    rw [hw, wordEffect]
    split_ifs <;> rfl

theorem SpiOut.run_spec {dm : DataModel} {s : SpiOut} (hcov : s.Covered dm) (ops : List SpiOp)
    (hv : ∀ op ∈ ops, op.Valid s.shape) :
    ∃ s', s.run dm ops = .ok s' ∧ s'.shape = s.shape ∧
      ∀ chan i, s'.word chan i = (lastSome (wordEffect (chan, i)) ops).getD (s.word chan i) := by
  obtain ⟨s', ho, hsh, hw⟩ := run_reads_lastSome
    (fun (s : SpiOut) (k : Nat × Nat) => s.word k.1 k.2) wordEffect
    (fun t => t.shape = s.shape) (fun op => op.Valid s.shape)
    (fun t op ht hop => SpiOut.apply_spec hcov ht hop) rfl hv
  exact ⟨s', ho, hsh, fun chan i => hw (chan, i)⟩

/-- Every send transmits the last colour of each LED written before it, and afterwards every
LED written before it still holds its last colour. -/
def KeepsColours (dm : DataModel) (s : SpiOut) (ops : List SpiOp) : Prop :=
  ∀ before chan n after, ops = before ++ .send chan n :: after →
    ∃ t t' leds, s.run dm before = .ok t ∧ t.send dm chan n = .ok (t', stream leds) ∧
      leds.length = n ∧
      (∀ j < n, ∀ colour, lastColour chan j before = some colour → leds[j]? = some colour) ∧
      ∀ c j colour, lastColour c j before = some colour → t'.word c (j + 1) = colour

/-- The end frames of no send fall on a LED written before it. -/
def EndFramesClear (ops : List SpiOp) : Prop :=
  ∀ before chan n after, ops = before ++ .send chan n :: after →
    ∀ j, n ≤ j → j < n + 2 + (n - 1) / 64 → lastColour chan j before = none

theorem colourOf_flag {chan index : Nat} {op : SpiOp} {colour : Sk9822Color}
    (h : colourOf chan index op = some colour) : colour.f = 255 := by
  cases op with
  | writeLed c i red green blue =>
    simp only [colourOf] at h
    split at h
    next => cases h; rfl
    next => cases h
  | send c n => cases h

theorem EndFramesClear.of_append {ops rest : List SpiOp} (h : EndFramesClear (ops ++ rest)) :
    EndFramesClear ops := by
  intro before chan n after he
  exact h before chan n (after ++ rest) (by simp [he])

theorem EndFramesClear.concat {ops : List SpiOp} (h : EndFramesClear ops) {op : SpiOp}
    (hop : ∀ chan n, op = .send chan n →
      ∀ j, n ≤ j → j < n + 2 + (n - 1) / 64 → lastColour chan j ops = none) :
    EndFramesClear (ops ++ [op]) := by
  intro before chan n after he
  rcases List.eq_nil_or_concat after with rfl | ⟨rest, last, rfl⟩
  · obtain ⟨rfl, ho⟩ := List.append_inj' he rfl
    exact hop chan n (List.cons.inj ho).1
  · have hi : ops ++ [op] = (before ++ .send chan n :: rest) ++ [last] := by simp [he]
    exact h before chan n rest (List.append_inj' hi rfl).1

theorem EndFramesClear.lastSome_wordEffect {ops : List SpiOp} (h : EndFramesClear ops)
    {chan j : Nat} {colour : Sk9822Color} (hl : lastColour chan j ops = some colour) :
    lastSome (wordEffect (chan, j + 1)) ops = some colour := by
  induction ops using List.reverseRecOn with
  | nil => cases hl
  | append_singleton ops op ih =>
    rw [lastColour, lastSome_concat] at hl
    rw [lastSome_concat]
    cases op with
    | writeLed c i red green blue =>
      simp only [colourOf, wordEffect] at hl ⊢
      by_cases he : c = chan ∧ i = j
      · obtain ⟨rfl, rfl⟩ := he
        simpa using hl
      · rw [if_neg he, Option.none_or] at hl
        rw [if_neg (by omega), Option.none_or]
        exact ih h.of_append hl
    | send c n =>
      rw [colourOf, Option.none_or] at hl
      have hclear : ¬(chan = c ∧ n < j + 1 ∧ j + 1 < wordsFor n) := by
        intro hcover
        obtain ⟨rfl, hlo, hhi⟩ := hcover
        unfold wordsFor at hhi
        have := h ops chan n [] rfl j (by omega) (by omega)
        rw [lastColour, hl] at this
        cases this
      rw [wordEffect, if_neg (by simp), if_neg hclear, Option.none_or]
      exact ih h.of_append hl

theorem keepsColours_of_clear {dm : DataModel} {s : SpiOut} (hcov : s.Covered dm)
    {ops : List SpiOp} (hv : ∀ op ∈ ops, op.Valid s.shape) (h : EndFramesClear ops) :
    KeepsColours dm s ops := by
  intro before chan n after he
  subst he
  have hpre : EndFramesClear before := h.of_append
  have hnext : EndFramesClear (before ++ [.send chan n]) := by
    rw [List.append_cons] at h
    exact h.of_append
  obtain ⟨t, ht, hsh, hw⟩ := SpiOut.run_spec hcov before fun op hop => hv op (by simp [hop])
  have hsend := hv (.send chan n) (by simp)
  obtain ⟨⟨leds, size⟩, hp, _, hn⟩ := hsend
  rw [← hsh] at hp
  obtain ⟨h31, hsize, hroom⟩ :=
    (hcov (leds, size) (hsh ▸ List.mem_of_getElem? hp)).send_bounds hn
  obtain ⟨t', ho, _, _, hw'⟩ := SpiOut.send_spec hp h31 hsize hroom
  refine ⟨t, t', _, ht, ho, by simp, ?_, ?_⟩
  · intro j hj colour hl
    simp [hj, hw, hpre.lastSome_wordEffect hl]
  · intro c j colour hl
    have hafter : lastColour c j (before ++ [.send chan n]) = some colour := by
      rw [lastColour, lastSome_concat]
      exact hl
    have heff := hnext.lastSome_wordEffect hafter
    rw [lastSome_concat] at heff
    have hword : t'.word c (j + 1) =
        (wordEffect (c, j + 1) (.send chan n)).getD (t.word c (j + 1)) := by
      rw [hw', wordEffect]
      split_ifs <;> rfl
    rw [hword, hw]
    cases hx : wordEffect (c, j + 1) (.send chan n) with
    | none => rw [hx, Option.none_or] at heff; simp [heff]
    | some w => rw [hx] at heff; simpa using heff

theorem clear_of_keepsColours {dm : DataModel} {s : SpiOut} (hcov : s.Covered dm)
    {ops : List SpiOp} (hv : ∀ op ∈ ops, op.Valid s.shape) (h : KeepsColours dm s ops) :
    EndFramesClear ops := by
  intro before chan n after he j hlo hhi
  subst he
  obtain ⟨t, t', leds, ht, ho, _, _, hkept⟩ := h before chan n after rfl
  obtain ⟨u, hu, hsh, _⟩ := SpiOut.run_spec hcov before fun op hop => hv op (by simp [hop])
  obtain rfl : t = u := Except.ok.inj (ht.symm.trans hu)
  obtain ⟨⟨cap, size⟩, hp, _, hn⟩ := hv (.send chan n) (by simp)
  rw [← hsh] at hp
  obtain ⟨h31, hsize, hroom⟩ :=
    (hcov (cap, size) (hsh ▸ List.mem_of_getElem? hp)).send_bounds hn
  obtain ⟨v, hv, _, _, hw⟩ := SpiOut.send_spec hp h31 hsize hroom
  obtain ⟨rfl, _⟩ := Prod.mk.inj (Except.ok.inj (ho.symm.trans hv))
  cases hl : lastColour chan j before with
  | none => rfl
  | some colour =>
    have hzero : t'.word chan (j + 1) = endFrame := by
      rw [hw, if_neg (by simp), if_pos (by unfold wordsFor; omega)]
    have hflag := hkept chan j colour hl
    obtain ⟨op, _, hop⟩ := lastSome_mem hl
    have := colourOf_flag hop
    rw [hzero] at hflag
    subst hflag
    simp [endFrame] at this

/-- The SPI LEDs keep their last colours exactly in the histories in which no send puts an end
frame on a LED written before. -/
theorem spi_leds_keep_colours_iff {dm : DataModel} {s : SpiOut} (hcov : s.Covered dm)
    {ops : List SpiOp} (hv : ∀ op ∈ ops, op.Valid s.shape) :
    KeepsColours dm s ops ↔ EndFramesClear ops :=
  ⟨clear_of_keepsColours hcov hv, keepsColours_of_clear hcov hv⟩

/-- One channel of two LEDs. -/
def twoLeds : SpiOut := (SpiOut.new.addChannel lp64 2 (some fun _ => default)).2

theorem twoLeds_shape : twoLeds.shape = [(2, 20)] :=
  SpiOut.addChannel_shape lp64 SpiOut.new (by omega) fun _ => default

theorem twoLeds_covered : twoLeds.Covered lp64 := by
  intro p hp
  rw [twoLeds_shape, List.mem_singleton] at hp
  subst hp
  exact ⟨by decide, by decide, by decide⟩

theorem spi_leds_keep_colours_two : KeepsColours lp64 twoLeds
    [.writeLed 0 0 9 8 7, .writeLed 0 1 6 5 4, .send 0 2] := by
  refine (spi_leds_keep_colours_iff twoLeds_covered ?_).mpr ?_
  · simp [twoLeds_shape, SpiOp.Valid]
  · have h : EndFramesClear [.writeLed 0 0 9 8 7, .writeLed 0 1 6 5 4] := by
      rintro (_ | ⟨a, _ | ⟨b, _ | _⟩⟩) <;> simp
    refine h.concat ?_
    intro chan n he j hlo hhi
    obtain ⟨rfl, rfl⟩ := SpiOp.send.inj he
    obtain rfl | rfl : j = 2 ∨ j = 3 := by omega
    all_goals rfl

/-- Sending one LED and then both turns the second LED off. -/
theorem spi_led_lost_after_short_send :
    twoLeds.Covered lp64 ∧
    (∀ op ∈ [SpiOp.writeLed 0 1 6 5 4, .send 0 1, .send 0 2], op.Valid twoLeds.shape) ∧
    ¬KeepsColours lp64 twoLeds [.writeLed 0 1 6 5 4, .send 0 1, .send 0 2] := by
  have hv : ∀ op ∈ [SpiOp.writeLed 0 1 6 5 4, .send 0 1, .send 0 2], op.Valid twoLeds.shape := by
    simp [twoLeds_shape, SpiOp.Valid]
  refine ⟨twoLeds_covered, hv, fun h => ?_⟩
  have hclear := clear_of_keepsColours twoLeds_covered hv h
  have := hclear [.writeLed 0 1 6 5 4] 0 1 [.send 0 2] rfl 1 (by omega) (by omega)
  exact absurd this (by decide)

end LmListener
