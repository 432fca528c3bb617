import LmListener.FramePass

namespace LmListener

/-- A transmission whose LED words, between the start frame and the end frames, all have the flag
byte 0xff. Its length says how many LED words there are. -/
def FlaggedStream (bytes : List UInt8) : Prop :=
  ∃ n, bytes.length = wordsFor n * 4 ∧ ∀ j < n, bytes[4 * (j + 1)]? = some 0xff

def Flagged (outputs : List Output) : Prop :=
  ∀ fd bytes, Output.writeAll fd bytes ∈ outputs → FlaggedStream bytes

theorem wordsFor_inj {m n : Nat} (h : wordsFor m = wordsFor n) : m = n := by
  unfold wordsFor at h
  omega

theorem flatMap_bytes_getElem? (words : List Sk9822Color) (i : Nat) :
    (words.flatMap Sk9822Color.bytes)[4 * i]? = words[i]?.map Sk9822Color.f := by
  induction words generalizing i with
  | nil => rfl
  | cons word words ih =>
    cases i with
    | zero => rfl
    | succ i => simpa [Sk9822Color.bytes, Nat.mul_succ] using ih i

theorem flaggedStream_iff {leds : List Sk9822Color} :
    FlaggedStream (stream leds) ↔ ∀ word ∈ leds, word.f = 0xff := by
  have hlen := length_stream leds
  have hword : ∀ j, (hj : j < leds.length) → (stream leds)[4 * (j + 1)]? = some leds[j].f := by
    intro j hj
    rw [stream, flatMap_bytes_getElem?, List.cons_append, List.getElem?_cons_succ,
      List.getElem?_append_left hj, List.getElem?_eq_getElem hj]
    rfl
  constructor
  · intro hstream word hmem
    obtain ⟨n, hn, hall⟩ := hstream
    rw [hlen] at hn
    obtain rfl : leds.length = n := wordsFor_inj (by omega)
    obtain ⟨j, hj, rfl⟩ := List.mem_iff_getElem.mp hmem
    exact Option.some.inj ((hword j hj).symm.trans (hall j hj))
  · intro hall
    exact ⟨leds.length, hlen, fun j hj => by rw [hword j hj, hall _ (List.getElem_mem hj)]⟩

theorem flagged_transmissions_iff {spiOut : SpiOut} {leds : Nat → Nat} {chanCntr : Nat} :
    Flagged (transmissions spiOut leds chanCntr) ↔
      ∀ k < chanCntr, ∀ m < leds k, (spiOut.word k (m + 1)).f = 0xff := by
  constructor
  · intro h k hk m hm
    have hmem : Output.writeAll spiOut.fd
        (stream ((List.range (leds k)).map fun j => spiOut.word k (j + 1))) ∈
        transmissions spiOut leds chanCntr := by
      refine List.mem_flatMap.mpr ⟨k, List.mem_range.mpr hk, ?_⟩
      rw [if_neg (by omega)]
      simp [transmission]
    exact flaggedStream_iff.mp (h _ _ hmem) _ (List.mem_map_of_mem (List.mem_range.mpr hm))
  · intro h fd bytes hmem
    obtain ⟨k, hk, hmem⟩ := List.mem_flatMap.mp hmem
    split at hmem
    next => cases hmem
    next =>
      simp only [transmission, List.mem_cons, reduceCtorEq, Output.writeAll.injEq, List.not_mem_nil,
        or_false, false_or] at hmem
      obtain ⟨_, rfl⟩ := hmem
      rw [flaggedStream_iff]
      intro word hword
      obtain ⟨j, hj, rfl⟩ := List.mem_map.mp hword
      exact h k (List.mem_range.mp hk) j (List.mem_range.mp hj)

theorem flagged_append {outputs more : List Output} :
    Flagged (outputs ++ more) ↔ Flagged outputs ∧ Flagged more := by
  simp only [Flagged, List.mem_append]
  exact ⟨fun h => ⟨fun fd b hb => h fd b (Or.inl hb), fun fd b hb => h fd b (Or.inr hb)⟩,
    fun h fd b hb => hb.elim (h.1 fd b) (h.2 fd b)⟩

theorem flagged_of_quiet {outputs : List Output}
    (h : ∀ fd bytes, Output.writeAll fd bytes ∉ outputs) : Flagged outputs :=
  fun fd bytes hmem => absurd hmem (h fd bytes)

theorem flagged_switch (s : MainState) (isWS : Bool) : Flagged (s.switch isWS).2 := by
  apply flagged_of_quiet
  intro fd bytes
  rw [MainState.switch, GpioOutSwitcher.switchWsOut]
  split_ifs <;> simp

end LmListener
