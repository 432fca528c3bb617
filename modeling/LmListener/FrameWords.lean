import LmListener.FramePass

namespace LmListener

open Checked CTypes Latest

variable {isWS : Nat → Bool} {message : Message} {headerByteOffset totalLedsNum chanCntr k m : Nat}
  {leds : Nat → Nat}

/-- The last write of a frame to LED `m` of channel `k`, as one buffer sees it: the frame has one
write there at most. -/
theorem lastSome_route {β : Type} {hit : PixelWrite → Option β}
    (hits : ∀ w, hit w ≠ none → w.pixel.chan = k ∧ w.pixel.index = m) :
    lastSome hit (route isWS 1 (framePixels message headerByteOffset totalLedsNum leds chanCntr)) =
      if (k < chanCntr ∧ m < leds k) ∧ chanOffset leds k + m < totalLedsNum
      then hit ⟨isWS (1 + (chanOffset leds k + m)) && decide (m < LED_COUNT_WS),
        pixelAt message headerByteOffset k (chanOffset leds k) (chanOffset leds k + m)⟩
      else none := by
  have hl := length_framePixels message headerByteOffset totalLedsNum leds chanCntr
  have hnext : ∀ c, chanOffset leds (c + 1) = chanOffset leds c + leds c := fun _ => rfl
  -- a write that hits is the one of pixel number `chanOffset leds k + m`
  have honly : ∀ w ∈ route isWS 1
      (framePixels message headerByteOffset totalLedsNum leds chanCntr), hit w ≠ none →
      ((k < chanCntr ∧ m < leds k) ∧ chanOffset leds k + m < totalLedsNum) ∧
        w = ⟨isWS (1 + (chanOffset leds k + m)) && decide (m < LED_COUNT_WS),
          pixelAt message headerByteOffset k (chanOffset leds k) (chanOffset leds k + m)⟩ := by
    intro w hw hhit
    obtain ⟨n, hn, rfl⟩ := mem_route.mp hw
    obtain ⟨c, hc, hlo, hhi, he⟩ := framePixels_getElem? message headerByteOffset
      (show n < chanOffset leds chanCntr by omega) (show n < totalLedsNum by omega)
    rw [List.getElem?_eq_getElem hn] at he
    have hpixel := Option.some.inj he
    obtain ⟨hchan, hindex⟩ := hits _ hhit
    simp only [hpixel, pixelAt] at hchan hindex
    subst hchan
    obtain rfl : n = chanOffset leds c + m := by omega
    rw [hnext] at hhi
    refine ⟨⟨⟨hc, by omega⟩, by omega⟩, ?_⟩
    simp only [hpixel, pixelAt, Nat.add_sub_cancel_left]
  by_cases hin : (k < chanCntr ∧ m < leds k) ∧ chanOffset leds k + m < totalLedsNum
  · rw [if_pos hin]
    obtain ⟨⟨hk, hm⟩, ht⟩ := hin
    have hend : chanOffset leds (k + 1) ≤ chanOffset leds chanCntr := chanOffset_mono leds hk
    rw [hnext] at hend
    obtain ⟨c, _, hlo, hhi, he⟩ := framePixels_getElem? message headerByteOffset
      (show chanOffset leds k + m < chanOffset leds chanCntr by omega) ht
    obtain rfl : c = k := chanOffset_unique hlo hhi (by omega) (by rw [hnext]; omega)
    obtain ⟨hn, he⟩ := List.getElem?_eq_some_iff.mp he
    have hmem : (⟨isWS (1 + (chanOffset leds c + m)) && decide (m < LED_COUNT_WS),
        pixelAt message headerByteOffset c (chanOffset leds c) (chanOffset leds c + m)⟩ :
        PixelWrite) ∈ route isWS 1
          (framePixels message headerByteOffset totalLedsNum leds chanCntr) := by
      refine mem_route.mpr ⟨_, hn, ?_⟩
      simp only [he, pixelAt, Nat.add_sub_cancel_left]
    cases hh : hit ⟨isWS (1 + (chanOffset leds c + m)) && decide (m < LED_COUNT_WS),
        pixelAt message headerByteOffset c (chanOffset leds c) (chanOffset leds c + m)⟩ with
    | none =>
      rw [lastSome_eq_none_iff]
      intro w hw
      by_contra hhit
      rw [(honly w hw hhit).2, hh] at hhit
      exact hhit rfl
    | some b =>
      refine lastSome_of_agree ⟨_, hmem, hh⟩ fun w hw b' hb' => ?_
      rw [(honly w hw (by simp [hb'])).2, hh] at hb'
      exact (Option.some.inj hb').symm
  · rw [if_neg hin, lastSome_eq_none_iff]
    intro w hw
    by_contra hhit
    exact hin (honly w hw hhit).1

/-- The payload has a triple for LED `m` of channel `k`, and its load sends it to the SPI. -/
def SpiWritten (isWS : Nat → Bool) (leds : Nat → Nat) (chanCntr totalLedsNum k m : Nat) : Prop :=
  ((k < chanCntr ∧ m < leds k) ∧ chanOffset leds k + m < totalLedsNum) ∧
    (isWS (1 + (chanOffset leds k + m)) = false ∨ LED_COUNT_WS ≤ m)

instance : Decidable (SpiWritten isWS leds chanCntr totalLedsNum k m) :=
  inferInstanceAs (Decidable (_ ∧ _))

theorem SpiWritten.congr {leds' : Nat → Nat} (h : ∀ c < chanCntr, leds c = leds' c) :
    SpiWritten isWS leds chanCntr totalLedsNum k m ↔
      SpiWritten isWS leds' chanCntr totalLedsNum k m := by
  unfold SpiWritten
  by_cases hk : k < chanCntr
  · rw [h k hk, chanOffset_congr fun c hc => h c (by omega)]
  · simp [hk]

theorem lastSome_spiHit (hm : m ≤ LED_COUNT_SPI) :
    lastSome (spiHit k (m + 1))
        (route isWS 1 (framePixels message headerByteOffset totalLedsNum leds chanCntr)) =
      if SpiWritten isWS leds chanCntr totalLedsNum k m
      then some (pixelAt message headerByteOffset k (chanOffset leds k)
        (chanOffset leds k + m)).spiColour
      else none := by
  have hits : ∀ w, spiHit k (m + 1) w ≠ none → w.pixel.chan = k ∧ w.pixel.index = m := by
    intro w hhit
    obtain ⟨_, hchan, hindex, _⟩ := of_not_not fun hno => hhit (if_neg hno)
    exact ⟨hchan, by omega⟩
  rw [lastSome_route hits]
  by_cases hin : (k < chanCntr ∧ m < leds k) ∧ chanOffset leds k + m < totalLedsNum
  · rw [if_pos hin]
    have hroute : (isWS (1 + (chanOffset leds k + m)) && decide (m < LED_COUNT_WS)) = false ↔
        isWS (1 + (chanOffset leds k + m)) = false ∨ LED_COUNT_WS ≤ m := by
      rw [Bool.and_eq_false_iff, decide_eq_false_iff_not, Nat.not_lt]
    simp [spiHit, SpiWritten, hin, pixelAt, hm, hroute]
  · rw [if_neg hin, if_neg fun hwritten => hin hwritten.1]

/-- What a frame leaves in the LED words of the SPI: its triples, and the old word where it has
none. -/
theorem readFrame_spiWord {dm : DataModel} {received : Nat} {ledsInChannel : Vector UInt16 6}
    {wsOut : WsOut} {spiOut : SpiOut} {f : Frame} (hready : spiOut.Ready)
    (h : readFrame dm isWS message received ledsInChannel wsOut spiOut = .ok f)
    (hm : m ≤ LED_COUNT_SPI) :
    f.pixels.spiOut.word k (m + 1) =
      if SpiWritten isWS f.header.leds f.header.channels
        (LmListener.totalLedsNum dm received f.header.headerByteOffset) k m
      then (pixelAt message f.header.headerByteOffset k (chanOffset f.header.leds k)
        (chanOffset f.header.leds k + m)).spiColour
      else spiOut.word k (m + 1) := by
  rw [(readFrame_reflects hready h).word, (readFrame_writes h).2, Header.pixels, lastSome_spiHit hm]
  split
  next => rfl
  next => rfl

/-- The words of the SPI that no frame reaches: the start frame, and those behind the first word
after the LEDs. -/
theorem readFrame_spiWord_other {dm : DataModel} {received : Nat}
    {ledsInChannel : Vector UInt16 6} {wsOut : WsOut} {spiOut : SpiOut} {f : Frame}
    (hready : spiOut.Ready)
    (h : readFrame dm isWS message received ledsInChannel wsOut spiOut = .ok f) {i : Nat}
    (hi : i = 0 ∨ LED_COUNT_SPI + 1 < i) : f.pixels.spiOut.word k i = spiOut.word k i := by
  have hnone : lastSome (spiHit k i) f.pixels.writes = none := by
    rw [lastSome_eq_none_iff]
    intro w _
    exact if_neg (by omega)
  rw [(readFrame_reflects hready h).word, hnone]
  rfl

def Pixel.wsColour (p : Pixel) : UInt32 := LmListener.wsColour p.red p.green p.blue

/-- The payload has a triple for LED `m` of channel `k`, and its load sends it to the WS array. -/
def WsWritten (isWS : Nat → Bool) (leds : Nat → Nat) (chanCntr totalLedsNum k m : Nat) : Prop :=
  ((k < chanCntr ∧ m < leds k) ∧ chanOffset leds k + m < totalLedsNum) ∧
    (isWS (1 + (chanOffset leds k + m)) = true ∧ m < LED_COUNT_WS)

instance : Decidable (WsWritten isWS leds chanCntr totalLedsNum k m) :=
  inferInstanceAs (Decidable (_ ∧ _))

theorem WsWritten.congr {leds' : Nat → Nat} (h : ∀ c < chanCntr, leds c = leds' c) :
    WsWritten isWS leds chanCntr totalLedsNum k m ↔
      WsWritten isWS leds' chanCntr totalLedsNum k m := by
  unfold WsWritten
  by_cases hk : k < chanCntr
  · rw [h k hk, chanOffset_congr fun c hc => h c (by omega)]
  · simp [hk]

/-- What a frame leaves in the WS arrays. -/
theorem readFrame_wsLed {dm : DataModel} {received : Nat} {ledsInChannel : Vector UInt16 6}
    {wsOut : WsOut} {spiOut : SpiOut} {f : Frame} (hready : spiOut.Ready)
    (h : readFrame dm isWS message received ledsInChannel wsOut spiOut = .ok f) :
    wsLed f.pixels.wsOut k m =
      if WsWritten isWS f.header.leds f.header.channels
        (LmListener.totalLedsNum dm received f.header.headerByteOffset) k m
      then (pixelAt message f.header.headerByteOffset k (chanOffset f.header.leds k)
        (chanOffset f.header.leds k + m)).wsColour
      else wsLed wsOut k m := by
  have hits : ∀ w, wsHit k m w ≠ none → w.pixel.chan = k ∧ w.pixel.index = m := by
    intro w hhit
    exact (of_not_not fun hno => hhit (if_neg hno)).2
  rw [(readFrame_reflects hready h).led, (readFrame_writes h).2, Header.pixels, lastSome_route hits]
  split
  next hin =>
    simp only [wsHit, WsWritten, hin, pixelAt, Nat.add_sub_cancel_left, and_true, true_and,
      Bool.and_eq_true, decide_eq_true_eq, Pixel.wsColour]
    split <;> rfl
  next hin =>
    rw [if_neg fun hwritten => hin hwritten.1]
    rfl

end LmListener
