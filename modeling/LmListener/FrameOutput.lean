import LmListener.PixelWrites

namespace LmListener

open Checked CTypes Latest

def PIN_SWITCH_1 : Nat := 5
def PIN_SWITCH_2 : Nat := 6
def PIN_SWITCH_SPI : Nat := 24

/-- What the listener does to its hardware, in the order it does it. -/
inductive Output
  | pinMode (pin : Nat)
  | digitalWrite (pin : Nat) (high : Bool)
  | sleepFor (microseconds : Nat)
  | render (wsOut : WsOut)
  | writeAll (fd : Int32) (bytes : List UInt8)

def level (pin : Nat) : Output → Option Bool
  | .digitalWrite p high => if p = pin then some high else none
  | _ => none

def levelAfter (pins : Nat → Bool) (outputs : List Output) (pin : Nat) : Bool :=
  (lastSome (level pin) outputs).getD (pins pin)

def gpioSwitches : List (Nat × Bool) :=
  [(PIN_SWITCH_1, false), (PIN_SWITCH_2, false), (PIN_SWITCH_SPI, true)]

def initGPIO : List Output :=
  gpioSwitches.flatMap fun gpio => [.pinMode gpio.1, .digitalWrite gpio.1 gpio.2]

structure GpioOutSwitcher where
  m_isWs : Bool

def GpioOutSwitcher.switchWsOut (g : GpioOutSwitcher) (isWS : Bool) :
    GpioOutSwitcher × List Output :=
  if g.m_isWs = isWS then (g, [])
  else (⟨isWS⟩, [.digitalWrite PIN_SWITCH_1 (!isWS), .digitalWrite PIN_SWITCH_2 (!isWS),
    .sleepFor 500000])

def GpioOutSwitcher.new : GpioOutSwitcher × List Output :=
  GpioOutSwitcher.switchWsOut ⟨false⟩ true

def sendStep (dm : DataModel) (ledsInChannel : Vector UInt16 6) (curChannel : Nat)
    (s : SpiOut × List Output) : Except Fault (SpiOut × List Output) := do
  let leds ← loadAt .ledsInChannel ledsInChannel curChannel
  if leds.toNat = 0 then return s
  let (spiOut, bytes) ← s.1.send dm curChannel leds.toNat
  return (spiOut,
    s.2 ++ [.digitalWrite PIN_SWITCH_SPI (curChannel == 0), .writeAll spiOut.fd bytes])

def sendFrame (dm : DataModel) (ledsInChannel : Vector UInt16 6) (chanCntr maxLedsInChan : Nat)
    (spiOut : SpiOut) : Except Fault (SpiOut × List Output) := do
  let (spiOut, outputs) ← forLoop (sendStep dm ledsInChannel) chanCntr 0 (spiOut, [])
  return (spiOut, outputs ++ [.sleepFor maxLedsInChan])

def transmission (spiOut : SpiOut) (chan n : Nat) : List Output :=
  [.digitalWrite PIN_SWITCH_SPI (chan == 0),
    .writeAll spiOut.fd (stream ((List.range n).map fun j => spiOut.word chan (j + 1)))]

def transmissions (spiOut : SpiOut) (leds : Nat → Nat) (chanCntr : Nat) : List Output :=
  (List.range chanCntr).flatMap fun k => if leds k = 0 then [] else transmission spiOut k (leds k)

theorem transmissions_succ (spiOut : SpiOut) (leds : Nat → Nat) (k : Nat) :
    transmissions spiOut leds (k + 1) =
      transmissions spiOut leds k ++ if leds k = 0 then [] else transmission spiOut k (leds k) := by
  simp [transmissions, List.range_succ]

theorem levelAfter_append (pins : Nat → Bool) (outputs more : List Output) :
    levelAfter pins (outputs ++ more) = levelAfter (levelAfter pins outputs) more := by
  funext pin
  induction more using List.reverseRecOn with
  | nil => simp [levelAfter]
  | append_singleton more o ih =>
    unfold levelAfter at ih ⊢
    rw [← List.append_assoc, lastSome_concat, lastSome_concat]
    cases level pin o with
    | none => simpa using ih
    | some high => rfl

theorem levelAfter_of_forall {pins : Nat → Bool} {outputs : List Output} {pin : Nat}
    (h : ∀ o ∈ outputs, level pin o = none) : levelAfter pins outputs pin = pins pin := by
  rw [levelAfter, lastSome_eq_none_iff.mpr h]
  rfl

theorem send_bounds (dm : DataModel) (ledsInChannel : Vector UInt16 6) (k : Nat) :
    ledsOfChannel ledsInChannel k < 2 ^ 31 ∧
      wordsFor (ledsOfChannel ledsInChannel k) * 4 < 2 ^ dm.sizeBits := by
  have : ledsOfChannel ledsInChannel k < 2 ^ 16 := (cell ledsInChannel k).toNat_lt
  have := dm.two_pow_le
  unfold wordsFor
  omega

theorem wordsFor_le_iff {n : Nat} : wordsFor n ≤ wordsFor LED_COUNT_SPI ↔ n ≤ LED_COUNT_SPI := by
  refine ⟨fun h => ?_, wordsFor_mono⟩
  by_contra hn
  have hm := wordsFor_mono (Nat.lt_of_not_le hn)
  have hlt : wordsFor LED_COUNT_SPI < wordsFor LED_COUNT_SPI.succ := by decide
  omega

theorem SpiOut.Ready.of_shape {s t : SpiOut} (h : s.Ready) (ht : t.shape = s.shape) : t.Ready :=
  ht.trans h

/-- The words of a channel after the output loop has been there for `n` LEDs. -/
def afterSend (n : Nat) (word : Nat → Sk9822Color) (i : Nat) : Sk9822Color :=
  if n = 0 then word i
  else if i = 0 then startFrame
  else if n < i ∧ i < wordsFor n then endFrame
  else word i

theorem sendStep_ok (dm : DataModel) {ledsInChannel : Vector UInt16 6} {k : Nat}
    {s : SpiOut × List Output} (hready : s.1.Ready) (hk : k < MAX_CHANNELS)
    (hle : ledsOfChannel ledsInChannel k ≤ LED_COUNT_SPI) :
    ∃ spiOut, sendStep dm ledsInChannel k s = .ok (spiOut, s.2 ++
        if ledsOfChannel ledsInChannel k = 0 then []
        else transmission s.1 k (ledsOfChannel ledsInChannel k)) ∧
      spiOut.fd = s.1.fd ∧ spiOut.shape = s.1.shape ∧
      ∀ c i, spiOut.word c i =
        if c = k then afterSend (ledsOfChannel ledsInChannel k) (s.1.word k) i
        else s.1.word c i := by
  have hleds : (cell ledsInChannel k).toNat = ledsOfChannel ledsInChannel k := rfl
  obtain ⟨h31, hsize⟩ := send_bounds dm ledsInChannel k
  rw [sendStep, loadAt_of_lt (by unfold MAX_CHANNELS at hk; omega), bind_ok, hleds]
  by_cases hz : ledsOfChannel ledsInChannel k = 0
  · refine ⟨s.1, ?_, rfl, rfl, fun c i => ?_⟩
    · rw [if_pos hz, if_pos hz, List.append_nil]
      rfl
    · rw [afterSend, if_pos hz]
      split
      next hc => rw [hc]
      next => rfl
  · obtain ⟨spiOut, ho, hfd, hsh, hw⟩ := SpiOut.send_spec (hready.channel hk) h31 hsize
      (by rw [Nat.mul_div_cancel _ (by omega)]; exact wordsFor_le_iff.mpr hle)
    refine ⟨spiOut, ?_, hfd, hsh, fun c i => ?_⟩
    · rw [if_neg hz, if_neg hz, ho, bind_ok, transmission, ← hfd]
      rfl
    · rw [hw, afterSend, if_neg hz]
      by_cases hc : c = k
      · simp [hc]
      · simp [hc]

theorem sendStep_fits {dm : DataModel} {ledsInChannel : Vector UInt16 6} {k : Nat}
    {s r : SpiOut × List Output} (hready : s.1.Ready) (hk : k < MAX_CHANNELS)
    (h : sendStep dm ledsInChannel k s = .ok r) :
    ledsOfChannel ledsInChannel k ≤ LED_COUNT_SPI := by
  have hleds : (cell ledsInChannel k).toNat = ledsOfChannel ledsInChannel k := rfl
  obtain ⟨h31, hsize⟩ := send_bounds dm ledsInChannel k
  rw [sendStep, loadAt_of_lt (by unfold MAX_CHANNELS at hk; omega), bind_ok, hleds] at h
  by_cases hz : ledsOfChannel ledsInChannel k = 0
  · omega
  · rw [if_neg hz] at h
    obtain ⟨p, hp, _⟩ := bind_eq_ok.mp h
    have := SpiOut.send_fits (hready.channel hk) h31 hsize hp
    rw [Nat.mul_div_cancel _ (by omega)] at this
    exact wordsFor_le_iff.mp this

theorem sendStep_shape {dm : DataModel} {ledsInChannel : Vector UInt16 6} {k : Nat}
    {s r : SpiOut × List Output} (hready : s.1.Ready) (hk : k < MAX_CHANNELS)
    (h : sendStep dm ledsInChannel k s = .ok r) : r.1.shape = s.1.shape := by
  obtain ⟨spiOut, ho, _, hsh, _⟩ := sendStep_ok dm hready hk (sendStep_fits hready hk h)
  rw [h] at ho
  cases ho
  exact hsh

theorem sendStep_error {dm : DataModel} {ledsInChannel : Vector UInt16 6} {k : Nat}
    {s : SpiOut × List Output} (hready : s.1.Ready) (hk : k < MAX_CHANNELS) {e : Fault}
    (h : sendStep dm ledsInChannel k s = .error e) : ∃ i, e = .spiWord i := by
  rw [sendStep, loadAt_of_lt (by unfold MAX_CHANNELS at hk; omega), bind_ok] at h
  by_cases hz : (cell ledsInChannel k).toNat = 0
  · rw [if_pos hz] at h
    cases h
  · obtain ⟨buf, hb, _⟩ := SpiOut.shape_getElem? (hready.channel hk)
    rw [if_neg hz] at h
    simp only [SpiOut.send, hb] at h
    rcases bind_eq_error.mp h with h | ⟨_, _, h⟩
    · rcases bind_eq_error.mp h with h | ⟨_, _, h⟩
      · exact sendBuffer_error h
      · cases h
    · cases h

section

variable {dm : DataModel} {ledsInChannel : Vector UInt16 6} {chanCntr maxLedsInChan : Nat}
  {spiOut : SpiOut}

/-- Every channel with LEDs is sent once, with the words its buffer had before the loop. -/
theorem sendFrame_ok (dm : DataModel) (maxLedsInChan : Nat) (hready : spiOut.Ready)
    (hc : chanCntr ≤ MAX_CHANNELS)
    (hle : ∀ k < chanCntr, ledsOfChannel ledsInChannel k ≤ LED_COUNT_SPI) :
    ∃ spiOut', sendFrame dm ledsInChannel chanCntr maxLedsInChan spiOut =
        .ok (spiOut', transmissions spiOut (ledsOfChannel ledsInChannel) chanCntr ++
          [.sleepFor maxLedsInChan]) ∧
      spiOut'.fd = spiOut.fd ∧ spiOut'.shape = spiOut.shape ∧
      ∀ c i, spiOut'.word c i = if c < chanCntr
        then afterSend (ledsOfChannel ledsInChannel c) (spiOut.word c) i
        else spiOut.word c i := by
  let inv (k : Nat) (s : SpiOut × List Output) : Prop :=
    s.1.fd = spiOut.fd ∧ s.1.shape = spiOut.shape ∧
      s.2 = transmissions spiOut (ledsOfChannel ledsInChannel) k ∧
      ∀ c i, s.1.word c i = if c < k
        then afterSend (ledsOfChannel ledsInChannel c) (spiOut.word c) i
        else spiOut.word c i
  have step : ∀ k s, 0 ≤ k → k < 0 + chanCntr → inv k s →
      ∃ s', sendStep dm ledsInChannel k s = .ok s' ∧ inv (k + 1) s' := by
    intro k s _ hk hinv
    obtain ⟨hfd, hsh, hout, hw⟩ := hinv
    have hk' : k < chanCntr := by omega
    obtain ⟨t, ho, hfd', hsh', hw'⟩ := sendStep_ok dm (hready.of_shape hsh)
      (lt_of_lt_of_le hk' hc) (hle k hk')
    have hown : ∀ i, s.1.word k i = spiOut.word k i := fun i => by
      rw [hw, if_neg (Nat.lt_irrefl k)]
    have hsame : transmission s.1 k (ledsOfChannel ledsInChannel k) =
        transmission spiOut k (ledsOfChannel ledsInChannel k) := by
      simp [transmission, hfd, hown]
    rw [hsame, hout, ← transmissions_succ] at ho
    refine ⟨_, ho, hfd'.trans hfd, hsh'.trans hsh, rfl, fun c i => ?_⟩
    rw [hw', funext hown, hw]
    rcases Nat.lt_trichotomy c k with hlt | rfl | hgt
    · rw [if_neg (by omega), if_pos hlt, if_pos (by omega)]
    · rw [if_pos rfl, if_pos (by omega)]
    · rw [if_neg (by omega), if_neg (by omega), if_neg (by omega)]
  obtain ⟨⟨t, outs⟩, ho, hfd, hsh, hout, hw⟩ :=
    forLoop_ok (s := (spiOut, [])) inv ⟨rfl, rfl, rfl, fun c i => by simp⟩ step
  rw [Nat.zero_add] at hout hw
  subst hout
  exact ⟨t, by rw [sendFrame, ho]; rfl, hfd, hsh, hw⟩

theorem sendFrame_fits (hready : spiOut.Ready) (hc : chanCntr ≤ MAX_CHANNELS)
    {r : SpiOut × List Output}
    (h : sendFrame dm ledsInChannel chanCntr maxLedsInChan spiOut = .ok r) :
    ∀ k < chanCntr, ledsOfChannel ledsInChannel k ≤ LED_COUNT_SPI := by
  obtain ⟨t, hl, _⟩ := bind_eq_ok.mp h
  have := forLoop_inv hl
    (fun k s => s.1.shape = spiOut.shape ∧
      ∀ j < k, ledsOfChannel ledsInChannel j ≤ LED_COUNT_SPI)
    ⟨rfl, by simp⟩ ?_
  · simpa using this.2
  intro k s s' _ hk ho hinv
  obtain ⟨hsh, hle⟩ := hinv
  have hk' : k < chanCntr := by omega
  have hready' := hready.of_shape hsh
  have hk₂ : k < MAX_CHANNELS := lt_of_lt_of_le hk' hc
  refine ⟨(sendStep_shape hready' hk₂ ho).trans hsh, fun j hj => ?_⟩
  rcases Nat.lt_succ_iff_lt_or_eq.mp hj with hj | rfl
  · exact hle j hj
  · exact sendStep_fits hready' hk₂ ho

end

theorem sendFrame_error {dm : DataModel} {ledsInChannel : Vector UInt16 6}
    {chanCntr maxLedsInChan : Nat} {spiOut : SpiOut} (hready : spiOut.Ready)
    (hc : chanCntr ≤ MAX_CHANNELS) {e : Fault}
    (h : sendFrame dm ledsInChannel chanCntr maxLedsInChan spiOut = .error e) :
    ∃ k, e = .spiWord k := by
  rcases bind_eq_error.mp h with h | ⟨_, _, h⟩
  · obtain ⟨k, s, _, hk, hsh, he⟩ := forLoop_error h (fun s => s.1.shape = spiOut.shape) rfl
      (fun k s s' _ hk ho hsh => (sendStep_shape (hready.of_shape hsh) (by omega) ho).trans hsh)
    exact sendStep_error (hready.of_shape hsh) (by omega) he
  · cases h

end LmListener
