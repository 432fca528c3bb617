import LmListener.OneOutput
import LmListener.SpiTransmission
import LmListener.Strip

namespace LmListener

open Checked CTypes Latest Runs

/-- LED `j` of the strip of a kind at connector `k` of the shield, when it has shown anything. -/
abbrev Lights := Bool → Nat → Nat → Option Rgb

/-- The shield behind the outputs of the program. -/
structure Shield where
  pins : Nat → Bool
  lights : Lights

/-- The switch of a connector: LOW lets the WS signal through, HIGH the SPI. -/
def switchPin (k : Nat) : Nat := if k = 0 then PIN_SWITCH_1 else PIN_SWITCH_2

def wsRgb (colour : UInt32) : Rgb :=
  ⟨(colour >>> 16).toUInt8, (colour >>> 8).toUInt8, colour.toUInt8⟩

def Shield.render (s : Shield) (wsOut : WsOut) : Lights := fun isWS k j =>
  if isWS = true ∧ (k < MAX_CHANNELS ∧ j < LED_COUNT_WS) ∧ s.pins (switchPin k) = false
  then some (wsRgb (wsLed wsOut k j)) else s.lights isWS k j

/-- The connector that gets the SPI, when its own switch lets it through. -/
def Shield.spiConnector (s : Shield) : Nat := if s.pins PIN_SWITCH_SPI then 0 else 1

def Shield.transfer (s : Shield) (bytes : List UInt8) : Lights := fun isWS k j =>
  if isWS = false ∧ k = s.spiConnector ∧ s.pins (switchPin k) = true
  then (stripReads bytes)[j]?.or (s.lights isWS k j) else s.lights isWS k j

def Shield.take (s : Shield) : Output → Shield
  | .digitalWrite pin high => { s with pins := Function.update s.pins pin high }
  | .render wsOut => { s with lights := s.render wsOut }
  | .writeAll _ bytes => { s with lights := s.transfer bytes }
  | .pinMode _ | .sleepFor _ => s

def Shield.takeAll (s : Shield) (outputs : List Output) : Shield := outputs.foldl Shield.take s

theorem Shield.takeAll_append (s : Shield) (outputs more : List Output) :
    s.takeAll (outputs ++ more) = (s.takeAll outputs).takeAll more :=
  List.foldl_append

theorem Shield.takeAll_concat (s : Shield) (outputs : List Output) (o : Output) :
    s.takeAll (outputs ++ [o]) = (s.takeAll outputs).take o :=
  s.takeAll_append outputs [o]

theorem Shield.take_pins (s : Shield) (o : Output) (pin : Nat) :
    (s.take o).pins pin = (level pin o).getD (s.pins pin) := by
  cases o with
  | digitalWrite p high =>
    by_cases hp : p = pin
    · simp [Shield.take, level, hp]
    · simp [Shield.take, level, hp, Function.update_of_ne (Ne.symm hp)]
  | pinMode | sleepFor | render | writeAll => rfl

/-- The pins of the shield are the levels the model of `main` keeps. -/
theorem Shield.takeAll_pins (s : Shield) (outputs : List Output) :
    (s.takeAll outputs).pins = levelAfter s.pins outputs := by
  funext pin
  induction outputs using List.reverseRecOn with
  | nil => rfl
  | append_singleton outputs o ih =>
    rw [s.takeAll_concat, Shield.take_pins, ih, levelAfter, levelAfter, lastSome_concat]
    cases level pin o <;> rfl

theorem Shield.takeAll_dark {s : Shield} {outputs : List Output}
    (h : ∀ o ∈ outputs, o.sink = none) : (s.takeAll outputs).lights = s.lights := by
  induction outputs using List.reverseRecOn with
  | nil => rfl
  | append_singleton outputs o ih =>
    have ho := h o (by simp)
    rw [s.takeAll_concat, ← ih fun o' ho' => h o' (by simp [ho'])]
    cases o with
    | digitalWrite | pinMode | sleepFor => rfl
    | render | writeAll => cases ho

/-- A render with both switches at LOW. -/
theorem Shield.take_render {s : Shield} (hpins : ShieldFor s.pins true) (wsOut : WsOut)
    (isWS : Bool) (k j : Nat) :
    (s.take (.render wsOut)).lights isWS k j =
      if isWS = true ∧ k < MAX_CHANNELS ∧ j < LED_COUNT_WS then some (wsRgb (wsLed wsOut k j))
      else s.lights isWS k j := by
  have hlow : s.pins (switchPin k) = false := by
    unfold switchPin
    split
    · exact hpins.1
    · exact hpins.2
  simp only [Shield.take, Shield.render, hlow, and_true]

/-- The colours a strip takes from the transmission of `n` LEDs of a channel. -/
def shownWords (spiOut : SpiOut) (k n : Nat) : List Rgb :=
  (((List.range n).map fun j => spiOut.word k (j + 1)).takeWhile Sk9822Color.Lit).map
    Sk9822Color.rgb

/-- With both switches at HIGH each transmission reaches the strip of its own channel. -/
theorem Shield.takeAll_transmission {s : Shield} (hpins : ShieldFor s.pins false)
    (spiOut : SpiOut) {k : Nat} (hk : k < MAX_CHANNELS) (n : Nat) (isWS : Bool) (c j : Nat) :
    (s.takeAll (transmission spiOut k n)).lights isWS c j =
      if isWS = false ∧ c = k then (shownWords spiOut k n)[j]?.or (s.lights isWS c j)
      else s.lights isWS c j := by
  have hread : stripReads (stream ((List.range n).map fun j => spiOut.word k (j + 1))) =
      shownWords spiOut k n := stripReads_stream _
  have hhigh : ∀ c, (s.take (.digitalWrite PIN_SWITCH_SPI (k == 0))).pins (switchPin c) =
      true := by
    intro c
    rw [Shield.take_pins]
    unfold switchPin
    split
    · exact hpins.1
    · exact hpins.2
  have hconnector : (s.take (.digitalWrite PIN_SWITCH_SPI (k == 0))).spiConnector = k := by
    unfold MAX_CHANNELS at hk
    unfold Shield.spiConnector
    rw [Shield.take_pins]
    obtain rfl | rfl : k = 0 ∨ k = 1 := by omega
    · rfl
    · rfl
  have htransfer : (s.takeAll (transmission spiOut k n)).lights =
      (s.take (.digitalWrite PIN_SWITCH_SPI (k == 0))).transfer
        (stream ((List.range n).map fun j => spiOut.word k (j + 1))) := rfl
  rw [htransfer, Shield.transfer, hread, hconnector]
  simp only [hhigh, and_true]
  rfl

/-- The output loop over the channels of a frame. -/
theorem Shield.takeAll_transmissions {s : Shield} (hpins : ShieldFor s.pins false)
    (spiOut : SpiOut) (leds : Nat → Nat) {n : Nat} (hn : n ≤ MAX_CHANNELS) :
    ShieldFor (s.takeAll (transmissions spiOut leds n)).pins false ∧
      ∀ isWS c j, (s.takeAll (transmissions spiOut leds n)).lights isWS c j =
        if isWS = false ∧ c < n then (shownWords spiOut c (leds c))[j]?.or (s.lights isWS c j)
        else s.lights isWS c j := by
  induction n with
  | zero => exact ⟨hpins, fun isWS c j => by simp [transmissions, Shield.takeAll]⟩
  | succ k ih =>
    obtain ⟨hk, hlights⟩ := ih (by omega)
    rw [transmissions_succ, s.takeAll_append]
    by_cases hz : leds k = 0
    · rw [if_pos hz]
      refine ⟨hk, fun isWS c j => (hlights isWS c j).trans ?_⟩
      by_cases hc : c = k
      · simp [hc, hz, shownWords]
      · simp [show c < k + 1 ↔ c < k by omega]
    · rw [if_neg hz]
      constructor
      · rw [Shield.takeAll_pins]
        exact hk
      · intro isWS c j
        rw [Shield.takeAll_transmission hk spiOut (by omega), hlights]
        by_cases hc : c = k
        · simp [hc]
        · simp [hc, show c < k + 1 ↔ c < k by omega]

theorem transmit_mono {dev : Device} {fuel fuel' calls : Nat} {outputs sent : List Output}
    (h : transmit dev fuel calls outputs = some sent) (hle : fuel ≤ fuel') :
    transmit dev fuel' calls outputs = some sent := by
  induction outputs generalizing calls sent with
  | nil => exact h
  | cons output outputs ih =>
    cases output with
    | writeAll fd bytes =>
      obtain ⟨⟨result, w⟩, hw, hrest⟩ := Option.bind_eq_some_iff.mp h
      obtain ⟨rest, hr, hsent⟩ := Option.bind_eq_some_iff.mp hrest
      exact Option.bind_eq_some_iff.mpr ⟨(result, w), writeAllFuel_mono hw hle,
        Option.bind_eq_some_iff.mpr ⟨rest, ih hr, hsent⟩⟩
    | pinMode | digitalWrite | sleepFor | render =>
      obtain ⟨rest, hr, hsent⟩ := Option.bind_eq_some_iff.mp h
      exact Option.bind_eq_some_iff.mpr ⟨rest, ih hr, hsent⟩

/-- A device that accepts all bytes transmits the outputs as they are, if `write_all` ends. -/
theorem transmit_accepts {dev : Device} (hdev : dev.AcceptsAll) {fuel calls : Nat}
    {outputs sent : List Output} (h : transmit dev fuel calls outputs = some sent) :
    sent = outputs := by
  obtain ⟨enough, hall⟩ := transmit_eq hdev calls outputs
  have hsent := transmit_mono h (Nat.le_max_left fuel enough)
  rw [hall _ (Nat.le_max_right fuel enough)] at hsent
  exact (Option.some.inj hsent).symm

end LmListener
