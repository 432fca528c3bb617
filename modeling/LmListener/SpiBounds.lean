import LmListener.SpiHistory

namespace LmListener

open Checked CTypes Latest

/-- Channels added one after the other, each with its capacity and what `malloc` leaves in its
block. -/
def SpiOut.addChannels (dm : DataModel) (s : SpiOut)
    (channels : List (Nat × (Nat → Sk9822Color))) : SpiOut :=
  channels.foldl (fun s channel => (s.addChannel dm channel.1 (some channel.2)).2) s

/-- A call the listener may make: for a channel that exists, any index, or a send within its
capacity. -/
def SpiOp.Accepted (shape : List (Nat × Nat)) : SpiOp → Prop
  | .writeLed chan _ _ _ _ => chan < shape.length
  | .send chan n => ∃ p, shape[chan]? = some p ∧ n ≤ p.1

theorem SpiOut.addChannels_shape {dm : DataModel} (s : SpiOut)
    {channels : List (Nat × (Nat → Sk9822Color))} (h : ∀ channel ∈ channels, channel.1 < 2 ^ 29) :
    (s.addChannels dm channels).shape =
      s.shape ++ channels.map fun channel => (channel.1, wordsFor channel.1 * 4) := by
  induction channels generalizing s with
  | nil => simp [SpiOut.addChannels]
  | cons channel channels ih =>
    have hrest := ih (s.addChannel dm channel.1 (some channel.2)).2 fun c hc => h c (by simp [hc])
    rw [SpiOut.addChannel_shape dm s (h channel (by simp))] at hrest
    simpa [SpiOut.addChannels] using hrest

theorem SpiOut.addChannels_covered (dm : DataModel) (fd : Int32)
    {channels : List (Nat × (Nat → Sk9822Color))} (h : ∀ channel ∈ channels, channel.1 < 2 ^ 29) :
    (SpiOut.addChannels dm ⟨fd, []⟩ channels).Covered dm := by
  intro p hp
  rw [SpiOut.addChannels_shape _ h, SpiOut.shape, List.map_nil, List.nil_append] at hp
  obtain ⟨channel, hc, rfl⟩ := List.mem_map.mp hp
  have hlt := h channel hc
  exact ⟨by simp only; omega, wordsFor_size_lt dm hlt, Nat.le_refl _⟩

theorem SpiOut.apply_accepted {dm : DataModel} {s : SpiOut} (hcov : s.Covered dm) {op : SpiOp}
    (hop : op.Accepted s.shape) : ∃ s', s.apply dm op = .ok s' ∧ s'.shape = s.shape := by
  cases op with
  | writeLed chan index red green blue =>
    have hp : s.shape[chan]? = some s.shape[chan] := List.getElem?_eq_getElem hop
    have hroom := (hcov _ (List.mem_of_getElem? hp)).send_bounds (Nat.le_refl _)
    obtain ⟨s', ho, _, hsh, _⟩ := SpiOut.writeLed_spec hp hroom.2.2 index red green blue
    exact ⟨s', ho, hsh⟩
  | send chan n =>
    obtain ⟨p, hp, hn⟩ := hop
    obtain ⟨h31, hsize, hroom⟩ := (hcov p (List.mem_of_getElem? hp)).send_bounds hn
    obtain ⟨s', ho, _, hsh, _⟩ := SpiOut.send_spec hp h31 hsize hroom
    exact ⟨s', by simp only [SpiOut.apply, ho]; rfl, hsh⟩

/-- On channels of fewer than 2^29 LEDs no sequence of writes and sends leaves the allocation. -/
theorem spi_ops_inRange {dm : DataModel} (fd : Int32)
    {channels : List (Nat × (Nat → Sk9822Color))} (h : ∀ channel ∈ channels, channel.1 < 2 ^ 29)
    {ops : List SpiOp}
    (hops : ∀ op ∈ ops, op.Accepted (SpiOut.addChannels dm ⟨fd, []⟩ channels).shape) :
    (SpiOut.addChannels dm ⟨fd, []⟩ channels).shape =
        channels.map (fun channel => (channel.1, (channel.1 + 3 + (channel.1 - 1) / 64) * 4)) ∧
      ∃ s, (SpiOut.addChannels dm ⟨fd, []⟩ channels).run dm ops = .ok s := by
  have hcov := SpiOut.addChannels_covered dm fd h
  refine ⟨SpiOut.addChannels_shape _ h, ?_⟩
  generalize SpiOut.addChannels dm ⟨fd, []⟩ channels = s at hops hcov
  induction ops generalizing s with
  | nil => exact ⟨s, rfl⟩
  | cons op ops ih =>
    obtain ⟨t, ht, hsh⟩ := SpiOut.apply_accepted hcov (hops op (by simp))
    have hcov' : t.Covered dm := fun p hp => hcov p (hsh ▸ hp)
    obtain ⟨u, hu⟩ := ih t (fun op' hop' => hsh ▸ hops op' (by simp [hop'])) hcov'
    exact ⟨u, bind_eq_ok.mpr ⟨t, ht, hu⟩⟩

/-- Writes at the guard and sends of nothing, on a channel without LEDs. -/
theorem spi_ops_inRange_empty_channel :
    ∃ s, (SpiOut.addChannels lp64 ⟨3, []⟩ [(0, fun _ => default)]).run lp64
      [.writeLed 0 0 9 8 7, .send 0 0, .writeLed 0 5 9 8 7] = .ok s := by
  have h : ∀ channel ∈ [((0 : Nat), fun (_ : Nat) => (default : Sk9822Color))],
      channel.1 < 2 ^ 29 := by simp
  refine (spi_ops_inRange 3 h ?_).2
  rw [SpiOut.addChannels_shape _ h]
  simp [SpiOp.Accepted, SpiOut.shape]

def SpiOut.HasLed (s : SpiOut) (chan index : Nat) : Prop :=
  ∃ buf, s.buffers[chan]? = some buf ∧ index < buf.leds

/-- A LED that exists takes the colour and all else stays; without one the call does nothing,
whatever the colour. -/
def SpiOut.WritesExactly (s : SpiOut) (chan index : Nat) : Prop :=
  (s.HasLed chan index → ∀ red green blue, ∃ s',
    s.writeLed chan index red green blue = .ok s' ∧ s'.fd = s.fd ∧ s'.shape = s.shape ∧
      ∀ c i, s'.word c i =
        if c = chan ∧ i = index + 1 then ⟨0xff, blue, green, red⟩ else s.word c i) ∧
  (¬s.HasLed chan index → ∀ red green blue, s.writeLed chan index red green blue = .ok s)

section

variable {s : SpiOut} {chan index : Nat}

theorem SpiOut.hasLed_iff {buf : Sk9822Buffer} (hb : s.buffers[chan]? = some buf) :
    s.HasLed chan index ↔ index < buf.leds := by
  refine ⟨fun h => ?_, fun h => ⟨buf, hb, h⟩⟩
  obtain ⟨buf', hb', h⟩ := h
  rw [hb] at hb'
  cases hb'
  exact h

theorem SpiOut.not_hasLed {s : SpiOut} (hb : s.buffers[chan]? = none) : ¬s.HasLed chan index := by
  intro h
  obtain ⟨buf, hb', _⟩ := h
  rw [hb] at hb'
  cases hb'

/-- The word behind the last LED passes the guard. -/
theorem SpiOut.WritesExactly.index_ne (h : s.WritesExactly chan index) {buf : Sk9822Buffer}
    (hb : s.buffers[chan]? = some buf) : index ≠ buf.leds := by
  intro he
  have hsame := h.2 fun hled => absurd ((SpiOut.hasLed_iff hb).mp hled) (by omega)
  rcases Nat.lt_or_ge (index + 1) (buf.size / 4) with hroom | hroom
  · have hword : ∀ red, s.word chan (index + 1) = ⟨255, 0, 0, red⟩ := by
      intro red
      obtain ⟨s', ho, _, _, hw⟩ := SpiOut.writeLed_room hb (fun _ => hroom) red 0 0
      obtain rfl := Except.ok.inj ((hsame red 0 0).symm.trans ho)
      rw [hw, if_pos ⟨rfl, rfl, Nat.le_of_eq he⟩]
    have hred := congrArg Sk9822Color.r ((hword 0).symm.trans (hword 1))
    exact absurd hred (by decide)
  · have hfault := hsame 0 0 0
    rw [SpiOut.writeLed_faults hb (Nat.le_of_eq he) hroom] at hfault
    cases hfault

theorem SpiOut.WritesExactly.room (h : s.WritesExactly chan index) {buf : Sk9822Buffer}
    (hb : s.buffers[chan]? = some buf) (hlt : index < buf.leds) : index + 1 < buf.size / 4 := by
  by_contra hroom
  obtain ⟨s', ho, _⟩ := h.1 ((SpiOut.hasLed_iff hb).mpr hlt) 0 0 0
  rw [SpiOut.writeLed_faults hb (Nat.le_of_lt hlt) (Nat.le_of_not_lt hroom)] at ho
  cases ho

theorem SpiOut.WritesExactly.chan_ne (h : s.WritesExactly chan index) :
    chan ≠ s.buffers.length := by
  intro he
  have hb : s.buffers[chan]? = none := List.getElem?_eq_none (Nat.le_of_eq he.symm)
  have hsame := h.2 (SpiOut.not_hasLed hb) 0 0 0
  simp only [SpiOut.writeLed, show ¬chan > s.buffers.length by omega, hb, if_false] at hsame
  cases hsame

/-- `writeLed` accepts exactly the LEDs that exist, except at the two boundaries its guard is off
by one: the channel behind the last, and the index behind the last LED. -/
theorem write_led_exact_iff (s : SpiOut) (chan index : Nat) :
    s.WritesExactly chan index ↔ chan ≠ s.buffers.length ∧
      ∀ buf, s.buffers[chan]? = some buf →
        index ≠ buf.leds ∧ (index < buf.leds → index + 1 < buf.size / 4) := by
  refine ⟨fun h => ⟨h.chan_ne, fun buf hb => ⟨h.index_ne hb, h.room hb⟩⟩, fun h => ?_⟩
  obtain ⟨hchan, hindex⟩ := h
  cases hb : s.buffers[chan]? with
  | none =>
    have hlen := List.getElem?_eq_none_iff.mp hb
    refine ⟨fun hled => absurd hled (SpiOut.not_hasLed hb), fun _ red green blue => ?_⟩
    rw [SpiOut.writeLed, if_pos (by omega)]
  | some buf =>
    obtain ⟨hne, hroom⟩ := hindex buf hb
    constructor
    · intro hled red green blue
      have hlt := (SpiOut.hasLed_iff hb).mp hled
      obtain ⟨s', ho, hfd, hsh, hw⟩ :=
        SpiOut.writeLed_room hb (fun _ => hroom hlt) red green blue
      refine ⟨s', ho, hfd, hsh, fun c i => ?_⟩
      rw [hw]
      simp only [Nat.le_of_lt hlt, and_true]
    · intro hled red green blue
      obtain ⟨hi, _⟩ := List.getElem?_eq_some_iff.mp hb
      have hge := mt (SpiOut.hasLed_iff hb).mpr hled
      simp only [SpiOut.writeLed, show ¬chan > s.buffers.length by omega, hb,
        show index > buf.leds by omega, if_false, if_true]

end

/-- Channel 1 of one channel is read past the vector; LED 2 of two overwrites an end frame. -/
theorem write_led_off_by_one :
    (twoLeds.writeLed 1 0 9 8 7).map (fun _ => ()) = .error (.spiChannel 1) ∧
    (twoLeds.writeLed 0 2 9 8 7).map (fun s => s.word 0 3) = .ok ⟨255, 7, 8, 9⟩ ∧
    ¬twoLeds.WritesExactly 1 0 ∧ ¬twoLeds.WritesExactly 0 2 := by
  have hlen : twoLeds.buffers.length = 1 := by decide
  refine ⟨by decide, by decide, fun h => h.chan_ne hlen.symm, fun h => ?_⟩
  obtain ⟨buf, hb, hl, _⟩ := SpiOut.shape_getElem?
    (show twoLeds.shape[0]? = some (2, 20) by rw [twoLeds_shape]; rfl)
  exact h.index_ne hb hl.symm

end LmListener
