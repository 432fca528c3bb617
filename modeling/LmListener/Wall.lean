import Mathlib.Data.List.TakeWhile
import LmListener.FrameCodec
import LmListener.FrameOrder
import LmListener.FlagHistory
import LmListener.Shield

namespace LmListener

open Checked CTypes Latest Runs

/-- What a frame asks for: a colour for some LEDs of the strips of one kind. -/
structure Picture where
  isWS : Bool
  colour : Nat → Nat → Option Rgb

/-- The purpose of the program: the strips show, LED by LED, the colours of the frames. A WS strip
is always refreshed whole, from the colours kept for it. -/
structure Wall where
  kept : Nat → Nat → Rgb
  lights : Lights

def Wall.draw (w : Wall) (p : Picture) : Wall :=
  if p.isWS then
    let kept := fun k j => (p.colour k j).getD (w.kept k j)
    ⟨kept, fun isWS k j => if isWS = true ∧ k < MAX_CHANNELS ∧ j < LED_COUNT_WS
      then some (kept k j) else w.lights isWS k j⟩
  else ⟨w.kept, fun isWS k j => if isWS = false then (p.colour k j).or (w.lights isWS k j)
    else w.lights isWS k j⟩

def WallStep (w : Wall) (p : Picture) (w' : Wall) : Prop := w' = w.draw p

def payloadRgb (payload : List UInt8) (i : Nat) : Rgb :=
  ⟨payload.getD (i * 3) 0, payload.getD (i * 3 + 1) 0, payload.getD (i * 3 + 2) 0⟩

/-- The frame has a triple for LED `j` of channel `k`: each of the first two channels takes its
count of them from the payload, one channel after the other. A WS strip has 1000 LEDs. -/
def Colours (isWS : Bool) (counts : List UInt16) (payload : List UInt8) (k j : Nat) : Prop :=
  (k < min counts.length MAX_CHANNELS ∧ j < ledsOfCount counts k) ∧
    chanOffset (ledsOfCount counts) k + j < payload.length / 3 ∧ (isWS = true → j < LED_COUNT_WS)

instance (isWS : Bool) (counts : List UInt16) (payload : List UInt8) (k j : Nat) :
    Decidable (Colours isWS counts payload k j) :=
  inferInstanceAs (Decidable (_ ∧ _))

def pictureOf (isWS : Bool) (counts : List UInt16) (payload : List UInt8) : Picture where
  isWS
  colour k j := if Colours isWS counts payload k j
    then some (payloadRgb payload (chanOffset (ledsOfCount counts) k + j)) else none

theorem pictureOf_some {isWS : Bool} {counts : List UInt16} {payload : List UInt8} {k j : Nat}
    (h : Colours isWS counts payload k j) : (pictureOf isWS counts payload).colour k j =
      some (payloadRgb payload (chanOffset (ledsOfCount counts) k + j)) := if_pos h

theorem pictureOf_none {isWS : Bool} {counts : List UInt16} {payload : List UInt8} {k j : Nat}
    (h : ¬Colours isWS counts payload k j) : (pictureOf isWS counts payload).colour k j = none :=
  if_neg h

theorem wsColour_toNat (red green blue : UInt8) :
    (wsColour red green blue).toNat = red.toNat * 65536 + green.toNat * 256 + blue.toNat := by
  have hr := red.toNat_lt
  have hg := green.toNat_lt
  have hb := blue.toNat_lt
  have hred : (red.toUInt32 <<< 16).toNat = red.toNat <<< 16 := by
    simp [UInt32.toNat_shiftLeft, Nat.shiftLeft_eq]
    omega
  have hgreen : (green.toUInt32 <<< 8).toNat = green.toNat <<< 8 := by
    simp [UInt32.toNat_shiftLeft, Nat.shiftLeft_eq]
    omega
  have hlow : green.toNat <<< 8 ||| blue.toNat = green.toNat * 256 + blue.toNat := by
    rw [← Nat.shiftLeft_add_eq_or_of_lt hb, Nat.shiftLeft_eq]
  have hhigh : red.toNat <<< 16 ||| (green.toNat * 256 + blue.toNat) =
      red.toNat * 65536 + (green.toNat * 256 + blue.toNat) := by
    rw [← Nat.shiftLeft_add_eq_or_of_lt (by omega), Nat.shiftLeft_eq]
  rw [wsColour, UInt32.toNat_or, UInt32.toNat_or, hred, hgreen, UInt8.toNat_toUInt32,
    Nat.or_assoc, hlow, hhigh]
  omega

theorem wsRgb_wsColour (red green blue : UInt8) :
    wsRgb (wsColour red green blue) = ⟨red, green, blue⟩ := by
  have hr := red.toNat_lt
  have hg := green.toNat_lt
  have hb := blue.toNat_lt
  have hcolour := wsColour_toNat red green blue
  rw [wsRgb, Rgb.mk.injEq]
  refine ⟨UInt8.toNat_inj.mp ?_, UInt8.toNat_inj.mp ?_, UInt8.toNat_inj.mp ?_⟩
  · simp [UInt32.toNat_shiftRight, hcolour, Nat.shiftRight_eq_div_pow]
    omega
  · simp [UInt32.toNat_shiftRight, hcolour, Nat.shiftRight_eq_div_pow]
    omega
  · simp [hcolour]
    omega

theorem shownWords_lit {spiOut : SpiOut} {k n : Nat} {colour : Nat → Sk9822Color}
    (h : ∀ j < n, spiOut.word k (j + 1) = colour j) (hlit : ∀ j, (colour j).f = 0xff) :
    shownWords spiOut k n = (List.range n).map fun j => (colour j).rgb := by
  have hwords : (List.range n).map (fun j => spiOut.word k (j + 1)) = (List.range n).map colour :=
    List.map_congr_left fun j hj => h j (List.mem_range.mp hj)
  have hall :
      ((List.range n).map colour).takeWhile Sk9822Color.Lit = (List.range n).map colour := by
    rw [List.takeWhile_eq_self_iff]
    intro c hc
    obtain ⟨j, _, rfl⟩ := List.mem_map.mp hc
    exact decide_eq_true (hlit j)
  rw [shownWords, hwords, hall, List.map_map]
  rfl

section

variable {dm : DataModel} {world : World} {s : MainState} {p : Pass} {counts : List UInt16}
  {payload : List UInt8} {isWS : Bool}

/-- The WS arrays after a frame hold the kept colours of the wall. -/
theorem readFrame_kept (hmax : (frameBytes counts payload).length ≤ MAX_SENDBUFFER_SIZE)
    (hplain : ∀ count ∈ counts, Plain count) (old : Message) {ledsInChannel : Vector UInt16 6}
    {wsOut : WsOut} {spiOut : SpiOut} {f : Frame} (hready : spiOut.Ready)
    (h : readFrame dm (fun _ => isWS) (overlay old (frameBytes counts payload))
      (frameBytes counts payload).length ledsInChannel wsOut spiOut = .ok f) {w : Wall}
    {k j : Nat} (hj : j < LED_COUNT_WS) (hkept : wsRgb (wsLed wsOut k j) = w.kept k j) :
    wsRgb (wsLed f.pixels.wsOut k j) = (w.draw (pictureOf isWS counts payload)).kept k j := by
  rw [readFrame_plain_wsLed hmax hplain old hready h]
  have hcolour := wsRgb_wsColour
    (payload.getD ((chanOffset (ledsOfCount counts) k + j) * 3) 0)
    (payload.getD ((chanOffset (ledsOfCount counts) k + j) * 3 + 1) 0)
    (payload.getD ((chanOffset (ledsOfCount counts) k + j) * 3 + 2) 0)
  have hwritten : WsWritten (fun _ => isWS) (ledsOfCount counts) (min counts.length MAX_CHANNELS)
      (payload.length / 3) k j ↔ ((k < min counts.length MAX_CHANNELS ∧
        j < ledsOfCount counts k) ∧
        chanOffset (ledsOfCount counts) k + j < payload.length / 3) ∧ isWS = true := by
    simp [WsWritten, hj]
  cases isWS with
  | false =>
    rw [if_neg fun hw => Bool.noConfusion (hwritten.mp hw).2]
    exact hkept
  | true =>
    have hdraw : (w.draw (pictureOf true counts payload)).kept k j =
        ((pictureOf true counts payload).colour k j).getD (w.kept k j) := rfl
    rw [hdraw, if_congr hwritten rfl rfl]
    by_cases hin : (k < min counts.length MAX_CHANNELS ∧ j < ledsOfCount counts k) ∧
        chanOffset (ledsOfCount counts) k + j < payload.length / 3
    · rw [if_pos ⟨hin, rfl⟩, pictureOf_some ⟨hin.1, hin.2, fun _ => hj⟩]
      exact hcolour
    · rw [if_neg fun hw => hin hw.1, pictureOf_none fun hc => hin ⟨hc.1, hc.2.1⟩]
      exact hkept

/-- The SPI strips after the transmissions of a frame whose payload is complete. -/
theorem transmissions_draw (hmax : (frameBytes counts payload).length ≤ MAX_SENDBUFFER_SIZE)
    (hplain : ∀ count ∈ counts, Plain count) (old : Message) {ledsInChannel : Vector UInt16 6}
    {wsOut : WsOut} {spiOut : SpiOut} {f : Frame} (hready : spiOut.Ready)
    (h : readFrame dm (fun _ => false) (overlay old (frameBytes counts payload))
      (frameBytes counts payload).length ledsInChannel wsOut spiOut = .ok f)
    (hfits : ∀ k < f.header.channels, f.header.leds k ≤ LED_COUNT_SPI)
    (hfull : chanOffset (ledsOfCount counts) (min counts.length MAX_CHANNELS) ≤
      payload.length / 3) {shield : Shield} (hpins : ShieldFor shield.pins false) {w : Wall}
    (hlights : shield.lights = w.lights) :
    (shield.takeAll (transmissions f.pixels.spiOut f.header.leds f.header.channels)).lights =
      (w.draw (pictureOf false counts payload)).lights := by
  obtain ⟨_, hch, _, hleds⟩ := readFrame_plain hmax hplain old h
  obtain ⟨_, htake⟩ := Shield.takeAll_transmissions hpins f.pixels.spiOut f.header.leds
    f.header.channels_le
  funext b k j
  have hdraw : (w.draw (pictureOf false counts payload)).lights b k j =
      if b = false then ((pictureOf false counts payload).colour k j).or (w.lights b k j)
      else w.lights b k j := rfl
  rw [htake, hdraw, hlights]
  cases b with
  | true => rfl
  | false =>
    rw [if_pos rfl]
    by_cases hk : k < min counts.length MAX_CHANNELS
    · have hleds' := hleds k (by omega)
      have hend : ∀ j < ledsOfCount counts k,
          chanOffset (ledsOfCount counts) k + j < payload.length / 3 := by
        intro j hj
        have hmono := chanOffset_mono (ledsOfCount counts) (show k + 1 ≤ _ from hk)
        rw [chanOffset] at hmono
        omega
      have hword : ∀ j < ledsOfCount counts k, f.pixels.spiOut.word k (j + 1) =
          payloadColour payload (chanOffset (ledsOfCount counts) k + j) := by
        intro j hj
        have hcap := hfits k (by omega)
        rw [readFrame_plain_spiWord hmax hplain old hready h (by omega)]
        exact if_pos ⟨⟨⟨hk, hj⟩, hend j hj⟩, Or.inl rfl⟩
      rw [if_pos ⟨rfl, by omega⟩, hleds', shownWords_lit hword fun _ => rfl, List.getElem?_map]
      by_cases hj : j < ledsOfCount counts k
      · have hin : Colours false counts payload k j :=
          ⟨⟨hk, hj⟩, hend j hj, fun hws => Bool.noConfusion hws⟩
        rw [pictureOf_some hin, List.getElem?_range hj]
        rfl
      · rw [pictureOf_none fun hin => hj hin.1.2,
          List.getElem?_eq_none (by simpa using Nat.le_of_not_lt hj)]
        rfl
    · rw [if_neg fun hin => hk (hch ▸ hin.2), pictureOf_none fun hin => hk hin.1.1]
      rfl

/-- One pass over a frame draws its picture. -/
theorem framePass_draws (hm : s.frameInput.Ready) (hready : s.spiOut.Ready) (hr : s.Routed)
    {d : Datagram} {rest : List Datagram} (hp : s.pending = d :: rest)
    (hbytes : d.bytes = frameBytes counts payload) (h4 : 4 < d.bytes.length)
    (hplain : ∀ count ∈ counts, Plain count)
    (hload : ∀ n, loadOf s.isWS world.stores n = isWS)
    (hfull : isWS = false → chanOffset (ledsOfCount counts) (min counts.length MAX_CHANNELS) ≤
      payload.length / 3) (h : framePass dm world s = .ok p) {w : Wall}
    (hkept : ∀ k < MAX_CHANNELS, ∀ j < LED_COUNT_WS, wsRgb (wsLed s.wsOut k j) = w.kept k j) :
    ((Shield.mk s.pins w.lights).takeAll p.outputs).lights =
        (w.draw (pictureOf isWS counts payload)).lights ∧
      ∀ k < MAX_CHANNELS, ∀ j < LED_COUNT_WS, wsRgb (wsLed p.state.wsOut k j) =
        (w.draw (pictureOf isWS counts payload)).kept k j := by
  obtain ⟨_, hmax⟩ := framePass_takeable hm hp h4 h
  obtain ⟨f, spiOut, outputs, looping, hf, ho, _, _, hout, hws, _⟩ :=
    framePass_frame hm hp h4 hmax h
  obtain ⟨_, hshield⟩ := switch_shield hr isWS
  rw [hbytes] at hmax hf
  rw [funext hload] at hf ho hout
  have hdark := Shield.takeAll_dark (s := ⟨s.pins, w.lights⟩) (switch_sink s isWS)
  have hpins : ShieldFor (Shield.takeAll ⟨s.pins, w.lights⟩ (s.switch isWS).2).pins isWS := by
    rw [Shield.takeAll_pins]
    exact hshield
  have hkept' : ∀ k < MAX_CHANNELS, ∀ j < LED_COUNT_WS, wsRgb (wsLed p.state.wsOut k j) =
      (w.draw (pictureOf isWS counts payload)).kept k j := by
    intro k hk j hj
    rw [hws]
    exact readFrame_kept hmax hplain s.message hready hf hj (hkept k hk j hj)
  refine ⟨?_, hkept'⟩
  rw [hout, Shield.takeAll_append]
  have hpixels := hready.of_shape (readFrame_reflects hready hf).shape
  obtain ⟨rfl, _, rfl⟩ | ⟨rfl, _, hfits, _, rfl⟩ := outputFrame_cases hpixels ho
  · funext b k j
    have htake := Shield.take_render hpins f.pixels.wsOut b k j
    rw [hdark] at htake
    refine htake.trans (if_ctx_congr Iff.rfl (fun hin => ?_) fun _ => rfl)
    rw [← hws, hkept' k hin.2.1 j hin.2.2]
    rfl
  · rw [Shield.takeAll_append]
    refine (Shield.takeAll_dark (by simp [Output.sink])).trans ?_
    exact transmissions_draw hmax hplain s.message hready hf hfits (hfull rfl) hpins hdark

end

/-- The frame loop with what its strips show. A pass in which `ws2811_render` fails says nothing of
the strips. -/
def ShownStep (dm : DataModel) (dev : Device) (s : MainState × Lights) (e : World × Pass)
    (s' : MainState × Lights) : Prop :=
  PassStep dm s.1 e s'.1 ∧ ∃ fuel calls sent, transmit dev fuel calls e.2.outputs = some sent ∧
    (e.1.rendered = true → s'.2 = (Shield.takeAll ⟨s.1.pins, s.2⟩ sent).lights)

/-- The picture of the frame a pass takes, in the mode the pass starts with. -/
def pictureIn (t : Step (MainState × Lights) (World × Pass)) : Option Picture :=
  (takenIn ⟨t.before.1, t.event, t.after.1⟩).bind fun d => (decodeFrame d.bytes).map fun frame =>
    pictureOf (loadOf t.before.1.isWS t.event.1.stores 0) frame.1 frame.2

/-- No store changes the mode within the pass, `ws2811_render` succeeds, and a frame at the head of
the queue is one its sender could encode, with all its triples when it is for the SPI. -/
structure Orderly (t : Step (MainState × Lights) (World × Pass)) : Prop where
  steady : ∀ n, 0 < n → ∀ b ∈ t.event.1.stores n, b = loadOf t.before.1.isWS t.event.1.stores 0
  rendered : t.event.1.rendered = true
  frame : ∀ d, t.before.1.pending.head? = some d → 4 < d.bytes.length →
    ∃ counts payload, decodeFrame d.bytes = some (counts, payload) ∧
      (loadOf t.before.1.isWS t.event.1.stores 0 = false →
        chanOffset (ledsOfCount counts) (min counts.length MAX_CHANNELS) ≤ payload.length / 3)

/-- The frame loop and its strips stand as the wall does. -/
structure Draws (s : MainState × Lights) (w : Wall) : Prop where
  ready : s.1.frameInput.Ready
  spiReady : s.1.spiOut.Ready
  routed : s.1.Routed
  kept : ∀ k < MAX_CHANNELS, ∀ j < LED_COUNT_WS, wsRgb (wsLed s.1.wsOut k j) = w.kept k j
  lights : s.2 = w.lights

section

variable {dm : DataModel} {dev : Device} {t : Step (MainState × Lights) (World × Pass)} {w : Wall}

theorem framePass_quiet {world : World} {s : MainState} {p : Pass} (hm : s.frameInput.Ready)
    (hshort : ∀ d, s.pending.head? = some d → d.bytes.length ≤ 4)
    (h : framePass dm world s = .ok p) :
    p.state.wsOut = s.wsOut ∧ ∀ o ∈ p.outputs, o.sink = none := by
  rw [framePass_leaves hm hshort] at h
  cases h
  exact ⟨rfl, switch_sink s _⟩

theorem ShownStep.draws (hdev : dev.AcceptsAll) (h : ShownStep dm dev t.before t.event t.after)
    (ho : Orderly t) (hd : Draws t.before w) :
    Draws t.after (match pictureIn t with | none => w | some p => w.draw p) := by
  obtain ⟨⟨_, hpass, hafter⟩, fuel, calls, sent, hsent, hshown⟩ := h
  have hlights := hshown ho.rendered
  rw [transmit_accepts hdev hsent, hd.lights] at hlights
  have hready := hafter ▸ framePass_ready hd.ready hpass
  have hspi := hafter ▸ framePass_spiReady hd.spiReady hpass
  have hrouted := hafter ▸ framePass_routed hd.routed hpass
  by_cases hshort : ∀ d, t.before.1.pending.head? = some d → d.bytes.length ≤ 4
  · have hnone : pictureIn t = none := by
      rw [pictureIn, takenIn_eq_none hshort]
      rfl
    obtain ⟨hws, hdark⟩ := framePass_quiet hd.ready hshort hpass
    rw [hnone]
    refine ⟨hready, hspi, hrouted, fun k hk j hj => ?_, hlights.trans (Shield.takeAll_dark hdark)⟩
    rw [hafter, hws]
    exact hd.kept k hk j hj
  · obtain ⟨d, hne⟩ := not_forall.mp hshort
    obtain ⟨hhead, h4⟩ := Classical.not_imp.mp hne
    obtain ⟨counts, payload, hdec, hfull⟩ := ho.frame d hhead (by omega)
    obtain ⟨hbytes, hplain⟩ := decodeFrame_eq_some_iff.mp hdec
    obtain ⟨rest, hp⟩ := List.head?_eq_some_iff.mp hhead
    have htakeable := framePass_takeable hd.ready hp (by omega) hpass
    have hsome : pictureIn t =
        some (pictureOf (loadOf t.before.1.isWS t.event.1.stores 0) counts payload) := by
      rw [pictureIn, takenIn_eq_some hhead htakeable, Option.bind_some, hdec, Option.map_some]
    obtain ⟨hdrawn, hkept⟩ := framePass_draws hd.ready hd.spiReady hd.routed hp hbytes
      htakeable.1 hplain (fun n => loadOf_steady (fun i hi _ => ho.steady i hi) (Nat.le_refl n))
      hfull hpass hd.kept
    rw [hsome]
    exact ⟨hready, hspi, hrouted, hafter ▸ hkept, hlights.trans hdrawn⟩

/-- The frame loop refines the wall: in every run it draws the pictures of the frames it takes, one
after the other. -/
theorem run_draws (hdev : dev.AcceptsAll) {start s : MainState × Lights} (hd : Draws start w)
    {steps : List (Step (MainState × Lights) (World × Pass))}
    (h : Run (ShownStep dm dev) start steps s) (hall : ∀ t ∈ steps, Orderly t) :
    ∃ followed w', Run WallStep w followed w' ∧ Draws s w' ∧
      followed.map Step.event = steps.filterMap pictureIn := by
  refine h.simulate Draws pictureIn hd (fun t ht hstep p hp w hw => ?_) fun t ht hstep hp w hw => ?_
  · have hafter := hstep.draws hdev (hall t ht) hw
    rw [hp] at hafter
    exact ⟨w.draw p, rfl, hafter⟩
  · have hafter := hstep.draws hdev (hall t ht) hw
    rwa [hp] at hafter

end

def Picture.spi (k j : Nat) (p : Picture) : Option Rgb := if p.isWS then none else p.colour k j

def Picture.ws (k j : Nat) (p : Picture) : Option Rgb := if p.isWS then p.colour k j else none

/-- A wall after some pictures: each strip shows what they last gave its LEDs. -/
theorem wall_shows {start w : Wall} {steps : List (Step Wall Picture)}
    (h : Run WallStep start steps w) :
    (∀ k j, w.lights false k j = (lastSome (Picture.spi k j) (steps.map Step.event)).or
      (start.lights false k j)) ∧
    (∀ k j, w.kept k j = (lastSome (Picture.ws k j) (steps.map Step.event)).getD
      (start.kept k j)) ∧
    ∀ k j, w.lights true k j =
      if (k < MAX_CHANNELS ∧ j < LED_COUNT_WS) ∧ ∃ p ∈ steps.map Step.event, p.isWS = true
      then some (w.kept k j) else start.lights true k j := by
  induction h with
  | nil => simp
  | @snoc steps w w' p before last ih =>
    obtain ⟨hspi, hkept, hws⟩ := ih
    subst last
    simp only [List.map_append, List.map_singleton, lastSome_concat, List.mem_append,
      List.mem_singleton, or_and_right, exists_or, exists_eq_left]
    cases hmode : p.isWS with
    | true =>
      refine ⟨fun k j => ?_, fun k j => ?_, fun k j => ?_⟩
      · simp [Wall.draw, hmode, Picture.spi, hspi]
      · simp only [Wall.draw, hmode, Picture.ws, hkept, if_true]
        cases p.colour k j <;> rfl
      · simp only [Wall.draw, hmode, hws, or_true, and_true, if_true, true_and]
        split <;> simp_all
    | false =>
      refine ⟨fun k j => ?_, fun k j => ?_, fun k j => ?_⟩
      · simp [Wall.draw, hmode, Picture.spi, hspi, Option.or_assoc]
      · simp [Wall.draw, hmode, Picture.ws, hkept]
      · simp [Wall.draw, hmode, hws]

/-- What the strips show of the pictures a run takes, from any wall on. -/
theorem Draws.shows {dm : DataModel} {dev : Device} (hdev : dev.AcceptsAll)
    {start s : MainState × Lights} {w : Wall} (hd : Draws start w)
    {steps : List (Step (MainState × Lights) (World × Pass))}
    (h : Run (ShownStep dm dev) start steps s) (hall : ∀ t ∈ steps, Orderly t) :
    (∀ k j, s.2 false k j =
      (lastSome (Picture.spi k j) (steps.filterMap pictureIn)).or (w.lights false k j)) ∧
    ∀ k j, s.2 true k j =
      if (k < MAX_CHANNELS ∧ j < LED_COUNT_WS) ∧ ∃ p ∈ steps.filterMap pictureIn, p.isWS = true
      then some ((lastSome (Picture.ws k j) (steps.filterMap pictureIn)).getD (w.kept k j))
      else w.lights true k j := by
  obtain ⟨followed, w', hrun, hdraws, hevents⟩ := run_draws hdev hd h hall
  obtain ⟨hspi, hkept, hws⟩ := wall_shows hrun
  rw [hevents] at hspi hkept hws
  rw [hdraws.lights]
  refine ⟨hspi, fun k j => ?_⟩
  rw [hws, hkept]

end LmListener
