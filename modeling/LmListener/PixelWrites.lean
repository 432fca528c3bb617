import LmListener.FrameHeader
import LmListener.Latest
import LmListener.SpiOut

namespace LmListener

open Checked CTypes Latest

abbrev WsOut := Vector (Vector UInt32 LED_COUNT_WS) MAX_CHANNELS

structure Pixel where
  chan : Nat
  index : Nat
  red : UInt8
  green : UInt8
  blue : UInt8
deriving DecidableEq, Repr

def Pixel.spiColour (p : Pixel) : Sk9822Color := ⟨255, p.blue, p.green, p.red⟩

structure PixelWrite where
  isWS : Bool
  pixel : Pixel
deriving DecidableEq, Repr

/-- The variables of the pixel loop. `loads` counts the loads of `isWS` made since the frame loop
last tested its condition, and `writes` records the pixel writes. -/
structure PixelState where
  wsOut : WsOut
  spiOut : SpiOut
  loads : Nat
  writes : List PixelWrite

def wsColour (red green blue : UInt8) : UInt32 :=
  red.toUInt32 <<< 16 ||| green.toUInt32 <<< 8 ||| blue.toUInt32

def writeWs (wsOut : WsOut) (chan index : Nat) (colour : UInt32) : Except Fault WsOut := do
  let leds ← loadAt .wsLeds wsOut chan
  let leds ← storeAt .wsLeds leds index colour
  storeAt .wsLeds wsOut chan leds

/-- The test of the mode and the write of one pixel; `isWS n` is what load number `n` of the flag
reads. -/
def writePixel (isWS : Nat → Bool) (p : Pixel) (s : PixelState) : Except Fault PixelState :=
  if isWS s.loads && decide (p.index < LED_COUNT_WS) then do
    let wsOut ← writeWs s.wsOut p.chan p.index (wsColour p.red p.green p.blue)
    return ⟨wsOut, s.spiOut, s.loads + 1, s.writes ++ [⟨true, p⟩]⟩
  else do
    let spiOut ← s.spiOut.writeLed p.chan p.index p.red p.green p.blue
    return ⟨s.wsOut, spiOut, s.loads + 1, s.writes ++ [⟨false, p⟩]⟩

def writePixels (isWS : Nat → Bool) (pixels : List Pixel) (s : PixelState) :
    Except Fault PixelState :=
  pixels.foldlM (fun s p => writePixel isWS p s) s

/-- The kind of buffer each pixel goes to, from load number `loads` of the flag on. -/
def route (isWS : Nat → Bool) (loads : Nat) (pixels : List Pixel) : List PixelWrite :=
  pixels.mapIdx fun n p => ⟨isWS (loads + n) && decide (p.index < LED_COUNT_WS), p⟩

theorem route_concat (isWS : Nat → Bool) (loads : Nat) (pixels : List Pixel) (p : Pixel) :
    route isWS loads (pixels ++ [p]) = route isWS loads pixels ++
      [⟨isWS (loads + pixels.length) && decide (p.index < LED_COUNT_WS), p⟩] := by
  simp [route]

theorem mem_route {isWS : Nat → Bool} {loads : Nat} {pixels : List Pixel} {w : PixelWrite} :
    w ∈ route isWS loads pixels ↔ ∃ n, ∃ h : n < pixels.length,
      w = ⟨isWS (loads + n) && decide (pixels[n].index < LED_COUNT_WS), pixels[n]⟩ := by
  simp only [route, List.mem_mapIdx, eq_comm]

theorem route_pixels (isWS : Nat → Bool) (loads : Nat) (pixels : List Pixel) :
    (route isWS loads pixels).map PixelWrite.pixel = pixels := by
  apply List.ext_getElem <;> simp [route]

/-- Both SPI channels as `main` adds them. -/
def SpiOut.Ready (s : SpiOut) : Prop :=
  s.shape = List.replicate MAX_CHANNELS (LED_COUNT_SPI, wordsFor LED_COUNT_SPI * 4)

theorem SpiOut.Ready.channel {s : SpiOut} (h : s.Ready) {chan : Nat} (hc : chan < MAX_CHANNELS) :
    s.shape[chan]? = some (LED_COUNT_SPI, wordsFor LED_COUNT_SPI * 4) := by
  rw [h, List.getElem?_replicate, if_pos hc]

def spiHit (chan i : Nat) (w : PixelWrite) : Option Sk9822Color :=
  if w.isWS = false ∧ w.pixel.chan = chan ∧ w.pixel.index + 1 = i ∧ w.pixel.index ≤ LED_COUNT_SPI
  then some w.pixel.spiColour else none

def wsHit (chan i : Nat) (w : PixelWrite) : Option UInt32 :=
  if w.isWS = true ∧ w.pixel.chan = chan ∧ w.pixel.index = i
  then some (wsColour w.pixel.red w.pixel.green w.pixel.blue) else none

def wsLed (wsOut : WsOut) (chan i : Nat) : UInt32 := cell (cell wsOut chan) i

/-- The buffers hold what the recorded writes last put there, and the old content elsewhere. -/
structure Reflects (start s : PixelState) : Prop where
  fd : s.spiOut.fd = start.spiOut.fd
  shape : s.spiOut.shape = start.spiOut.shape
  word : ∀ c i, s.spiOut.word c i = (lastSome (spiHit c i) s.writes).getD (start.spiOut.word c i)
  led : ∀ c i, wsLed s.wsOut c i = (lastSome (wsHit c i) s.writes).getD (wsLed start.wsOut c i)

theorem writeWs_ok (wsOut : WsOut) {chan index : Nat} (hc : chan < MAX_CHANNELS)
    (hi : index < LED_COUNT_WS) (colour : UInt32) :
    ∃ wsOut', writeWs wsOut chan index colour = .ok wsOut' ∧
      ∀ c i, wsLed wsOut' c i = if c = chan ∧ i = index then colour else wsLed wsOut c i := by
  refine ⟨wsOut.set chan ((cell wsOut chan).set index colour), ?_, fun c i => ?_⟩
  · rw [writeWs, loadAt_of_lt hc, bind_ok, storeAt_of_lt hi, bind_ok, storeAt_of_lt hc]
  · rw [wsLed, cell_set _ hc]
    by_cases he : c = chan
    · subst c
      rw [if_pos rfl, cell_set _ hi]
      simp [wsLed]
    · simp [he, wsLed]

theorem writePixel_ok (isWS : Nat → Bool) {p : Pixel} {start s : PixelState}
    (hc : p.chan < MAX_CHANNELS) (hready : start.spiOut.Ready) (h : Reflects start s) :
    ∃ s', writePixel isWS p s = .ok s' ∧ Reflects start s' := by
  by_cases hws : (isWS s.loads && decide (p.index < LED_COUNT_WS)) = true
  · obtain ⟨wsOut, ho, hl⟩ := writeWs_ok s.wsOut hc
      (of_decide_eq_true (Bool.and_eq_true_iff.mp hws).2) (wsColour p.red p.green p.blue)
    refine ⟨⟨wsOut, s.spiOut, s.loads + 1, s.writes ++ [⟨true, p⟩]⟩, ?_,
      h.fd, h.shape, fun c i => ?_, fun c i => ?_⟩
    · rw [writePixel, if_pos hws, ho]
      rfl
    · rw [lastSome_concat, spiHit, if_neg (by simp), Option.none_or]
      exact h.word c i
    · rw [lastSome_concat, hl, h.led, wsHit]
      by_cases he : c = p.chan ∧ i = p.index
      · rw [if_pos he, if_pos ⟨rfl, he.1.symm, he.2.symm⟩]
        rfl
      · have hmiss : ¬(p.chan = c ∧ p.index = i) := fun hhit => he ⟨hhit.1.symm, hhit.2.symm⟩
        simp [he, hmiss]
  · have hready' : s.spiOut.Ready := h.shape.trans hready
    obtain ⟨spiOut, ho, hfd, hsh, hw⟩ := SpiOut.writeLed_spec (hready'.channel hc) (by omega)
      p.index p.red p.green p.blue
    refine ⟨⟨s.wsOut, spiOut, s.loads + 1, s.writes ++ [⟨false, p⟩]⟩, ?_,
      hfd.trans h.fd, hsh.trans h.shape, fun c i => ?_, fun c i => ?_⟩
    · rw [writePixel, if_neg hws, ho]
      rfl
    · rw [lastSome_concat, hw, h.word, spiHit]
      by_cases he : c = p.chan ∧ i = p.index + 1 ∧ p.index ≤ LED_COUNT_SPI
      · rw [if_pos he, if_pos ⟨rfl, he.1.symm, he.2.1.symm, he.2.2⟩]
        rfl
      · have hmiss : ¬(p.chan = c ∧ p.index + 1 = i ∧ p.index ≤ LED_COUNT_SPI) :=
          fun hhit => he ⟨hhit.1.symm, hhit.2.1.symm, hhit.2.2⟩
        simp [he, hmiss]
    · rw [lastSome_concat, wsHit, if_neg (by simp), Option.none_or]
      exact h.led c i

theorem writePixels_append (isWS : Nat → Bool) (pixels more : List Pixel) (s : PixelState) :
    writePixels isWS (pixels ++ more) s = writePixels isWS pixels s >>= writePixels isWS more := by
  exact List.foldlM_append

theorem writePixels_concat_ok {isWS : Nat → Bool} {pixels : List Pixel} {p : Pixel}
    {s s' : PixelState} : writePixels isWS (pixels ++ [p]) s = .ok s' ↔
      ∃ t, writePixels isWS pixels s = .ok t ∧ writePixel isWS p t = .ok s' := by
  have hone : writePixels isWS [p] = writePixel isWS p := by
    funext t
    exact bind_pure _
  rw [writePixels_append, hone, bind_eq_ok]

theorem writePixel_recorded {isWS : Nat → Bool} {p : Pixel} {s s' : PixelState}
    (h : writePixel isWS p s = .ok s') :
    s'.loads = s.loads + 1 ∧
      s'.writes = s.writes ++ [⟨isWS s.loads && decide (p.index < LED_COUNT_WS), p⟩] := by
  by_cases hws : (isWS s.loads && decide (p.index < LED_COUNT_WS)) = true
  · rw [writePixel, if_pos hws] at h
    obtain ⟨wsOut, _, h⟩ := bind_eq_ok.mp h
    cases h
    exact ⟨rfl, by rw [hws]⟩
  · rw [writePixel, if_neg hws] at h
    obtain ⟨spiOut, _, h⟩ := bind_eq_ok.mp h
    cases h
    exact ⟨rfl, by rw [Bool.eq_false_of_not_eq_true hws]⟩

theorem writePixels_recorded {isWS : Nat → Bool} {pixels : List Pixel} {s s' : PixelState}
    (h : writePixels isWS pixels s = .ok s') :
    s'.loads = s.loads + pixels.length ∧ s'.writes = s.writes ++ route isWS s.loads pixels := by
  induction pixels using List.reverseRecOn generalizing s' with
  | nil => cases h; simp [route]
  | append_singleton pixels p ih =>
    obtain ⟨t, ht, hp⟩ := writePixels_concat_ok.mp h
    obtain ⟨hloads, hwrites⟩ := ih ht
    obtain ⟨hloads', hwrites'⟩ := writePixel_recorded hp
    refine ⟨by simp [hloads', hloads, Nat.add_assoc], ?_⟩
    rw [hwrites', hwrites, hloads, route_concat, List.append_assoc]

theorem writePixels_ok (isWS : Nat → Bool) (pixels : List Pixel) (start : PixelState)
    (hc : ∀ p ∈ pixels, p.chan < MAX_CHANNELS) (hready : start.spiOut.Ready)
    (hw : start.writes = []) :
    ∃ s, writePixels isWS pixels start = .ok s ∧ Reflects start s := by
  induction pixels using List.reverseRecOn with
  | nil => exact ⟨start, rfl, rfl, rfl, fun c i => by rw [hw]; rfl, fun c i => by rw [hw]; rfl⟩
  | append_singleton pixels p ih =>
    obtain ⟨t, ht, hr⟩ := ih fun q hq => hc q (by simp [hq])
    obtain ⟨s, hs, hr'⟩ := writePixel_ok isWS (hc p (by simp)) hready hr
    exact ⟨s, writePixels_concat_ok.mpr ⟨t, ht, hs⟩, hr'⟩

end LmListener
