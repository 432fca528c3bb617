import LmListener.FrameCodec
import LmListener.FrameSafety
import LmListener.PlainFrame
import LmListener.UdpSetup

namespace LmListener

open Checked CTypes Runs

def FRAME_IN_PORT : UInt16 := 3001
def STRIP_TYPE_PORT : UInt16 := 3002

/-- The answers of the system to the calls of `main` and of the type listener before their loops.
`ws2811_init` gives the LED arrays when it succeeds. -/
structure StartAnswers where
  ws2811_init : Option WsOut
  opened : Int32
  mode : Int32
  bits : Int32
  speed : Int32
  malloc₁ : Option (Nat → Sk9822Color)
  malloc₂ : Option (Nat → Sk9822Color)
  wiringPiSetupGpio : Int32
  frameSetup : SetupAnswers
  typeSetup : SetupAnswers

/-- What the variables hold that nothing initialises. -/
structure StartMemory where
  saServer : SockaddrIn
  saClient : SockaddrIn
  message : Message
  typeMessage : Vector UInt8 6

def StartMemory.manager (memory : StartMemory) : UdpManager :=
  UdpManager.new memory.saServer memory.saClient

def frameSettings : UdpSettings :=
  { ({} : UdpSettings).receiveOn FRAME_IN_PORT with
    receiveBufferSize := toInt MAX_SENDBUFFER_SIZE }

def typeSettings : UdpSettings := ({} : UdpSettings).receiveOn STRIP_TYPE_PORT

def exitUnless (ok : Bool) : Except Nat Unit := if ok then .ok () else .error 1

/-- `main` up to its loop; an error is the code of `exit`. -/
def startMain (dm : DataModel) (a : StartAnswers) (memory : StartMemory)
    (pending : List Datagram) : Except Nat MainState := do
  let wsOut ← a.ws2811_init.elim (.error 1) .ok
  let r := SpiOut.new.init a.opened a.mode a.bits a.speed
  exitUnless r.1
  -- neither result of `addChannel` is looked at
  let spiOut := spiSetup dm r.2 a.malloc₁ a.malloc₂
  exitUnless (a.wiringPiSetupGpio == 0)
  let r := memory.manager.setup dm frameSettings a.frameSetup
  exitUnless r.ret
  return MainState.start r.manager memory.message wsOut spiOut pending

def startTypeListener (dm : DataModel) (a : StartAnswers) (memory : StartMemory) (isWS : Bool) :
    Except Nat TypeListener := do
  let r := memory.manager.setup dm typeSettings a.typeSetup
  exitUnless r.ret
  return TypeListener.start r.manager memory.typeMessage isWS

def startProgram (dm : DataModel) (a : StartAnswers) (memory : StartMemory)
    (pending : List Datagram) : Except Nat Program := do
  let main ← startMain dm a memory pending
  let listener ← startTypeListener dm a memory main.isWS
  return Program.start main listener

/-- The calls whose failure ends the process. -/
structure StartAnswers.Starts (a : StartAnswers) : Prop where
  ws2811_init : a.ws2811_init.isSome = true
  opened : ¬a.opened < 0
  spiInit : spiInit a.mode a.bits a.speed ≠ -1
  gpio : a.wiringPiSetupGpio = 0
  frameSocket : a.frameSetup.socket ≠ INVALID_SOCKET
  frameBind : a.frameSetup.bind = true
  typeSocket : a.typeSetup.socket ≠ INVALID_SOCKET
  typeBind : a.typeSetup.bind = true

section

variable {dm : DataModel} {a : StartAnswers} {memory : StartMemory} {pending : List Datagram}

theorem setup_frameSettings_iff : (memory.manager.setup dm frameSettings a.frameSetup).ret = true ↔
    a.frameSetup.socket ≠ INVALID_SOCKET ∧ a.frameSetup.bind = true := by
  rw [UdpManager.setup_ret_iff]
  have hport : frameSettings.HasPort := fun h => absurd h.1 (by decide)
  refine ⟨fun h => ⟨h.2.2.1, h.2.2.2.1⟩, fun h => ⟨hport, rfl, h.1, h.2, nofun⟩⟩

theorem setup_typeSettings_iff : (memory.manager.setup dm typeSettings a.typeSetup).ret = true ↔
    a.typeSetup.socket ≠ INVALID_SOCKET ∧ a.typeSetup.bind = true := by
  rw [UdpManager.setup_ret_iff]
  have hport : typeSettings.HasPort := fun h => absurd h.1 (by decide)
  refine ⟨fun h => ⟨h.2.2.1, h.2.2.2.1⟩, fun h => ⟨hport, rfl, h.1, h.2, nofun⟩⟩

theorem exitUnless_bind_eq_ok {α : Type} {ok : Bool} {x : Except Nat α} {b : α} :
    (exitUnless ok >>= fun _ => x) = .ok b ↔ ok = true ∧ x = .ok b := by
  cases ok with
  | false => exact ⟨nofun, nofun⟩
  | true => exact ⟨fun h => ⟨rfl, h⟩, fun h => h.2⟩

theorem SpiOut.init_new_iff {opened mode bits speed : Int32} :
    (SpiOut.new.init opened mode bits speed).1 = true ↔
      ¬opened < 0 ∧ spiInit mode bits speed ≠ -1 := by
  unfold SpiOut.init
  simp only
  split_ifs <;> simp_all

theorem startMain_eq_ok_iff {main : MainState} : startMain dm a memory pending = .ok main ↔
    ((¬a.opened < 0 ∧ spiInit a.mode a.bits a.speed ≠ -1) ∧ a.wiringPiSetupGpio = 0 ∧
      a.frameSetup.socket ≠ INVALID_SOCKET ∧ a.frameSetup.bind = true) ∧
    ∃ wsOut, a.ws2811_init = some wsOut ∧
      main = MainState.start (memory.manager.setup dm frameSettings a.frameSetup).manager
        memory.message wsOut (spiSetup dm ⟨a.opened, []⟩ a.malloc₁ a.malloc₂) pending := by
  have hfd : (SpiOut.new.init a.opened a.mode a.bits a.speed).2 = ⟨a.opened, []⟩ := by
    unfold SpiOut.init
    simp only
    split_ifs <;> rfl
  rw [startMain]
  cases a.ws2811_init with
  | none => exact ⟨nofun, fun h => by obtain ⟨_, _, h, _⟩ := h; cases h⟩
  | some wsOut =>
    have hws : (some wsOut).elim (.error 1) .ok = (.ok wsOut : Except Nat WsOut) := rfl
    rw [hws, bind_ok, exitUnless_bind_eq_ok, exitUnless_bind_eq_ok, exitUnless_bind_eq_ok,
      SpiOut.init_new_iff, setup_frameSettings_iff, beq_iff_eq, hfd]
    constructor
    · intro h
      obtain ⟨hinit, hgpio, hsetup, hmain⟩ := h
      cases hmain
      exact ⟨⟨hinit, hgpio, hsetup⟩, wsOut, rfl, rfl⟩
    · intro h
      obtain ⟨⟨hinit, hgpio, hsetup⟩, _, hwsOut, rfl⟩ := h
      cases hwsOut
      exact ⟨hinit, hgpio, hsetup, rfl⟩

theorem startTypeListener_eq_ok_iff {isWS : Bool} {listener : TypeListener} :
    startTypeListener dm a memory isWS = .ok listener ↔
      (a.typeSetup.socket ≠ INVALID_SOCKET ∧ a.typeSetup.bind = true) ∧
      listener = TypeListener.start (memory.manager.setup dm typeSettings a.typeSetup).manager
        memory.typeMessage isWS := by
  rw [startTypeListener, exitUnless_bind_eq_ok, setup_typeSettings_iff]
  exact and_congr_right fun _ => ⟨fun h => by cases h; rfl, fun h => by cases h; rfl⟩

/-- Start-up tests each of these calls but not the two allocations for the SPI. -/
theorem startProgram_eq_ok_iff {s : Program} : startProgram dm a memory pending = .ok s ↔
    a.Starts ∧ ∃ wsOut, a.ws2811_init = some wsOut ∧
      s = Program.start
        (MainState.start (memory.manager.setup dm frameSettings a.frameSetup).manager
          memory.message wsOut (spiSetup dm ⟨a.opened, []⟩ a.malloc₁ a.malloc₂) pending)
        (TypeListener.start (memory.manager.setup dm typeSettings a.typeSetup).manager
          memory.typeMessage GpioOutSwitcher.new.1.m_isWs) := by
  unfold startProgram
  constructor
  · intro h
    obtain ⟨main, hmain, h⟩ := bind_eq_ok.mp h
    obtain ⟨listener, hlistener, h⟩ := bind_eq_ok.mp h
    cases h
    obtain ⟨⟨hspi, hgpio, hframe⟩, wsOut, hws, rfl⟩ := startMain_eq_ok_iff.mp hmain
    obtain ⟨htype, rfl⟩ := startTypeListener_eq_ok_iff.mp hlistener
    have hsome : a.ws2811_init.isSome = true := by rw [hws]; rfl
    exact ⟨⟨hsome, hspi.1, hspi.2, hgpio, hframe.1, hframe.2, htype.1, htype.2⟩, wsOut, hws, rfl⟩
  · intro h
    obtain ⟨hs, wsOut, hws, rfl⟩ := h
    have hmain : startMain dm a memory pending = .ok _ := startMain_eq_ok_iff.mpr
      ⟨⟨⟨hs.opened, hs.spiInit⟩, hs.gpio, hs.frameSocket, hs.frameBind⟩, wsOut, hws, rfl⟩
    refine bind_eq_ok.mpr ⟨_, hmain, bind_eq_ok.mpr ⟨_, ?_, rfl⟩⟩
    exact startTypeListener_eq_ok_iff.mpr ⟨⟨hs.typeSocket, hs.typeBind⟩, rfl⟩

/-- A pixel goes to a channel that exists, or to one past the channel behind the last, where it is
dropped. -/
theorem SpiOut.writeLed_channel {s s' : SpiOut} {chan index : Nat} {red green blue : UInt8}
    (h : s.writeLed chan index red green blue = .ok s') :
    chan ≠ s.buffers.length ∧ s'.buffers.length = s.buffers.length := by
  unfold SpiOut.writeLed at h
  split at h
  next hpast =>
    cases h
    exact ⟨by omega, rfl⟩
  next =>
    split at h
    next => cases h
    next buf hb =>
      obtain ⟨hlt, _⟩ := List.getElem?_eq_some_iff.mp hb
      refine ⟨by omega, ?_⟩
      split at h
      next => cases h; rfl
      next =>
        obtain ⟨buf', _, hs'⟩ := bind_eq_ok.mp h
        cases hs'
        exact List.length_set

theorem writePixels_channels {isWS : Nat → Bool} (hspi : ∀ n, isWS n = false)
    {pixels : List Pixel} {s s' : PixelState} (h : writePixels isWS pixels s = .ok s') :
    (∀ p ∈ pixels, p.chan ≠ s.spiOut.buffers.length) ∧
      s'.spiOut.buffers.length = s.spiOut.buffers.length := by
  induction pixels generalizing s with
  | nil =>
    cases h
    exact ⟨by simp, rfl⟩
  | cons p pixels ih =>
    obtain ⟨t, ht, hrest⟩ := bind_eq_ok.mp h
    simp only [writePixel] at ht
    rw [hspi, Bool.false_and, if_neg Bool.false_ne_true] at ht
    obtain ⟨spiOut, hwrite, he⟩ := bind_eq_ok.mp ht
    cases he
    obtain ⟨hchan, hlen⟩ := SpiOut.writeLed_channel hwrite
    obtain ⟨hall, hlen'⟩ := ih hrest
    refine ⟨List.forall_mem_cons.mpr ⟨hchan, fun q hq => ?_⟩, hlen'.trans hlen⟩
    rw [← hlen]
    exact hall q hq

/-- A pass over a frame for the SPI writes to all its channels, so none of them is the first that
does not exist. -/
theorem framePass_channels {world : World} {s : MainState} {p : Pass} {counts : List UInt16}
    {payload : List UInt8} (hm : s.frameInput.Ready) {d : Datagram} {rest : List Datagram}
    (hp : s.pending = d :: rest) (hbytes : d.bytes = frameBytes counts payload)
    (h4 : 4 < d.bytes.length) (hplain : ∀ count ∈ counts, Plain count)
    (hspi : ∀ n, loadOf s.isWS world.stores n = false) (h : framePass dm world s = .ok p)
    {k : Nat} (hk : k < min counts.length MAX_CHANNELS) (hled : 0 < ledsOfCount counts k)
    (hpayload : chanOffset (ledsOfCount counts) k < payload.length / 3) :
    k ≠ s.spiOut.buffers.length := by
  obtain ⟨_, hmax⟩ := framePass_takeable hm hp h4 h
  obtain ⟨f, _, _, _, hf, _⟩ := framePass_frame hm hp h4 hmax h
  rw [hbytes] at hmax hf
  obtain ⟨hoff, hch, htotal, hleds⟩ := readFrame_plain hmax hplain s.message hf
  obtain ⟨_, hw⟩ := readFrame_writePixels hf
  have hoffset : chanOffset f.header.leds k = chanOffset (ledsOfCount counts) k :=
    chanOffset_congr fun c hc => hleds c (by omega)
  obtain ⟨hall, _⟩ := writePixels_channels hspi hw
  have hled' : 0 < f.header.leds k := by
    rw [hleds k (by omega)]
    exact hled
  have htriple : chanOffset f.header.leds k + 0 < totalLedsNum dm
      (frameBytes counts payload).length f.header.headerByteOffset := by
    rw [hoff, htotal, hoffset]
    exact hpayload
  exact hall _ (mem_framePixels.mpr ⟨k, hch ▸ hk, 0, hled', htriple, rfl⟩)

theorem spiSetup_channels (dm : DataModel) (fd : Int32)
    (malloc₁ malloc₂ : Option (Nat → Sk9822Color)) :
    (spiSetup dm ⟨fd, []⟩ malloc₁ malloc₂).buffers.length =
      malloc₁.isSome.toNat + malloc₂.isSome.toNat := by
  have hadd : ∀ (s : SpiOut) (malloc : Option (Nat → Sk9822Color)),
      (s.addChannel dm LED_COUNT_SPI malloc).2.buffers.length =
        s.buffers.length + malloc.isSome.toNat := by
    intro s malloc
    cases malloc with
    | none => rfl
    | some content => exact List.length_append
  rw [spiSetup, hadd, hadd]
  simp

theorem spiSetup_ready_of_isSome (dm : DataModel) (fd : Int32)
    {malloc₁ malloc₂ : Option (Nat → Sk9822Color)}
    (h : malloc₁.isSome = true ∧ malloc₂.isSome = true) :
    (spiSetup dm ⟨fd, []⟩ malloc₁ malloc₂).Ready := by
  obtain ⟨content₁, rfl⟩ := Option.isSome_iff_exists.mp h.1
  obtain ⟨content₂, rfl⟩ := Option.isSome_iff_exists.mp h.2
  exact spiSetup_ready dm fd content₁ content₂

/-- A frame of one LED for each of the two channels. -/
def bothChannels : Datagram := ⟨frameBytes [1, 1] [9, 8, 7, 6, 5, 4], default, by decide⟩

/-- Once it has started, the program takes any safe datagrams in any order, whatever the type
listener stores meanwhile, exactly when both channels of the SPI got their memory: start-up goes on
without it, and the frame loop then leaves the vector of channels. -/
theorem started_safe_iff (dm : DataModel) {a : StartAnswers} (ha : a.Starts)
    (memory : StartMemory) :
    (∀ pending s, startProgram dm a memory pending = .ok s → ∀ steps t,
      Run (ProgramStep dm) s steps t → (∀ d ∈ pending ++ arrived (passesOf steps), d.Safe) →
        ∀ world, ∃ p, framePass dm world t.main = .ok p) ↔
      a.malloc₁.isSome = true ∧ a.malloc₂.isSome = true := by
  obtain ⟨wsOut, hws⟩ := Option.isSome_iff_exists.mp ha.ws2811_init
  have hm : (memory.manager.setup dm frameSettings a.frameSetup).manager.Ready :=
    UdpManager.setup_ready rfl (setup_frameSettings_iff.mpr ⟨ha.frameSocket, ha.frameBind⟩)
  constructor
  · intro h
    have hstart : startProgram dm a memory [bothChannels] = .ok _ :=
      startProgram_eq_ok_iff.mpr ⟨ha, wsOut, hws, rfl⟩
    have hsafe : ∀ d ∈ [bothChannels] ++ arrived (passesOf []), d.Safe :=
      List.forall_mem_singleton.mpr (by decide)
    obtain ⟨p, hpass⟩ := h [bothChannels] _ hstart [] _ .nil hsafe toSpi
    have hexists : ∀ k < 2, k ≠ a.malloc₁.isSome.toNat + a.malloc₂.isSome.toNat := by
      intro k hk
      rw [← spiSetup_channels dm a.opened]
      have hk' : k < min [(1 : UInt16), 1].length MAX_CHANNELS := hk
      have hbytes : bothChannels.bytes = frameBytes [1, 1] [9, 8, 7, 6, 5, 4] := rfl
      have hplain : ∀ count ∈ [(1 : UInt16), 1], Plain count :=
        List.forall_mem_cons.mpr ⟨by decide, List.forall_mem_singleton.mpr (by decide)⟩
      have hled : ∀ k < 2, 0 < ledsOfCount [1, 1] k ∧
          chanOffset (ledsOfCount [1, 1]) k < 6 / 3 := by decide
      exact framePass_channels hm rfl hbytes (by decide) hplain (fun n => loadOf_toSpi _ n) hpass
        hk' (hled k hk).1 (hled k hk).2
    have hzero := hexists 0 (by omega)
    have hone := hexists 1 (by omega)
    cases h₁ : a.malloc₁.isSome <;> cases h₂ : a.malloc₂.isSome <;> simp [h₁, h₂] at hzero hone ⊢
  · intro hmalloc pending s hs steps t hrun hsafe world
    obtain ⟨_, wsOut, _, rfl⟩ := startProgram_eq_ok_iff.mp hs
    have hready := spiSetup_ready_of_isSome dm a.opened hmalloc
    exact run_safe_pass hm hready (run_passes rfl hrun) hsafe world

/-- Every call succeeds, but for the second allocation. -/
def oneChannelAnswers : StartAnswers where
  ws2811_init := some (Vector.replicate _ (Vector.replicate _ 0))
  opened := 3
  mode := 0
  bits := 0
  speed := 0
  malloc₁ := some fun _ => default
  malloc₂ := none
  wiringPiSetupGpio := 0
  frameSetup := allAnswers
  typeSetup := { allAnswers with socket := 6 }

theorem started_without_memory : ¬∀ pending s,
    startProgram lp64 oneChannelAnswers ⟨default, default, Vector.replicate _ 0,
      Vector.replicate _ 0⟩ pending = .ok s → ∀ steps t, Run (ProgramStep lp64) s steps t →
      (∀ d ∈ pending ++ arrived (passesOf steps), d.Safe) →
        ∀ world, ∃ p, framePass lp64 world t.main = .ok p := by
  have hstarts : oneChannelAnswers.Starts :=
    ⟨rfl, by decide, by decide, rfl, by decide, rfl, by decide, rfl⟩
  intro hsafe
  have hmalloc := (started_safe_iff lp64 hstarts _).mp hsafe
  cases hmalloc.2

end

end LmListener
