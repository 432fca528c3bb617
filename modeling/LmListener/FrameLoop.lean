import LmListener.FrameOutput
import LmListener.PixelLoop
import LmListener.Runs
import LmListener.UdpManager

namespace LmListener

open Checked CTypes Runs

structure Frame where
  header : Header
  pixels : PixelState

def Header.channels (h : Header) : Nat :=
  if h.chanCntr > MAX_CHANNELS then MAX_CHANNELS else h.chanCntr

/-- `(received - headerByteOffset) / 3`, in `size_t`. -/
def totalLedsNum (dm : DataModel) (received headerByteOffset : Nat) : Nat :=
  dm.toSize ((received : Int) - headerByteOffset) / 3

/-- The header loop and the pixel loop. Load 0 of the flag is the one before the frame. -/
def readFrame (dm : DataModel) (isWS : Nat → Bool) (message : Message) (received : Nat)
    (ledsInChannel : Vector UInt16 6) (wsOut : WsOut) (spiOut : SpiOut) : Except Fault Frame := do
  let header ← parseHeader message received ledsInChannel
  let pixels ← pixelLoop isWS message header.headerByteOffset
    (totalLedsNum dm received header.headerByteOffset) header.ledsInChannel header.channels
    ⟨wsOut, spiOut, 1, []⟩
  return ⟨header, pixels⟩

def outputFrame (dm : DataModel) (isWS rendered : Bool) (f : Frame) :
    Except Fault (SpiOut × List Output × Bool) :=
  if isWS then .ok (f.pixels.spiOut, [.render f.pixels.wsOut], rendered)
  else do
    let (spiOut, outputs) ← sendFrame dm f.header.ledsInChannel f.header.channels
      f.header.maxLedsInChan f.pixels.spiOut
    return (spiOut, outputs, true)

/-- The variables of `main` that live through its frame loop. `pins` are the levels of the GPIO
pins and `pending` the datagrams waiting at the frame port. -/
structure MainState where
  frameInput : UdpManager
  message : Message
  ledsInChannel : Vector UInt16 6
  wsOut : WsOut
  spiOut : SpiOut
  gpioSwitcher : GpioOutSwitcher
  pins : Nat → Bool
  isWS : Bool
  pending : List Datagram
  looping : Bool

/-- What happens around one pass through the frame loop: `stores n` is what the type listener
stores in the flag just before load `n`, `arrivals` comes in behind the pending datagrams. -/
structure World where
  stores : Nat → List Bool
  rendered : Bool
  arrivals : List Datagram

def loadOf (isWS : Bool) (stores : Nat → List Bool) : Nat → Bool
  | 0 => (stores 0).getLastD isWS
  | n + 1 => (stores (n + 1)).getLastD (loadOf isWS stores n)

structure Pass where
  state : MainState
  frame : Option Frame
  outputs : List Output

def receiveSize (received : Nat) : Option Int32 :=
  if received > 4 then some (toInt received) else none

/-- `PeekReceive`, its test, and `Receive`; the number is `received` when a frame is there. -/
def receiveFrame (dm : DataModel) (s : MainState) : Except Fault (MainState × Option Nat) :=
  let received := dm.toSize (s.frameInput.peekReceive 0 (fionreadQueue s.pending)).toInt
  match receiveSize received with
  | none => .ok (s, none)
  | some iSize => do
    let r ← s.frameInput.receive dm recvfromQueue s.message iSize 0 s.pending
    let s := { s with frameInput := r.manager, message := r.pBuff, pending := r.kernel }
    return (s, if r.ret ≤ 0 then none else some received)

def processFrame (dm : DataModel) (isWS : Nat → Bool) (rendered : Bool) (received : Nat)
    (s : MainState) : Except Fault Pass := do
  let frame ← readFrame dm isWS s.message received s.ledsInChannel s.wsOut s.spiOut
  let isWS := isWS frame.pixels.loads
  let (spiOut, outputs, looping) ← outputFrame dm isWS rendered frame
  let ledsInChannel := frame.header.ledsInChannel
  let wsOut := frame.pixels.wsOut
  let pins := levelAfter s.pins outputs
  return ⟨{ s with ledsInChannel, wsOut, spiOut, pins, isWS, looping }, some frame, outputs⟩

def MainState.switch (s : MainState) (isWS : Bool) : MainState × List Output :=
  let (gpioSwitcher, outputs) := s.gpioSwitcher.switchWsOut isWS
  ({ s with gpioSwitcher, isWS, pins := levelAfter s.pins outputs }, outputs)

def MainState.arrive (s : MainState) (arrivals : List Datagram) : MainState :=
  { s with pending := s.pending ++ arrivals }

def framePass (dm : DataModel) (world : World) (s : MainState) : Except Fault Pass := do
  let isWS := loadOf s.isWS world.stores
  let (s, switched) := s.switch (isWS 0)
  let (s, received) ← receiveFrame dm s
  match received with
  | none => return ⟨s.arrive world.arrivals, none, switched⟩
  | some received =>
    let p ← processFrame dm isWS world.rendered received s
    return ⟨p.state.arrive world.arrivals, p.frame, switched ++ p.outputs⟩

/-- A pass of the loop, which goes on as long as `looping` holds. -/
def PassStep (dm : DataModel) (s : MainState) (e : World × Pass) (s' : MainState) : Prop :=
  s.looping = true ∧ framePass dm e.1 s = .ok e.2 ∧ s' = e.2.state

/-- The two channels `main` adds to an open SPI device; it does not test `addChannel`. -/
def spiSetup (dm : DataModel) (spiOut : SpiOut) (malloc₁ malloc₂ : Option (Nat → Sk9822Color)) :
    SpiOut :=
  ((spiOut.addChannel dm LED_COUNT_SPI malloc₁).2.addChannel dm LED_COUNT_SPI malloc₂).2

def MainState.start (frameInput : UdpManager) (message : Message) (wsOut : WsOut) (spiOut : SpiOut)
    (pending : List Datagram) : MainState where
  frameInput
  message
  ledsInChannel := Vector.replicate 6 0
  wsOut
  spiOut
  gpioSwitcher := GpioOutSwitcher.new.1
  pins := levelAfter (fun _ => false) <| initGPIO ++ GpioOutSwitcher.new.2
  isWS := GpioOutSwitcher.new.1.m_isWs
  pending
  looping := true

end LmListener
