import LmListener.PlainFrame
import LmListener.WriteDevices

namespace LmListener

open Checked CTypes Latest

/-- The outputs with every buffer handed to `write_all` replaced by what the device takes of it;
the device has answered `calls` calls before. -/
def transmit (dev : Device) (fuel : Nat) : (calls : Nat) → List Output → Option (List Output)
  | _, [] => some []
  | calls, .writeAll fd bytes :: outputs => do
    let (_, s) ← writeAll dev fuel calls bytes
    return .writeAll fd s.chunks.flatten :: (← transmit dev fuel s.calls outputs)
  | calls, output :: outputs => return output :: (← transmit dev fuel calls outputs)

theorem transmit_eq {dev : Device} (h : dev.AcceptsAll) (calls : Nat) (outputs : List Output) :
    ∃ fuel, ∀ fuel', fuel ≤ fuel' → transmit dev fuel' calls outputs = some outputs := by
  induction outputs generalizing calls with
  | nil => exact ⟨0, fun _ _ => rfl⟩
  | cons output outputs ih =>
    cases output with
    | writeAll fd bytes =>
      obtain ⟨fuel, s, hw, hc⟩ := writeAll_delivers h calls bytes
      obtain ⟨fuel', ht⟩ := ih s.calls
      refine ⟨max fuel fuel', fun n hn => ?_⟩
      have hw' : writeAll dev n calls bytes = some ((bytes.length : Int), s) :=
        writeAllFuel_mono hw (by omega)
      rw [transmit, hw']
      simp [ht n (by omega), hc]
    | _ =>
      obtain ⟨fuel, ht⟩ := ih calls
      exact ⟨fuel, fun n hn => by simp [transmit, ht n hn]⟩

/-- LED `j` of channel `k`: its triple of the payload, or the word stored before the frame. -/
def sentWord (spiOut : SpiOut) (counts : List UInt16) (payload : List UInt8) (k j : Nat) :
    Sk9822Color :=
  if chanOffset (ledsOfCount counts) k + j < payload.length / 3
  then payloadColour payload (chanOffset (ledsOfCount counts) k + j)
  else spiOut.word k (j + 1)

def sentBytes (spiOut : SpiOut) (counts : List UInt16) (payload : List UInt8) (k : Nat) :
    List UInt8 :=
  List.replicate 4 0 ++
    (List.range (ledsOfCount counts k)).flatMap
      (fun j => (sentWord spiOut counts payload k j).bytes) ++
    List.replicate (4 * (2 + (ledsOfCount counts k - 1) / 64)) 0

/-- The outputs of a frame for the SPI: for each of its first two channels that has LEDs the
switch, and one stream. -/
def sentOutputs (spiOut : SpiOut) (counts : List UInt16) (payload : List UInt8) : List Output :=
  (List.range (min counts.length MAX_CHANNELS)).flatMap fun k =>
    if ledsOfCount counts k = 0 then []
    else [.digitalWrite PIN_SWITCH_SPI (k == 0),
      .writeAll spiOut.fd (sentBytes spiOut counts payload k)]

section

variable {counts : List UInt16} {payload : List UInt8}
  (hmax : (frameBytes counts payload).length ≤ MAX_SENDBUFFER_SIZE)
  (hplain : ∀ count ∈ counts, Plain count) (old : Message)

include hmax hplain

theorem readFrame_sentWord {dm : DataModel} {ledsInChannel : Vector UInt16 6} {wsOut : WsOut}
    {spiOut : SpiOut} {f : Frame} (hready : spiOut.Ready)
    (h : readFrame dm (fun _ => false) (overlay old (frameBytes counts payload))
      (frameBytes counts payload).length ledsInChannel wsOut spiOut = .ok f)
    {k j : Nat} (hk : k < min counts.length MAX_CHANNELS) (hj : j < ledsOfCount counts k)
    (hcap : ledsOfCount counts k ≤ LED_COUNT_SPI) :
    f.pixels.spiOut.word k (j + 1) = sentWord spiOut counts payload k j := by
  have hwritten : SpiWritten (fun _ => false) (ledsOfCount counts) (min counts.length MAX_CHANNELS)
      (payload.length / 3) k j ↔
      chanOffset (ledsOfCount counts) k + j < payload.length / 3 := by
    simp [SpiWritten, hk, hj]
  rw [readFrame_plain_spiWord hmax hplain old hready h (by omega), sentWord]
  split
  next hw => rw [if_pos (hwritten.mp hw)]
  next hw => rw [if_neg fun hin => hw (hwritten.mpr hin)]

theorem transmissions_eq_sentOutputs {dm : DataModel} {ledsInChannel : Vector UInt16 6}
    {wsOut : WsOut} {spiOut : SpiOut} {f : Frame} (hready : spiOut.Ready)
    (hcap : ∀ k < MAX_CHANNELS, ledsOfCount counts k ≤ LED_COUNT_SPI)
    (h : readFrame dm (fun _ => false) (overlay old (frameBytes counts payload))
      (frameBytes counts payload).length ledsInChannel wsOut spiOut = .ok f) :
    transmissions f.pixels.spiOut f.header.leds f.header.channels =
      sentOutputs spiOut counts payload := by
  obtain ⟨_, _, _, hch, hl⟩ := readFrame_headerEnds (plain_headerEnds hmax hplain old) h
  have hfd := (readFrame_reflects hready h).fd
  rw [transmissions, sentOutputs, hch]
  apply List.flatMap_congr
  intro k hk
  have hk' := List.mem_range.mp hk
  rw [hl k (by omega), countAt_ledsOfCount hmax old (by omega)]
  have hwords : (List.range (ledsOfCount counts k)).map (fun j => f.pixels.spiOut.word k (j + 1)) =
      (List.range (ledsOfCount counts k)).map (sentWord spiOut counts payload k) :=
    List.map_congr_left fun j hj => readFrame_sentWord hmax hplain old hready h hk'
      (List.mem_range.mp hj) (hcap k (by omega))
  have hbytes :
      stream ((List.range (ledsOfCount counts k)).map (sentWord spiOut counts payload k)) =
      sentBytes spiOut counts payload k := by
    rw [stream_eq, sentBytes, List.length_map, List.length_range, List.flatMap_map]
  rw [transmission, hwords, hbytes, hfd]

end

def twoChannels : Datagram := ⟨frameBytes [2, 1] [1, 2, 3, 4, 5, 6], default, by decide⟩

end LmListener
