import LmListener.FlagHistory
import LmListener.FrameOrder

namespace LmListener

open Checked CTypes Runs

/-- The pixels that the first two counts of a header of `j` pairs announce. -/
def pixelsAnnounced (message : Message) (j : Nat) : Nat :=
  chanOffset (fun k => (countAt message k).toNat) (min j MAX_CHANNELS)

/-- A frame of `received` bytes with a header of `j` pairs stays inside the table of counts, the
message and the buffers of the SPI. A header that ends past the datagram makes the number of pixels
wrap, and leaves the message as the only bound. -/
structure StaysInside (dm : DataModel) (isWS : Nat → Bool) (message : Message)
    (received j : Nat) : Prop where
  ends : HeaderEnds message (received - 1) j
  counts : j ≤ 6
  payload : j * 2 + 2 ≤ received ∨
    j * 2 + 2 + 3 * pixelsAnnounced message j ≤ MAX_SENDBUFFER_SIZE
  output : isWS (1 + min (pixelsAnnounced message j) (totalLedsNum dm received (j * 2 + 2))) =
      true ∨
    ∀ k < min j MAX_CHANNELS, (countAt message k).toNat ≤ LED_COUNT_SPI

section

variable {dm : DataModel} {isWS : Nat → Bool} {message : Message} {received j : Nat}
  {ledsInChannel : Vector UInt16 6} {wsOut : WsOut} {spiOut : SpiOut}

theorem pixelsAnnounced_le (message : Message) (j : Nat) : pixelsAnnounced message j ≤ 2 ^ 17 := by
  have hle : pixelsAnnounced message j ≤ min j MAX_CHANNELS * 2 ^ 16 :=
    chanOffset_le fun k _ => Nat.le_of_lt (countAt message k).toNat_lt
  unfold MAX_CHANNELS at hle
  omega

theorem reads_inside_iff (dm : DataModel) {offset pixels : Nat}
    (hr : received ≤ MAX_SENDBUFFER_SIZE) (ho : offset ≤ 14) (hp : pixels ≤ 2 ^ 17) :
    (∀ i < totalLedsNum dm received offset, i < pixels →
        offset + (i * 3 + 2) < MAX_SENDBUFFER_SIZE) ↔
      offset ≤ received ∨ offset + 3 * pixels ≤ MAX_SENDBUFFER_SIZE := by
  constructor
  · intro h
    by_cases hle : offset ≤ received
    · exact Or.inl hle
    · have htotal := totalLedsNum_of_lt dm (Nat.lt_of_not_le hle) (by omega)
      right
      rcases Nat.eq_zero_or_pos pixels with rfl | hpos
      · unfold MAX_SENDBUFFER_SIZE
        omega
      · have := h (pixels - 1) (by omega) (by omega)
        omega
  · intro h i hi hlt
    obtain hle | hle := h
    · exact pixels_inRange hle hr i hi
    · omega

theorem readFrame_ok_iff (hr : received ≤ MAX_SENDBUFFER_SIZE) (hready : spiOut.Ready)
    (hends : HeaderEnds message (received - 1) j) :
    (∃ f, readFrame dm isWS message received ledsInChannel wsOut spiOut = .ok f) ↔
      j ≤ 6 ∧ (j * 2 + 2 ≤ received ∨
        j * 2 + 2 + 3 * pixelsAnnounced message j ≤ MAX_SENDBUFFER_SIZE) := by
  constructor
  · intro hex
    obtain ⟨f, hf⟩ := hex
    obtain ⟨hj, _, hoff, hch, hl⟩ := readFrame_headerEnds hends hf
    obtain ⟨header, _, hrest⟩ := bind_eq_ok.mp hf
    obtain ⟨pixels, hloop, hframe⟩ := bind_eq_ok.mp hrest
    cases hframe
    have hreads := ((pixelLoop_eq_ok_iff header.channels_le).mp hloop).1
    have hpixels : chanOffset header.leds header.channels = pixelsAnnounced message j := by
      rw [hch]
      exact chanOffset_congr fun k hk => hl k (by omega)
    refine ⟨hj, (reads_inside_iff dm hr (by omega) (pixelsAnnounced_le message j)).mp ?_⟩
    rw [← hpixels, ← hoff]
    exact hreads
  · intro hcond
    obtain ⟨hj, hpayload⟩ := hcond
    obtain ⟨header, hp, _, hoff, hch, hl⟩ := parseHeader_leds ledsInChannel hends hj
    have hpixels : chanOffset header.leds header.channels = pixelsAnnounced message j := by
      rw [hch]
      exact chanOffset_congr fun k hk => hl k (by omega)
    have hreads :=
      (reads_inside_iff dm hr (by omega) (pixelsAnnounced_le message j)).mpr hpayload
    obtain ⟨f, hf, _⟩ := readFrame_ok dm isWS wsOut hp
      (by rw [hoff, hpixels]; exact hreads) hready
    exact ⟨f, hf⟩

theorem readFrame_loads (hends : HeaderEnds message (received - 1) j) {f : Frame}
    (hf : readFrame dm isWS message received ledsInChannel wsOut spiOut = .ok f) :
    f.pixels.loads =
      1 + min (pixelsAnnounced message j) (totalLedsNum dm received (j * 2 + 2)) := by
  obtain ⟨_, _, hoff, hch, hl⟩ := readFrame_headerEnds hends hf
  have hpixels : chanOffset f.header.leds f.header.channels = pixelsAnnounced message j := by
    rw [hch]
    exact chanOffset_congr fun k hk => hl k (by omega)
  rw [(readFrame_writes hf).1, Header.pixels, length_framePixels, hpixels, hoff]

end

section

variable {dm : DataModel} {world : World} {s : MainState}

theorem framePass_frame_iff (hm : s.frameInput.Ready) (hready : s.spiOut.Ready) {d : Datagram}
    {rest : List Datagram} (hp : s.pending = d :: rest) (h4 : 4 < d.bytes.length) :
    (∃ p, framePass dm world s = .ok p) ↔ d.bytes.length ≤ MAX_SENDBUFFER_SIZE ∧
      ∃ j, StaysInside dm (loadOf s.isWS world.stores) (overlay s.message d.bytes)
        d.bytes.length j := by
  constructor
  · intro hex
    obtain ⟨p, hpass⟩ := hex
    obtain ⟨_, hmax⟩ := framePass_takeable hm hp h4 hpass
    obtain ⟨j, hends⟩ := headerEnds_exists (overlay s.message d.bytes) (d.bytes.length - 1)
    obtain ⟨f, spiOut, outputs, looping, hf, ho, _⟩ := framePass_frame hm hp h4 hmax hpass
    obtain ⟨hj, hpayload⟩ := (readFrame_ok_iff hmax hready hends).mp ⟨f, hf⟩
    refine ⟨hmax, j, hends, hj, hpayload, ?_⟩
    rw [readFrame_loads hends hf] at ho
    have hpixels := hready.of_shape (readFrame_reflects hready hf).shape
    obtain ⟨_, _, _, hch, hl⟩ := readFrame_headerEnds hends hf
    obtain ⟨hws, _⟩ | ⟨_, _, hfits, _⟩ := outputFrame_cases hpixels ho
    · exact Or.inl hws
    · refine Or.inr fun k hk => ?_
      rw [← hl k (by omega)]
      exact hfits k (by omega)
  · intro hcond
    obtain ⟨hmax, j, hinside⟩ := hcond
    have hends := hinside.ends
    have hframe : ∃ f, readFrame dm (loadOf s.isWS world.stores) (overlay s.message d.bytes)
        d.bytes.length s.ledsInChannel s.wsOut s.spiOut = .ok f :=
      (readFrame_ok_iff hmax hready hends).mpr ⟨hinside.counts, hinside.payload⟩
    obtain ⟨f, hf⟩ := hframe
    have hpixels := hready.of_shape (readFrame_reflects hready hf).shape
    obtain ⟨_, _, _, hch, hl⟩ := readFrame_headerEnds hends hf
    obtain ⟨r, hr⟩ := outputFrame_ok dm (loadOf s.isWS world.stores f.pixels.loads)
      world.rendered hpixels fun hspi k hk => by
        have hout := hinside.output
        rw [← readFrame_loads hends hf, hspi] at hout
        rw [hl k (by omega)]
        exact hout.resolve_left nofun k (by omega)
    obtain ⟨p, hpass, _⟩ := framePass_ok hm hp h4 hmax hf hr
    exact ⟨p, hpass⟩

/-- In every state the frame loop reaches, the next pass stays inside its arrays exactly when no
datagram of a frame's length waits at the head of the queue, or the one there fits the receive
buffer and its header, seen over the bytes left in this buffer, keeps all loops in range. -/
theorem frame_pass_safe_iff {start : MainState} (hm : start.frameInput.Ready)
    (hready : start.spiOut.Ready) {steps : List (Step MainState (World × Pass))}
    (h : Run (PassStep dm) start steps s) (world : World) :
    (∃ p, framePass dm world s = .ok p) ↔
      ∀ d, s.pending.head? = some d → 4 < d.bytes.length →
        d.bytes.length ≤ MAX_SENDBUFFER_SIZE ∧
          ∃ j, StaysInside dm (loadOf s.isWS world.stores) (overlay s.message d.bytes)
            d.bytes.length j := by
  obtain ⟨hm', hready'⟩ := run_spiReady hm hready h
  by_cases hshort : ∀ d, s.pending.head? = some d → d.bytes.length ≤ 4
  · refine ⟨fun _ d hd h4 => ?_, fun _ => ⟨_, framePass_leaves hm' hshort⟩⟩
    have := hshort d hd
    omega
  · obtain ⟨d, hd⟩ := not_forall.mp hshort
    obtain ⟨hhead, h4⟩ := Classical.not_imp.mp hd
    obtain ⟨rest, hp⟩ := List.head?_eq_some_iff.mp hhead
    rw [framePass_frame_iff hm' hready' hp (by omega)]
    refine ⟨fun hframe d' hd' _ => ?_, fun hall => hall d hhead (by omega)⟩
    rw [hhead] at hd'
    cases hd'
    exact hframe

end

theorem frame_pass_safe_one_led : ∃ p, framePass lp64 quiet (waiting [oneLed]) = .ok p := by
  refine (frame_pass_safe_iff bound_ready (listening_ready _ _) Run.nil quiet).mpr fun d hd _ => ?_
  obtain rfl : oneLed = d := Option.some.inj hd
  have hcount : ∀ k < min 1 MAX_CHANNELS,
      (countAt (overlay (Vector.replicate _ 0) oneLed.bytes) k).toNat ≤ LED_COUNT_SPI := by decide
  exact ⟨by decide, 1, oneLed_headerEnds, by decide, Or.inl (by decide), Or.inr hcount⟩

/-- A datagram too short for a frame, or one that fits the receive buffer, whose header ends within
the table of counts by its own bytes (or is too short to leave this table even over old bytes), and
whose first two counts fit the channels of the SPI. -/
def Datagram.Safe (d : Datagram) : Prop :=
  4 < d.bytes.length → d.bytes.length ≤ MAX_SENDBUFFER_SIZE ∧
    (firstStop d.bytes ≤ 7 ∨ firstStop d.bytes < d.bytes.length ∧ firstStop d.bytes ≤ 13) ∧
    ∀ k < min (firstStop d.bytes / 2) MAX_CHANNELS, (ownCount d.bytes k).toNat ≤ LED_COUNT_SPI

instance (d : Datagram) : Decidable d.Safe := inferInstanceAs (Decidable (_ → _))

theorem firstStop_le (bytes : List UInt8) : firstStop bytes ≤ bytes.length :=
  List.findIdx_le_length

theorem HeaderEnds.unique {message : Message} {left i j : Nat} (hi : HeaderEnds message left i)
    (hj : HeaderEnds message left j) : i = j := by
  rcases Nat.lt_trichotomy i j with hlt | heq | hgt
  · have hle := hj.le
    exact absurd (hi.stop.resolve_left (by omega)) (hj.before i hlt)
  · exact heq
  · have hle := hi.le
    exact absurd (hj.stop.resolve_left (by omega)) (hi.before j hgt)

theorem Datagram.Safe.ends {d : Datagram} (hd : d.Safe) (h4 : 4 < d.bytes.length)
    (old : Message) : d.bytes.length ≤ MAX_SENDBUFFER_SIZE ∧ ∃ j ≤ 6,
      HeaderEnds (overlay old d.bytes) (d.bytes.length - 1) j ∧
      ∀ k < min j MAX_CHANNELS, (countAt (overlay old d.bytes) k).toNat ≤ LED_COUNT_SPI := by
  obtain ⟨hmax, hstop, hcounts⟩ := hd h4
  have hstop_le := firstStop_le d.bytes
  by_cases hlt : firstStop d.bytes < d.bytes.length
  · refine ⟨hmax, _, by omega, own_headerEnds hmax old hlt, fun k hk => ?_⟩
    rw [countAt_own hmax old (by omega)]
    exact hcounts k hk
  · obtain ⟨j, hends⟩ := headerEnds_exists (overlay old d.bytes) (d.bytes.length - 1)
    have hle := hends.le
    refine ⟨hmax, j, by omega, hends, fun k hk => ?_⟩
    unfold MAX_CHANNELS at hk hcounts
    rw [countAt_own hmax old (by omega)]
    exact hcounts k (by omega)

theorem Datagram.Safe.pass {d : Datagram} (hd : d.Safe) (dm : DataModel) (world : World)
    {s : MainState} (hm : s.frameInput.Ready) (hready : s.spiOut.Ready)
    (hhead : s.pending.head? = some d) : ∃ p, framePass dm world s = .ok p := by
  by_cases h4 : 4 < d.bytes.length
  · obtain ⟨rest, hp⟩ := List.head?_eq_some_iff.mp hhead
    obtain ⟨hmax, j, hj, hends, hcounts⟩ := hd.ends h4 s.message
    obtain ⟨p, _, hpass, _⟩ :=
      framePass_ok_of_counts dm world hm hready hp h4 hmax hends hj hcounts
    exact ⟨p, hpass⟩
  · refine ⟨_, framePass_leaves hm fun d' hd' => ?_⟩
    rw [hhead] at hd'
    cases hd'
    omega

/-- Over a buffer of zeros a header without a byte 0xff goes on to its bound. -/
theorem unstopped_headerEnds {bytes : List UInt8} (hmax : bytes.length ≤ MAX_SENDBUFFER_SIZE)
    (hstop : firstStop bytes = bytes.length) :
    HeaderEnds (overlay (Vector.replicate _ 0) bytes) (bytes.length - 1) (bytes.length - 1) := by
  have hzero : ∀ i, cell (overlay (Vector.replicate _ 0) bytes : Message) i ≠ 0xff := by
    intro i
    by_cases hi : i < bytes.length
    · exact cell_before_stop hmax _ (by omega)
    · rw [cell_stale hmax _ (by omega), cell_replicate]
      split <;> decide
  exact ⟨Nat.le_refl _, fun c _ => not_or.mpr ⟨hzero _, hzero _⟩, Or.inl rfl⟩

/-- The datagrams that no state of the frame loop and no store of the type listener can turn into an
access outside an array are the safe ones. -/
theorem datagram_safe_iff (dm : DataModel) (d : Datagram) :
    (∀ (world : World) (s : MainState), s.frameInput.Ready → s.spiOut.Ready →
      s.pending.head? = some d → ∃ p, framePass dm world s = .ok p) ↔ d.Safe := by
  refine ⟨fun h h4 => ?_, fun hd world s hm hready hhead => hd.pass dm world hm hready hhead⟩
  obtain ⟨hmax, j, hinside⟩ := (framePass_frame_iff bound_ready
    (listening_ready (Vector.replicate _ 0) [d]) rfl h4).mp
    (h toSpi (listening (Vector.replicate _ 0) [d]) bound_ready (listening_ready _ _) rfl)
  have hj := hinside.counts
  have hcounts := hinside.output
  rw [loadOf_toSpi] at hcounts
  have hcounts' := hcounts.resolve_left nofun
  have hstop_le := firstStop_le d.bytes
  have hends : HeaderEnds (overlay (Vector.replicate _ 0) d.bytes) (d.bytes.length - 1) j :=
    hinside.ends
  by_cases hlt : firstStop d.bytes < d.bytes.length
  · obtain rfl := hends.unique (own_headerEnds hmax _ hlt)
    refine ⟨hmax, Or.inr ⟨hlt, by omega⟩, fun k hk => ?_⟩
    have := hcounts' k hk
    rwa [countAt_own hmax _ (by omega)] at this
  · obtain rfl := hends.unique (unstopped_headerEnds hmax (by omega))
    refine ⟨hmax, Or.inl (by omega), fun k hk => ?_⟩
    unfold MAX_CHANNELS at hk hcounts'
    have := hcounts' k (by omega)
    rwa [countAt_own hmax _ (by omega)] at this

/-- The run lemma: as long as all datagrams are safe, so is the next one. -/
theorem run_safe_pass {dm : DataModel} {start s : MainState} (hm : start.frameInput.Ready)
    (hready : start.spiOut.Ready) {steps : List (Step MainState (World × Pass))}
    (h : Run (PassStep dm) start steps s)
    (hsafe : ∀ d ∈ start.pending ++ arrived steps, d.Safe) (world : World) :
    ∃ p, framePass dm world s = .ok p := by
  obtain ⟨hm', hready'⟩ := run_spiReady hm hready h
  obtain ⟨hqueue, _⟩ := run_taken hm h
  cases hhead : s.pending.head? with
  | none => exact ⟨_, framePass_leaves hm' (by simp [hhead])⟩
  | some d =>
    have hmem : d ∈ start.pending ++ arrived steps := by
      rw [hqueue]
      exact List.mem_append_right _ (List.mem_of_mem_head? hhead)
    exact (hsafe d hmem).pass dm world hm' hready' hhead

/-- In every run of the program in which all datagrams so far are safe, the next pass over the queue
stays inside its arrays, whatever the type listener stores meanwhile. -/
theorem safe_datagrams_never_fault {dm : DataModel} {main : MainState} {listener : TypeListener}
    {steps : List (Step Program ProgramEvent)} {s : Program} (hm : main.frameInput.Ready)
    (hready : main.spiOut.Ready) (hlooping : main.looping = true)
    (h : Run (ProgramStep dm) (Program.start main listener) steps s)
    (hsafe : ∀ d ∈ main.pending ++ arrived (passesOf steps), d.Safe) (world : World) :
    ∃ p, framePass dm world s.main = .ok p :=
  run_safe_pass hm hready (run_passes hlooping h) hsafe world

theorem safe_datagrams_never_fault_one : ∃ p, framePass lp64 flips firstPass.main = .ok p := by
  have hsafe : ∀ d ∈ (waiting [oneLed]).pending ++ arrived (passesOf firstPassSteps), d.Safe := by
    have hall : (waiting [oneLed]).pending ++ arrived (passesOf firstPassSteps) = [oneLed] := rfl
    rw [hall]
    exact List.forall_mem_singleton.mpr (by decide)
  have hready : (waiting [oneLed]).spiOut.Ready := listening_ready _ _
  exact safe_datagrams_never_fault bound_ready hready rfl firstPass_run hsafe flips

end LmListener
