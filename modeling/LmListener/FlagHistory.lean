import LmListener.FrameMeaning
import LmListener.FrameQueue
import LmListener.FrameWords
import LmListener.StreamFlags

namespace LmListener

open Checked CTypes Latest Runs

structure Announced where
  chanCntr : Nat
  leds : Nat → Nat
  totalLedsNum : Nat

def announced (bytes : List UInt8) : Announced where
  chanCntr := min (firstStop bytes / 2) MAX_CHANNELS
  leds k := (ownCount bytes k).toNat
  totalLedsNum := (bytes.length - (firstStop bytes / 2 * 2 + 2)) / 3

/-- The number of the load that selects the output, after one load for each pixel. -/
def Announced.outputLoad (a : Announced) : Nat :=
  1 + min (chanOffset a.leds a.chanCntr) a.totalLedsNum

def Announced.SpiWritten (a : Announced) (isWS : Nat → Bool) (k m : Nat) : Prop :=
  LmListener.SpiWritten isWS a.leds a.chanCntr a.totalLedsNum k m

/-- An end frame of the transmission of channel `k` comes to lie on LED `m`. -/
def Announced.Ended (a : Announced) (k m : Nat) : Prop :=
  k < a.chanCntr ∧ 0 < a.leds k ∧ a.leds k ≤ m ∧ m + 1 < wordsFor (a.leds k)

instance (a : Announced) (isWS : Nat → Bool) (k m : Nat) : Decidable (a.SpiWritten isWS k m) :=
  inferInstanceAs (Decidable (LmListener.SpiWritten ..))

instance (a : Announced) (k m : Nat) : Decidable (a.Ended k m) :=
  inferInstanceAs (Decidable (_ ∧ _))

/-- The pair with the first 0xff of the datagram, which ends its header, lies inside it. -/
def Terminated (bytes : List UInt8) : Prop :=
  firstStop bytes < bytes.length ∧ firstStop bytes / 2 * 2 + 2 ≤ bytes.length

instance (bytes : List UInt8) : Decidable (Terminated bytes) := inferInstanceAs (Decidable (_ ∧ _))

/-- What a pass does to the flag of LED `m` of channel `k`: a colour sets it, an end frame over it
clears it. -/
def flagEffect (k m : Nat) (t : Step MainState (World × Pass)) : Option Bool :=
  match t.before.pending.head? with
  | none => none
  | some d =>
    let a := announced d.bytes
    let isWS := loadOf t.before.isWS t.event.1.stores
    if d.bytes.length ≤ 4 then none
    else if isWS a.outputLoad = false ∧ a.Ended k m then some false
    else if a.SpiWritten isWS k m then some true
    else none

/-- If the frame is output through the SPI, each LED it announces has a colour in its payload that
goes to the SPI, or had its flag before. -/
def LedsReady (had : Nat → Nat → Bool) (t : Step MainState (World × Pass)) (d : Datagram) : Prop :=
  let a := announced d.bytes
  let isWS := loadOf t.before.isWS t.event.1.stores
  isWS a.outputLoad = false →
    ∀ k < a.chanCntr, ∀ m < a.leds k, a.SpiWritten isWS k m ∨ had k m = true

def flagOf (spiOut : SpiOut) (k m : Nat) : Bool := decide ((spiOut.word k (m + 1)).f = 0xff)

section

variable {dm : DataModel} {world : World} {s : MainState} {p : Pass}

theorem framePass_idle (hm : s.frameInput.Ready)
    (hidle : ∀ d, s.pending.head? = some d → d.bytes.length ≤ 4)
    (h : framePass dm world s = .ok p) : Flagged p.outputs ∧ p.state.spiOut = s.spiOut := by
  have hleaves := receiveFrame_leaves
    (s := (s.switch (loadOf s.isWS world.stores 0)).1) hm dm hidle
  obtain ⟨t, received, hrec, ⟨_, rfl⟩ | ⟨n, q, hn, _⟩⟩ := framePass_cases h
  · rw [hleaves] at hrec
    cases hrec
    exact ⟨flagged_switch _ _, rfl⟩
  · rw [hleaves] at hrec
    cases hrec
    cases hn

theorem framePass_announced (hm : s.frameInput.Ready) (hready : s.spiOut.Ready) {d : Datagram}
    (hp : s.pending.head? = some d) (h4 : 4 < d.bytes.length) (hterm : Terminated d.bytes)
    (h : framePass dm world s = .ok p) :
    ∃ f spiOut outputs looping, f.pixels.spiOut.Ready ∧
      f.header.channels = (announced d.bytes).chanCntr ∧
      (∀ k < (announced d.bytes).chanCntr, f.header.leds k = (announced d.bytes).leds k) ∧
      (∀ k m, m ≤ LED_COUNT_SPI → ((f.pixels.spiOut.word k (m + 1)).f = 0xff ↔
        (announced d.bytes).SpiWritten (loadOf s.isWS world.stores) k m ∨
          (s.spiOut.word k (m + 1)).f = 0xff)) ∧
      outputFrame dm (loadOf s.isWS world.stores (announced d.bytes).outputLoad) world.rendered f =
        .ok (spiOut, outputs, looping) ∧
      p.state.spiOut = spiOut ∧
      p.outputs = (s.switch (loadOf s.isWS world.stores 0)).2 ++ outputs := by
  obtain ⟨rest, hp⟩ := List.head?_eq_some_iff.mp hp
  obtain ⟨hstop, hinside⟩ := hterm
  have hmax : d.bytes.length ≤ MAX_SENDBUFFER_SIZE := by
    by_contra hmax
    obtain ⟨t, received, hrec, _⟩ := framePass_cases h
    have hfault := receiveFrame_faults
      (s := (s.switch (loadOf s.isWS world.stores 0)).1) hm dm hp (Nat.lt_of_not_le hmax)
    rw [hfault] at hrec
    cases hrec
  obtain ⟨f, spiOut, outputs, looping, hf, ho, _, hstate, hout, _⟩ :=
    framePass_frame hm hp h4 hmax h
  obtain ⟨_, _, hoff, hch, hl⟩ := readFrame_headerEnds (own_headerEnds hmax s.message hstop) hf
  have hleds : ∀ k < (announced d.bytes).chanCntr,
      f.header.leds k = (announced d.bytes).leds k := by
    intro k hk
    simp only [announced] at hk ⊢
    rw [hl k (by omega), countAt_own hmax s.message (by omega)]
  have hloads : f.pixels.loads = (announced d.bytes).outputLoad := by
    have hoffset := chanOffset_congr hleds
    rw [(readFrame_writes hf).1, Header.pixels, length_framePixels, hoff, hch,
      totalLedsNum_of_le hinside hmax]
    rw [announced] at hoffset
    rw [hoffset]
    rfl
  rw [hloads] at ho
  refine ⟨f, spiOut, outputs, looping, hready.of_shape (readFrame_reflects hready hf).shape, hch,
    hleds, fun k m hm' => ?_, ho, hstate, hout⟩
  have hwritten : SpiWritten (loadOf s.isWS world.stores) f.header.leds
      (announced d.bytes).chanCntr (announced d.bytes).totalLedsNum k m ↔
        (announced d.bytes).SpiWritten (loadOf s.isWS world.stores) k m := SpiWritten.congr hleds
  simp only [announced] at hwritten
  rw [readFrame_spiWord hready hf hm', hoff, hch, totalLedsNum_of_le hinside hmax]
  split
  next hw => exact ⟨fun _ => Or.inl (hwritten.mp hw), fun _ => rfl⟩
  next hw => exact ⟨Or.inr, fun hor => hor.resolve_left fun ha => hw (hwritten.mpr ha)⟩

theorem framePass_flagged_iff (hm : s.frameInput.Ready) (hready : s.spiOut.Ready) {d : Datagram}
    (hp : s.pending.head? = some d) (h4 : 4 < d.bytes.length) (hterm : Terminated d.bytes)
    (h : framePass dm world s = .ok p) {had : Nat → Nat → Bool}
    (hhad : ∀ k < MAX_CHANNELS, ∀ m < LED_COUNT_SPI, had k m = flagOf s.spiOut k m)
    (s' : MainState) : Flagged p.outputs ↔ LedsReady had ⟨s, (world, p), s'⟩ d := by
  obtain ⟨f, spiOut, outputs, looping, hpixels, hch, hleds, hflag, ho, _, hout⟩ :=
    framePass_announced hm hready hp h4 hterm h
  rw [hout, flagged_append]
  rcases outputFrame_cases hpixels ho with ⟨hws, _, rfl⟩ | ⟨hspi, _, hfits, _, rfl⟩
  · have hrender : Flagged [.render f.pixels.wsOut] := flagged_of_quiet (by simp)
    refine ⟨fun _ hspi => ?_, fun _ => ⟨flagged_switch s _, hrender⟩⟩
    exact absurd (hws.symm.trans hspi) (by decide)
  · have hsleep : Flagged [.sleepFor f.header.maxLedsInChan] := flagged_of_quiet (by simp)
    have hword : ∀ k < (announced d.bytes).chanCntr, ∀ m < (announced d.bytes).leds k,
        (f.pixels.spiOut.word k (m + 1)).f = 0xff ↔
          (announced d.bytes).SpiWritten (loadOf s.isWS world.stores) k m ∨ had k m = true := by
      intro k hk m hm'
      have hcap := hfits k (by omega)
      rw [hleds k hk] at hcap
      have hk' : k < MAX_CHANNELS := lt_of_lt_of_le hk (Nat.min_le_right _ _)
      rw [hflag k m (by omega), hhad k hk' m (by omega), flagOf, decide_eq_true_iff]
    rw [flagged_append, flagged_transmissions_iff, hch]
    constructor
    · intro hboth _ k hk m hm'
      obtain ⟨_, hsent, _⟩ := hboth
      exact (hword k hk m hm').mp (hsent k hk m (by rwa [hleds k hk]))
    · intro hall
      refine ⟨flagged_switch s _, fun k hk m hm' => ?_, hsleep⟩
      rw [hleds k hk] at hm'
      exact (hword k hk m hm').mpr (hall hspi k hk m hm')

theorem afterSend_flag {n m : Nat} {word : Nat → Sk9822Color} :
    (afterSend n word (m + 1)).f = 0xff ↔
      ¬(0 < n ∧ n ≤ m ∧ m + 1 < wordsFor n) ∧ (word (m + 1)).f = 0xff := by
  unfold afterSend
  split
  next hz => simp [hz]
  next hz =>
    rw [if_neg (Nat.succ_ne_zero m)]
    split
    next hend =>
      have hzero : endFrame.f ≠ 0xff := by decide
      exact ⟨fun h => absurd h hzero, fun h => absurd ⟨by omega, by omega, hend.2⟩ h.1⟩
    next hend => exact ⟨fun h => ⟨fun he => hend ⟨by omega, he.2.2⟩, h⟩, And.right⟩

/-- The step lemma for the flags. -/
theorem framePass_flag (hm : s.frameInput.Ready) (hready : s.spiOut.Ready)
    (hterm : ∀ d, s.pending.head? = some d → 4 < d.bytes.length → Terminated d.bytes)
    (h : framePass dm world s = .ok p) {s' : MainState} {k m : Nat} (hm' : m < LED_COUNT_SPI) :
    flagOf p.state.spiOut k m =
      (flagEffect k m ⟨s, (world, p), s'⟩).getD (flagOf s.spiOut k m) := by
  by_cases hframe : ∃ d, s.pending.head? = some d ∧ 4 < d.bytes.length
  · obtain ⟨d, hd, h4⟩ := hframe
    obtain ⟨f, spiOut, outputs, looping, hpixels, hch, hleds, hflag, ho, hstate, _⟩ :=
      framePass_announced hm hready hd h4 (hterm d hd h4) h
    have hwords := hflag k m (Nat.le_of_lt hm')
    have heffect : flagEffect k m ⟨s, (world, p), s'⟩ =
        if loadOf s.isWS world.stores (announced d.bytes).outputLoad = false ∧
            (announced d.bytes).Ended k m then some false
        else if (announced d.bytes).SpiWritten (loadOf s.isWS world.stores) k m then some true
        else none := by
      simp only [flagEffect, hd]
      rw [if_neg (by omega)]
    have hafter : (spiOut.word k (m + 1)).f = 0xff ↔
        ¬(loadOf s.isWS world.stores (announced d.bytes).outputLoad = false ∧
          (announced d.bytes).Ended k m) ∧ (f.pixels.spiOut.word k (m + 1)).f = 0xff := by
      rcases outputFrame_cases hpixels ho with ⟨hws, rfl, _⟩ | ⟨hspi, _, _, hw, _⟩
      · simp [hws]
      · rw [hw, hch, hspi]
        by_cases hk : k < (announced d.bytes).chanCntr
        · rw [if_pos hk, hleds k hk, afterSend_flag]
          simp only [Announced.Ended, hk, true_and]
        · simp [hk, Announced.Ended]
    rw [hstate, heffect, flagOf, flagOf]
    split_ifs with hend hspi
    · exact decide_eq_false fun hf => (hafter.mp hf).1 hend
    · exact decide_eq_true (hafter.mpr ⟨hend, hwords.mpr (Or.inl hspi)⟩)
    · rw [Option.getD_none, decide_eq_decide, hafter, hwords]
      exact ⟨fun hf => hf.2.resolve_left hspi, fun hf => ⟨hend, Or.inr hf⟩⟩
  · have hidle : ∀ d, s.pending.head? = some d → d.bytes.length ≤ 4 :=
      fun d hd => Nat.le_of_not_lt fun h4 => hframe ⟨d, hd, h4⟩
    have heffect : flagEffect k m ⟨s, (world, p), s'⟩ = none := by
      unfold flagEffect
      split
      next => rfl
      next d hd => exact if_pos (hidle d hd)
    rw [heffect, (framePass_idle hm hidle h).2]
    rfl

end

theorem run_spiReady {dm : DataModel} {start s : MainState} (hm : start.frameInput.Ready)
    (hready : start.spiOut.Ready) {steps : List (Step MainState (World × Pass))}
    (h : Run (PassStep dm) start steps s) : s.frameInput.Ready ∧ s.spiOut.Ready :=
  h.inv (fun s => s.frameInput.Ready ∧ s.spiOut.Ready) ⟨hm, hready⟩
    fun _ _ _ hr ⟨_, hpass, he⟩ =>
      he ▸ ⟨framePass_ready hr.1 hpass, framePass_spiReady hr.2 hpass⟩

theorem run_flag {dm : DataModel} {start s : MainState} (hm : start.frameInput.Ready)
    (hready : start.spiOut.Ready) {steps : List (Step MainState (World × Pass))}
    (h : Run (PassStep dm) start steps s)
    (hterm : ∀ t ∈ steps, ∀ d, t.before.pending.head? = some d → 4 < d.bytes.length →
      Terminated d.bytes) {k m : Nat} (hm' : m < LED_COUNT_SPI) :
    flagOf s.spiOut k m = (lastSome (flagEffect k m) steps).getD (flagOf start.spiOut k m) := by
  induction h with
  | nil => rfl
  | @snoc steps s s' e before last ih =>
    obtain ⟨hm₁, hready₁⟩ := run_spiReady hm hready before
    obtain ⟨_, hpass, rfl⟩ := last
    rw [lastSome_concat, framePass_flag hm₁ hready₁ (hterm ⟨s, e, e.2.state⟩ (by simp)) hpass hm',
      ih fun t ht => hterm t (by simp [ht])]
    cases flagEffect k m ⟨s, e, e.2.state⟩ <;> rfl

def mallocFlag (content₁ content₂ : Nat → Sk9822Color) (k m : Nat) : Bool :=
  decide (((if k = 0 then content₁ else content₂) (m + 1)).f = 0xff)

theorem spiSetup_flag (dm : DataModel) (fd : Int32) (content₁ content₂ : Nat → Sk9822Color)
    {k m : Nat} (hk : k < MAX_CHANNELS) (hm : m < LED_COUNT_SPI) :
    flagOf (spiSetup dm ⟨fd, []⟩ (some content₁) (some content₂)) k m =
      mallocFlag content₁ content₂ k m := by
  have hi : m + 1 < wordsFor LED_COUNT_SPI := by
    unfold wordsFor
    omega
  rw [flagOf, mallocFlag, spiSetup_word dm fd content₁ content₂ hk hi]

/-- In every run over terminated headers, whatever the blocks of the two channels held at first,
all LED words sent have their flag exactly when each frame finds its LEDs ready. -/
theorem spi_streams_flagged_iff {dm : DataModel} {s : MainState} {frameInput : UdpManager}
    (hm : frameInput.Ready) {message : Message} {wsOut : WsOut} {fd : Int32}
    {content₁ content₂ : Nat → Sk9822Color} {pending : List Datagram}
    {steps : List (Step MainState (World × Pass))}
    (h : Run (PassStep dm) (MainState.start frameInput message wsOut
      (spiSetup dm ⟨fd, []⟩ (some content₁) (some content₂)) pending) steps s)
    (hterm : ∀ t ∈ steps, ∀ d, t.before.pending.head? = some d → 4 < d.bytes.length →
      Terminated d.bytes) :
    (∀ t ∈ steps, Flagged t.event.2.outputs) ↔
      ∀ earlier t later, steps = earlier ++ t :: later →
        ∀ d, t.before.pending.head? = some d → 4 < d.bytes.length →
          LedsReady (fun k m => (lastSome (flagEffect k m) earlier).getD
            (mallocFlag content₁ content₂ k m)) t d := by
  have hready := spiSetup_ready dm fd content₁ content₂
  have hstep : ∀ earlier t later, steps = earlier ++ t :: later →
      ∀ d, t.before.pending.head? = some d → 4 < d.bytes.length →
        (Flagged t.event.2.outputs ↔ LedsReady (fun k m => (lastSome (flagEffect k m) earlier).getD
          (mallocFlag content₁ content₂ k m)) t d) := by
    intro earlier t later he d hd h4
    subst he
    obtain ⟨hbefore, _, hpass, _⟩ := h.split earlier t later rfl
    obtain ⟨hm', hready'⟩ := run_spiReady hm hready hbefore
    refine framePass_flagged_iff hm' hready' hd h4 (hterm t (by simp) d hd h4) hpass ?_ t.after
    intro k hk m hm₂
    rw [run_flag hm hready hbefore (fun u hu => hterm u (by simp [hu])) hm₂, MainState.start,
      spiSetup_flag dm fd content₁ content₂ hk hm₂]
  constructor
  · intro hall earlier t later he d hd h4
    exact (hstep earlier t later he d hd h4).mp (hall t (by simp [he]))
  · intro hall t ht
    obtain ⟨earlier, later, he⟩ := List.append_of_mem ht
    obtain ⟨hbefore, _, hpass, _⟩ := h.split earlier t later he
    by_cases hframe : ∃ d, t.before.pending.head? = some d ∧ 4 < d.bytes.length
    · obtain ⟨d, hd, h4⟩ := hframe
      exact (hstep earlier t later he d hd h4).mpr (hall earlier t later he d hd h4)
    · exact (framePass_idle (run_spiReady hm hready hbefore).1
        (fun d hd => Nat.le_of_not_lt fun h4 => hframe ⟨d, hd, h4⟩) hpass).1

theorem spi_streams_flagged_one :
    ∃ p, framePass lp64 toSpi (waiting [oneLed]) = .ok p ∧ Flagged p.outputs := by
  obtain ⟨p, _, hp, _⟩ := oneLed_pass [] toSpi
  have hrun : Run (PassStep lp64) (waiting [oneLed])
      ([] ++ [⟨waiting [oneLed], (toSpi, p), p.state⟩]) p.state := Run.nil.snoc ⟨rfl, hp, rfl⟩
  refine ⟨p, hp, (spi_streams_flagged_iff bound_ready hrun ?_).mpr ?_ _ (List.mem_singleton_self _)⟩
  · intro t ht d hd _
    obtain rfl := List.mem_singleton.mp ht
    obtain rfl : oneLed = d := Option.some.inj hd
    decide
  · intro earlier t later he d hd _
    cases earlier with
    | cons x rest => simp at he
    | nil =>
      obtain ⟨rfl, rfl⟩ := List.cons.inj he
      obtain rfl : oneLed = d := Option.some.inj hd
      intro _ k hk m hm
      have hone : (announced oneLed.bytes).chanCntr = 1 := by decide
      have hled : (announced oneLed.bytes).leds 0 = 1 := by decide
      obtain rfl : k = 0 := by omega
      obtain rfl : m = 0 := by omega
      exact Or.inl ⟨⟨⟨hk, hm⟩, by decide⟩, Or.inl (loadOf_toSpi _ _)⟩

def noColour : Datagram := ⟨frameBytes [1] [0], default, by decide⟩

/-- Over a block that holds zeroes, the transmission of the first frame has a start frame where its
LED word should be. -/
theorem spi_word_sent_unwritten :
    ∃ p, Run (PassStep lp64) (waiting [noColour]) [⟨waiting [noColour], (toSpi, p), p.state⟩]
        p.state ∧
      ¬Flagged p.outputs := by
  have hready := listening_ready (Vector.replicate _ 0) [noColour]
  have hcount : ∀ k < min 1 MAX_CHANNELS,
      (countAt (overlay (Vector.replicate _ 0) noColour.bytes) k).toNat ≤ LED_COUNT_SPI := by decide
  have hmax : (frameBytes [1] [0]).length ≤ MAX_SENDBUFFER_SIZE := by decide
  have hpending : (waiting [noColour]).pending = [noColour] := rfl
  obtain ⟨p, _, hp, _⟩ := framePass_ok_of_counts lp64 toSpi bound_ready hready hpending (by decide)
    (by decide) (frame_headerEnds hmax (Vector.replicate _ 0)) (by decide) hcount
  refine ⟨p, Run.nil.snoc ⟨rfl, hp, rfl⟩, fun h => ?_⟩
  have hled := (framePass_flagged_iff bound_ready hready rfl (by decide) (by decide) hp
    (fun _ _ _ _ => rfl) p.state).mp h (loadOf_toSpi _ _) 0 (by decide) 0 (by decide)
  rcases hled with hwritten | hhad
  · exact absurd hwritten.1.2 (by decide)
  · have hzero := spiSetup_flag lp64 3 (fun _ => default) (fun _ => default) (k := 0) (m := 0)
      (by decide) (by decide)
    exact absurd (hzero.symm.trans hhad) (by decide)

end LmListener
