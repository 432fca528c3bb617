import LmListener.FrameOrder

namespace LmListener

open Checked CTypes Latest Runs

theorem TypeMap.lookup_eq_none_iff {map : TypeMap} {key : List UInt8} :
    map.lookup key = none ↔ key ∉ map.names := by
  rw [List.lookup_eq_none_iff]
  simp only [TypeMap.names, List.mem_map, not_exists, not_and, bne_iff_ne]
  exact ⟨fun h entry he hk => h entry he hk.symm, fun h entry he hk => h entry he hk.symm⟩

theorem TypeMap.subscript_names (map : TypeMap) (key : List UInt8) :
    (map.subscript key).2.names = if key ∈ map.names then map.names else key :: map.names := by
  unfold TypeMap.subscript
  split
  next value h =>
    have hmem : key ∈ map.names := by
      by_contra hmem
      rw [TypeMap.lookup_eq_none_iff.mpr hmem] at h
      cases h
    rw [if_pos hmem]
  next h => rw [if_neg (TypeMap.lookup_eq_none_iff.mp h)]; rfl

theorem TypeMap.subscript_value {map : TypeMap} {value : List UInt8 → Nat}
    (h : ∀ entry ∈ map, entry.2 = value entry.1) {key : List UInt8}
    (hkey : key ∉ map.names → value key = 0) :
    (map.subscript key).1 = value key ∧
      ∀ entry ∈ (map.subscript key).2, entry.2 = value entry.1 := by
  unfold TypeMap.subscript
  split
  next v hv =>
    obtain ⟨before, after, he, _⟩ := List.lookup_eq_some_iff.mp hv
    exact ⟨h (key, v) (by simp [he]), h⟩
  next hv =>
    have hzero := hkey (TypeMap.lookup_eq_none_iff.mp hv)
    exact ⟨hzero.symm, List.forall_mem_cons.mpr ⟨hzero.symm, h⟩⟩

/-- The name an answer gives: the first six bytes of a datagram that has them. -/
def nameOf : RecvFrom → Option (List UInt8)
  | .received d => if d.bytes.length < 6 then none else some (d.bytes.take 6)
  | .failed _ => none

/-- The mode after these answers: every name but SK9822 stands for WS281X. -/
def typeMode (isWS : Bool) (answers : List RecvFrom) : Bool :=
  match lastSome nameOf answers with
  | none => isWS
  | some name => decide (name ≠ nameSK9822)

def valueOf (name : List UInt8) : Nat := if name = nameSK9822 then TYPE_SK9822 else TYPE_WS281X

/-- The names in the map after these answers. -/
def NameSeen (answers : List RecvFrom) (name : List UInt8) : Prop :=
  name = nameWS281X ∨ name = nameSK9822 ∨ ∃ answer ∈ answers, nameOf answer = some name

/-- What the type listener holds after these answers. -/
structure TypeListener.Holds (isWS : Bool) (answers : List RecvFrom) (s : TypeListener) :
    Prop where
  ready : s.typeInput.Ready
  current : s.currentType = (lastSome nameOf answers).getD []
  mode : s.isWS = typeMode isWS answers
  names : ∀ name, name ∈ s.ledTypeToEnum.names ↔ NameSeen answers name
  nodup : s.ledTypeToEnum.names.Nodup
  values : ∀ entry ∈ s.ledTypeToEnum, entry.2 = valueOf entry.1

theorem nameSeen_concat (answers : List RecvFrom) (answer : RecvFrom) (name : List UInt8) :
    NameSeen (answers ++ [answer]) name ↔ NameSeen answers name ∨ nameOf answer = some name := by
  simp only [NameSeen, List.mem_append, List.mem_singleton, or_and_right, exists_or,
    exists_eq_left, or_assoc]

theorem typeListener_start_holds {typeInput : UdpManager} (hr : typeInput.Ready)
    (message : Vector UInt8 6) (isWS : Bool) :
    (TypeListener.start typeInput message isWS).Holds isWS [] where
  ready := hr
  current := rfl
  mode := rfl
  names name := by simp [NameSeen, TypeListener.start, TypeMap.names, ledTypeToEnum]
  nodup := show ledTypeToEnum.names.Nodup by decide
  values := show ∀ entry ∈ ledTypeToEnum, entry.2 = valueOf entry.1 by decide

/-- An answer without a name, or with the current one, changes nothing the thread holds. -/
theorem TypeListener.Holds.same {isWS : Bool} {answers : List RecvFrom} {s s' : TypeListener}
    (hs : s.Holds isWS answers) {answer : RecvFrom} (hready : s'.typeInput.Ready)
    (hlast : lastSome nameOf (answers ++ [answer]) = lastSome nameOf answers)
    (hcurrent : s'.currentType = s.currentType) (hmap : s'.ledTypeToEnum = s.ledTypeToEnum)
    (hmode : s'.isWS = s.isWS) : s'.Holds isWS (answers ++ [answer]) := by
  refine ⟨hready, ?_, ?_, fun name => ?_, hmap ▸ hs.nodup, hmap ▸ hs.values⟩
  · rw [hcurrent, hs.current, hlast]
  · rw [hmode, hs.mode, typeMode, typeMode, hlast]
  · rw [hmap, hs.names, nameSeen_concat]
    refine ⟨Or.inl, fun h => h.elim id fun hn => ?_⟩
    rw [lastSome_concat, hn] at hlast
    exact Or.inr (Or.inr (lastSome_mem hlast.symm))

theorem TypeListener.Holds.fresh {isWS : Bool} {answers : List RecvFrom} {s s' : TypeListener}
    (hs : s.Holds isWS answers) {answer : RecvFrom} (hready : s'.typeInput.Ready)
    {name : List UInt8} (hn : nameOf answer = some name) (hcurrent : s'.currentType = name)
    (hmap : s'.ledTypeToEnum = (s.ledTypeToEnum.subscript name).2)
    (hmode : s'.isWS = ((s.ledTypeToEnum.subscript name).1 == TYPE_WS281X)) :
    s'.Holds isWS (answers ++ [answer]) := by
  have hlast : lastSome nameOf (answers ++ [answer]) = some name := by
    rw [lastSome_concat, hn]
    rfl
  have hkey : name ∉ s.ledTypeToEnum.names → valueOf name = 0 := by
    intro hnew
    have hne : name ≠ nameSK9822 := fun he => hnew ((hs.names name).mpr (Or.inr (Or.inl he)))
    rw [valueOf, if_neg hne, TYPE_WS281X]
  obtain ⟨hvalue, hvalues⟩ := TypeMap.subscript_value hs.values hkey
  have hnames := s.ledTypeToEnum.subscript_names name
  refine ⟨hready, by rw [hcurrent, hlast]; rfl, ?_, fun other => ?_, ?_, hmap ▸ hvalues⟩
  · rw [hmode, hvalue, typeMode, hlast, valueOf]
    by_cases he : name = nameSK9822 <;> simp [he, TYPE_WS281X, TYPE_SK9822]
  · rw [hmap, hnames, nameSeen_concat, ← hs.names, hn, Option.some.injEq]
    by_cases hmem : name ∈ s.ledTypeToEnum.names
    · rw [if_pos hmem]
      exact ⟨Or.inl, fun h => h.elim id fun he => he ▸ hmem⟩
    · rw [if_neg hmem, List.mem_cons, or_comm, eq_comm]
  · rw [hmap, hnames]
    by_cases hmem : name ∈ s.ledTypeToEnum.names
    · rw [if_pos hmem]
      exact hs.nodup
    · rw [if_neg hmem]
      exact List.nodup_cons.mpr ⟨hmem, hs.nodup⟩

theorem TypeListener.Holds.step {isWS : Bool} {answers : List RecvFrom} {s : TypeListener}
    (hs : s.Holds isWS answers) (dm : DataModel) (answer : RecvFrom) :
    ∃ s', s.step dm answer = .ok s' ∧ s'.Holds isWS (answers ++ [answer]) := by
  obtain ⟨s', ho, hready, hh⟩ := TypeListener.step_handles dm hs.ready answer
  refine ⟨s', ho, ?_⟩
  cases answer with
  | failed errno =>
    obtain ⟨hcurrent, hmap, hmode⟩ := hh
    exact hs.same hready (by rw [lastSome_concat]; rfl) hcurrent hmap hmode
  | received d =>
    simp only [Handles] at hh
    by_cases hshort : d.bytes.length < 6
    · rw [if_pos (Or.inl hshort)] at hh
      obtain ⟨hcurrent, hmap, hmode⟩ := hh
      have hn : nameOf (.received d) = none := if_pos hshort
      exact hs.same hready (by rw [lastSome_concat, hn, Option.none_or]) hcurrent hmap hmode
    · have hn : nameOf (.received d) = some (d.bytes.take 6) := if_neg hshort
      by_cases hsame : s.currentType = d.bytes.take 6
      · rw [if_pos (Or.inr hsame)] at hh
        obtain ⟨hcurrent, hmap, hmode⟩ := hh
        have hlast : lastSome nameOf answers = some (d.bytes.take 6) := by
          have hc := hs.current
          rw [hsame] at hc
          cases hl : lastSome nameOf answers with
          | none =>
            have hlen : (d.bytes.take 6).length = 6 := by simp; omega
            rw [hc, hl] at hlen
            cases hlen
          | some name =>
            rw [hc, hl]
            rfl
        exact hs.same hready (by rw [lastSome_concat, hn, hlast]; rfl) hcurrent hmap hmode
      · rw [if_neg (not_or.mpr ⟨hshort, hsame⟩)] at hh
        obtain ⟨hcurrent, hmap, hmode⟩ := hh
        exact hs.fresh hready hn hcurrent hmap hmode

/-- After any answers of the socket, known names or not, the type listener holds the last name, the
mode of that name, and a map with each name it has ever seen once: the table of types grows with
every unknown name. -/
theorem type_listener_holds (dm : DataModel) {typeInput : UdpManager} (hr : typeInput.Ready)
    (message : Vector UInt8 6) (isWS : Bool) (answers : List RecvFrom) :
    ∃ s, (TypeListener.start typeInput message isWS).run dm answers = .ok s ∧
      s.Holds isWS answers := by
  induction answers using List.reverseRecOn with
  | nil => exact ⟨_, rfl, typeListener_start_holds hr message isWS⟩
  | append_singleton answers answer ih =>
    obtain ⟨t, ht, hholds⟩ := ih
    obtain ⟨s, hs, hholds'⟩ := hholds.step dm answer
    unfold TypeListener.run at ht ⊢
    rw [List.foldlM_append, ht]
    exact ⟨s, bind_eq_ok.mpr ⟨t, rfl, bind_eq_ok.mpr ⟨s, hs, rfl⟩⟩, hholds'⟩

theorem type_listener_holds_sk9822 :
    ∃ s, (TypeListener.start bound (Vector.replicate 6 0) true).run lp64
        [.received ⟨nameSK9822, default, by decide⟩] = .ok s ∧ s.isWS = false := by
  obtain ⟨s, hs, hholds⟩ := type_listener_holds lp64 bound_ready (Vector.replicate 6 0) true
    [.received ⟨nameSK9822, default, by decide⟩]
  exact ⟨s, hs, hholds.mode.trans (by decide)⟩

/-- What the type listener holds in a run of the program. -/
theorem run_holds {dm : DataModel} {main : MainState} {typeInput : UdpManager}
    (hr : typeInput.Ready) {message : Vector UInt8 6} {isWS : Bool}
    {steps : List (Step Program ProgramEvent)} {s : Program}
    (h : Run (ProgramStep dm)
      (Program.start main (TypeListener.start typeInput message isWS)) steps s) :
    s.listener.Holds isWS (steps.filterMap fun t => answerOf t.event) := by
  obtain ⟨t, ht, hholds⟩ :=
    type_listener_holds dm hr message isWS (steps.filterMap fun t => answerOf t.event)
  rw [run_answers h] at ht
  cases ht
  exact hholds

theorem run_routed {dm : DataModel} {start s : MainState} (hr : start.Routed)
    {steps : List (Step MainState (World × Pass))} (h : Run (PassStep dm) start steps s) :
    s.Routed :=
  h.inv MainState.Routed hr fun _ _ _ hr ⟨_, hpass, he⟩ => he ▸ framePass_routed hr hpass

/-- In every run of the program and every interleaving, a frame whose pass sees the stores made
before it, and none later, goes out through one output alone, the one the last name on the type port
asks for, with the shield set for it. -/
theorem frames_follow_type {dm : DataModel} {frameInput : UdpManager} {message : Message}
    {wsOut : WsOut} {spiOut : SpiOut} {pending : List Datagram} {typeInput : UdpManager}
    (hr : typeInput.Ready) {typeMessage : Vector UInt8 6}
    {steps : List (Step Program ProgramEvent)} {s : Program}
    (h : Run (ProgramStep dm) (Program.start
      (MainState.start frameInput message wsOut spiOut pending)
      (TypeListener.start typeInput typeMessage GpioOutSwitcher.new.1.m_isWs)) steps s) :
    ∀ earlier t later, steps = earlier ++ t :: later → ∀ world p, t.event = .mainPass world p →
      world.stores 0 = t.before.unseen → (∀ n, 0 < n → world.stores n = []) →
      ∀ f, p.frame = some f →
        OneOutput dm ⟨t.before.main, (world, p), t.after.main⟩ f
          (typeMode true (earlier.filterMap fun t => answerOf t.event)) := by
  intro earlier t later he world p hevent hseen hquiet f hf
  obtain ⟨hrun, hstep⟩ := h.split earlier t later he
  rw [hevent] at hstep
  obtain ⟨_, _, hpass, _⟩ := hstep
  have hrouted : t.before.main.Routed :=
    run_routed (start_routed frameInput message wsOut spiOut pending) (run_passes rfl hrun)
  have hmode : loadOf t.before.main.isWS world.stores 0 =
      typeMode true (earlier.filterMap fun t => answerOf t.event) := by
    have hshared : t.before.listener.isWS = t.before.unseen.getLastD t.before.main.isWS :=
      run_flagShared rfl hrun
    rw [loadOf, hseen, ← hshared]
    exact (run_holds hr hrun).mode
  rw [← hmode]
  refine framePass_oneOutput hrouted hpass hf fun n hn _ b hb => ?_
  rw [show world.stores n = [] from hquiet n hn] at hb
  cases hb

theorem frames_follow_type_first :
    ∃ p f, framePass lp64 quiet firstPass.main = .ok p ∧
      OneOutput lp64 ⟨firstPass.main, (quiet, p), p.state⟩ f true := by
  obtain ⟨p, f, hp, hf, hrun⟩ := firstPass_frame
  exact ⟨p, f, hp, frames_follow_type bound_ready hrun firstPassSteps _ [] rfl quiet p rfl rfl
    (fun _ _ => rfl) f hf⟩

end LmListener
