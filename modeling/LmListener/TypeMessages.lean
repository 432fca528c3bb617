import LmListener.Latest
import LmListener.TypeListener

namespace LmListener

open Checked CTypes Latest

def modeOf (name : List UInt8) : Option Bool :=
  if name = nameWS281X then some true
  else if name = nameSK9822 then some false
  else none

/-- The mode a received datagram asks for by its first 6 bytes. -/
def recognised : RecvFrom → Option Bool
  | .received d => modeOf (d.bytes.take 6)
  | .failed _ => none

theorem modeOf_length {name : List UInt8} {mode : Bool} (h : modeOf name = some mode) :
    name.length = 6 := by
  unfold modeOf at h
  split at h
  next he => subst he; rfl
  next =>
    split at h
    next he => subst he; rfl
    next => cases h

theorem subscript_of_modeOf {name : List UInt8} {mode : Bool} (h : modeOf name = some mode) :
    (ledTypeToEnum.subscript name).2 = ledTypeToEnum ∧
      ((ledTypeToEnum.subscript name).1 == TYPE_WS281X) = mode := by
  unfold modeOf at h
  split at h
  next he => subst he; cases h; decide
  next =>
    split at h
    next he => subst he; cases h; decide
    next => cases h

theorem subscript_of_unknown {name : List UInt8} (h : modeOf name = none) :
    name ∉ ledTypeToEnum.names ∧ name ∈ (ledTypeToEnum.subscript name).2.names := by
  unfold modeOf at h
  split at h
  next => cases h
  next hw =>
    split at h
    next => cases h
    next hs =>
      have hl : ledTypeToEnum.lookup name = none := by
        rw [List.lookup_eq_none_iff]
        simp [ledTypeToEnum, hw, hs]
      refine ⟨by simp [ledTypeToEnum, TypeMap.names, hw, hs], ?_⟩
      simp [TypeMap.subscript, hl, TypeMap.names]

structure TypeListener.Known (s : TypeListener) : Prop where
  ready : s.typeInput.Ready
  map : s.ledTypeToEnum = LmListener.ledTypeToEnum
  current : s.currentType = [] ∨ modeOf s.currentType = some s.isWS

/-- A datagram long enough to be read as a name is one. -/
def KnownAnswer : RecvFrom → Prop
  | .received d => 6 ≤ d.bytes.length → modeOf (d.bytes.take 6) ≠ none
  | .failed _ => True

theorem TypeListener.Known.handles {s s' : TypeListener} (hs : s.Known) {answer : RecvFrom}
    (ha : KnownAnswer answer) (hr : s'.typeInput.Ready) (h : Handles s s' answer) :
    s'.Known ∧ s'.isWS = (recognised answer).getD s.isWS := by
  have keep (hc : s'.currentType = s.currentType) (hm : s'.ledTypeToEnum = s.ledTypeToEnum)
      (hw : s'.isWS = s.isWS) : s'.Known :=
    ⟨hr, hm.trans hs.map, by rw [hc, hw]; exact hs.current⟩
  cases answer with
  | failed errno =>
    obtain ⟨hc, hm, hw⟩ := h
    exact ⟨keep hc hm hw, hw⟩
  | received d =>
    simp only [Handles] at h
    by_cases hshort : d.bytes.length < 6
    · rw [if_pos (Or.inl hshort)] at h
      have hnone : recognised (.received d) = none := by
        by_contra hh
        obtain ⟨mode, hmode⟩ := Option.ne_none_iff_exists'.mp hh
        have := modeOf_length hmode
        simp only [List.length_take] at this
        omega
      exact ⟨keep h.1 h.2.1 h.2.2, by rw [hnone]; exact h.2.2⟩
    · obtain ⟨mode, hmode⟩ := Option.ne_none_iff_exists'.mp (ha (by omega))
      have hrec : recognised (.received d) = some mode := hmode
      by_cases hsame : s.currentType = d.bytes.take 6
      · rw [if_pos (Or.inr hsame)] at h
        have hcur : modeOf s.currentType = some s.isWS := by
          rcases hs.current with he | he
          · have := modeOf_length hmode
            rw [← hsame, he] at this
            cases this
          · exact he
        have hmw : mode = s.isWS := by
          rw [hsame, hmode] at hcur
          exact Option.some.inj hcur
        exact ⟨keep h.1 h.2.1 h.2.2, by rw [hrec, h.2.2, hmw]; rfl⟩
      · rw [if_neg (by tauto), hs.map] at h
        obtain ⟨hc, hm, hw⟩ := h
        obtain ⟨hsm, hsv⟩ := subscript_of_modeOf hmode
        have hwm : s'.isWS = mode := hw.trans hsv
        exact ⟨⟨hr, hm.trans hsm, Or.inr (by rw [hc, hwm]; exact hmode)⟩, by rw [hrec, hwm]; rfl⟩

theorem TypeListener.Known.step (dm : DataModel) {s : TypeListener} (hs : s.Known)
    {answer : RecvFrom} (ha : KnownAnswer answer) :
    ∃ s', s.step dm answer = .ok s' ∧ s'.Known ∧ s'.isWS = (recognised answer).getD s.isWS := by
  obtain ⟨s', ho, hr, hh⟩ := TypeListener.step_handles dm hs.ready answer
  exact ⟨s', ho, hs.handles ha hr hh⟩

theorem TypeListener.Known.run (dm : DataModel) {s : TypeListener} (hs : s.Known)
    (answers : List RecvFrom) (ha : ∀ answer ∈ answers, KnownAnswer answer) :
    ∃ s', s.run dm answers = .ok s' ∧ s'.Known ∧
      s'.isWS = (lastSome recognised answers).getD s.isWS := by
  obtain ⟨s', ho, hk, hw⟩ := run_reads_lastSome (fun s (_ : Unit) => TypeListener.isWS s)
    (fun _ => recognised) TypeListener.Known KnownAnswer
    (fun s answer hs ha => by
      obtain ⟨s', ho, hk, hw⟩ := hs.step dm ha
      exact ⟨s', ho, hk, fun _ => hw⟩) hs ha
  exact ⟨s', ho, hk, hw ()⟩

/-- The mode is that of the last known name, and no other message changes it or the names. -/
def FollowsTypes (dm : DataModel) (s : TypeListener) (answers : List RecvFrom) : Prop :=
  (∃ s', s.run dm answers = .ok s' ∧ s'.isWS = (lastSome recognised answers).getD s.isWS) ∧
  ∀ before answer after, answers = before ++ answer :: after → recognised answer = none →
    ∃ t t', s.run dm before = .ok t ∧ t.step dm answer = .ok t' ∧ t'.isWS = t.isWS ∧
      ∀ name, name ∈ t'.ledTypeToEnum.names ↔ name ∈ t.ledTypeToEnum.names

theorem followsTypes_of_known {dm : DataModel} {s : TypeListener} (hs : s.Known)
    {answers : List RecvFrom} (ha : ∀ answer ∈ answers, KnownAnswer answer) :
    FollowsTypes dm s answers := by
  constructor
  · obtain ⟨s', ho, _, hw⟩ := hs.run dm answers ha
    exact ⟨s', ho, hw⟩
  · intro before answer after he hnone
    subst he
    obtain ⟨t, ht, hk, _⟩ := hs.run dm before fun x hx => ha x (by simp [hx])
    obtain ⟨t', ht', hk', hw⟩ := hk.step dm (ha answer (by simp))
    rw [hnone] at hw
    exact ⟨t, t', ht, ht', hw, fun name => by rw [hk'.map, hk.map]⟩

theorem TypeListener.Known.unknown_inserted {s s' : TypeListener} (hs : s.Known) {d : Datagram}
    (hlen : 6 ≤ d.bytes.length) (hd : modeOf (d.bytes.take 6) = none)
    (h : Handles s s' (.received d)) :
    d.bytes.take 6 ∉ s.ledTypeToEnum.names ∧ d.bytes.take 6 ∈ s'.ledTypeToEnum.names := by
  have hnew : s.currentType ≠ d.bytes.take 6 := by
    intro he
    rcases hs.current with hc | hc
    · have hl : (d.bytes.take 6).length = 6 := by simp [hlen]
      rw [← he, hc] at hl
      cases hl
    · rw [he, hd] at hc
      cases hc
  rw [Handles, if_neg (by rintro (hl | he); exacts [absurd hl (by omega), hnew he]), hs.map] at h
  rw [hs.map, h.2.1]
  exact subscript_of_unknown hd

theorem known_of_followsTypes {dm : DataModel} {s : TypeListener} (hs : s.Known)
    {answers : List RecvFrom}
    (h : ∀ before answer after, answers = before ++ answer :: after → recognised answer = none →
      ∃ t t', s.run dm before = .ok t ∧ t.step dm answer = .ok t' ∧ t'.isWS = t.isWS ∧
        ∀ name, name ∈ t'.ledTypeToEnum.names ↔ name ∈ t.ledTypeToEnum.names) :
    ∀ answer ∈ answers, KnownAnswer answer := by
  induction answers using List.reverseRecOn with
  | nil => simp
  | append_singleton answers last ih =>
    have hpre := ih fun before answer after he =>
      h before answer (after ++ [last]) (by simp [he])
    have hlast : KnownAnswer last := by
      cases last with
      | failed errno => trivial
      | received d =>
        intro hlen hd
        obtain ⟨t, t', ht, ht', _, hnames⟩ := h answers (.received d) [] rfl hd
        obtain ⟨u, hu, hk, _⟩ := hs.run dm answers hpre
        obtain rfl : t = u := Except.ok.inj (ht.symm.trans hu)
        obtain ⟨u', hu', _, hh⟩ := TypeListener.step_handles dm hk.ready (.received d)
        obtain rfl : t' = u' := Except.ok.inj (ht'.symm.trans hu')
        obtain ⟨hout, hin⟩ := hk.unknown_inserted hlen hd hh
        exact hout ((hnames _).mp hin)
    intro answer hmem
    rcases List.mem_append.mp hmem with hmem | hmem
    · exact hpre answer hmem
    · exact List.mem_singleton.mp hmem ▸ hlast

/-- The output mode follows the type messages exactly on the sequences in which every datagram
long enough for a name begins with a known one. -/
theorem type_messages_followed_iff {dm : DataModel} {typeInput : UdpManager}
    (hr : typeInput.Ready) (message : Vector UInt8 6) (isWS : Bool) (answers : List RecvFrom) :
    FollowsTypes dm (TypeListener.start typeInput message isWS) answers ↔
      ∀ d, .received d ∈ answers → 6 ≤ d.bytes.length →
        d.bytes.take 6 = nameWS281X ∨ d.bytes.take 6 = nameSK9822 := by
  have hs : (TypeListener.start typeInput message isWS).Known := ⟨hr, rfl, Or.inl rfl⟩
  have hmode : ∀ name, modeOf name ≠ none ↔ name = nameWS281X ∨ name = nameSK9822 := by
    intro name
    unfold modeOf
    split_ifs <;> simp_all
  have hknown : (∀ answer ∈ answers, KnownAnswer answer) ↔
      ∀ d, .received d ∈ answers → 6 ≤ d.bytes.length →
        d.bytes.take 6 = nameWS281X ∨ d.bytes.take 6 = nameSK9822 := by
    constructor
    · exact fun h d hd hlen => (hmode _).mp (h _ hd hlen)
    · intro h answer hmem
      cases answer with
      | failed errno => trivial
      | received d => exact fun hlen => (hmode _).mpr (h d hmem hlen)
  rw [← hknown]
  exact ⟨fun h => known_of_followsTypes hs h.2, followsTypes_of_known hs⟩

def typeDatagram (bytes : List UInt8) (h : bytes.length ≤ 65507) : RecvFrom :=
  .received ⟨bytes, default, h⟩

theorem type_messages_followed_known :
    FollowsTypes lp64 (TypeListener.start bound (Vector.replicate 6 0) true)
      [typeDatagram nameSK9822 (by decide), .failed EWOULDBLOCK,
        typeDatagram [83, 75] (by decide)] := by
  refine (type_messages_followed_iff bound_ready _ true _).mpr ?_
  intro d hd hlen
  simp only [typeDatagram, List.mem_cons, RecvFrom.received.injEq, reduceCtorEq, List.not_mem_nil,
    or_false, false_or] at hd
  rcases hd with rfl | rfl
  · exact Or.inr rfl
  · simp at hlen

def unknownAfterKnown : List RecvFrom :=
  [typeDatagram nameSK9822 (by decide), typeDatagram [88, 88, 88, 88, 88, 88] (by decide)]

/-- After SK9822 an unknown name switches the output to WS281X and enters the map. -/
theorem unknown_type_switches_to_ws :
    ((TypeListener.start bound (Vector.replicate 6 0) true).run lp64 unknownAfterKnown).map
        (fun s => (s.isWS, decide ([88, 88, 88, 88, 88, 88] ∈ s.ledTypeToEnum.names))) =
      .ok (true, true) ∧
    lastSome recognised unknownAfterKnown = some false ∧
    ¬FollowsTypes lp64 (TypeListener.start bound (Vector.replicate 6 0) true)
      unknownAfterKnown := by
  have hrun : ((TypeListener.start bound (Vector.replicate 6 0) true).run lp64
      unknownAfterKnown).map (fun s => (s.isWS,
        decide ([88, 88, 88, 88, 88, 88] ∈ s.ledTypeToEnum.names))) = .ok (true, true) := by
    decide
  refine ⟨hrun, by decide, fun h => ?_⟩
  obtain ⟨s', ho, hw⟩ := h.1
  rw [ho] at hrun
  have hs : s'.isWS = true := (Prod.mk.inj (Except.ok.inj hrun)).1
  rw [hs] at hw
  exact absurd hw (by decide)

end LmListener
