import LmListener.Latest
import LmListener.UdpManager

namespace LmListener

open Checked CTypes Latest

def TYPE_WS281X : Nat := 0
def TYPE_SK9822 : Nat := 1

def nameWS281X : List UInt8 := ['W', 'S', '2', '8', '1', 'X'].map fun c => UInt8.ofNat c.toNat
def nameSK9822 : List UInt8 := ['S', 'K', '9', '8', '2', '2'].map fun c => UInt8.ofNat c.toNat

abbrev TypeMap := List (List UInt8 × Nat)

def ledTypeToEnum : TypeMap := [(nameWS281X, TYPE_WS281X), (nameSK9822, TYPE_SK9822)]

/-- `map[key]`: an absent key is inserted with the value 0. -/
def TypeMap.subscript (map : TypeMap) (key : List UInt8) : Nat × TypeMap :=
  match map.lookup key with
  | some value => (value, map)
  | none => (0, (key, 0) :: map)

def TypeMap.names (map : TypeMap) : List (List UInt8) := map.map Prod.fst

/-- The type listener thread, with the flag and the map it shares with the program. -/
structure TypeListener where
  typeInput : UdpManager
  currentType : List UInt8
  message : Vector UInt8 6
  ledTypeToEnum : TypeMap
  isWS : Bool

def answering (answer : RecvFrom) : Nat → Unit → RecvFrom × Unit := fun _ _ => (answer, ())

/-- One pass through the loop of the thread, `answer` being what `recvfrom` gives it. -/
def TypeListener.step (dm : DataModel) (s : TypeListener) (answer : RecvFrom) :
    Except Fault TypeListener := do
  let r ← s.typeInput.receive dm (answering answer) s.message 6 0 ()
  let s := { s with typeInput := r.manager, message := r.pBuff }
  if r.ret < 6 then return s
  let type := s.message.toList
  if s.currentType ≠ type then
    let (value, map) := s.ledTypeToEnum.subscript type
    return { s with currentType := type, ledTypeToEnum := map, isWS := value == TYPE_WS281X }
  return s

def TypeListener.run (dm : DataModel) (s : TypeListener) (answers : List RecvFrom) :
    Except Fault TypeListener :=
  answers.foldlM (TypeListener.step dm) s

def TypeListener.start (typeInput : UdpManager) (message : Vector UInt8 6) (isWS : Bool) :
    TypeListener :=
  ⟨typeInput, [], message, LmListener.ledTypeToEnum, isWS⟩

/-- What one answer does to the thread, apart from its socket and its buffer. -/
def Handles (s s' : TypeListener) : RecvFrom → Prop
  | .received d =>
    if d.bytes.length < 6 ∨ s.currentType = d.bytes.take 6 then
      s'.currentType = s.currentType ∧ s'.ledTypeToEnum = s.ledTypeToEnum ∧ s'.isWS = s.isWS
    else
      s'.currentType = d.bytes.take 6 ∧
      s'.ledTypeToEnum = (s.ledTypeToEnum.subscript (d.bytes.take 6)).2 ∧
      s'.isWS = ((s.ledTypeToEnum.subscript (d.bytes.take 6)).1 == TYPE_WS281X)
  | .failed _ =>
    s'.currentType = s.currentType ∧ s'.ledTypeToEnum = s.ledTypeToEnum ∧ s'.isWS = s.isWS

theorem toList_overlay_full {α : Type} {n : Nat} (xs : Vector α n) {data : List α}
    (h : data.length = n) : (overlay xs data).toList = data := by
  subst h
  simp [overlay, Vector.toList]

theorem TypeListener.step_handles (dm : DataModel) {s : TypeListener} (hr : s.typeInput.Ready)
    (answer : RecvFrom) :
    ∃ s', s.step dm answer = .ok s' ∧ s'.typeInput.Ready ∧ Handles s s' answer := by
  have hsize : dm.toSize (6 : Int32).toInt = 6 :=
    dm.toSize_natCast (x := 6) (by have := dm.two_pow_le; omega)
  cases answer with
  | failed errno =>
    have hfailed : answering (.failed errno) (dm.toSize (6 : Int32).toInt) () =
        (.failed errno, ()) := rfl
    obtain ⟨r, ho, hret, _, hm⟩ :=
      UdpManager.receive_failed hr s.message 0 (by omega) hfailed
    have hlt : r.ret < 6 := by
      rw [hret]
      split <;> decide
    refine ⟨{ s with typeInput := r.manager, message := r.pBuff }, ?_, hm, rfl, rfl, rfl⟩
    simp only [TypeListener.step, ho, bind_ok, hlt, if_true]
    rfl
  | received d =>
    have hreceived : answering (.received d) (dm.toSize (6 : Int32).toInt) () =
        (.received d, ()) := rfl
    obtain ⟨r, ho, hret, _, hm, hb⟩ :=
      UdpManager.receive_datagram hr s.message 0 (by omega) hreceived
    rw [hsize] at hret hb
    have hri : r.ret.toInt = (min 6 d.bytes.length : Nat) := by
      rw [hret, toInt_toInt_of_lt (by omega)]
    by_cases hshort : d.bytes.length < 6
    · have hlt : r.ret < 6 := by
        rw [Int32.lt_iff_toInt_lt, hri, show (6 : Int32).toInt = 6 by decide]
        omega
      refine ⟨{ s with typeInput := r.manager, message := r.pBuff }, ?_, hm, ?_⟩
      · simp only [TypeListener.step, ho, bind_ok, hlt, if_true]
        rfl
      · simp [Handles, hshort]
    · have hge : ¬r.ret < 6 := by
        rw [Int32.lt_iff_toInt_lt, hri, show (6 : Int32).toInt = 6 by decide]
        omega
      have htype : r.pBuff.toList = d.bytes.take 6 := by
        rw [hb, toList_overlay_full _ (by simp; omega)]
      by_cases hsame : s.currentType = d.bytes.take 6
      · refine ⟨{ s with typeInput := r.manager, message := r.pBuff }, ?_, hm, ?_⟩
        · simp only [TypeListener.step, ho, bind_ok, hge, if_false, htype, hsame, ne_eq,
            not_true_eq_false]
          rfl
        · simp [Handles, hsame]
      · refine ⟨{ s with
            typeInput := r.manager
            message := r.pBuff
            currentType := d.bytes.take 6
            ledTypeToEnum := (s.ledTypeToEnum.subscript (d.bytes.take 6)).2
            isWS := (s.ledTypeToEnum.subscript (d.bytes.take 6)).1 == TYPE_WS281X }, ?_, hm, ?_⟩
        · simp only [TypeListener.step, ho, bind_ok, hge, if_false, htype, ne_eq, hsame,
            not_false_eq_true, if_true]
          rfl
        · simp [Handles, hshort, hsame]

end LmListener
