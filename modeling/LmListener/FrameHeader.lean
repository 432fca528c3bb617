import LmListener.Sk9822
import Mathlib.Order.Nat
import Mathlib.Data.Nat.Find

namespace LmListener

open Checked

def MAX_CHANNELS : Nat := 2
def LED_COUNT_WS : Nat := 1000
def LED_COUNT_SPI : Nat := 2000
def MAX_SENDBUFFER_SIZE : Nat := 4096 * 3

abbrev Message := Vector UInt8 MAX_SENDBUFFER_SIZE

structure Header where
  chanCntr : Nat
  maxLedsInChan : Nat
  ledsInChannel : Vector UInt16 6

/-- `hi << 8 | lo`, stored in 16 bits. -/
def ledsOf (hi lo : UInt8) : UInt16 := hi.toUInt16 <<< 8 ||| lo.toUInt16

def maxLeds (maxLedsInChan : Nat) (leds : UInt16) : Nat :=
  if leds.toNat > maxLedsInChan then leds.toNat else maxLedsInChan

/-- The header loop. `left` is `received - 1 - chan_cntr`, so that the test
`chan_cntr + 1 < received` fails when it is 0. -/
def headerLoop (message : Message) : (left : Nat) → Header → Except Fault Header
  | 0, h => .ok h
  | left + 1, h => do
    let lo ← loadAt .message message (h.chanCntr * 2)
    if lo = 0xff then return h
    let hi ← loadAt .message message (h.chanCntr * 2 + 1)
    if hi = 0xff then return h
    let ledsInChannel ← storeAt .ledsInChannel h.ledsInChannel h.chanCntr (ledsOf hi lo)
    headerLoop message left ⟨h.chanCntr + 1, maxLeds h.maxLedsInChan (ledsOf hi lo), ledsInChannel⟩

def parseHeader (message : Message) (received : Nat) (ledsInChannel : Vector UInt16 6) :
    Except Fault Header :=
  headerLoop message (received - 1) ⟨0, 0, ledsInChannel⟩

def ledsOfChannel (ledsInChannel : Vector UInt16 6) (k : Nat) : Nat := (cell ledsInChannel k).toNat

def Header.leds (h : Header) : Nat → Nat := ledsOfChannel h.ledsInChannel

def Header.headerByteOffset (h : Header) : Nat := h.chanCntr * 2 + 2

def Stops (message : Message) (c : Nat) : Prop :=
  cell message (c * 2) = 0xff ∨ cell message (c * 2 + 1) = 0xff

def countAt (message : Message) (c : Nat) : UInt16 :=
  ledsOf (cell message (c * 2 + 1)) (cell message (c * 2))

/-- The loop makes `j` passes: no pair before `j` stops it, and `j` does or is the bound. -/
structure HeaderEnds (message : Message) (left j : Nat) : Prop where
  le : j ≤ left
  before : ∀ c < j, ¬Stops message c
  stop : j = left ∨ Stops message j

theorem headerEnds_exists (message : Message) (left : Nat) : ∃ j, HeaderEnds message left j := by
  classical
  have hex : ∃ c, c = left ∨ Stops message c := ⟨left, Or.inl rfl⟩
  refine ⟨Nat.find hex, Nat.find_min' hex (Or.inl rfl), fun c hc hs => ?_, Nat.find_spec hex⟩
  exact Nat.find_min hex hc (Or.inr hs)

theorem headerLoop_pass {message : Message} (left : Nat) {h : Header} (hc : h.chanCntr < 6)
    (hs : ¬Stops message h.chanCntr) :
    ∃ h', headerLoop message (left + 1) h = headerLoop message left h' ∧
      h'.chanCntr = h.chanCntr + 1 ∧
      ∀ k, cell h'.ledsInChannel k =
        if k = h.chanCntr then countAt message h.chanCntr else cell h.ledsInChannel k := by
  obtain ⟨hlo, hhi⟩ := not_or.mp hs
  have hb : h.chanCntr * 2 + 1 < MAX_SENDBUFFER_SIZE := by unfold MAX_SENDBUFFER_SIZE; omega
  refine ⟨⟨h.chanCntr + 1, maxLeds h.maxLedsInChan (countAt message h.chanCntr),
    h.ledsInChannel.set h.chanCntr (countAt message h.chanCntr)⟩, ?_, rfl, cell_set _ hc _⟩
  rw [headerLoop, loadAt_of_lt (by omega), bind_ok, if_neg hlo, loadAt_of_lt hb, bind_ok,
    if_neg hhi, storeAt_of_lt hc, bind_ok]
  rfl

theorem headerLoop_stop {message : Message} {left : Nat} {h : Header} (hc : h.chanCntr ≤ 6)
    (hs : Stops message h.chanCntr) : headerLoop message (left + 1) h = .ok h := by
  have hb : h.chanCntr * 2 + 1 < MAX_SENDBUFFER_SIZE := by unfold MAX_SENDBUFFER_SIZE; omega
  rw [headerLoop, loadAt_of_lt (by omega), bind_ok]
  by_cases hlo : cell message (h.chanCntr * 2) = 0xff
  · rw [if_pos hlo]
    rfl
  · rw [if_neg hlo, loadAt_of_lt hb, bind_ok, if_pos (hs.resolve_left hlo)]
    rfl

theorem headerLoop_ok {message : Message} {left j : Nat} {h : Header}
    (hle : h.chanCntr ≤ j) (hj : j ≤ 6) (hleft : j ≤ h.chanCntr + left)
    (hgo : ∀ c, h.chanCntr ≤ c → c < j → ¬Stops message c)
    (hstop : j = h.chanCntr + left ∨ Stops message j) :
    ∃ h', headerLoop message left h = .ok h' ∧ h'.chanCntr = j ∧
      ∀ k, cell h'.ledsInChannel k =
        if h.chanCntr ≤ k ∧ k < j then countAt message k else cell h.ledsInChannel k := by
  induction left generalizing h with
  | zero => exact ⟨h, rfl, by omega, fun k => by rw [if_neg (by omega)]⟩
  | succ left ih =>
    by_cases he : h.chanCntr = j
    · have hs : Stops message h.chanCntr := he ▸ hstop.resolve_left (by omega)
      exact ⟨h, headerLoop_stop (by omega) hs, he, fun k => by rw [if_neg (by omega)]⟩
    · obtain ⟨h₁, ho, hc, hl⟩ :=
        headerLoop_pass left (by omega) (hgo h.chanCntr (Nat.le_refl _) (by omega))
      obtain ⟨h', ho', hc', hl'⟩ := ih (h := h₁) (by omega) (by omega)
        (fun c hlo hhi => hgo c (by omega) hhi) (by rw [hc]; exact hstop.imp_left (by omega))
      refine ⟨h', ho.trans ho', hc', fun k => ?_⟩
      rw [hl', hl]
      by_cases hk : k = h.chanCntr
      · subst k
        rw [if_neg (by omega), if_pos rfl, if_pos (by omega)]
      · rw [if_neg hk]
        split_ifs <;> first | rfl | omega

theorem headerLoop_overflow {message : Message} {left : Nat} {h : Header}
    (hc : h.chanCntr ≤ 6) (hleft : 7 ≤ h.chanCntr + left)
    (hgo : ∀ c, h.chanCntr ≤ c → c ≤ 6 → ¬Stops message c) :
    headerLoop message left h = .error (.ledsInChannel 6) := by
  induction left generalizing h with
  | zero => omega
  | succ left ih =>
    have hs := hgo h.chanCntr (Nat.le_refl _) hc
    by_cases he : h.chanCntr = 6
    · obtain ⟨hlo, hhi⟩ := not_or.mp hs
      have hb : h.chanCntr * 2 + 1 < MAX_SENDBUFFER_SIZE := by unfold MAX_SENDBUFFER_SIZE; omega
      rw [headerLoop, loadAt_of_lt (by omega), bind_ok, if_neg hlo, loadAt_of_lt hb, bind_ok,
        if_neg hhi, storeAt_of_le (by omega), he]
      rfl
    · obtain ⟨h₁, ho, hc₁, _⟩ := headerLoop_pass left (h := h) (by omega) hs
      rw [ho]
      exact ih (by omega) (by omega) fun c hlo hhi => hgo c (by omega) hhi

theorem parseHeader_ok {message : Message} {received j : Nat} (ledsInChannel : Vector UInt16 6)
    (h : HeaderEnds message (received - 1) j) (hj : j ≤ 6) :
    ∃ h', parseHeader message received ledsInChannel = .ok h' ∧ h'.chanCntr = j ∧
      ∀ k, cell h'.ledsInChannel k = if k < j then countAt message k else cell ledsInChannel k := by
  obtain ⟨h', ho, hc, hl⟩ := headerLoop_ok (h := ⟨0, 0, ledsInChannel⟩) (Nat.zero_le j) hj
    (by simpa using h.le) (fun c _ hc => h.before c hc) (by simpa using h.stop)
  exact ⟨h', ho, hc, fun k => by simpa using hl k⟩

theorem parseHeader_overflow {message : Message} {received j : Nat}
    (ledsInChannel : Vector UInt16 6) (h : HeaderEnds message (received - 1) j) (hj : 6 < j) :
    parseHeader message received ledsInChannel = .error (.ledsInChannel 6) := by
  have hle := h.le
  exact headerLoop_overflow (h := ⟨0, 0, ledsInChannel⟩) (by simp) (by simp; omega)
    fun c _ hc => h.before c (by omega)

end LmListener
