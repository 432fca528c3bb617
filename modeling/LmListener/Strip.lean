import LmListener.SpiHistory
import LmListener.WriteCalls

namespace LmListener

open Checked CTypes Latest

structure Rgb where
  red : UInt8
  green : UInt8
  blue : UInt8
deriving DecidableEq, Repr, Inhabited

def Sk9822Color.rgb (c : Sk9822Color) : Rgb := ⟨c.r, c.g, c.b⟩

def Sk9822Color.Lit (c : Sk9822Color) : Bool := decide (c.f = 0xff)

/-- The colours an SK9822 strip takes from its wire: one for each word with its flag, up to the
first word without. -/
def ledWords : List UInt8 → List Rgb
  | f :: b :: g :: r :: rest => if f = 0xff then ⟨r, g, b⟩ :: ledWords rest else []
  | _ => []

/-- Nothing is taken before a start frame of 32 zeros. -/
def stripReads : List UInt8 → List Rgb
  | f :: b :: g :: r :: rest => if [f, b, g, r] = startFrame.bytes then ledWords rest else []
  | _ => []

theorem ledWords_bytes (c : Sk9822Color) (rest : List UInt8) :
    ledWords (c.bytes ++ rest) = if c.f = 0xff then c.rgb :: ledWords rest else [] := rfl

theorem ledWords_flatMap (leds : List Sk9822Color) {rest : List UInt8} (h : ledWords rest = []) :
    ledWords (leds.flatMap Sk9822Color.bytes ++ rest) =
      (leds.takeWhile Sk9822Color.Lit).map Sk9822Color.rgb := by
  induction leds with
  | nil => exact h
  | cons led leds ih =>
    rw [List.flatMap_cons, List.append_assoc, ledWords_bytes, ih, List.takeWhile_cons,
      Sk9822Color.Lit]
    by_cases hf : led.f = 0xff <;> simp [hf]

/-- A strip takes from a stream its LED words up to the first one without a flag: the end frames add
nothing. -/
theorem stripReads_stream (leds : List Sk9822Color) :
    stripReads (stream leds) = (leds.takeWhile Sk9822Color.Lit).map Sk9822Color.rgb := by
  have hend : ledWords (List.replicate (4 * (2 + (leds.length - 1) / 64)) 0) = [] := by
    rw [show 4 * (2 + (leds.length - 1) / 64) = 4 * ((leds.length - 1) / 64) + 8 by omega]
    rfl
  rw [stream_eq]
  exact ledWords_flatMap leds hend

theorem ledWords_mono {xs ys : List UInt8} (h : xs <+: ys) : ledWords xs <+: ledWords ys := by
  obtain ⟨rest, rfl⟩ := h
  induction xs using ledWords.induct with
  | case1 b g r xs ih =>
    simp only [List.cons_append, ledWords, if_true]
    exact List.cons_prefix_cons.mpr ⟨rfl, ih⟩
  | case2 f b g r xs hf => simp [ledWords, hf]
  | case3 xs hshort =>
    rw [ledWords.eq_2 xs hshort]
    exact List.nil_prefix

theorem stripReads_mono {xs ys : List UInt8} (h : xs <+: ys) :
    stripReads xs <+: stripReads ys := by
  obtain ⟨rest, rfl⟩ := h
  match xs with
  | f :: b :: g :: r :: xs =>
    simp only [List.cons_append, stripReads]
    split
    next => exact ledWords_mono (List.prefix_append xs rest)
    next => exact List.nil_prefix
  | [] | [_] | [_, _] | [_, _, _] => exact List.nil_prefix

/-- Whatever the device answers, a strip takes the first colours of the stream, and all of them when
`write_all` reports success. -/
theorem writeAll_strip {dev : Device} {fuel calls : Nat} {bytes : List UInt8} {result : Int}
    {w : WriteAllState} (h : writeAll dev fuel calls bytes = some (result, w)) :
    stripReads w.chunks.flatten <+: stripReads bytes ∧
      (0 ≤ result → stripReads w.chunks.flatten = stripReads bytes) := by
  obtain ⟨⟨hb, _⟩, _⟩ := writeAllFuel_ends (writeAllStart_splits calls bytes) h
  refine ⟨stripReads_mono ⟨w.buf, hb⟩, fun hr => ?_⟩
  rw [(writeAllFuel_delivers (writeAllStart_splits calls bytes) h hr).1]

/-- Word `i` of a channel after these calls. -/
def wordAfter (s : SpiOut) (ops : List SpiOp) (chan i : Nat) : Sk9822Color :=
  (lastSome (wordEffect (chan, i)) ops).getD (s.word chan i)

end LmListener
