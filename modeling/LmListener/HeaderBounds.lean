import LmListener.FrameMeaning
import LmListener.PixelReads

namespace LmListener

open Checked CTypes

theorem stops_of_cell {message : Message} {i : Nat} (h : cell message i = 0xff) :
    Stops message (i / 2) := by
  rcases Nat.mod_two_eq_zero_or_one i with he | he
  · exact Or.inl (by rwa [show i / 2 * 2 = i by omega])
  · exact Or.inr (by rwa [show i / 2 * 2 + 1 = i by omega])

theorem parseHeader_ok_iff {message : Message} {received : Nat} (ledsInChannel : Vector UInt16 6) :
    (∃ h, parseHeader message received ledsInChannel = .ok h) ↔
      received ≤ 7 ∨ ∃ i < 14, cell message i = 0xff := by
  obtain ⟨j, hends⟩ := headerEnds_exists message (received - 1)
  have hle := hends.le
  rcases Nat.lt_or_ge 6 j with hj | hj
  · rw [parseHeader_overflow ledsInChannel hends hj]
    refine ⟨nofun, fun hcond => ?_⟩
    rcases hcond with h7 | ⟨i, hi, hcell⟩
    · omega
    · exact absurd (stops_of_cell hcell) (hends.before _ (by omega))
  · obtain ⟨h, hp, _⟩ := parseHeader_ok ledsInChannel hends hj
    refine ⟨fun _ => ?_, fun _ => ⟨h, hp⟩⟩
    rcases hends.stop with hleft | hlow | hhigh
    · exact Or.inl (by omega)
    · exact Or.inr ⟨j * 2, by omega, hlow⟩
    · exact Or.inr ⟨j * 2 + 1, by omega, hhigh⟩

/-- The header loop stays within its table exactly when its bound stops it in time or a 0xff does,
within seven pairs of the message buffer. -/
theorem header_table_inRange_iff (bytes : List UInt8) (old : Message)
    (ledsInChannel : Vector UInt16 6) :
    (∃ h, parseHeader (overlay old bytes) bytes.length ledsInChannel = .ok h) ↔
      bytes.length ≤ 7 ∨ ∃ i < 14, cell (overlay old bytes) i = 0xff :=
  parseHeader_ok_iff ledsInChannel

def sevenCounts : List UInt8 := List.replicate 14 0

/-- Seven counts of zero: the last one is stored past the table. -/
theorem seventh_count_out_of_range :
    parseHeader (overlay (Vector.replicate _ 0) sevenCounts) sevenCounts.length
      (Vector.replicate 6 0) = .error (.ledsInChannel 6) := by
  have hcell : ∀ i, cell (overlay (Vector.replicate MAX_SENDBUFFER_SIZE 0) sevenCounts) i = 0 := by
    intro i
    have hlen : sevenCounts.length ≤ MAX_SENDBUFFER_SIZE := by decide
    rw [cell_overlay _ hlen, cell_replicate, sevenCounts, List.getElem?_replicate]
    split_ifs <;> rfl
  obtain ⟨j, hends⟩ := headerEnds_exists
    (overlay (Vector.replicate MAX_SENDBUFFER_SIZE 0) sevenCounts) (sevenCounts.length - 1)
  have hj : j = sevenCounts.length - 1 := by
    rcases hends.stop with h | h | h
    · exact h
    · rw [hcell] at h
      exact absurd h (by decide)
    · rw [hcell] at h
      exact absurd h (by decide)
  exact parseHeader_overflow _ hends (by rw [hj]; decide)

/-- After the header loop: the payload starts inside the datagram, the number of pixels did not
wrap, and the pixel loop reads bytes of the datagram only. -/
def PixelsInside (dm : DataModel) (message : Message) (received : Nat)
    (ledsInChannel : Vector UInt16 6) : Prop :=
  ∃ h, parseHeader message received ledsInChannel = .ok h ∧ h.headerByteOffset ≤ received ∧
    dm.toSize ((received : Int) - h.headerByteOffset) = received - h.headerByteOffset ∧
    h.headerByteOffset + 3 * totalLedsNum dm received h.headerByteOffset ≤ received ∧
    ∀ a ∈ h.reads dm received, a < received

theorem pixelsInside_of_le {dm : DataModel} {message : Message} {received : Nat}
    {ledsInChannel : Vector UInt16 6} {h : Header}
    (hp : parseHeader message received ledsInChannel = .ok h) (hle : h.headerByteOffset ≤ received)
    (hmax : received ≤ MAX_SENDBUFFER_SIZE) : PixelsInside dm message received ledsInChannel := by
  have htotal : totalLedsNum dm received h.headerByteOffset = (received - h.headerByteOffset) / 3 :=
    totalLedsNum_of_le hle hmax
  unfold MAX_SENDBUFFER_SIZE at hmax
  have hw := dm.two_pow_le
  refine ⟨h, hp, hle, ?_, by omega, ?_⟩
  · rw [← Int.ofNat_sub hle, dm.toSize_natCast (by omega)]
  · apply reads_below_iff.mpr
    intro i hi _
    omega

theorem PixelsInside.firstStop {dm : DataModel} {bytes : List UInt8} {old : Message}
    {ledsInChannel : Vector UInt16 6} (hmin : 5 ≤ bytes.length)
    (hmax : bytes.length ≤ MAX_SENDBUFFER_SIZE)
    (h : PixelsInside dm (overlay old bytes) bytes.length ledsInChannel) :
    LmListener.firstStop bytes < bytes.length ∧ LmListener.firstStop bytes ≤ 13 ∧
      LmListener.firstStop bytes / 2 * 2 + 2 ≤ bytes.length := by
  obtain ⟨h, hp, hle, _⟩ := h
  obtain ⟨j, hends⟩ := headerEnds_exists (overlay old bytes) (bytes.length - 1)
  have hj : j ≤ 6 := by
    by_contra hj
    rw [parseHeader_overflow ledsInChannel hends (Nat.lt_of_not_le hj)] at hp
    cases hp
  obtain ⟨h', hp', hc, _⟩ := parseHeader_ok ledsInChannel hends hj
  obtain rfl := Except.ok.inj (hp.symm.trans hp')
  rw [Header.headerByteOffset, hc] at hle
  have hstop : LmListener.firstStop bytes ≤ j * 2 + 1 := by
    by_contra hlt
    rcases hends.stop with hleft | hlow | hhigh
    · omega
    · exact cell_before_stop hmax old (by omega) hlow
    · exact cell_before_stop hmax old (by omega) hhigh
  exact ⟨by omega, by omega, by omega⟩

/-- Every byte the pixel loop reads is the datagram's exactly when the first 0xff of the datagram
ends its header inside it and within the table of counts. -/
theorem pixels_inside_iff {dm : DataModel} {bytes : List UInt8} (hmin : 5 ≤ bytes.length)
    (hmax : bytes.length ≤ MAX_SENDBUFFER_SIZE) (old : Message) (ledsInChannel : Vector UInt16 6) :
    PixelsInside dm (overlay old bytes) bytes.length ledsInChannel ↔
      firstStop bytes < bytes.length ∧ firstStop bytes ≤ 13 ∧
        firstStop bytes / 2 * 2 + 2 ≤ bytes.length := by
  constructor
  · exact fun hinside => hinside.firstStop hmin hmax
  · intro hcond
    obtain ⟨hlt, h13, hinside⟩ := hcond
    obtain ⟨h, hp, hc, _⟩ :=
      parseHeader_ok ledsInChannel (own_headerEnds hmax old hlt) (by omega)
    exact pixelsInside_of_le hp (by rwa [Header.headerByteOffset, hc]) hmax

def insideFrame : List UInt8 := [1, 0, 0xff, 0xff, 9, 8, 7]

theorem pixels_inside_one_led : PixelsInside lp64 (overlay (Vector.replicate _ 7) insideFrame)
    insideFrame.length (Vector.replicate 6 0) :=
  (pixels_inside_iff (by decide) (by decide) _ _).mpr (by decide)

def halfTerminator : List UInt8 := [1, 0, 1, 0, 0xff]

/-- Half a terminator: the payload starts one byte past the datagram, and the count wraps. -/
theorem pixels_outside_half_terminator :
    ¬PixelsInside lp64 (overlay (Vector.replicate _ 7) halfTerminator) halfTerminator.length
      (Vector.replicate 6 0) ∧
    totalLedsNum lp64 5 6 = (2 ^ 64 - 1) / 3 :=
  ⟨fun h => absurd (h.firstStop (by decide) (by decide)) (by decide), by decide⟩

end LmListener
