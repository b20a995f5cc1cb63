import Ethnm.Delimiter.Promptness
import Ethnm.Ring.Reachable

/-! The two peeks at a header, one in `IsFlushable` and one in `ProcessMsg`, on every ring that
calls can make. They agree with the live bytes, and so with each other, unless the physical
end lies between the two bytes of the header.
-/

namespace Ethnm
open ByteCircularBuffer

/-- Whatever the locals held, both peeks see the length that the two oldest bytes stand for
and leave the ring alone; `IsFlushable` compares that length, and the assertion in a turn of
the drain loop does not fail.
-/
structure PeeksAgree (bcb : ByteCircularBuffer) : Prop where
  peeked : ∀ value : UInt16,
    ∃ header,
      bcbRead bcb (objectBytes value) kHeaderMsgSize false = .ok (bcb, header, kHeaderMsgSize)
      ∧ (hostOrder header).toNat = littleEndian bcb.live 0
  flushable : ∀ msgSize : UInt16,
    MsgDelimiterVar.isFlushable bcb msgSize
      = .ok (decide (littleEndian bcb.live 0 ≤ bcb.currentSize.toNat))
  asserted : ∀ around turn readSize progress stopped, progress.delimiter.bcb = bcb →
    MsgDelimiterVar.processMsg around 1 turn readSize progress
      ≠ .error (.aborted .assertionFailed, stopped)

-----------------------------------------------------------------------------------------
-- The rings of delimiters
-----------------------------------------------------------------------------------------

/-- Every part of a call leaves a ring that calls can make. -/
theorem lasting_reachable
    : Lasting fun progress => progress.delimiter.bcb.Reachable kBcbSize where
  written := fun _ _ _ _ _ before accepted => .write before accepted
  asked := fun _ _ before => before
  taken := fun _ _ _ _ _ before taken => .read before taken
  delivered := fun _ _ _ _ _ before => before

/-- The ring of a delimiter, in every state that `Process` leaves it in. -/
theorem reachable_feed (framing : Framing) (fuel : Nat) (arrivals : List Arrival)
    : (feed framing fuel fresh arrivals).progress.delimiter.bcb.Reachable kBcbSize :=
  lasting_reachable.feed framing fuel arrivals fresh .create

-----------------------------------------------------------------------------------------
-- Headers in one piece
-----------------------------------------------------------------------------------------

theorem littleEndian_lt (bytes : List UInt8) (position : Nat)
    : littleEndian bytes position < 65536 := by
  have low := (bytes.getD position 0).toNat_lt
  have high := (bytes.getD (position + 1) 0).toNat_lt
  unfold littleEndian byteAt
  omega

namespace ByteCircularBuffer.WellFormed

variable {bcb : ByteCircularBuffer}

/-- A header in one piece is read as it lies in the ring. -/
theorem peek_whole (wf : bcb.WellFormed) (two : 2 ≤ bcb.currentSize.toNat)
    (whole : bcb.leading ≠ 1) (value : UInt16)
    : ∃ header,
        bcbRead bcb (objectBytes value) kHeaderMsgSize false = .ok (bcb, header, kHeaderMsgSize)
        ∧ (hostOrder header).toNat = littleEndian bcb.live 0 := by
  obtain ⟨header, read, seen⟩ := wf.peek two value
  refine ⟨header, read, ?_⟩
  rw [if_neg whole] at seen
  rw [seen, UInt16.toNat_ofNat']
  exact Nat.mod_eq_of_lt (littleEndian_lt bcb.live 0)

theorem isFlushable_whole (wf : bcb.WellFormed) (three : 3 ≤ bcb.currentSize.toNat)
    (whole : bcb.leading ≠ 1) (msgSize : UInt16)
    : MsgDelimiterVar.isFlushable bcb msgSize
      = .ok (decide (littleEndian bcb.live 0 ≤ bcb.currentSize.toNat)) := by
  obtain ⟨header, read, seen⟩ := wf.peek_whole (by omega) whole msgSize
  rw [MsgDelimiterVar.isFlushable, if_neg, read]
  · simp only [bind, Except.bind, pure, Except.pure, UInt16.le_iff_toNat_le, seen]
  · rw [UInt16.le_iff_toNat_le, toNat_kHeaderMsgSize]
    omega

/-- A turn of the drain loop stops on the fuel, or because the message does not fit `buf`, or
because there is none; it asks for no more than is there.
-/
theorem asserted_whole (wf : bcb.WellFormed) (three : 3 ≤ bcb.currentSize.toNat)
    (whole : bcb.leading ≠ 1) (around : Surroundings) (turn : Nat) (readSize : UInt16)
    {progress stopped : Progress} (ring : progress.delimiter.bcb = bcb)
    : MsgDelimiterVar.processMsg around 1 turn readSize progress
      ≠ .error (.aborted .assertionFailed, stopped) := by
  obtain ⟨header, read, seen⟩ := wf.peek_whole (by omega) whole readSize
  rw [MsgDelimiterVar.processMsg, ring, wf.isFlushable_whole three whole]
  by_cases enough : littleEndian bcb.live 0 ≤ bcb.currentSize.toNat
  · rw [decide_eq_true enough]
    simp only [attempt, bind, Except.bind, Bool.not_true, Bool.false_eq_true, if_false, read]
    rw [← seen] at enough
    by_cases fits : CopyFits bcb.leading (hostOrder header).toNat progress.delimiter.buf.length
    · rw [readMessage, ring, wf.bcbRead_served true enough fits]
      simp only [attempt, bind, Except.bind, pure, Except.pure, ne_eq, not_true_eq_false, if_false]
      intro looping
      cases looping
    · rw [readMessage, ring, wf.bcbRead_overrun true enough fits]
      intro overrun
      cases overrun
  · rw [decide_eq_false enough]
    intro returned
    cases returned

/-- When the physical end lies between the two bytes, the length depends on the local. -/
theorem not_peeksAgree (wf : bcb.WellFormed) (two : 2 ≤ bcb.currentSize.toNat)
    (split : bcb.leading = 1)
    : ¬ PeeksAgree bcb := by
  intro agree
  -- A local whose high byte is not the header's.
  have differs : (bcb.live.getD 1 0 + 1).toNat ≠ byteAt bcb.live 1 := by
    intro same
    have equal := UInt8.toNat_inj.mp same
    simp at equal
  obtain ⟨header, read, seen⟩ :=
    wf.peek two (.ofNat (256 * (bcb.live.getD 1 0 + 1).toNat))
  obtain ⟨other, again, agreed⟩ :=
    agree.peeked (.ofNat (256 * (bcb.live.getD 1 0 + 1).toNat))
  rw [read] at again
  cases again
  have low := (bcb.live.getD 0 0).toNat_lt
  have high := (bcb.live.getD 1 0).toNat_lt
  have stale := (bcb.live.getD 1 0 + 1).toNat_lt
  rw [seen, if_pos split, highByte_ofNat_mul, UInt16.toNat_ofNat', littleEndian,
    Nat.zero_add] at agreed
  unfold byteAt at agreed differs
  rw [Nat.mod_eq_of_lt (by omega)] at agreed
  omega

end ByteCircularBuffer.WellFormed

/-- On a reachable ring with three live bytes the peeks agree exactly when the oldest of them
is not in the last cell.
-/
theorem peeksAgree_iff {capacity : UInt16} {bcb : ByteCircularBuffer} (positive : 0 < capacity)
    (reachable : bcb.Reachable capacity) (three : 3 ≤ bcb.live.length)
    : PeeksAgree bcb ↔ bcb.rear.toNat + 1 ≠ capacity.toNat := by
  obtain ⟨wf, rfl⟩ := reachable.wellFormed positive
  rw [wf.length_live] at three
  have leading_eq : bcb.leading = bcb.bufferSize.toNat - bcb.rear.toNat := rfl
  have inside := wf.rear_lt
  constructor
  · intro agree last
    exact wf.not_peeksAgree (by omega) (by omega) agree
  · intro inner
    have whole : bcb.leading ≠ 1 := by omega
    exact {
      peeked := wf.peek_whole (by omega) whole
      flushable := wf.isFlushable_whole three whole
      asserted := fun around turn readSize _ _ ring =>
        wf.asserted_whole three whole around turn readSize ring
    }

/-- A message of three bytes in a new ring of four cells. -/
theorem peeksAgree_first : PeeksAgree ⟨[3, 0, 7, 0], 4, 3, 0, 3⟩ := by
  have written : bcbWrite (bcbCreateNew 4) [3, 0, 7] 3 = .ok (⟨[3, 0, 7, 0], 4, 3, 0, 3⟩, 3) := rfl
  exact (peeksAgree_iff (by decide) (.write .create written) (by decide)).mpr (by decide)

-----------------------------------------------------------------------------------------
-- Messages of three bytes
-----------------------------------------------------------------------------------------

def threes (count : Nat) : List UInt8 :=
  (List.replicate count [3, 0, 0]).flatten

theorem length_threes (count : Nat) : (threes count).length = 3 * count := by
  rw [threes, List.length_flatten, List.map_replicate, List.sum_replicate_nat]
  exact Nat.mul_comm _ _

theorem drop_threes (before after : Nat)
    : (threes (before + after)).drop (3 * before) = threes after := by
  rw [threes, List.replicate_add, List.flatten_append]
  exact List.drop_left' (length_threes before)

/-- Each message starts with its length. -/
theorem byteAt_threes {position count : Nat} (within : position < count)
    : byteAt (threes count) (3 * position) = 3 ∧ byteAt (threes count) (3 * position + 1) = 0 := by
  obtain ⟨more, rfl⟩ := Nat.exists_eq_add_of_lt within
  have first := byteAt_drop (threes (position + (more + 1))) (3 * position) 0
  have second := byteAt_drop (threes (position + (more + 1))) (3 * position) 1
  rw [drop_threes] at first second
  exact ⟨first.symm, second.symm⟩

/-- The messages before the physical end are all read, by induction on their number. -/
theorem boundary_threes {position : Nat} (before : position ≤ 3413)
    : Boundary (threes 3414) (3 * position) := by
  induction position with
  | zero => exact .start
  | succ position ih =>
      have length := length_threes 3414
      have seen (stale : UInt8) : seenLength (threes 3414) (3 * position) stale = 3 := by
        obtain ⟨low, high⟩ := byteAt_threes (show position < 3414 by omega)
        rw [seenLength, if_neg (by omega), low, high]
      refine (ih (by omega)).next ⟨by omega, ⟨0, ?_⟩, ⟨0, (seen 0).symm⟩⟩ ?_ ?_
      · rw [seen]
        omega
      · omega
      · exact copyFits_of_le (by decide)

/-- After 3413 messages of three bytes the next header starts in the last of the ring's cells.
-/
theorem not_peeksAgree_threes
    : ∃ arrivals fuel progress,
        stream arrivals = threes 3414
        ∧ feed .var fuel fresh arrivals = .ok progress
        ∧ progress.delimiter.bcb.Reachable kBcbSize
        ∧ 3 ≤ progress.delimiter.bcb.live.length
        ∧ ¬ PeeksAgree progress.delimiter.bcb := by
  have length := length_threes 3414
  obtain ⟨count, few, reaches⟩ := (boundary_threes (Nat.le_refl 3413)).reached
  have complete : Reaches (threes 3414) 10242 10239 := by
    refine reaches.extend (by omega) (by omega) (by omega) ?_
    rw [flushable_take (by omega), seenLength, if_pos rfl]
    have : (255 : UInt8).toNat = 255 := rfl
    omega
  obtain ⟨-, arrivals, received, run⟩ := complete
  obtain ⟨progress, returned, tracks⟩ := run 2 (Nat.le_refl 2)
  have reachable := reachable_feed .var 2 arrivals
  have size := tracks.size
  rw [List.take_of_length_le (by omega)] at received size
  rw [returned] at reachable
  refine ⟨arrivals, 2, progress, received, returned, reachable, ?_, ?_⟩
  · rw [tracks.wf.length_live, size]
    omega
  · exact tracks.wf.not_peeksAgree (by omega) (by rw [tracks.leading])

end Ethnm
