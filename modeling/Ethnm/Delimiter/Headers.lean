import Mathlib.Data.List.GetD
import Ethnm.Delimiter.Tracking

/-! Header peeks of the variable-length delimiter, in terms of the received stream.
A header whose two bytes lie on both sides of the ring's physical end is read wrongly: its
second byte becomes the low byte, and the high byte is what the local held before.
-/

namespace Ethnm
open ByteCircularBuffer CircularWindow

-----------------------------------------------------------------------------------------
-- The length that a peek sees
-----------------------------------------------------------------------------------------

def byteAt (bytes : List UInt8) (position : Nat) : Nat :=
  (bytes.getD position 0).toNat

theorem byteAt_append {bytes more : List UInt8} {position : Nat}
    (within : position < bytes.length)
    : byteAt (bytes ++ more) position = byteAt bytes position := by
  rw [byteAt, byteAt, List.getD_append _ _ _ _ within]

theorem byteAt_drop (bytes : List UInt8) (start position : Nat)
    : byteAt (bytes.drop start) position = byteAt bytes (start + position) := by
  rw [byteAt, byteAt, List.getD_eq_getElem?_getD, List.getD_eq_getElem?_getD,
    List.getElem?_drop]

/-- The high byte of a two-byte local. -/
def highByte (value : UInt16) : UInt8 :=
  .ofNat (value.toNat / 256)

/-- The message length that a peek at a stream position sees, when the high byte of the
local it fills held `stale`.
-/
def seenLength (bytes : List UInt8) (position : Nat) (stale : UInt8) : Nat :=
  if position % 10240 = 10239 then
    byteAt bytes (position + 1) + 256 * stale.toNat
  else
    byteAt bytes position + 256 * byteAt bytes (position + 1)

theorem seenLength_lt (bytes : List UInt8) (position : Nat) (stale : UInt8)
    : seenLength bytes position stale < 65536 := by
  have first := (bytes.getD position 0).toNat_lt
  have second := (bytes.getD (position + 1) 0).toNat_lt
  have old := stale.toNat_lt
  unfold seenLength byteAt
  split <;> omega

/-- As a size argument, a seen length is not truncated. -/
theorem toNat_seenLength (bytes : List UInt8) (position : Nat) (stale : UInt8)
    : (UInt16.ofNat (seenLength bytes position stale)).toNat
      = seenLength bytes position stale := by
  rw [UInt16.toNat_ofNat', Nat.mod_eq_of_lt (seenLength_lt bytes position stale)]

/-- A prefix that has the whole header announces the same length as the stream. -/
theorem seenLength_begins {bytes received : List UInt8} {position : Nat}
    (begins : received <+: bytes) (complete : position + 2 ≤ received.length) (stale : UInt8)
    : seenLength bytes position stale = seenLength received position stale := by
  obtain ⟨rest, rfl⟩ := begins
  rw [seenLength, seenLength, byteAt_append (by omega), byteAt_append (by omega)]

/-- The local that holds `value` after its high byte was `stale`. -/
@[simp]
theorem highByte_ofNat_mul (stale : UInt8) : highByte (.ofNat (256 * stale.toNat)) = stale := by
  have small := stale.toNat_lt
  rw [highByte, UInt16.toNat_ofNat', Nat.mod_eq_of_lt (by omega),
    Nat.mul_div_cancel_left _ (by decide), UInt8.ofNat_toNat]

/-- A header peek fills the local with the two oldest bytes, and leaves the ring alone. When
the physical end lies between them the newer one takes the place of the older one, and the
high byte of the local stays.
Witness: one copy of both bytes, or two copies of one byte each to the local's first byte.
-/
theorem ByteCircularBuffer.WellFormed.peek {bcb : ByteCircularBuffer} (wf : bcb.WellFormed)
    (two : 2 ≤ bcb.currentSize.toNat) (value : UInt16)
    : ∃ header,
        bcbRead bcb (objectBytes value) kHeaderMsgSize false = .ok (bcb, header, kHeaderMsgSize)
        ∧ hostOrder header
          = .ofNat
              (if bcb.leading = 1 then
                byteAt bcb.live 1 + 256 * (highByte value).toNat
              else
                byteAt bcb.live 0 + 256 * byteAt bcb.live 1) := by
  have size := wf.length_live
  have positive := wf.leading_pos
  have oldest : bcb.live.take 2 = [bcb.live.getD 0 0, bcb.live.getD 1 0] := by
    match live : bcb.live with
    | [] | [_] =>
        rw [live] at size
        simp only [List.length_cons, List.length_nil] at size
        omega
    | _ :: _ :: _ => rfl
  refine ⟨_, wf.bcbRead_served false two (copyFits_of_le (Nat.le_refl 2)), ?_⟩
  rw [toNat_kHeaderMsgSize, oldest]
  by_cases split : bcb.leading = 1
  · rw [if_pos split, split]
    rfl
  · rw [if_neg split, copiedOut_of_le (by simp only [List.length_cons, List.length_nil]; omega)]
    rfl

section Peeking

variable {received : List UInt8} {consumed : Nat} {progress : Progress}

/-- A header peek fills the local with the seen length, and leaves the ring alone. -/
theorem Tracks.peek (tracks : Tracks received consumed progress)
    (complete : consumed + 2 ≤ received.length) (value : UInt16)
    : ∃ header,
        bcbRead progress.delimiter.bcb (objectBytes value) kHeaderMsgSize false
          = .ok (progress.delimiter.bcb, header, kHeaderMsgSize)
        ∧ hostOrder header = .ofNat (seenLength received consumed (highByte value)) := by
  obtain ⟨header, read, value_eq⟩ :=
    tracks.wf.peek (by rw [tracks.size]; omega : 2 ≤ progress.delimiter.bcb.currentSize.toNat)
      value
  have below : consumed % 10240 < 10240 := Nat.mod_lt _ (by decide)
  refine ⟨header, read, value_eq.trans ?_⟩
  rw [tracks.leading, tracks.live, byteAt_drop, byteAt_drop, seenLength]
  by_cases split : consumed % 10240 = 10239
  · rw [if_pos split, if_pos (by omega)]
  · rw [if_neg split, if_neg (by omega)]
    rfl

/-- What `IsFlushable` decides: three bytes are there, and the seen length of them. -/
def Flushable (received : List UInt8) (consumed : Nat) (stale : UInt8) : Prop :=
  consumed + 3 ≤ received.length
  ∧ seenLength received consumed stale ≤ received.length - consumed

instance (received : List UInt8) (consumed : Nat) (stale : UInt8)
    : Decidable (Flushable received consumed stale) :=
  inferInstanceAs (Decidable (_ ∧ _))

theorem Tracks.isFlushable (tracks : Tracks received consumed progress) (value : UInt16)
    : MsgDelimiterVar.isFlushable progress.delimiter.bcb value
      = .ok (decide (Flushable received consumed (highByte value))) := by
  have size := tracks.size
  rw [MsgDelimiterVar.isFlushable]
  by_cases few : progress.delimiter.bcb.currentSize ≤ kHeaderMsgSize
  · rw [if_pos few]
    rw [UInt16.le_iff_toNat_le, size, toNat_kHeaderMsgSize] at few
    have short : ¬ Flushable received consumed (highByte value) := by
      intro flushable
      have := flushable.1
      omega
    rw [decide_eq_false short]
  · rw [if_neg few]
    rw [UInt16.le_iff_toNat_le, size, toNat_kHeaderMsgSize] at few
    obtain ⟨header, read, value⟩ := tracks.peek (by omega) value
    rw [read]
    simp only [bind, Except.bind, pure, Except.pure, value]
    congr 2
    rw [eq_iff_iff, UInt16.le_iff_toNat_le, toNat_seenLength, size, Flushable]
    exact ⟨fun le => ⟨by omega, le⟩, fun flushable => flushable.2⟩

-----------------------------------------------------------------------------------------
-- One turn of the drain loop
-----------------------------------------------------------------------------------------

/-- The loop test and one turn of `MsgDelimiterVar::ProcessMsg` on a tracked delimiter: it
returns, aborts on the assertion, overruns `buf`, or goes on behind the message.
-/
theorem Tracks.processMsg_succ (tracks : Tracks received consumed progress)
    (around : Surroundings) (fuel turn : Nat) (readSize : UInt16)
    : MsgDelimiterVar.processMsg around (fuel + 1) turn readSize progress
      = if Flushable received consumed (highByte (around.msgSize (turn + 1))) then
          let length := seenLength received consumed (highByte readSize)
          if received.length - consumed < length then
            .error (.aborted .assertionFailed, progress.asking (.ofNat length))
          else if BufFits consumed length then
            MsgDelimiterVar.processMsg around fuel (turn + 1) (.ofNat length)
              (progress.advanced around turn (.ofNat length))
          else
            .error (.aborted .outOfRange, progress.asking (.ofNat length))
        else
          .ok progress := by
  rw [MsgDelimiterVar.processMsg, tracks.isFlushable]
  by_cases flushable : Flushable received consumed (highByte (around.msgSize (turn + 1)))
  · have three := flushable.1
    obtain ⟨header, read, value⟩ := tracks.peek (by omega) readSize
    have whole := toNat_seenLength received consumed (highByte readSize)
    rw [if_pos flushable, decide_eq_true flushable]
    simp only [attempt, bind, Except.bind, Bool.not_true, Bool.false_eq_true, if_false, read,
      value]
    by_cases few : received.length - consumed
        < seenLength received consumed (highByte readSize)
    · have nonzero : UInt16.ofNat (seenLength received consumed (highByte readSize)) ≠ 0 := by
        intro zero
        rw [zero] at whole
        have : (0 : UInt16).toNat = 0 := rfl
        omega
      rw [if_pos few, tracks.readMessage_short (by rw [whole]; exact few)]
      simp only [if_pos nonzero]
      rfl
    · rw [if_neg few]
      by_cases fits : BufFits consumed (seenLength received consumed (highByte readSize))
      · rw [if_pos fits, tracks.readMessage_served (by rw [whole]; omega)
          (by rw [whole]; exact fits)]
        simp only [ne_eq, not_true_eq_false, if_false]
        rfl
      · rw [if_neg fits, tracks.readMessage_overrun (by rw [whole]; omega)
          (by rw [whole]; exact fits)]
  · rw [if_neg flushable, decide_eq_false flushable]
    rfl

/-- A call of `Process` with variable-length messages: it fails the assertion around the
write, keeps the chunk in the ring, or drains the ring.
-/
theorem Tracks.process_var (tracks : Tracks received consumed progress) (fuel : Nat)
    (arrival : Arrival)
    : process .var fuel arrival.around progress arrival.chunk (.ofNat arrival.chunk.length)
      = if 10240 < received.length - consumed + arrival.chunk.length then
          .error (.aborted .assertionFailed, progress)
        else if Flushable (received ++ arrival.chunk) consumed
            (highByte (arrival.around.msgSize 0)) then
          MsgDelimiterVar.processMsg arrival.around fuel 0 arrival.around.readSize
            (progress.written arrival.chunk)
        else
          .ok (progress.written arrival.chunk) := by
  by_cases large : 10240 < received.length - consumed + arrival.chunk.length
  · rw [if_pos large, tracks.process_refused .var fuel large]
  · have fits := Nat.le_of_not_lt large
    have flushed := (tracks.written fits).isFlushable (arrival.around.msgSize 0)
    rw [if_neg large, tracks.process_fits .var fuel fits]
    simp only [Framing.isFlushable, flushed, attempt, bind, Except.bind]
    by_cases flushable : Flushable (received ++ arrival.chunk) consumed
        (highByte (arrival.around.msgSize 0))
    · rw [if_pos flushable, decide_eq_true flushable]
      rfl
    · rw [if_neg flushable, decide_eq_false flushable]
      rfl

end Peeking

end Ethnm
