import Ethnm.Delimiter.Feeding

/-! What a call does not look at: the record of earlier calls, and the bytes of its argument
behind the given size. Calls can so be counted from the first one or each for itself, and a
message can be the beginning of a larger buffer.
-/

namespace Ethnm

/-- The same delimiter, with another record in front of its own. -/
def Progress.precededBy (progress earlier : Progress) : Progress where
  delimiter := progress.delimiter
  asked := earlier.asked ++ progress.asked
  iterations := earlier.iterations ++ progress.iterations

@[simp]
theorem Progress.delimiter_precededBy (progress earlier : Progress)
    : (progress.precededBy earlier).delimiter = progress.delimiter :=
  rfl

/-- The same outcome, with another record in front. -/
def Outcome.precededBy (earlier : Progress) : Outcome → Outcome
  | .ok progress => .ok (progress.precededBy earlier)
  | .error (stop, progress) => .error (stop, progress.precededBy earlier)

/-- A delimiter about which nothing has been recorded. -/
def MsgDelimiter.unrecorded (delimiter : MsgDelimiter) : Progress :=
  { delimiter, asked := [], iterations := [] }

theorem Progress.unrecorded_precededBy (progress : Progress)
    : progress.delimiter.unrecorded.precededBy progress = progress := by
  simp [MsgDelimiter.unrecorded, Progress.precededBy]

section Calls

variable (earlier : Progress)

/-- Reading a message adds to the record and does not look at it. -/
theorem readMessage_precededBy (progress : Progress) (dataSize : UInt16)
    : readMessage (progress.precededBy earlier) dataSize
      = match readMessage progress dataSize with
        | .ok (next, read) => .ok (next.precededBy earlier, read)
        | .error (stop, next) => .error (stop, next.precededBy earlier) := by
  rw [readMessage, readMessage]
  simp only [Progress.delimiter_precededBy]
  cases bcbRead progress.delimiter.bcb progress.delimiter.buf dataSize true with
  | error fault => simp [attempt, bind, Except.bind, Progress.precededBy]
  | ok result => simp [attempt, bind, Except.bind, pure, Except.pure, Progress.precededBy]

theorem deliver_precededBy (around : Surroundings) (turn : Nat) (before len : UInt16)
    (progress : Progress)
    : deliver around turn before len (progress.precededBy earlier)
      = (deliver around turn before len progress).precededBy earlier := by
  simp [deliver, Progress.precededBy]

/-- The variable-length drain loop does not look at the record, by induction on its fuel. -/
theorem processMsg_var_precededBy (around : Surroundings) (fuel turn : Nat)
    (readSize : UInt16) (progress : Progress)
    : MsgDelimiterVar.processMsg around fuel turn readSize (progress.precededBy earlier)
      = (MsgDelimiterVar.processMsg around fuel turn readSize progress).precededBy
          earlier := by
  induction fuel generalizing turn readSize progress with
  | zero => rfl
  | succ fuel ih =>
      rw [MsgDelimiterVar.processMsg, MsgDelimiterVar.processMsg]
      simp only [Progress.delimiter_precededBy]
      cases MsgDelimiterVar.isFlushable progress.delimiter.bcb
          (around.msgSize (turn + 1)) with
      | error fault => rfl
      | ok flushable =>
          cases flushable with
          | false => rfl
          | true =>
              cases bcbRead progress.delimiter.bcb (objectBytes readSize) kHeaderMsgSize
                  false with
              | error fault => rfl
              | ok header =>
                  simp only [attempt, bind, Except.bind, Bool.not_true, Bool.false_eq_true,
                    if_false, readMessage_precededBy]
                  cases readMessage progress (hostOrder header.2.1) with
                  | error stop => rfl
                  | ok next =>
                      simp only
                      split
                      · rfl
                      · rw [deliver_precededBy]
                        exact ih _ _ _

/-- The fixed-size drain loop does not look at the record, by induction on its fuel. -/
theorem drain_precededBy (around : Surroundings) (fixedSize : UInt16) (fuel turn : Nat)
    (progress : Progress)
    : MsgDelimiterFixed.drain around fixedSize fuel turn (progress.precededBy earlier)
      = (MsgDelimiterFixed.drain around fixedSize fuel turn progress).precededBy earlier := by
  induction fuel generalizing turn progress with
  | zero => rfl
  | succ fuel ih =>
      rw [MsgDelimiterFixed.drain, MsgDelimiterFixed.drain]
      simp only [bind, Except.bind, Progress.delimiter_precededBy, readMessage_precededBy]
      cases readMessage progress fixedSize with
      | error stop => rfl
      | ok next =>
          simp only
          split
          · rfl
          · rw [deliver_precededBy]
            exact ih _ _

theorem processMsg_precededBy (framing : Framing) (around : Surroundings) (fuel : Nat)
    (progress : Progress)
    : framing.processMsg around fuel (progress.precededBy earlier)
      = (framing.processMsg around fuel progress).precededBy earlier := by
  cases framing with
  | var => exact processMsg_var_precededBy earlier around fuel 0 around.readSize progress
  | fixed fixedSize =>
      simp only [Framing.processMsg, MsgDelimiterFixed.processMsg,
        Progress.delimiter_precededBy]
      cases MsgDelimiterFixed.isFlushable progress.delimiter.bcb fixedSize with
      | error fault => rfl
      | ok flushable =>
          cases flushable with
          | false => rfl
          | true => exact drain_precededBy earlier around fixedSize fuel 0 progress

/-- A call of `Process` does not look at the record. -/
theorem process_precededBy (framing : Framing) (fuel : Nat) (around : Surroundings)
    (progress : Progress) (msg : List UInt8) (size : UInt16)
    : process framing fuel around (progress.precededBy earlier) msg size
      = (process framing fuel around progress msg size).precededBy earlier := by
  rw [process, process]
  simp only [Progress.delimiter_precededBy]
  cases bcbWrite progress.delimiter.bcb msg size with
  | error fault => rfl
  | ok written =>
      simp only [attempt, bind, Except.bind]
      split
      · rfl
      · cases framing.isFlushable written.1 (around.msgSize 0) with
        | error fault => rfl
        | ok flushable =>
            cases flushable with
            | false => rfl
            | true =>
                exact processMsg_precededBy earlier framing around fuel
                  { progress with delimiter := { progress.delimiter with bcb := written.1 } }

end Calls

/-- What a call does is known from what it does with a delimiter of which nothing has been
recorded.
-/
theorem process_eq_unrecorded (framing : Framing) (fuel : Nat) (around : Surroundings)
    (progress : Progress) (msg : List UInt8) (size : UInt16)
    : process framing fuel around progress msg size
      = (process framing fuel around progress.delimiter.unrecorded msg size).precededBy
          progress := by
  rw [← process_precededBy, Progress.unrecorded_precededBy]

/-- A copy does not look behind its range. -/
theorem memcpy_take {src : List UInt8} {srcOffset count bound : Nat}
    (within : srcOffset + count ≤ bound) (dest : List UInt8) (destOffset : Nat)
    : memcpy dest destOffset (src.take bound) srcOffset count
      = memcpy dest destOffset src srcOffset count := by
  have range : srcOffset + count ≤ (src.take bound).length ↔ srcOffset + count ≤ src.length := by
    rw [List.length_take]
    omega
  rw [memcpy, memcpy, List.drop_take, List.take_take, Nat.min_eq_left (by omega)]
  simp only [range]

/-- A write does not look behind the bytes that it is to write. -/
theorem bcbWrite_take (bcb : ByteCircularBuffer) (data : List UInt8) (dataSize : UInt16)
    : bcbWrite bcb (data.take dataSize.toNat) dataSize = bcbWrite bcb data dataSize := by
  have whole : 0 + dataSize.toNat ≤ dataSize.toNat := Nat.le_of_eq (Nat.zero_add _)
  rw [bcbWrite, bcbWrite]
  simp only [memcpy_take whole]
  by_cases fits : dataSize ≤ bcb.bufferSize - bcb.front
  · simp only [if_pos fits]
  · have larger := UInt16.lt_iff_toNat_lt.mp (UInt16.not_le.mp fits)
    have first : 0 + (bcb.bufferSize - bcb.front).toNat ≤ dataSize.toNat := by omega
    have second := Nat.le_of_eq (Nat.add_sub_cancel' (Nat.le_of_lt larger))
    simp only [memcpy_take first, memcpy_take second]

/-- A call does not look behind the bytes that it is given. -/
theorem process_take (framing : Framing) (fuel : Nat) (around : Surroundings)
    (progress : Progress) (msg : List UInt8) (size : UInt16)
    : process framing fuel around progress (msg.take size.toNat) size
      = process framing fuel around progress msg size := by
  rw [process, process, bcbWrite_take]

end Ethnm
