import Ethnm.Ring.Operations
import Ethnm.Delimiter.MsgDelimiter

/-! A delimiter seen from the stream it receives: which stream position the oldest byte of
its ring has. Each step of the delimiters' code has one lemma in these terms.
-/

namespace Ethnm
open ByteCircularBuffer

@[simp] theorem toNat_kBcbSize : kBcbSize.toNat = 10240 := rfl
@[simp] theorem toNat_kHeaderMsgSize : kHeaderMsgSize.toNat = 2 := rfl

-----------------------------------------------------------------------------------------
-- Delimiters that hold the tail of a stream
-----------------------------------------------------------------------------------------

/-- The ring and the message buffer as the constructor allocates them, with a well-formed
ring.
-/
structure Progress.Sound (progress : Progress) : Prop where
  wf : progress.delimiter.bcb.WellFormed
  capacity : progress.delimiter.bcb.bufferSize = kBcbSize
  room : progress.delimiter.buf.length = kBufferSize

/-- The ring holds what is left of `received` after its first `consumed` bytes; the oldest
byte lies at its stream position modulo the capacity.
-/
structure Tracks (received : List UInt8) (consumed : Nat) (progress : Progress) : Prop
    extends progress.Sound where
  consumed_le : consumed ≤ received.length
  rear : progress.delimiter.bcb.rear.toNat = consumed % 10240
  live : progress.delimiter.bcb.live = received.drop consumed

section Tracking

variable {received : List UInt8} {consumed : Nat} {progress : Progress}

theorem Tracks.size (tracks : Tracks received consumed progress)
    : progress.delimiter.bcb.currentSize.toNat = received.length - consumed := by
  rw [← tracks.wf.length_live, tracks.live, List.length_drop]

theorem Tracks.leading (tracks : Tracks received consumed progress)
    : progress.delimiter.bcb.leading = 10240 - consumed % 10240 := by
  rw [ByteCircularBuffer.leading, tracks.capacity, tracks.rear, toNat_kBcbSize]

theorem Tracks.size_le (tracks : Tracks received consumed progress)
    : received.length - consumed ≤ 10240 := by
  have bound := tracks.wf.current_le
  rw [tracks.size, tracks.capacity] at bound
  exact bound

/-- Records of what was asked and delivered do not matter for what the ring holds. -/
theorem Tracks.congr {other : Progress} (tracks : Tracks received consumed progress)
    (same : other.delimiter = progress.delimiter)
    : Tracks received consumed other := by
  obtain ⟨⟨wf, capacity, room⟩, consumed_le, rear, live⟩ := tracks
  refine ⟨⟨?_, ?_, ?_⟩, consumed_le, ?_, ?_⟩ <;> rwa [same]

/-- A new delimiter has received nothing, and holds nothing. -/
theorem tracks_fresh : Tracks [] 0 fresh where
  wf := wellFormed_bcbCreateNew (by decide)
  capacity := rfl
  room := List.length_replicate
  consumed_le := Nat.le_refl _
  rear := rfl
  live := live_bcbCreateNew _

-----------------------------------------------------------------------------------------
-- Writing a chunk
-----------------------------------------------------------------------------------------

/-- The progress after a chunk was written to the ring. -/
def Progress.written (progress : Progress) (chunk : List UInt8) : Progress :=
  {
    progress with
    delimiter := { progress.delimiter with bcb := progress.delimiter.bcb.appended chunk }
  }

/-- A chunk that fits extends the received stream. -/
theorem Tracks.written (tracks : Tracks received consumed progress) {chunk : List UInt8}
    (fits : received.length - consumed + chunk.length ≤ 10240)
    : Tracks (received ++ chunk) consumed (progress.written chunk) := by
  have space : progress.delimiter.bcb.currentSize.toNat + chunk.length
      ≤ progress.delimiter.bcb.bufferSize.toNat := by
    rw [tracks.size, tracks.capacity]
    exact fits
  have before := tracks.consumed_le
  constructor
  · exact ⟨tracks.wf.append space, tracks.capacity, tracks.room⟩
  · rw [List.length_append]
    omega
  · exact tracks.rear
  · exact (tracks.wf.live_appended space).trans
      (by rw [tracks.live, List.drop_append_of_le_length before])

/-- The size argument of `Process` is the length of the chunk. -/
theorem Arrival.toNat_size (arrival : Arrival)
    : (UInt16.ofNat arrival.chunk.length).toNat = arrival.chunk.length := by
  have sized := arrival.sized
  rw [UInt16.toNat_ofNat', Nat.mod_eq_of_lt (by unfold kBufferSize at sized; omega)]

/-- No chunk is empty, so a write that is accepted does not return zero. -/
theorem Arrival.size_ne_zero (arrival : Arrival) : UInt16.ofNat arrival.chunk.length ≠ 0 := by
  intro zero
  have size := arrival.toNat_size
  rw [zero] at size
  exact Nat.ne_of_lt arrival.nonempty size

/-- Processing a chunk that fits writes it and goes on with the drain loop when the peeked
length allows it.
-/
theorem Tracks.process_fits (tracks : Tracks received consumed progress) (framing : Framing)
    (fuel : Nat) {arrival : Arrival}
    (fits : received.length - consumed + arrival.chunk.length ≤ 10240)
    : process framing fuel arrival.around progress arrival.chunk
        (.ofNat arrival.chunk.length)
      = (do
          let next := progress.written arrival.chunk
          let flushable ←
            attempt next
              (framing.isFlushable next.delimiter.bcb (arrival.around.msgSize 0))
          if !flushable then
            return next
          framing.processMsg arrival.around fuel next) := by
  rw [process, tracks.wf.bcbWrite_whole (by rw [tracks.size, tracks.capacity]; exact fits)]
  simp only [attempt, bind, Except.bind, if_neg arrival.size_ne_zero]
  rfl

/-- Processing a chunk that does not fit fails the assertion around the write. -/
theorem Tracks.process_refused (tracks : Tracks received consumed progress)
    (framing : Framing) (fuel : Nat) {arrival : Arrival}
    (large : 10240 < received.length - consumed + arrival.chunk.length)
    : process framing fuel arrival.around progress arrival.chunk
        (.ofNat arrival.chunk.length)
      = .error (.aborted .assertionFailed, progress) := by
  rw [process, tracks.wf.bcbWrite_refused
    (by rw [tracks.size, tracks.capacity, arrival.toNat_size]; exact large)]
  rfl

-----------------------------------------------------------------------------------------
-- Reading a message
-----------------------------------------------------------------------------------------

/-- The progress after `dataSize` bytes were asked for, and before they are copied. -/
def Progress.asking (progress : Progress) (dataSize : UInt16) : Progress :=
  { progress with asked := progress.asked ++ [dataSize] }

/-- The progress after one turn of a drain loop that took `dataSize` bytes. -/
def Progress.advanced (around : Surroundings) (turn : Nat) (dataSize : UInt16)
    (progress : Progress)
    : Progress :=
  let bcb := progress.delimiter.bcb
  let buf :=
    copiedOut bcb.leading (bcb.live.take dataSize.toNat) progress.delimiter.buf
  deliver around turn bcb.currentSize dataSize
    {
      progress.asking dataSize with
      delimiter := { bcb := bcb.removed dataSize.toNat, buf }
    }

/-- Asking for more than the ring holds reads nothing. -/
theorem Tracks.readMessage_short (tracks : Tracks received consumed progress)
    {dataSize : UInt16} (few : received.length - consumed < dataSize.toNat)
    : readMessage progress dataSize = .ok (progress.asking dataSize, 0) := by
  rw [readMessage, bcbRead_short (by rw [tracks.size]; exact few)]
  rfl

/-- A copy of `dataSize` bytes from stream position `consumed` stays inside `buf`. -/
def BufFits (consumed dataSize : Nat) : Prop :=
  CopyFits (10240 - consumed % 10240) dataSize kBufferSize

instance (consumed dataSize : Nat) : Decidable (BufFits consumed dataSize) :=
  inferInstanceAs (Decidable (CopyFits _ _ _))

/-- Asking for bytes that are there moves them to `buf`. -/
theorem Tracks.readMessage_served (tracks : Tracks received consumed progress)
    {dataSize : UInt16} (enough : dataSize.toNat ≤ received.length - consumed)
    (fits : BufFits consumed dataSize.toNat)
    : readMessage progress dataSize
      = .ok
          ({
              progress.asking dataSize with
              delimiter :=
                {
                  bcb := progress.delimiter.bcb.removed dataSize.toNat
                  buf :=
                    copiedOut progress.delimiter.bcb.leading
                      (progress.delimiter.bcb.live.take dataSize.toNat)
                      progress.delimiter.buf
                }
            },
            dataSize) := by
  rw [readMessage, tracks.wf.bcbRead_served true (by rw [tracks.size]; exact enough)
    (by rw [tracks.leading, tracks.room]; exact fits)]
  rfl

/-- Asking for bytes that are there, but do not fit in `buf`, is undefined. -/
theorem Tracks.readMessage_overrun (tracks : Tracks received consumed progress)
    {dataSize : UInt16} (enough : dataSize.toNat ≤ received.length - consumed)
    (beyond : ¬ BufFits consumed dataSize.toNat)
    : readMessage progress dataSize
      = .error (.aborted .outOfRange, progress.asking dataSize) := by
  rw [readMessage, tracks.wf.bcbRead_overrun true (by rw [tracks.size]; exact enough)
    (by rw [tracks.leading, tracks.room]; exact beyond)]
  rfl

/-- A turn consumes as much of the stream as it asks for. -/
theorem Tracks.advanced (tracks : Tracks received consumed progress) (around : Surroundings)
    (turn : Nat) {dataSize : UInt16}
    (enough : dataSize.toNat ≤ received.length - consumed)
    (fits : BufFits consumed dataSize.toNat)
    : Tracks received (consumed + dataSize.toNat)
        (progress.advanced around turn dataSize) := by
  have before := tracks.consumed_le
  have le : dataSize.toNat ≤ progress.delimiter.bcb.currentSize.toNat := by
    rw [tracks.size]
    exact enough
  have width : (progress.delimiter.bcb.live.take dataSize.toNat).length = dataSize.toNat := by
    rw [List.length_take, tracks.wf.length_live]
    omega
  constructor
  · refine ⟨tracks.wf.remove le, tracks.capacity, ?_⟩
    refine (around.length_received turn _).trans ((length_copiedOut ?_).trans tracks.room)
    rw [width, tracks.leading, tracks.room]
    exact fits
  · omega
  · refine (tracks.wf.rear_removed _).trans ?_
    rw [tracks.rear, tracks.capacity, toNat_kBcbSize, Nat.mod_add_mod]
  · refine (tracks.wf.live_removed le).trans ?_
    rw [tracks.live, List.drop_drop]

/-- The finished turn is recorded with the bytes that the callback was given. -/
theorem iterations_advanced (around : Surroundings) (turn : Nat) (dataSize : UInt16)
    (progress : Progress)
    : (progress.advanced around turn dataSize).iterations
      = progress.iterations
        ++ [
            {
              before := progress.delimiter.bcb.currentSize
              after := (progress.delimiter.bcb.removed dataSize.toNat).currentSize
              msg :=
                (copiedOut progress.delimiter.bcb.leading
                  (progress.delimiter.bcb.live.take dataSize.toNat)
                  progress.delimiter.buf).take dataSize.toNat
              len := dataSize
            }
          ] :=
  rfl

end Tracking

end Ethnm
