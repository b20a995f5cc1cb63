import Ethnm.Delimiter.Cutting
import Ethnm.Delimiter.SafeSizes

/-! Fixed-size messages do not depend on how the stream was split. The place of every byte in
the ring, and of every copy in the message buffer, follows from its position in the stream, so
a delimiter whose callbacks leave the message buffer alone is a function of what it received.
-/

namespace Ethnm
open ByteCircularBuffer CircularWindow

/-- The message buffer after the first `count` messages of a stream. -/
def refilled (size : Nat) (bytes : List UInt8) : Nat → List UInt8
  | 0 => List.replicate kBufferSize 0
  | count + 1 =>
      copiedOut (10240 - count * size % 10240) ((bytes.drop (count * size)).take size)
        (refilled size bytes count)

/-- What the callback was given for the first `count` messages of a stream. -/
def handedOut (size : Nat) (bytes : List UInt8) : Nat → List (List UInt8 × Nat)
  | 0 => []
  | count + 1 =>
      handedOut size bytes count ++ [((refilled size bytes (count + 1)).take size, size)]

/-- The ring and the message buffer after `received` has come in, and `count` messages of the
stream have been delivered.
-/
def delimiterAfter (size : Nat) (bytes received : List UInt8) (count : Nat) : MsgDelimiter where
  bcb := {
    buffer := imprint (List.replicate 10240 0) 0 received
    bufferSize := kBcbSize
    front := .ofNat (received.length % 10240)
    rear := .ofNat (count * size % 10240)
    currentSize := .ofNat (received.length - count * size)
  }
  buf := refilled size bytes count

/-- The delimiter has delivered `count` messages, and everything else about it follows. -/
structure Determined (size : UInt16) (bytes received : List UInt8) (count : Nat)
    (progress : Progress) : Prop
    extends Tracks received (count * size.toNat) progress where
  cells : progress.delimiter.bcb.buffer = imprint (List.replicate 10240 0) 0 received
  buf : progress.delimiter.buf = refilled size.toNat bytes count
  delivered : progress.delivered = handedOut size.toNat bytes count

/-- The application's callback does not write to the message buffer. -/
def Arrival.Passive (arrival : Arrival) : Prop :=
  ∀ turn buf, arrival.around.received turn buf = buf

section Determining

variable {size : UInt16} {bytes received : List UInt8} {count : Nat} {progress : Progress}

theorem determined_fresh (size : UInt16) (bytes : List UInt8)
    : Determined size bytes [] 0 fresh where
  toTracks := by
    rw [Nat.zero_mul]
    exact tracks_fresh
  cells := rfl
  buf := rfl
  delivered := rfl

/-- The ring's next free cell is that of the next stream position. -/
theorem Tracks.front {consumed : Nat} (tracks : Tracks received consumed progress)
    : progress.delimiter.bcb.front.toNat = received.length % 10240 := by
  have before := tracks.consumed_le
  rw [tracks.wf.front_eq, tracks.rear, tracks.size, tracks.capacity, toNat_kBcbSize,
    Nat.mod_add_mod, Nat.add_sub_cancel' before]

theorem Determined.delimiter_eq (determined : Determined size bytes received count progress)
    : progress.delimiter = delimiterAfter size.toNat bytes received count := by
  have bound := determined.size_le
  have capacity := determined.capacity
  have front : progress.delimiter.bcb.front = .ofNat (received.length % 10240) := by
    rw [← determined.front, UInt16.ofNat_toNat]
  have rear : progress.delimiter.bcb.rear = .ofNat (count * size.toNat % 10240) := by
    rw [← determined.rear, UInt16.ofNat_toNat]
  have current : progress.delimiter.bcb.currentSize
      = .ofNat (received.length - count * size.toNat) := by
    rw [← determined.size, UInt16.ofNat_toNat]
  have cells := determined.cells
  have buf := determined.buf
  obtain ⟨⟨⟨buffer, bufferSize, _, _, _⟩, _⟩, _, _⟩ := progress
  simp only at capacity front rear current cells buf
  rw [capacity, front, rear, current, cells, buf]
  rfl

/-- A chunk that fits is imprinted behind what was received. -/
theorem Determined.written (determined : Determined size bytes received count progress)
    {chunk : List UInt8} (fits : received.length - count * size.toNat + chunk.length ≤ 10240)
    : Determined size bytes (received ++ chunk) count (progress.written chunk) where
  toTracks := determined.toTracks.written fits
  cells := by
    have storage := determined.wf.storage
    rw [determined.capacity, toNat_kBcbSize] at storage
    have below : received.length % 10240 < 10240 := Nat.mod_lt _ (by decide)
    change store progress.delimiter.bcb.buffer progress.delimiter.bcb.front.toNat chunk = _
    rw [determined.front, store_eq_imprint (by rw [storage]; exact below.le)
      (by rw [storage]; omega), determined.cells, imprint_append, Nat.zero_add]
    apply imprint_congr
    rw [length_imprint, List.length_replicate, Nat.mod_mod]
  buf := determined.buf
  delivered := determined.delivered

/-- A turn that delivers a message to a passive callback leaves the next state. -/
theorem Determined.advanced (determined : Determined size bytes received count progress)
    (begins : received <+: bytes) (small : size.toNat ≤ kBufferSize)
    (enough : size.toNat ≤ received.length - count * size.toNat) {around : Surroundings}
    (passive : ∀ turn buf, around.received turn buf = buf) (turn : Nat)
    : Determined size bytes received (count + 1) (progress.advanced around turn size) := by
  have before := determined.consumed_le
  have tracks := determined.toTracks.advanced around turn enough (copyFits_of_le small)
  have message : progress.delimiter.bcb.live.take size.toNat
      = (bytes.drop (count * size.toNat)).take size.toNat := by
    rw [determined.live, take_drop_begins begins (by omega)]
  have copied : copiedOut progress.delimiter.bcb.leading
        (progress.delimiter.bcb.live.take size.toNat) progress.delimiter.buf
      = refilled size.toNat bytes (count + 1) := by
    rw [refilled, determined.leading, message, determined.buf]
  refine { toTracks := ?_, cells := determined.cells, buf := ?_, delivered := ?_ }
  · rw [Nat.succ_mul]
    exact tracks
  · exact (passive turn _).trans copied
  · rw [delivered_advanced, determined.delivered, copied, handedOut]

/-- The delimiter is determined, and has less than a message left. -/
def Cleared (size : UInt16) (bytes received : List UInt8) (progress : Progress) : Prop :=
  ∃ count, Determined size bytes received count progress
    ∧ received.length - count * size.toNat < size.toNat

/-- A drain loop delivers message by message, by induction on its fuel. -/
theorem Determined.drain (determined : Determined size bytes received count progress)
    (begins : received <+: bytes) (positive : 0 < size.toNat)
    (small : size.toNat ≤ kBufferSize) {around : Surroundings}
    (passive : ∀ turn buf, around.received turn buf = buf) (fuel turn : Nat)
    : (MsgDelimiterFixed.drain around size fuel turn progress).Meets
        (Cleared size bytes received) (fun _ => True) := by
  induction fuel generalizing count turn progress with
  | zero => trivial
  | succ fuel ih =>
      rw [determined.toTracks.drain_succ positive (copyFits_of_le small)]
      by_cases enough : size.toNat ≤ received.length - count * size.toNat
      · rw [if_pos enough]
        exact ih (determined.advanced begins small enough passive turn) (turn + 1)
      · rw [if_neg enough]
        have kept : Determined size bytes received count (progress.asking size) := {
          toTracks := determined.toTracks.congr rfl
          cells := determined.cells
          buf := determined.buf
          delivered := determined.delivered
        }
        exact ⟨count, kept, Nat.lt_of_not_le enough⟩

/-- Every run with passive callbacks that returns leaves a cleared delimiter. -/
theorem feed_cleared (positive : 0 < size.toNat) (small : size.toNat ≤ kBufferSize)
    (fuel : Nat) {arrivals : List Arrival} (passive : ∀ arrival ∈ arrivals, arrival.Passive)
    : (feed (.fixed size) fuel fresh arrivals).Meets
        (Cleared size (stream arrivals) (stream arrivals)) (fun _ => True) := by
  have start : Cleared size (stream arrivals) [] fresh :=
    ⟨0, determined_fresh size _, by simpa using positive⟩
  refine feed_fresh_meets Arrival.Passive ?_ List.prefix_rfl passive start
  rintro received progress arrival begins passive ⟨count, determined, rest⟩
  have sized := arrival.sized
  have fits : received.length - count * size.toNat + arrival.chunk.length ≤ 10240 := by
    unfold kBufferSize at sized small
    omega
  have valid : (Framing.fixed size).Valid := positive
  have written := determined.written fits
  rw [determined.toTracks.process_eq valid fuel fits]
  split
  · exact written.drain begins positive small passive fuel 0
  · rename_i short
    exact ⟨count, written, Nat.lt_of_not_le short⟩

/-- The number of delivered messages follows from the length of the stream. -/
theorem Cleared.determined (cleared : Cleared size bytes received progress)
    : Determined size bytes received (received.length / size.toNat) progress := by
  obtain ⟨count, determined, rest⟩ := cleared
  have before := determined.consumed_le
  have next : (count + 1) * size.toNat = count * size.toNat + size.toNat := Nat.succ_mul _ _
  rw [Nat.div_eq_of_lt_le before (by omega)]
  exact determined

end Determining

/-- Two splits of one stream give the same deliveries and the same delimiter, for every size
up to that of the message buffer.
-/
theorem feed_splits_agree {size : UInt16} (positive : 1 ≤ size.toNat)
    (small : size.toNat ≤ kBufferSize) {first second : List Arrival}
    (same : stream first = stream second)
    (passive : ∀ arrival ∈ first ++ second, arrival.Passive)
    : ∃ enough, ∀ fuel, enough ≤ fuel →
        ∃ one other,
          feed (.fixed size) fuel fresh first = .ok one
          ∧ feed (.fixed size) fuel fresh second = .ok other
          ∧ one.delivered = other.delivered
          ∧ one.delimiter = other.delimiter := by
  have determined (fuel : Nat) (enough : 10241 ≤ fuel) {arrivals : List Arrival}
      (passive : ∀ arrival ∈ arrivals, arrival.Passive)
      : ∃ progress, feed (.fixed size) fuel fresh arrivals = .ok progress
        ∧ Determined size (stream arrivals) (stream arrivals)
          ((stream arrivals).length / size.toNat) progress := by
    have residual := feed_residual positive small fuel arrivals
    have cleared := feed_cleared positive small fuel passive
    cases result : feed (.fixed size) fuel fresh arrivals with
    | error stopped =>
        rw [result] at residual
        have starved := residual.2.1
        omega
    | ok progress => exact ⟨progress, rfl, (cleared.of_ok result).determined⟩
  refine ⟨10241, fun fuel enough => ?_⟩
  obtain ⟨left, right⟩ := List.forall_mem_append.mp passive
  obtain ⟨one, returned, left⟩ := determined fuel enough left
  obtain ⟨other, returned', right⟩ := determined fuel enough right
  rw [← same] at right
  exact ⟨one, other, returned, returned', left.delivered.trans right.delivered.symm,
    left.delimiter_eq.trans right.delimiter_eq.symm⟩

/-- Three bytes one by one, and in one chunk, cut into messages of two. -/
theorem feed_splits_agree_three
    : let chunk : Arrival := ⟨[7, 8, 9], .holding 0 0, by decide, by decide⟩
      let single (byte : UInt8) : Arrival := .single byte (.holding 0 0)
      ∃ enough, ∀ fuel, enough ≤ fuel →
        ∃ one other,
          feed (.fixed 2) fuel fresh [single 7, single 8, single 9] = .ok one
          ∧ feed (.fixed 2) fuel fresh [chunk] = .ok other
          ∧ one.delivered = other.delivered
          ∧ one.delimiter = other.delimiter := by
  refine feed_splits_agree (by decide) (by decide) rfl ?_
  simp [Arrival.Passive, Arrival.single, Surroundings.holding]

end Ethnm
