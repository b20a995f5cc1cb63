import Mathlib.Data.Nat.Find
import Ethnm.Delimiter.Cutting

/-! Whole runs over a stream that is cut into known pieces. All pieces are delivered in every
run exactly when none of them passes the physical end of the ring.
-/

namespace Ethnm
open ByteCircularBuffer

section Runs

variable {pieces : List (List UInt8)} {tail received : List UInt8} {k : Nat}
  {progress : Progress} {framing : Framing}

/-- A cut is a matter of the ring and of the deliveries. -/
theorem Cut.congr {next : Progress} (cut : Cut pieces received k progress)
    (same : next.delimiter = progress.delimiter)
    (undelivered : next.iterations = progress.iterations)
    : Cut pieces received k next where
  toTracks := cut.toTracks.congr same
  delivered := by
    rw [Progress.delivered, undelivered]
    exact cut.delivered

-----------------------------------------------------------------------------------------
-- Pieces that lie in one stretch
-----------------------------------------------------------------------------------------

/-- All complete pieces were delivered. -/
def Drained (pieces : List (List UInt8)) (received : List UInt8) (progress : Progress)
    : Prop :=
  ∃ k, k ≤ pieces.length ∧ Cut pieces received k progress ∧ ¬ Complete pieces received k

/-- The drain loop delivers all complete pieces, by induction on its fuel: each turn uses one
unit of fuel and at least one live byte.
-/
theorem Framing.Cuts.loop_drained (cuts : framing.Cuts pieces tail)
    (begins : received <+: pieces.flatten ++ tail)
    (unbroken : ∀ k < pieces.length, ¬ Straddles pieces k)
    (cut : Cut pieces received k progress) (within : k ≤ pieces.length)
    (around : Surroundings) {fuel : Nat} (turn : Nat) (readSize : UInt16)
    (enough : received.length - offset pieces k < fuel)
    : (framing.loop around fuel turn readSize progress).Meets (Drained pieces received)
        (fun _ => False) := by
  induction fuel generalizing k turn readSize progress with
  | zero => exact absurd enough (Nat.not_lt_zero _)
  | succ fuel ih =>
      by_cases complete : Complete pieces received k
      · have straight := unbroken k complete.1
        have ready (stale : UInt8) : framing.Ready received (offset pieces k) stale :=
          cuts.ready begins straight complete
        have announced :=
          (cuts.announced begins cut.size_le complete.1 (.inr straight) (ready 0)).2
        obtain ⟨positive, fits⟩ := cuts.sized_getD complete.1
        obtain ⟨size, size_eq, next⟩ :=
          cut.toTracks.loop_turn around fuel turn readSize (ready _) (announced _) positive
            complete.enough (copyFits_of_le fits)
        have further := offset_succ pieces k
        have available := complete.enough
        rw [next]
        exact ih (cut.advanced begins complete fits straight around turn size_eq) complete.1
          (turn + 1) size (by omega)
      · have rest
            : ¬ framing.Ready received (offset pieces k)
                (highByte (around.msgSize (turn + 1))) := by
          rcases Nat.lt_or_eq_of_le within with inside | rfl
          · exact fun ready => complete
              (cuts.announced begins cut.size_le inside (.inr (unbroken k inside)) ready).1
          · exact cuts.done begins
        obtain ⟨next, returned, same, undelivered⟩ :=
          cut.toTracks.loop_done around fuel turn readSize rest
        rw [returned]
        exact ⟨k, within, cut.congr same undelivered, complete⟩

/-- What is left behind a drained cut is less than a message buffer. -/
theorem Framing.Cuts.rest_lt (cuts : framing.Cuts pieces tail)
    (begins : received <+: pieces.flatten ++ tail) (within : k ≤ pieces.length)
    (drained : ¬ Complete pieces received k)
    : received.length - offset pieces k < kBufferSize := by
  rcases Nat.lt_or_eq_of_le within with inside | rfl
  · have next := offset_succ pieces k
    have sized := cuts.sized_getD inside
    have short : received.length < offset pieces (k + 1) := by
      by_contra whole
      exact drained ⟨inside, Nat.le_of_not_lt whole⟩
    omega
  · have total := begins.length_le
    have short := cuts.short
    rw [List.length_append] at total
    rw [offset_length]
    omega

/-- Every run over unbroken pieces delivers all complete pieces. -/
theorem Framing.Cuts.feed_drained (cuts : framing.Cuts pieces tail)
    (unbroken : ∀ k < pieces.length, ¬ Straddles pieces k) {fuel : Nat}
    (enough : 10240 < fuel) {arrivals : List Arrival}
    (begins : stream arrivals <+: pieces.flatten ++ tail)
    : (feed framing fuel fresh arrivals).Meets (Drained pieces (stream arrivals))
        (fun _ => False) := by
  have start : Cut pieces [] 0 fresh := { toTracks := tracks_fresh, delivered := rfl }
  have empty : ¬ Complete pieces [] 0 := by
    rintro ⟨inside, whole⟩
    have positive := (cuts.sized_getD inside).1
    rw [offset_succ, List.length_nil] at whole
    omega
  refine feed_fresh_meets (fun _ => True) ?_ begins (fun _ _ => trivial)
    ⟨0, Nat.zero_le _, start, empty⟩
  rintro received progress arrival more - ⟨k, within, cut, drained⟩
  have rest := cuts.rest_lt ((List.prefix_append _ _).trans more) within drained
  have sized := arrival.sized
  have fits : received.length - offset pieces k + arrival.chunk.length ≤ 10240 := by
    unfold kBufferSize at rest sized
    omega
  have written : Cut pieces (received ++ arrival.chunk) k (progress.written arrival.chunk) :=
    { toTracks := cut.toTracks.written fits, delivered := cut.delivered }
  rw [cut.toTracks.process_eq cuts.valid fuel fits]
  split
  · exact cuts.loop_drained more unbroken written within _ _ _
      (written.size_le.trans_lt enough)
  · rename_i rest
    refine ⟨k, within, written, fun complete => rest ?_⟩
    exact cuts.ready more (unbroken k complete.1) complete

-----------------------------------------------------------------------------------------
-- The first piece that does not
-----------------------------------------------------------------------------------------

/-- Surroundings in which the locals hold 255 in each byte, and the callback overwrites the
message buffer with one byte value.
-/
def Surroundings.filling (byte : UInt8) : Surroundings where
  msgSize := fun _ => 0xFFFF
  readSize := 0xFFFF
  received := fun _ buf => List.replicate buf.length byte
  length_received := fun _ _ => List.length_replicate

theorem highByte_filling (byte : UInt8) (index : Nat)
    : highByte ((Surroundings.filling byte).msgSize index) = 255 := by
  change highByte 0xFFFF = 255
  decide

/-- The delimiter is not beyond the `last` cut, and the callback has filled the message
buffer; or a wrong message was delivered.
-/
def Misses (pieces : List (List UInt8)) (last : Nat) (byte : UInt8) (received : List UInt8)
    (progress : Progress)
    : Prop :=
  (∃ k, k ≤ last
    ∧ Cut pieces received k progress
    ∧ (0 < k → progress.delimiter.buf = List.replicate kBufferSize byte))
  ∨ Astray pieces progress

/-- Every finished turn leaves the message buffer filled. -/
theorem Tracks.filled {consumed turn : Nat} {byte : UInt8} {size : UInt16}
    (tracks : Tracks received consumed (progress.advanced (.filling byte) turn size))
    : (progress.advanced (.filling byte) turn size).delimiter.buf
      = List.replicate kBufferSize byte := by
  have room := tracks.room
  rw [← room]
  exact congrArg (List.replicate · byte) (List.length_replicate.symm)

/-- The drain loop does not get beyond the first broken piece, by induction on its fuel. -/
theorem Framing.Cuts.loop_misses (cuts : framing.Cuts pieces tail)
    (begins : received <+: pieces.flatten ++ tail) {last : Nat} {byte : UInt8}
    (within : last < pieces.length) (unbroken : ∀ k < last, ¬ Straddles pieces k)
    (straddles : Straddles pieces last)
    (other : (pieces.getD last [])[(pieces.getD last []).length - 1]? ≠ some byte)
    (before : k ≤ last) (cut : Cut pieces received k progress)
    (filled : 0 < k → progress.delimiter.buf = List.replicate kBufferSize byte)
    (fuel turn : Nat) (readSize : UInt16)
    : (framing.loop (.filling byte) fuel turn readSize progress).Meets
        (Misses pieces last byte received) (fun _ => True) := by
  induction fuel generalizing k turn readSize progress with
  | zero => cases framing <;> exact trivial
  | succ fuel ih =>
      have inside := Nat.lt_of_le_of_lt before within
      have high := highByte_filling byte (turn + 1)
      by_cases ready : framing.Ready received (offset pieces k)
          (highByte ((Surroundings.filling byte).msgSize (turn + 1)))
      · rw [high] at ready
        obtain ⟨complete, announced⟩ := cuts.announced begins cut.size_le inside (.inl rfl) ready
        obtain ⟨positive, fits⟩ := cuts.sized_getD inside
        obtain ⟨size, size_eq, next⟩ :=
          cut.toTracks.loop_turn (.filling byte) fuel turn readSize (high ▸ ready)
            (announced _) positive complete.enough (copyFits_of_le fits)
        rw [next]
        rcases Nat.lt_or_eq_of_le before with earlier | rfl
        · have further := cut.advanced begins complete fits (unbroken k earlier)
            (.filling byte) turn size_eq
          exact ih earlier further (fun _ => further.filled) (turn + 1) size
        · have reached : 0 < k := by
            by_contra start
            have zero : k = 0 := by omega
            unfold Straddles at straddles
            rw [zero] at straddles fits
            unfold kBufferSize at fits
            change 10240 < 0 % 10240 + _ at straddles
            omega
          have wrong := cut.astray begins complete straddles
            (by
              rw [filled reached, List.getElem?_replicate, if_pos (by omega)]
              exact fun same => other same.symm)
            (.filling byte) turn size_eq
          cases result : framing.loop (.filling byte) fuel (turn + 1) size
              (progress.advanced (.filling byte) turn size) with
          | error stop => trivial
          | ok final =>
              have extended := extends_loop framing (.filling byte) fuel (turn + 1) size
                (progress.advanced (.filling byte) turn size)
              rw [result] at extended
              exact .inr (wrong.extends extended)
      · obtain ⟨next, returned, same, undelivered⟩ :=
          cut.toTracks.loop_done (.filling byte) fuel turn readSize ready
        rw [returned]
        exact .inl ⟨k, before, cut.congr same undelivered, by rwa [same]⟩

/-- Runs with a filling callback do not get beyond the first broken piece. -/
theorem Framing.Cuts.feed_misses (cuts : framing.Cuts pieces tail) {last : Nat} {byte : UInt8}
    (within : last < pieces.length) (unbroken : ∀ k < last, ¬ Straddles pieces k)
    (straddles : Straddles pieces last)
    (other : (pieces.getD last [])[(pieces.getD last []).length - 1]? ≠ some byte)
    (fuel : Nat) {arrivals : List Arrival}
    (begins : stream arrivals <+: pieces.flatten ++ tail)
    (filling : ∀ arrival ∈ arrivals, arrival.around = .filling byte)
    : (feed framing fuel fresh arrivals).Meets (Misses pieces last byte (stream arrivals))
        (fun _ => True) := by
  refine feed_fresh_meets (fun arrival => arrival.around = .filling byte) ?_
    begins filling
    (.inl ⟨0, Nat.zero_le _, { toTracks := tracks_fresh, delivered := rfl },
      fun positive => absurd positive (Nat.lt_irrefl 0)⟩)
  intro received progress arrival more around misses
  rcases misses with ⟨k, before, cut, filled⟩ | wrong
  · by_cases fits : received.length - offset pieces k + arrival.chunk.length ≤ 10240
    · have written
          : Cut pieces (received ++ arrival.chunk) k (progress.written arrival.chunk) :=
        { toTracks := cut.toTracks.written fits, delivered := cut.delivered }
      rw [cut.toTracks.process_eq cuts.valid fuel fits, around]
      split
      · exact cuts.loop_misses more within unbroken straddles other before written filled
          fuel 0 _
      · exact .inl ⟨k, before, written, filled⟩
    · rw [cut.toTracks.process_refused framing fuel (Nat.lt_of_not_le fits)]
      trivial
  · have extended := extends_process framing fuel arrival.around progress arrival.chunk
      (.ofNat arrival.chunk.length)
    cases result : process framing fuel arrival.around progress arrival.chunk
        (.ofNat arrival.chunk.length) with
    | error stop => trivial
    | ok next =>
        rw [result] at extended
        exact .inr (wrong.extends extended)

-----------------------------------------------------------------------------------------
-- All runs
-----------------------------------------------------------------------------------------

/-- Every run on the given chunks, given enough fuel, returns with the pieces delivered one
after the other and the tail left in the ring.
-/
def Delivers (framing : Framing) (chunks pieces : List (List UInt8)) (tail : List UInt8)
    : Prop :=
  ∀ arrivals : List Arrival, arrivals.map Arrival.chunk = chunks →
    ∃ enough, ∀ fuel, enough ≤ fuel →
      ∃ progress, feed framing fuel fresh arrivals = .ok progress
        ∧ progress.delivered = labelled pieces
        ∧ progress.delimiter.bcb.live = tail

/-- Chunks of an allowed size can arrive in any surroundings, by induction on the chunks. -/
theorem exists_arrivals {chunks : List (List UInt8)}
    (sized : ∀ chunk ∈ chunks, 0 < chunk.length ∧ chunk.length ≤ kBufferSize)
    (around : Surroundings)
    : ∃ arrivals : List Arrival, arrivals.map Arrival.chunk = chunks
      ∧ ∀ arrival ∈ arrivals, arrival.around = around := by
  induction chunks with
  | nil => exact ⟨[], rfl, fun _ member => by cases member⟩
  | cons chunk rest ih =>
      obtain ⟨arrivals, same, uniform⟩ := ih (fun other member => sized other (.tail _ member))
      obtain ⟨nonempty, small⟩ := sized chunk List.mem_cons_self
      refine ⟨{ chunk, around, nonempty, sized := small } :: arrivals, ?_, ?_⟩
      · rw [List.map_cons, same]
      · intro arrival member
        cases member with
        | head => rfl
        | tail _ later => exact uniform arrival later

theorem stream_eq_flatten (arrivals : List Arrival)
    : stream arrivals = (arrivals.map Arrival.chunk).flatten := by
  rw [stream, List.flatMap_def]

/-- Some byte is not the one given. -/
theorem exists_other (given : Option UInt8) : ∃ byte, given ≠ some byte := by
  by_cases zero : given = some 0
  · refine ⟨1, ?_⟩
    rw [zero]
    decide
  · exact ⟨0, zero⟩

/-- A broken piece is not delivered in every run. -/
theorem Framing.Cuts.not_delivers (cuts : framing.Cuts pieces tail)
    {chunks : List (List UInt8)}
    (sized : ∀ chunk ∈ chunks, 0 < chunk.length ∧ chunk.length ≤ kBufferSize)
    (total : chunks.flatten = pieces.flatten ++ tail)
    (within : k < pieces.length) (straddles : Straddles pieces k)
    : ¬ Delivers framing chunks pieces tail := by
  intro delivers
  have broken : ∃ last, last < pieces.length ∧ Straddles pieces last := ⟨k, within, straddles⟩
  obtain ⟨inside, crossing⟩ := Nat.find_spec broken
  have unbroken : ∀ k < Nat.find broken, ¬ Straddles pieces k := fun k earlier crosses =>
    Nat.find_min broken earlier ⟨earlier.trans inside, crosses⟩
  obtain ⟨byte, other⟩ := exists_other
    (pieces.getD (Nat.find broken) [])[(pieces.getD (Nat.find broken) []).length - 1]?
  obtain ⟨arrivals, same, uniform⟩ := exists_arrivals sized (.filling byte)
  obtain ⟨enough, run⟩ := delivers arrivals same
  obtain ⟨progress, returned, delivered, -⟩ := run enough (Nat.le_refl enough)
  have begins : stream arrivals <+: pieces.flatten ++ tail := by
    rw [stream_eq_flatten, same, total]
  have misses := cuts.feed_misses inside unbroken crossing other enough begins uniform
  rcases misses.of_ok returned with ⟨k, before, cut, -⟩ | wrong
  · have lengths := congrArg List.length (cut.delivered.symm.trans delivered)
    rw [labelled, labelled, List.length_map, List.length_map, List.length_take] at lengths
    omega
  · exact wrong (delivered ▸ List.prefix_rfl)

/-- All pieces are delivered in every run exactly when none of them is broken. -/
theorem Framing.Cuts.delivers_iff (cuts : framing.Cuts pieces tail)
    {chunks : List (List UInt8)}
    (sized : ∀ chunk ∈ chunks, 0 < chunk.length ∧ chunk.length ≤ kBufferSize)
    (total : chunks.flatten = pieces.flatten ++ tail)
    : Delivers framing chunks pieces tail
      ↔ ∀ k < pieces.length, ¬ Straddles pieces k := by
  constructor
  · exact fun delivers k within straddles =>
      cuts.not_delivers sized total within straddles delivers
  · intro unbroken arrivals same
    have received : stream arrivals = pieces.flatten ++ tail := by
      rw [stream_eq_flatten, same, total]
    refine ⟨10241, fun fuel enough => ?_⟩
    have begins : stream arrivals <+: pieces.flatten ++ tail := by
      rw [received]
    have drained := cuts.feed_drained unbroken enough begins
    cases result : feed framing fuel fresh arrivals with
    | error stop =>
        rw [result] at drained
        exact drained.elim
    | ok progress =>
        obtain ⟨k, within, cut, rest⟩ := drained.of_ok result
        have all : k = pieces.length := by
          rcases Nat.lt_or_eq_of_le within with inside | last
          · refine absurd ⟨inside, ?_⟩ rest
            rw [received, List.length_append]
            exact (offset_le pieces (k + 1)).trans (Nat.le_add_right _ _)
          · exact last
        refine ⟨progress, rfl, ?_, ?_⟩
        · rw [cut.delivered, all, List.take_length]
        · rw [cut.live, all, received, offset_length, List.drop_left]

end Runs

end Ethnm
