import Ethnm.Delimiter.Containment
import Ethnm.Delimiter.Promptness
import Ethnm.Delimiter.Segmentation

/-! Variable-length messages do not depend on how the stream was split either, well formed or
not, as long as the physical end of the ring cuts none of their headers. Each message begins
where the one before it ended, so two runs that return have read the same messages.
-/

namespace Ethnm
open ByteCircularBuffer CircularWindow

-----------------------------------------------------------------------------------------
-- Messages one behind the other
-----------------------------------------------------------------------------------------

/-- The lengths of messages that are read from a stream, the latest first: each of them is
announced, and there, where those before it end.
-/
inductive Chain (bytes : List UInt8) : List Nat → Prop
  | start : Chain bytes []
  | next {earlier : List Nat} (chain : Chain bytes earlier)
    (three : earlier.sum + 3 ≤ bytes.length)
    (enough : littleEndian bytes earlier.sum ≤ bytes.length - earlier.sum)
    : Chain bytes (littleEndian bytes earlier.sum :: earlier)

/-- Nothing more can be read behind these messages. -/
def Maximal (bytes : List UInt8) (lengths : List Nat) : Prop :=
  lengths.sum + 3 ≤ bytes.length → bytes.length - lengths.sum < littleEndian bytes lengths.sum

section Chains

variable {bytes : List UInt8} {lengths others earlier : List Nat} {length : Nat}

/-- The latest message is the one that is announced behind the others. -/
theorem Chain.head_eq (chain : Chain bytes (length :: earlier))
    : length = littleEndian bytes earlier.sum := by
  cases chain
  rfl

/-- What was read first can be read by itself, by induction on the later messages. -/
theorem Chain.of_suffix (chain : Chain bytes lengths) (suffix : others <:+ lengths)
    : Chain bytes others := by
  induction chain with
  | start =>
      rw [List.suffix_nil.mp suffix]
      exact .start
  | @next earlier chain three enough ih =>
      rcases List.suffix_cons_iff.mp suffix with rfl | suffix
      · exact chain.next three enough
      · exact ih suffix

/-- Of two chains one begins with the other, by induction on the first. -/
theorem Chain.linear (chain : Chain bytes lengths) (other : Chain bytes others)
    : lengths <:+ others ∨ others <:+ lengths := by
  induction chain with
  | start => exact .inl List.nil_suffix
  | @next earlier chain three enough ih =>
      rcases ih with ⟨later, rfl⟩ | shorter
      · rcases List.eq_nil_or_concat later with rfl | ⟨later, length, rfl⟩
        · exact .inr (List.suffix_cons _ _)
        · have chained : Chain bytes (length :: earlier) := by
            refine other.of_suffix ⟨later, ?_⟩
            rw [List.concat_append]
          refine .inl ⟨later, ?_⟩
          rw [← chained.head_eq, List.concat_append]
      · exact .inr (shorter.trans (List.suffix_cons _ _))

/-- Nothing can be read behind a maximal chain. -/
theorem Chain.eq_of_suffix (chain : Chain bytes lengths) (maximal : Maximal bytes others)
    (suffix : others <:+ lengths)
    : others = lengths := by
  obtain ⟨later, rfl⟩ := suffix
  rcases List.eq_nil_or_concat later with rfl | ⟨later, length, rfl⟩
  · rfl
  · have chained : Chain bytes (length :: others) := by
      refine chain.of_suffix ⟨later, ?_⟩
      rw [List.concat_append]
    cases chained with
    | next _ three enough =>
        have beyond := maximal three
        omega

/-- A stream has one maximal chain. -/
theorem Chain.unique (chain : Chain bytes lengths) (maximal : Maximal bytes lengths)
    (other : Chain bytes others) (otherMaximal : Maximal bytes others)
    : lengths = others := by
  rcases chain.linear other with suffix | suffix
  · exact other.eq_of_suffix maximal suffix
  · exact (chain.eq_of_suffix otherMaximal suffix).symm

end Chains

-----------------------------------------------------------------------------------------
-- Delimiters that have read them
-----------------------------------------------------------------------------------------

/-- The message buffer after messages of these lengths, the latest first. -/
def refilledBy (bytes : List UInt8) : List Nat → List UInt8
  | [] => List.replicate kBufferSize 0
  | length :: earlier =>
      copiedOut (10240 - earlier.sum % 10240) ((bytes.drop earlier.sum).take length)
        (refilledBy bytes earlier)

/-- What the callback was given for messages of these lengths. -/
def handedOutBy (bytes : List UInt8) : List Nat → List (List UInt8 × Nat)
  | [] => []
  | length :: earlier =>
      handedOutBy bytes earlier
        ++ [((refilledBy bytes (length :: earlier)).take length, length)]

/-- No message that is read from the stream has a header on both sides of the physical end. -/
def Uncut (bytes : List UInt8) : Prop :=
  ∀ position, Boundary bytes position → position + 3 ≤ bytes.length → position % 10240 ≠ 10239

/-- The delimiter has read messages of these lengths, and everything else about it follows. -/
structure HasRead (bytes received : List UInt8) (lengths : List Nat) (progress : Progress)
    : Prop
    extends Tracks received lengths.sum progress where
  chain : Chain bytes lengths
  boundary : Boundary bytes lengths.sum
  cells : progress.delimiter.bcb.buffer = imprint (List.replicate 10240 0) 0 received
  buf : progress.delimiter.buf = refilledBy bytes lengths
  delivered : progress.delivered = handedOutBy bytes lengths

section Reading

variable {bytes received : List UInt8} {lengths : List Nat} {progress other : Progress}

/-- Delimiters that hold the same of a stream, in the same cells, are equal. -/
theorem Tracks.delimiter_eq {consumed : Nat} (tracks : Tracks received consumed progress)
    (otherTracks : Tracks received consumed other)
    (cells : progress.delimiter.bcb.buffer = other.delimiter.bcb.buffer)
    (buf : progress.delimiter.buf = other.delimiter.buf)
    : progress.delimiter = other.delimiter := by
  have capacity := tracks.capacity.trans otherTracks.capacity.symm
  have front := UInt16.toNat_inj.mp (tracks.front.trans otherTracks.front.symm)
  have rear := UInt16.toNat_inj.mp (tracks.rear.trans otherTracks.rear.symm)
  have current := UInt16.toNat_inj.mp (tracks.size.trans otherTracks.size.symm)
  obtain ⟨⟨⟨_, _, _, _, _⟩, _⟩, _, _⟩ := progress
  obtain ⟨⟨⟨_, _, _, _, _⟩, _⟩, _, _⟩ := other
  simp only at cells buf capacity front rear current
  rw [cells, buf, capacity, front, rear, current]

theorem hasRead_fresh (bytes : List UInt8) : HasRead bytes [] [] fresh where
  toTracks := tracks_fresh
  chain := .start
  boundary := .start
  cells := rfl
  buf := rfl
  delivered := rfl

/-- A chunk that fits is imprinted behind what was received. -/
theorem HasRead.written (hasRead : HasRead bytes received lengths progress)
    {chunk : List UInt8} (fits : received.length - lengths.sum + chunk.length ≤ 10240)
    : HasRead bytes (received ++ chunk) lengths (progress.written chunk) where
  toTracks := hasRead.toTracks.written fits
  chain := hasRead.chain
  boundary := hasRead.boundary
  cells := by
    have storage : progress.delimiter.bcb.buffer.length = 10240 := by
      rw [hasRead.cells, length_imprint, List.length_replicate]
    have below : received.length % 10240 ≤ 10240 := (Nat.mod_lt _ (by decide)).le
    change store progress.delimiter.bcb.buffer progress.delimiter.bcb.front.toNat chunk = _
    rw [hasRead.front, store_eq_imprint (by rw [storage]; exact below)
      (by rw [storage]; omega), hasRead.cells, imprint_append, Nat.zero_add]
    apply imprint_congr
    rw [length_imprint, List.length_replicate, Nat.mod_mod]
  buf := hasRead.buf
  delivered := hasRead.delivered

/-- A turn that hands the announced message to a passive callback reads on behind it. -/
theorem HasRead.advanced (hasRead : HasRead bytes received lengths progress)
    (begins : received <+: bytes) {around : Surroundings}
    (passive : ∀ turn buf, around.received turn buf = buf) (turn : Nat) {size : UInt16}
    (size_eq : size.toNat = littleEndian bytes lengths.sum)
    (asks : Asks bytes lengths.sum size.toNat)
    (enough : size.toNat ≤ received.length - lengths.sum)
    (fits : BufFits lengths.sum size.toNat)
    : HasRead bytes received (size.toNat :: lengths) (progress.advanced around turn size) := by
  have before := hasRead.consumed_le
  have total := begins.length_le
  have held := hasRead.size_le
  have sum : (size.toNat :: lengths).sum = lengths.sum + size.toNat := by
    rw [List.sum_cons, Nat.add_comm]
  have message : progress.delimiter.bcb.live.take size.toNat
      = (bytes.drop lengths.sum).take size.toNat := by
    rw [hasRead.live, take_drop_begins begins (by omega)]
  have copied : copiedOut progress.delimiter.bcb.leading
        (progress.delimiter.bcb.live.take size.toNat) progress.delimiter.buf
      = refilledBy bytes (size.toNat :: lengths) := by
    rw [refilledBy, hasRead.leading, message, hasRead.buf]
  refine {
    toTracks := ?_
    chain := ?_
    boundary := ?_
    cells := hasRead.cells
    buf := ?_
    delivered := ?_
  }
  · rw [sum]
    exact hasRead.toTracks.advanced around turn enough fits
  · rw [size_eq]
    refine hasRead.chain.next asks.three ?_
    rw [← size_eq]
    omega
  · rw [sum]
    exact hasRead.boundary.next asks (by omega) fits
  · exact (passive turn _).trans copied
  · rw [delivered_advanced, hasRead.delivered, copied, handedOutBy]

/-- The delimiter has read some messages, and is not ready to read one more. -/
def Rests (bytes received : List UInt8) (progress : Progress) : Prop :=
  ∃ lengths, HasRead bytes received lengths progress
    ∧ ∀ stale, ¬ Flushable received lengths.sum stale

/-- Whether an uncut header is flushable does not depend on the local. -/
theorem HasRead.rests (hasRead : HasRead bytes received lengths progress)
    (begins : received <+: bytes) (uncut : Uncut bytes) {stale : UInt8}
    (quiet : ¬ Flushable received lengths.sum stale)
    : Rests bytes received progress := by
  refine ⟨lengths, hasRead, fun other flushable => quiet ⟨flushable.1, ?_⟩⟩
  have three := flushable.1
  have total := begins.length_le
  have whole := uncut lengths.sum hasRead.boundary (by omega)
  have seen := flushable.2
  rw [seenLength_of_ne whole] at seen ⊢
  exact seen

/-- A drain loop that returns has read what it could, by induction on its fuel. -/
theorem HasRead.loop (hasRead : HasRead bytes received lengths progress)
    (begins : received <+: bytes) (uncut : Uncut bytes) {around : Surroundings}
    (passive : ∀ turn buf, around.received turn buf = buf) (fuel turn : Nat)
    (readSize : UInt16)
    : (MsgDelimiterVar.processMsg around fuel turn readSize progress).Meets
        (Rests bytes received) (fun _ => True) := by
  induction fuel generalizing lengths turn readSize progress with
  | zero => trivial
  | succ fuel ih =>
      rw [hasRead.toTracks.processMsg_succ]
      by_cases flushable
          : Flushable received lengths.sum (highByte (around.msgSize (turn + 1)))
      · have three := flushable.1
        have total := begins.length_le
        have asks := flushable.asks begins hasRead.size_le (highByte readSize)
        have whole := uncut lengths.sum hasRead.boundary asks.three
        have seen : seenLength received lengths.sum (highByte readSize)
            = littleEndian bytes lengths.sum := by
          rw [seenLength_of_ne whole, littleEndian_begins begins (by omega)]
        have size := toNat_seenLength received lengths.sum (highByte readSize)
        rw [if_pos flushable]
        dsimp only
        split
        · trivial
        · rename_i enough
          split
          · rename_i fits
            exact ih (hasRead.advanced begins passive turn (size.trans seen)
              (by rw [size]; exact asks) (by rw [size]; omega) (by rw [size]; exact fits))
              (turn + 1) _
          · trivial
      · rw [if_neg flushable]
        exact hasRead.rests begins uncut flushable

/-- A run with passive callbacks that returns has read all that the stream announces. -/
theorem feed_rests {fuel : Nat} {arrivals : List Arrival} (uncut : Uncut (stream arrivals))
    (passive : ∀ arrival ∈ arrivals, arrival.Passive)
    : (feed .var fuel fresh arrivals).Meets (Rests (stream arrivals) (stream arrivals))
        (fun _ => True) := by
  have start : Rests (stream arrivals) [] fresh := by
    refine ⟨[], hasRead_fresh _, fun stale flushable => ?_⟩
    have three := flushable.1
    rw [List.length_nil] at three
    omega
  refine feed_fresh_meets Arrival.Passive ?_ List.prefix_rfl passive start
  rintro received progress arrival begins passive ⟨lengths, hasRead, -⟩
  by_cases fits : received.length - lengths.sum + arrival.chunk.length ≤ 10240
  · have valid : Framing.var.Valid := trivial
    have written := hasRead.written fits
    rw [hasRead.toTracks.process_eq valid fuel fits]
    split
    · exact written.loop begins uncut passive fuel 0 _
    · rename_i quiet
      exact written.rests begins uncut quiet
  · rw [hasRead.toTracks.process_refused .var fuel (Nat.lt_of_not_le fits)]
    trivial

/-- At the end of the stream, what is not flushable is not announced. -/
theorem HasRead.maximal (hasRead : HasRead bytes bytes lengths progress) (uncut : Uncut bytes)
    (quiet : ∀ stale, ¬ Flushable bytes lengths.sum stale)
    : Maximal bytes lengths := by
  intro three
  by_contra announced
  refine quiet 0 ⟨three, ?_⟩
  rw [seenLength_of_ne (uncut _ hasRead.boundary three)]
  exact Nat.le_of_not_lt announced

end Reading

/-- Two splits of one stream whose runs return give the same deliveries and the same
delimiter, whatever the stream announces and whatever the locals hold.
-/
theorem feed_var_splits_agree {first second : List Arrival} (same : stream first = stream second)
    (uncut : Uncut (stream first)) (passive : ∀ arrival ∈ first ++ second, arrival.Passive)
    {fuel otherFuel : Nat} {one other : Progress}
    (returned : feed .var fuel fresh first = .ok one)
    (otherReturned : feed .var otherFuel fresh second = .ok other)
    : one.delivered = other.delivered ∧ one.delimiter = other.delimiter := by
  obtain ⟨left, right⟩ := List.forall_mem_append.mp passive
  obtain ⟨lengths, hasRead, quiet⟩ := (feed_rests uncut left).of_ok returned
  obtain ⟨others, otherRead, otherQuiet⟩ :=
    (feed_rests (same ▸ uncut) right).of_ok otherReturned
  rw [← same] at otherRead otherQuiet
  obtain rfl :=
    hasRead.chain.unique (hasRead.maximal uncut quiet) otherRead.chain
      (otherRead.maximal uncut otherQuiet)
  refine ⟨hasRead.delivered.trans otherRead.delivered.symm, ?_⟩
  exact hasRead.toTracks.delimiter_eq otherRead.toTracks
    (hasRead.cells.trans otherRead.cells.symm) (hasRead.buf.trans otherRead.buf.symm)

/-- A frame of three bytes in one chunk, and in two, with other values in the locals. -/
theorem feed_var_splits_agree_frame3
    : let whole : Arrival := ⟨[3, 0, 7], .holding 1 2, by decide, by decide⟩
      let header : Arrival := ⟨[3, 0], .holding 3 4, by decide, by decide⟩
      let rest : Arrival := .single 7 (.holding 5 6)
      ∃ one other,
        feed .var 10241 fresh [whole] = .ok one
        ∧ feed .var 10241 fresh [header, rest] = .ok other
        ∧ one.delivered = other.delivered
        ∧ one.delimiter = other.delimiter := by
  intro whole header rest
  have parses : Framing.var.Parses [[3, 0, 7]] [] := @parses_var [frame3] (by decide)
  obtain ⟨one, returned, -⟩ :=
    parses.contained (rfl : stream [whole] = _) (by decide : 10240 < 10241)
  obtain ⟨other, otherReturned, -⟩ :=
    parses.contained (rfl : stream [header, rest] = _) (by decide : 10240 < 10241)
  have same : stream [whole] = stream [header, rest] := rfl
  have uncut : Uncut (stream [whole]) := by
    intro position _ three
    change position + 3 ≤ 3 at three
    omega
  have passive : ∀ arrival ∈ [whole] ++ [header, rest], arrival.Passive := by
    simp [whole, header, rest, Arrival.Passive, Arrival.single, Surroundings.holding]
  exact ⟨one, other, returned, otherReturned,
    feed_var_splits_agree same uncut passive returned otherReturned⟩

end Ethnm
