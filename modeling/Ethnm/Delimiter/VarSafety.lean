import Ethnm.Delimiter.Reachability

/-! What a peer's bytes can make the variable-length delimiter do: drain for ever, copy more
than the message buffer holds, or fill the ring. Each is decided by the announced lengths.
-/

namespace Ethnm
open ByteCircularBuffer

section Draining

variable {bytes received : List UInt8} {position : Nat} {progress : Progress}

/-- The drain loop records the length it asks for, however the turn ends. -/
theorem Tracks.mem_asked_holding (tracks : Tracks received position progress)
    {seen : UInt8} (flushable : Flushable received position seen) (stale : UInt8)
    (fuel : Nat)
    : .ofNat (seenLength received position stale)
      ∈ (MsgDelimiterVar.processMsg (.holding seen stale) (fuel + 1) 0
          (.ofNat (256 * stale.toNat)) progress).progress.asked := by
  have asked (size : UInt16) : size ∈ (progress.asking size).asked := by
    simp only [Progress.asking, List.mem_append, List.mem_singleton, or_true]
  rw [tracks.processMsg_holding flushable]
  simp only
  split
  · exact asked _
  · split
    · exact (extends_processMsg_var _ _ _ _ _).asked.subset (asked _)
    · exact asked _

/-- A turn that takes no bytes is recorded like any other. -/
theorem Tracks.stalled_holding (tracks : Tracks received position progress)
    {seen stale : UInt8} (flushable : Flushable received position seen)
    (zero : seenLength received position stale = 0) (fuel : Nat)
    : ∃ turn ∈ (MsgDelimiterVar.processMsg (.holding seen stale) (fuel + 1) 0
          (.ofNat (256 * stale.toNat)) progress).progress.iterations,
        turn.after = turn.before := by
  have fits : BufFits position 0 := copyFits_of_le (Nat.zero_le _)
  have result := tracks.processMsg_holding flushable stale fuel
  simp only [zero] at result
  rw [if_neg (Nat.not_lt_zero _), if_pos fits] at result
  have last : ∃ turn
      ∈ (progress.advanced (.holding seen stale) 0 (.ofNat 0)).iterations,
      turn.after = turn.before := by
    refine ⟨_, List.mem_append_right _ (List.mem_singleton.mpr rfl), ?_⟩
    rw [← UInt16.toNat_inj]
    exact (currentSize_removed 0).trans (Nat.sub_zero _)
  obtain ⟨turn, member, unchanged⟩ := last
  rw [result]
  exact ⟨turn, (extends_processMsg_var _ _ _ _ _).iterations.subset member, unchanged⟩

end Draining

/-- The drain loops end: with enough fuel no call on a prefix of the stream is left looping,
and every finished turn has made `currentSize` smaller.
-/
def DrainsTerminate (bytes : List UInt8) : Prop :=
  ∀ arrivals, stream arrivals <+: bytes →
    ∃ enough, ∀ fuel, enough ≤ fuel →
      (∀ progress, feed .var fuel fresh arrivals ≠ .error (.looping, progress))
      ∧ ∀ turn ∈ (feed .var fuel fresh arrivals).progress.iterations,
          turn.after < turn.before

/-- A boundary that announces no bytes keeps a drain loop from making progress. -/
theorem Boundary.not_drainsTerminate {bytes position} (boundary : Boundary bytes position)
    (asks : Asks bytes position 0)
    : ¬ DrainsTerminate bytes := by
  intro terminate
  obtain ⟨count, few, reaches⟩ := boundary.reached
  obtain ⟨three, -, stale, zero⟩ := asks
  obtain ⟨later, arrivals, later_eq, within, received, flushable, run⟩ :=
    reaches.drains few three (by omega : seenLength bytes position stale ≤ _) stale
  obtain ⟨enough, fuelled⟩ := terminate arrivals (received ▸ List.take_prefix later bytes)
  obtain ⟨progress, tracks, result⟩ := run (enough + 2) (by omega)
  have same := seenLength_begins (List.take_prefix later bytes)
    (by rw [List.length_take]; omega : position + 2 ≤ _) stale
  obtain ⟨turn, member, stalled⟩ :=
    tracks.stalled_holding flushable (same.symm.trans zero.symm) (enough + 1)
  rw [← result] at member
  have smaller := (fuelled (enough + 2) (by omega)).2 turn member
  rw [stalled] at smaller
  exact UInt16.lt_irrefl _ smaller

/-- The drain loops terminate on a stream exactly when none of its boundaries announces a
message of no bytes.
-/
theorem drainsTerminate_iff (bytes : List UInt8)
    : DrainsTerminate bytes
      ↔ ∀ position, Boundary bytes position → ¬ Asks bytes position 0 := by
  constructor
  · intro terminate position boundary asks
    exact boundary.not_drainsTerminate asks terminate
  · intro positive arrivals begins
    refine ⟨10241, fun fuel enough => ?_⟩
    constructor
    · intro progress looping
      have settled := feed_settled fuel begins
      rw [looping] at settled
      rcases settled.2 rfl with starved | ⟨position, boundary, asks⟩
      · omega
      · exact positive position boundary asks
    · intro turn member
      obtain ⟨⟨position, boundary, asks⟩, shrinks⟩ := (feed_recorded begins).turns turn member
      have some : turn.len.toNat ≠ 0 := by
        intro none
        rw [none] at asks
        exact positive position boundary asks
      rw [UInt16.lt_iff_toNat_lt]
      omega

/-- Three zero bytes announce a message of no bytes, and the loop takes it for ever. -/
theorem not_drainsTerminate_zeros : ¬ DrainsTerminate [0, 0, 0] :=
  Boundary.start.not_drainsTerminate
    {
      three := by decide
      flushable := ⟨0, by decide⟩
      seen := ⟨0, by decide⟩
    }

/-- Every read into the message buffer asks for at most its size. -/
def MessagesFit (bytes : List UInt8) : Prop :=
  ∀ arrivals fuel, stream arrivals <+: bytes →
    ∀ size ∈ (feed .var fuel fresh arrivals).progress.asked, size.toNat ≤ kBufferSize

/-- Whatever length a boundary can announce, some run asks for it. -/
theorem Boundary.asked {bytes position length} (boundary : Boundary bytes position)
    (asks : Asks bytes position length)
    : ∃ arrivals fuel, stream arrivals <+: bytes
      ∧ ∃ size ∈ (feed .var fuel fresh arrivals).progress.asked, size.toNat = length := by
  obtain ⟨count, few, reaches⟩ := boundary.reached
  obtain ⟨three, ⟨seen, enough⟩, stale, rfl⟩ := asks
  obtain ⟨later, arrivals, later_eq, within, received, flushable, run⟩ :=
    reaches.drains few three enough stale
  obtain ⟨progress, tracks, result⟩ := run 2 (Nat.le_refl 2)
  refine ⟨arrivals, 2, received ▸ List.take_prefix later bytes, _, ?_,
    toNat_seenLength bytes position stale⟩
  rw [result, seenLength_begins (List.take_prefix later bytes)
    (by rw [List.length_take]; omega)]
  exact tracks.mem_asked_holding flushable stale 1

/-- A boundary that announces more than the message buffer holds has it overrun. -/
theorem Boundary.not_messagesFit {bytes position length} (boundary : Boundary bytes position)
    (asks : Asks bytes position length) (large : kBufferSize < length)
    : ¬ MessagesFit bytes := by
  intro fit
  obtain ⟨arrivals, fuel, begins, size, member, rfl⟩ := boundary.asked asks
  exact Nat.not_lt.mpr (fit arrivals fuel begins size member) large

/-- Every read into the message buffer fits exactly when no boundary of the stream announces
more than the buffer's size.
-/
theorem messagesFit_iff (bytes : List UInt8)
    : MessagesFit bytes
      ↔ ∀ position length,
          Boundary bytes position → Asks bytes position length → length ≤ kBufferSize := by
  constructor
  · intro fit position length boundary asks
    by_contra large
    exact boundary.not_messagesFit asks (Nat.lt_of_not_le large) fit
  · intro small arrivals fuel begins size member
    obtain ⟨position, boundary, asks⟩ := (feed_recorded begins).asked size member
    exact small position size.toNat boundary asks

/-- A message of 2000 bytes is read whole into the 1024 bytes of the buffer. -/
theorem not_messagesFit_2000 : ¬ MessagesFit (0xD0 :: 0x07 :: List.replicate 1998 0) := by
  have length : (0xD0 :: 0x07 :: List.replicate 1998 (0 : UInt8)).length = 2000 := by
    rw [List.length_cons, List.length_cons, List.length_replicate]
  have seen (stale : UInt8)
      : seenLength (0xD0 :: 0x07 :: List.replicate 1998 0) 0 stale = 2000 := rfl
  have asks : Asks (0xD0 :: 0x07 :: List.replicate 1998 0) 0 2000 := by
    refine ⟨?_, ⟨0, ?_⟩, ⟨0, (seen 0).symm⟩⟩
    · rw [length]
      decide
    · rw [length, seen]
      decide
  exact Boundary.start.not_messagesFit asks (by decide)

/-- Whenever the calls so far have returned, the next chunk fits in the ring, and the
assertion around the write holds.
-/
def RingHasRoom (bytes : List UInt8) : Prop :=
  ∀ arrivals arrival fuel progress, stream (arrivals ++ [arrival]) <+: bytes →
    feed .var fuel fresh arrivals = .ok progress →
      arrival.chunk.length ≤ (bcbAvailableSize progress.delimiter.bcb).toNat
      ∧ ∃ bcb written,
          bcbWrite progress.delimiter.bcb arrival.chunk (.ofNat arrival.chunk.length)
            = .ok (bcb, written)
          ∧ written ≠ 0

/-- A long announced message lets the ring fill up before it is complete. -/
theorem Boundary.not_ringHasRoom {bytes position} (boundary : Boundary bytes position)
    (long : position + kBcbSize.toNat < bytes.length) (stale : UInt8)
    (large : kBcbSize.toNat - kBufferSize + 1 < seenLength bytes position stale)
    : ¬ RingHasRoom bytes := by
  rw [toNat_kBcbSize] at long large
  intro room
  obtain ⟨count, few, reaches⟩ := boundary.reached
  have still : 9217 < seenLength bytes position 255 := by
    unfold kBufferSize at large
    by_cases split : position % 10240 = 10239
    · rw [seenLength, if_pos split]
      have : (255 : UInt8).toNat = 255 := rfl
      omega
    · rw [seenLength, if_neg split] at large ⊢
      omega
  have waits : Reaches bytes (position + 9217) position :=
    reaches.extend (by omega) (by omega) (by omega)
      (by rw [flushable_take (by omega)]; omega)
  obtain ⟨within, arrivals, received, run⟩ := waits
  obtain ⟨progress, returned, tracks⟩ := run 2 (Nat.le_refl 2)
  have full : ((bytes.drop (position + 9217)).take kBufferSize).length = kBufferSize := by
    rw [List.length_take, List.length_drop]
    unfold kBufferSize
    omega
  obtain ⟨arrival, chunk⟩ : ∃ arrival : Arrival,
      arrival.chunk = (bytes.drop (position + 9217)).take kBufferSize :=
    ⟨{
      chunk := _
      around := .holding 0 0
      nonempty := full.symm ▸ Nat.two_pow_pos 10
      sized := Nat.le_of_eq full
    }, rfl⟩
  have begins : stream (arrivals ++ [arrival]) <+: bytes := by
    rw [stream_concat, received, chunk, ← List.take_add]
    exact List.take_prefix _ _
  have fits := (room arrivals arrival 2 progress begins returned).1
  have size := tracks.size
  rw [List.length_take, Nat.min_eq_left (by omega)] at size
  rw [tracks.wf.available, tracks.capacity, size, toNat_kBcbSize, chunk, full] at fits
  unfold kBufferSize at fits
  omega

/-- The ring has room for every chunk exactly when each message whose boundary is more than
a ring's capacity before the stream's end is announced to be so short that it is complete
before a chunk of the largest size stops fitting behind the bytes before its last.
-/
theorem ringHasRoom_iff (bytes : List UInt8)
    : RingHasRoom bytes
      ↔ ∀ position stale, Boundary bytes position →
          position + kBcbSize.toNat < bytes.length →
            seenLength bytes position stale ≤ kBcbSize.toNat - kBufferSize + 1 := by
  constructor
  · intro room position stale boundary long
    by_contra large
    exact boundary.not_ringHasRoom long stale (Nat.lt_of_not_le large) room
  · intro short arrivals arrival fuel progress begins returned
    rw [stream_concat] at begins
    have before := (List.prefix_append (stream arrivals) arrival.chunk).trans begins
    obtain ⟨consumed, stale, tracks, boundary, rest, -⟩ :=
      (feed_settled fuel before).of_ok returned
    have short := short consumed stale boundary
    have sized := arrival.sized
    have nonempty := arrival.nonempty
    have total := begins.length_le
    have consumed_le := tracks.consumed_le
    rw [List.length_append] at total
    rw [toNat_kBcbSize] at short
    unfold kBufferSize at short sized
    have fits : (stream arrivals).length - consumed + arrival.chunk.length ≤ 10240 := by
      by_cases long : consumed + 10240 < bytes.length
      · by_contra large
        have complete : consumed + 3 ≤ (stream arrivals).length := by omega
        rw [seenLength_begins before (by omega)] at short
        exact rest ⟨complete, by omega⟩
      · omega
    have space : progress.delimiter.bcb.currentSize.toNat + arrival.chunk.length
        ≤ progress.delimiter.bcb.bufferSize.toNat := by
      rw [tracks.size, tracks.capacity, toNat_kBcbSize]
      exact fits
    constructor
    · rw [tracks.wf.available, tracks.capacity, tracks.size, toNat_kBcbSize]
      omega
    · exact ⟨_, _, tracks.wf.bcbWrite_whole space, arrival.size_ne_zero⟩

/-- A message announced with 65535 bytes is waited for until the ring is full. -/
theorem not_ringHasRoom_65535 : ¬ RingHasRoom (0xFF :: 0xFF :: List.replicate 10239 0) := by
  have length : (0xFF :: 0xFF :: List.replicate 10239 (0 : UInt8)).length = 10241 := by
    rw [List.length_cons, List.length_cons, List.length_replicate]
  refine Boundary.start.not_ringHasRoom ?_ 0 ?_
  · rw [length]
    decide
  · exact Nat.lt_of_lt_of_eq (by decide : kBcbSize.toNat - kBufferSize + 1 < 65535) rfl

end Ethnm
