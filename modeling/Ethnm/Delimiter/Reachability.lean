import Ethnm.Delimiter.Boundaries

/-! Every boundary of a stream is reached: by the stream's bytes arriving one by one, with
locals that happen to hold what the boundary needs at a header across the physical end.
-/

namespace Ethnm
open ByteCircularBuffer

/-- One byte arrives. -/
def Arrival.single (byte : UInt8) (around : Surroundings) : Arrival where
  chunk := [byte]
  around := around
  nonempty := Nat.zero_lt_one
  sized := Nat.one_le_two_pow (n := 10)

/-- After the first `count` bytes of a stream, some run has read messages up to `position`,
whatever its fuel is, and what the message buffer holds is as asked for.
-/
structure ReachesWith (holds : List UInt8 → Prop) (bytes : List UInt8) (count position : Nat)
    : Prop where
  within : count ≤ bytes.length
  run : ∃ arrivals, stream arrivals = bytes.take count
    ∧ ∀ fuel, 2 ≤ fuel →
      ∃ progress, feed .var fuel fresh arrivals = .ok progress
        ∧ Tracks (bytes.take count) position progress
        ∧ holds progress.delimiter.buf

/-- After the first `count` bytes of a stream, some run has read messages up to `position`,
whatever its fuel is.
-/
structure Reaches (bytes : List UInt8) (count position : Nat) : Prop where
  within : count ≤ bytes.length
  run : ∃ arrivals, stream arrivals = bytes.take count
    ∧ ∀ fuel, 2 ≤ fuel →
      ∃ progress, feed .var fuel fresh arrivals = .ok progress
        ∧ Tracks (bytes.take count) position progress

section Reaching

variable {bytes : List UInt8} {count position : Nat} {holds : List UInt8 → Prop}

theorem ReachesWith.mono {weaker : List UInt8 → Prop}
    (reaches : ReachesWith holds bytes count position)
    (implied : ∀ buf, holds buf → weaker buf)
    : ReachesWith weaker bytes count position := by
  obtain ⟨within, arrivals, received, run⟩ := reaches
  refine ⟨within, arrivals, received, fun fuel two => ?_⟩
  obtain ⟨progress, returned, tracks, held⟩ := run fuel two
  exact ⟨progress, returned, tracks, implied _ held⟩

theorem Reaches.any (reaches : Reaches bytes count position)
    : ReachesWith (fun _ => True) bytes count position := by
  obtain ⟨within, arrivals, received, run⟩ := reaches
  refine ⟨within, arrivals, received, fun fuel two => ?_⟩
  obtain ⟨progress, returned, tracks⟩ := run fuel two
  exact ⟨progress, returned, tracks, trivial⟩

theorem ReachesWith.reaches (reaches : ReachesWith holds bytes count position)
    : Reaches bytes count position := by
  obtain ⟨within, arrivals, received, run⟩ := reaches
  refine ⟨within, arrivals, received, fun fuel two => ?_⟩
  obtain ⟨progress, returned, tracks, -⟩ := run fuel two
  exact ⟨progress, returned, tracks⟩

theorem reaches_start (bytes : List UInt8) : Reaches bytes 0 0 where
  within := Nat.zero_le _
  run := ⟨[], rfl, fun _ _ => ⟨fresh, rfl, tracks_fresh⟩⟩

/-- The next byte of the stream arrives, in the given surroundings. -/
theorem ReachesWith.arrives (reaches : ReachesWith holds bytes count position)
    (more : count < bytes.length) (room : count + 1 - position ≤ 10240)
    (around : Surroundings)
    : ∃ arrivals, stream arrivals = bytes.take (count + 1)
      ∧ ∀ fuel, 2 ≤ fuel →
        ∃ progress, Tracks (bytes.take (count + 1)) position progress
          ∧ holds progress.delimiter.buf
          ∧ feed .var fuel fresh arrivals
            = if Flushable (bytes.take (count + 1)) position
                  (highByte (around.msgSize 0)) then
                MsgDelimiterVar.processMsg around fuel 0 around.readSize progress
              else
                .ok progress := by
  obtain ⟨arrivals, received, run⟩ := reaches.run
  obtain ⟨arrival, chunk, surroundings⟩ : ∃ arrival : Arrival,
      arrival.chunk = [bytes[count]] ∧ arrival.around = around :=
    ⟨.single bytes[count] around, rfl, rfl⟩
  have longer : bytes.take count ++ arrival.chunk = bytes.take (count + 1) := by
    rw [chunk]
    exact List.take_append_getElem more
  refine ⟨arrivals ++ [arrival], ?_, fun fuel two => ?_⟩
  · rw [stream_concat, received]
    exact longer
  · obtain ⟨progress, returned, tracks, held⟩ := run fuel two
    have length : (bytes.take count).length = count := by
      rw [List.length_take, Nat.min_eq_left (Nat.le_of_lt more)]
    have fits : (bytes.take count).length - position + arrival.chunk.length ≤ 10240 := by
      have before := tracks.consumed_le
      rw [chunk, List.length_singleton, length] at *
      omega
    have written := tracks.written fits
    rw [longer] at written
    refine ⟨_, written, held, ?_⟩
    rw [feed_concat returned, tracks.process_var, if_neg (Nat.not_lt.mpr fits), longer,
      surroundings]

/-- A byte that does not complete a message stays in the ring. -/
theorem ReachesWith.quiet (reaches : ReachesWith holds bytes count position)
    (more : count < bytes.length) (room : count + 1 - position ≤ 10240)
    (calm : ¬ Flushable (bytes.take (count + 1)) position 255)
    : ReachesWith holds bytes (count + 1) position := by
  obtain ⟨arrivals, received, run⟩ := reaches.arrives more room (.holding 255 255)
  refine ⟨more, arrivals, received, fun fuel two => ?_⟩
  obtain ⟨progress, tracks, held, result⟩ := run fuel two
  rw [if_neg (by simp only [Surroundings.holding, highByte_ofNat_mul]; exact calm)] at result
  exact ⟨progress, result, tracks, held⟩

/-- Bytes arrive as long as they complete no message, by induction on their number. -/
theorem ReachesWith.extend (reaches : ReachesWith holds bytes count position) {later : Nat}
    (further : count ≤ later) (within : later ≤ bytes.length)
    (room : later - position ≤ 10240) (calm : ¬ Flushable (bytes.take later) position 255)
    : ReachesWith holds bytes later position := by
  induction further with
  | refl => exact reaches
  | step further ih =>
      refine (ih (by omega) (by omega) ?_).quiet within room calm
      rw [flushable_take (by omega)] at calm ⊢
      omega

/-- Bytes arrive as long as they complete no message. -/
theorem Reaches.extend (reaches : Reaches bytes count position) {later : Nat}
    (further : count ≤ later) (within : later ≤ bytes.length)
    (room : later - position ≤ 10240) (calm : ¬ Flushable (bytes.take later) position 255)
    : Reaches bytes later position :=
  (reaches.any.extend further within room calm).reaches

/-- Everything up to the byte that makes a message flushable can arrive before it. -/
theorem ReachesWith.poised (reaches : ReachesWith holds bytes count position)
    (few : count ≤ position + 2) (three : position + 3 ≤ bytes.length) {seen : UInt8}
    (enough : seenLength bytes position seen ≤ min (bytes.length - position) 10240)
    : ReachesWith holds bytes (position + max (seenLength bytes position seen) 3 - 1)
        position := by
  refine reaches.extend (by omega) (by omega) (by omega) ?_
  rw [flushable_take (by omega)]
  rintro ⟨longer, available⟩
  have same : seenLength bytes position 255 = seenLength bytes position seen := by
    by_cases split : position % 10240 = 10239
    · rw [seenLength, if_pos split] at available
      have : (255 : UInt8).toNat = 255 := rfl
      omega
    · rw [seenLength, seenLength, if_neg split, if_neg split]
  omega

/-- A poised message becomes flushable with the next byte, which starts the drain loop. -/
theorem ReachesWith.drains (reaches : ReachesWith holds bytes count position)
    (few : count ≤ position + 2) (three : position + 3 ≤ bytes.length) {seen : UInt8}
    (enough : seenLength bytes position seen ≤ min (bytes.length - position) 10240)
    (around : Surroundings) (sees : ∀ turn, highByte (around.msgSize turn) = seen)
    : ∃ later arrivals, later = position + max (seenLength bytes position seen) 3
      ∧ later ≤ bytes.length
      ∧ stream arrivals = bytes.take later
      ∧ Flushable (bytes.take later) position seen
      ∧ ∀ fuel, 2 ≤ fuel →
        ∃ progress, Tracks (bytes.take later) position progress
          ∧ holds progress.delimiter.buf
          ∧ feed .var fuel fresh arrivals
            = MsgDelimiterVar.processMsg around fuel 0 around.readSize progress := by
  have poised := reaches.poised few three enough
  have next : position + max (seenLength bytes position seen) 3 - 1 + 1
      = position + max (seenLength bytes position seen) 3 := by omega
  obtain ⟨arrivals, received, run⟩ := poised.arrives (by omega) (by omega) around
  rw [next] at received run
  have flushable : Flushable (bytes.take (position + max (seenLength bytes position seen) 3))
      position seen := by
    rw [flushable_take (by omega)]
    omega
  refine ⟨_, arrivals, rfl, by omega, received, flushable, fun fuel two => ?_⟩
  obtain ⟨progress, tracks, held, result⟩ := run fuel two
  rw [sees, if_pos flushable] at result
  exact ⟨progress, tracks, held, result⟩

/-- A poised message becomes flushable with the next byte, with locals whose high bytes are
given.
-/
theorem Reaches.drains (reaches : Reaches bytes count position) (few : count ≤ position + 2)
    (three : position + 3 ≤ bytes.length) {seen : UInt8}
    (enough : seenLength bytes position seen ≤ min (bytes.length - position) 10240)
    (stale : UInt8)
    : ∃ later arrivals, later = position + max (seenLength bytes position seen) 3
      ∧ later ≤ bytes.length
      ∧ stream arrivals = bytes.take later
      ∧ Flushable (bytes.take later) position seen
      ∧ ∀ fuel, 2 ≤ fuel →
        ∃ progress, Tracks (bytes.take later) position progress
          ∧ feed .var fuel fresh arrivals
            = MsgDelimiterVar.processMsg (.holding seen stale) fuel 0
                (.ofNat (256 * stale.toNat)) progress := by
  obtain ⟨later, arrivals, later_eq, within, received, flushable, run⟩ :=
    reaches.any.drains few three enough (.holding seen stale) (fun _ => highByte_ofNat_mul seen)
  refine ⟨later, arrivals, later_eq, within, received, flushable, fun fuel two => ?_⟩
  obtain ⟨progress, tracks, -, result⟩ := run fuel two
  exact ⟨progress, tracks, result⟩

/-- A drain loop whose locals agree takes the flushable message, and goes on behind it. -/
theorem Tracks.processMsg_turn {received : List UInt8} {progress : Progress}
    (tracks : Tracks received position progress) (around : Surroundings) {stale : UInt8}
    (sees : ∀ turn, highByte (around.msgSize turn) = stale)
    (reads : highByte around.readSize = stale) (flushable : Flushable received position stale)
    (fits : BufFits position (seenLength received position stale)) (fuel : Nat)
    : let size := .ofNat (seenLength received position stale)
      MsgDelimiterVar.processMsg around (fuel + 1) 0 around.readSize progress
          = MsgDelimiterVar.processMsg around fuel 1 size (progress.advanced around 0 size)
        ∧ Tracks received (position + seenLength received position stale)
            (progress.advanced around 0 size) := by
  have size := toNat_seenLength received position stale
  have enough := flushable.2
  have next := tracks.advanced around 0
    (by rw [size]; exact enough : (UInt16.ofNat (seenLength received position stale)).toNat ≤ _)
    (by rw [size]; exact fits)
  rw [size] at next
  refine ⟨?_, next⟩
  rw [tracks.processMsg_succ, sees, reads, if_pos flushable]
  simp only
  rw [if_neg (Nat.not_lt.mpr enough), if_pos fits]

/-- A drain loop that has less than three bytes left returns. -/
theorem Tracks.processMsg_done {received : List UInt8} {progress : Progress}
    (tracks : Tracks received position progress) (few : received.length ≤ position + 2)
    (around : Surroundings) (fuel turn : Nat) (readSize : UInt16)
    : MsgDelimiterVar.processMsg around (fuel + 1) turn readSize progress = .ok progress := by
  rw [tracks.processMsg_succ, if_neg]
  rintro ⟨longer, -⟩
  omega

/-- The drain loop asks for the length that the second local sees. -/
theorem Tracks.processMsg_holding {received : List UInt8} {progress : Progress}
    (tracks : Tracks received position progress) {seen : UInt8}
    (flushable : Flushable received position seen) (stale : UInt8) (fuel : Nat)
    : MsgDelimiterVar.processMsg (.holding seen stale) (fuel + 1) 0
        (.ofNat (256 * stale.toNat)) progress
      = let length := seenLength received position stale
        if received.length - position < length then
          .error (.aborted .assertionFailed, progress.asking (.ofNat length))
        else if BufFits position length then
          MsgDelimiterVar.processMsg (.holding seen stale) fuel 1 (.ofNat length)
            (progress.advanced (.holding seen stale) 0 (.ofNat length))
        else
          .error (.aborted .outOfRange, progress.asking (.ofNat length)) := by
  have seen_eq : highByte ((Surroundings.holding seen stale).msgSize (0 + 1)) = seen :=
    highByte_ofNat_mul seen
  rw [tracks.processMsg_succ, seen_eq, if_pos flushable, highByte_ofNat_mul]

/-- Each boundary is reached, with at most two bytes behind it; by induction on boundaries. -/
theorem Boundary.reached (boundary : Boundary bytes position)
    : ∃ count, count ≤ position + 2 ∧ Reaches bytes count position := by
  induction boundary with
  | start => exact ⟨0, by omega, reaches_start bytes⟩
  | @next position length boundary asks enough fits ih =>
      obtain ⟨count, few, reaches⟩ := ih
      obtain ⟨three, -, stale, rfl⟩ := asks
      by_cases zero : seenLength bytes position stale = 0
      · rw [zero, Nat.add_zero]
        exact ⟨count, few, reaches⟩
      · obtain ⟨later, arrivals, later_eq, within, received, flushable, run⟩ :=
          reaches.drains few three enough stale
        have length : (bytes.take later).length = later := by
          rw [List.length_take, Nat.min_eq_left within]
        have same := seenLength_begins (List.take_prefix later bytes)
          (by rw [length]; omega : position + 2 ≤ _) stale
        refine ⟨later, by omega, within, arrivals, received, fun fuel two => ?_⟩
        obtain ⟨progress, tracks, result⟩ := run fuel two
        obtain ⟨fuel, rfl⟩ : ∃ other, fuel = other + 2 := ⟨fuel - 2, by omega⟩
        have turn := tracks.processMsg_turn (.holding stale stale)
          (fun _ => highByte_ofNat_mul stale) (highByte_ofNat_mul stale) flushable
          (by rw [← same]; exact fits) (fuel + 1)
        rw [← same] at turn
        have done := turn.2.processMsg_done (by rw [length]; omega) (.holding stale stale) fuel 1
        exact ⟨_, result.trans (turn.1.trans (done _)), turn.2⟩

end Reaching

end Ethnm
