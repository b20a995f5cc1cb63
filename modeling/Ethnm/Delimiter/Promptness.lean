import Ethnm.Delimiter.Reachability

/-! What a call of the variable-length delimiter leaves in the ring. A header alone is never
enough for `IsFlushable`, so a message that is nothing but its header has to wait for a byte
that belongs to the next one.
-/

namespace Ethnm
open ByteCircularBuffer

/-- The length that the two bytes at a position stand for, low byte first. -/
def littleEndian (bytes : List UInt8) (position : Nat) : Nat :=
  byteAt bytes position + 256 * byteAt bytes (position + 1)

/-- The live bytes are less than a header, or the header of a message that is longer. -/
def Incomplete (live : List UInt8) : Prop :=
  live.length < 2 ∨ 2 ≤ littleEndian live 0 ∧ live.length < littleEndian live 0

instance (live : List UInt8) : Decidable (Incomplete live) :=
  inferInstanceAs (Decidable (_ ∨ _))

/-- Whenever the calls on a prefix of the stream have returned, the ring holds no complete
message.
-/
def DeliversAtOnce (bytes : List UInt8) : Prop :=
  ∀ arrivals fuel progress, stream arrivals <+: bytes →
    feed .var fuel fresh arrivals = .ok progress → Incomplete progress.delimiter.bcb.live

section Waiting

variable {bytes received : List UInt8} {position : Nat} {progress : Progress}

/-- The length at a position does not depend on what is behind the two bytes. -/
theorem littleEndian_begins (begins : received <+: bytes)
    (complete : position + 2 ≤ received.length)
    : littleEndian bytes position = littleEndian received position := by
  obtain ⟨rest, rfl⟩ := begins
  rw [littleEndian, littleEndian, byteAt_append (by omega), byteAt_append (by omega)]

/-- A header in one piece is seen as it is. -/
theorem seenLength_of_ne (whole : position % 10240 ≠ 10239) (stale : UInt8)
    : seenLength bytes position stale = littleEndian bytes position := by
  rw [seenLength, if_neg whole, littleEndian]

/-- The live bytes of a tracked delimiter, as the stream has them. -/
theorem Tracks.incomplete_iff (tracks : Tracks received position progress)
    : Incomplete progress.delimiter.bcb.live
      ↔ received.length - position < 2
        ∨ 2 ≤ littleEndian received position
          ∧ received.length - position < littleEndian received position := by
  rw [Incomplete, tracks.live, List.length_drop, littleEndian, byteAt_drop, byteAt_drop]
  rfl

/-- At a boundary whose header was received and left in the ring, the header announces more
than was received.
-/
theorem Reaches.announces {count : Nat} (reaches : Reaches bytes count position)
    (prompt : DeliversAtOnce bytes) (header : position + 2 ≤ count)
    : 2 ≤ littleEndian bytes position ∧ count - position < littleEndian bytes position := by
  obtain ⟨within, arrivals, received, run⟩ := reaches
  obtain ⟨progress, returned, tracks⟩ := run 2 (Nat.le_refl 2)
  have begins := List.take_prefix count bytes
  have length : (bytes.take count).length = count := by
    rw [List.length_take, Nat.min_eq_left within]
  have incomplete := tracks.incomplete_iff.mp
    (prompt arrivals 2 progress (received ▸ begins) returned)
  rw [length, ← littleEndian_begins begins (by omega)] at incomplete
  exact incomplete.resolve_left (by omega)

/-- A boundary with a header behind it announces more than the header; and when the physical
end cuts the header, more than the stream, or the ring, has behind the boundary.
-/
theorem Boundary.announces (boundary : Boundary bytes position) (prompt : DeliversAtOnce bytes)
    (header : position + 2 ≤ bytes.length)
    : 3 ≤ littleEndian bytes position
      ∧ (position % 10240 = 10239
          → min (bytes.length - position) 10240 < littleEndian bytes position) := by
  obtain ⟨count, few, reaches⟩ := boundary.reached
  constructor
  · have waits : Reaches bytes (position + 2) position :=
      reaches.extend few header (by omega) (by rw [flushable_take header]; omega)
    have announces := waits.announces prompt (Nat.le_refl _)
    omega
  · intro split
    -- The local holds 255 in its high byte, so the header is never acted on.
    have huge : 10240 < seenLength bytes position 255 := by
      have : (255 : UInt8).toNat = 255 := rfl
      rw [seenLength, if_pos split]
      omega
    have fills : Reaches bytes (position + min (bytes.length - position) 10240) position :=
      reaches.extend (by omega) (by omega) (by omega) (by rw [flushable_take (by omega)]; omega)
    have announces := fills.announces prompt (by omega)
    omega

end Waiting

/-- Messages are delivered at once exactly when each boundary that has a header behind it
announces at least three bytes and, when the physical end cuts the header, more bytes than the
stream, or the ring, has behind the boundary.
-/
theorem deliversAtOnce_iff (bytes : List UInt8)
    : DeliversAtOnce bytes
      ↔ ∀ position, Boundary bytes position → position + 2 ≤ bytes.length →
          3 ≤ littleEndian bytes position
          ∧ (position % 10240 = 10239
              → min (bytes.length - position) 10240 < littleEndian bytes position) := by
  constructor
  · exact fun prompt position boundary header => boundary.announces prompt header
  · intro announces arrivals fuel progress begins returned
    obtain ⟨consumed, stale, tracks, boundary, rest, -⟩ :=
      (feed_settled fuel begins).of_ok returned
    rw [tracks.incomplete_iff]
    have total := begins.length_le
    have bound := tracks.size_le
    by_cases header : consumed + 2 ≤ (stream arrivals).length
    · obtain ⟨three, cut⟩ := announces consumed boundary (by omega)
      have same := littleEndian_begins begins header
      rw [same] at three cut
      refine .inr ⟨by omega, ?_⟩
      by_cases split : consumed % 10240 = 10239
      · have more := cut split
        omega
      · rw [Flushable, seenLength_of_ne split] at rest
        omega
    · exact .inl (by omega)

/-- A message of two bytes, which is nothing but its header, stays in the ring. -/
theorem not_deliversAtOnce_header : ¬ DeliversAtOnce [2, 0] := by
  intro prompt
  have announces := (Boundary.start.announces prompt (by decide)).1
  exact absurd announces (by decide)

end Ethnm
