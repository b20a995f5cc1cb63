import Ethnm.Delimiter.VarSegmentation

/-! Frames of one length, as both delimiters see them. `MsgDelimiterVar`, which reads each
length from the stream, and `MsgDelimiterFixed`, which is told it, deliver the same messages
and end in the same state, also where the physical end of the ring garbles a message.
-/

namespace Ethnm
open ByteCircularBuffer CircularWindow

/-- Every boundary of a stream of frames is the beginning of one of them, or the end of the
last one; by induction on boundaries.
-/
theorem Boundary.eq_offset {frames : List Frame}
    (uncut : ∀ k < frames.length, offset (frames.map Frame.bytes) k % 10240 ≠ 10239)
    {position : Nat} (boundary : Boundary (frames.map Frame.bytes).flatten position)
    : ∃ k ≤ frames.length, position = offset (frames.map Frame.bytes) k := by
  have parses := parses_var uncut
  induction boundary with
  | start => exact ⟨0, Nat.zero_le _, rfl⟩
  | @next position length boundary asks enough fits ih =>
      obtain ⟨k, within, rfl⟩ := ih
      obtain ⟨three, ⟨stale, available⟩, seen, rfl⟩ := asks
      have begins : (frames.map Frame.bytes).flatten
          <+: (frames.map Frame.bytes).flatten ++ [] := List.prefix_append _ _
      have inside : k < frames.length := by
        refine Nat.lt_of_le_of_ne within ?_
        rintro rfl
        have ended := offset_length (frames.map Frame.bytes)
        rw [List.length_map] at ended
        omega
      have ready : Framing.var.Ready (frames.map Frame.bytes).flatten
          (offset (frames.map Frame.bytes) k) stale := ⟨three, by omega⟩
      have announced := (parses.announced begins (by rwa [List.length_map]) ready).2 seen
      refine ⟨k + 1, inside, ?_⟩
      rw [offset_succ, ← announced]
      rfl

/-- Whether the physical end cuts a header is a matter of where the frames begin. -/
theorem uncut_frames {frames : List Frame}
    (uncut : ∀ k < frames.length, offset (frames.map Frame.bytes) k % 10240 ≠ 10239)
    : Uncut (frames.map Frame.bytes).flatten := by
  intro position boundary three
  obtain ⟨k, within, rfl⟩ := boundary.eq_offset uncut
  refine uncut k (Nat.lt_of_le_of_ne within ?_)
  rintro rfl
  have ended := offset_length (frames.map Frame.bytes)
  rw [List.length_map] at ended
  omega

section Equal

variable {size : Nat} {frames : List Frame}

theorem length_equal (equal : ∀ frame ∈ frames, frame.bytes.length = size)
    : (frames.map Frame.bytes).flatten.length = frames.length * size := by
  rw [← offset_length, List.length_map, offset_equal equal (Nat.le_refl _)]

/-- The frames can be read one after the other, by induction on their number. -/
theorem chain_equal (equal : ∀ frame ∈ frames, frame.bytes.length = size)
    (uncut : ∀ k < frames.length, k * size % 10240 ≠ 10239) {k : Nat} (within : k ≤ frames.length)
    : Chain (frames.map Frame.bytes).flatten (List.replicate k size) := by
  induction k with
  | zero => exact .start
  | succ k ih =>
      have inside : k < (frames.map Frame.bytes).length := by rwa [List.length_map]
      obtain ⟨frame, member, frame_eq⟩ : ∃ frame ∈ frames,
          (frames.map Frame.bytes).getD k [] = frame.bytes := by
        rw [getD_eq_of_lt inside, List.getElem_map]
        exact ⟨_, List.getElem_mem _, rfl⟩
      have sum : (List.replicate k size).sum = offset (frames.map Frame.bytes) k := by
        rw [List.sum_replicate_nat, offset_equal equal (Nat.le_of_succ_le within)]
      have large := frame.three
      rw [equal frame member] at large
      have whole : offset (frames.map Frame.bytes) k % 10240 ≠ 10239 := by
        rw [offset_equal equal (Nat.le_of_succ_le within)]
        exact uncut k within
      have seen : littleEndian (frames.map Frame.bytes).flatten (List.replicate k size).sum
          = size := by
        have header := @seenLength_offset _ [] _ inside
          (by rw [frame_eq]; exact frame.header)
          (by rw [frame_eq]; exact Nat.le_of_succ_le frame.three) whole 0
        rw [seenLength_of_ne whole, List.append_nil, frame_eq, equal frame member] at header
        rw [sum, header]
      have total := length_equal equal
      have later : (k + 1) * size ≤ frames.length * size := Nat.mul_le_mul_right size within
      rw [Nat.succ_mul] at later
      rw [List.sum_replicate_nat] at seen
      have next := (ih (Nat.le_of_succ_le within)).next
        (by rw [List.sum_replicate_nat]; omega) (by rw [List.sum_replicate_nat, seen]; omega)
      rw [List.sum_replicate_nat, seen] at next
      exact next

/-- The message buffer after messages of one length, by induction on their number. -/
theorem refilledBy_replicate (bytes : List UInt8) (count : Nat)
    : refilledBy bytes (List.replicate count size) = refilled size bytes count := by
  induction count with
  | zero => rfl
  | succ count ih =>
      rw [List.replicate_succ, refilledBy, List.sum_replicate_nat, ih, refilled]

theorem handedOutBy_replicate (bytes : List UInt8) (count : Nat)
    : handedOutBy bytes (List.replicate count size) = handedOut size bytes count := by
  induction count with
  | zero => rfl
  | succ count ih =>
      rw [List.replicate_succ, handedOutBy, ih, ← List.replicate_succ, refilledBy_replicate,
        handedOut]

end Equal

/-- On frames of one length both delimiters return, deliver the same messages and end in the
same state, each with its own split of the stream.
-/
theorem framings_agree {size : UInt16} (positive : 0 < size.toNat)
    (small : size.toNat ≤ kBufferSize) {frames : List Frame}
    (equal : ∀ frame ∈ frames, frame.bytes.length = size.toNat)
    (uncut : ∀ k < frames.length, k * size.toNat % 10240 ≠ 10239)
    {first second : List Arrival} (total : stream first = (frames.map Frame.bytes).flatten)
    (same : stream second = stream first)
    (passive : ∀ arrival ∈ first ++ second, arrival.Passive)
    : ∃ enough, ∀ fuel, enough ≤ fuel →
        ∃ one other,
          feed (.fixed size) fuel fresh first = .ok one
          ∧ feed .var fuel fresh second = .ok other
          ∧ one.delivered = other.delivered
          ∧ one.delimiter = other.delimiter := by
  obtain ⟨left, right⟩ := List.forall_mem_append.mp passive
  have offsets : ∀ k < frames.length, offset (frames.map Frame.bytes) k % 10240 ≠ 10239 := by
    intro k within
    rw [offset_equal equal within.le]
    exact uncut k within
  have length := length_equal equal
  have count : (stream first).length / size.toNat = frames.length := by
    rw [total, length, Nat.mul_div_cancel _ positive]
  refine ⟨10241, fun fuel enough => ?_⟩
  -- The fixed-size delimiter has delivered all frames.
  obtain ⟨one, returned, -⟩ := (parses_fixed positive small (stream first)).contained
    (by rw [flatten_piecesOf, List.take_append_drop]) enough
  have determined := ((feed_cleared positive small fuel left).of_ok returned).determined
  rw [count] at determined
  -- The variable-length one has read a maximal chain, and the frames are one.
  obtain ⟨other, otherReturned, -⟩ :=
    (parses_var offsets).contained (by rw [same, total, List.append_nil]) enough
  have noCut : Uncut (stream second) := by
    rw [same, total]
    exact uncut_frames offsets
  obtain ⟨lengths, hasRead, quiet⟩ := (feed_rests noCut right).of_ok otherReturned
  have chain := chain_equal equal uncut (Nat.le_refl frames.length)
  rw [← total, ← same] at chain
  have ended : Maximal (stream second) (List.replicate frames.length size.toNat) := by
    intro three
    rw [List.sum_replicate_nat, same, total, length] at three
    omega
  obtain rfl := chain.unique ended hasRead.chain (hasRead.maximal noCut quiet)
  have tracks := hasRead.toTracks
  have cells := hasRead.cells
  have buf := hasRead.buf
  have delivered := hasRead.delivered
  rw [List.sum_replicate_nat, same] at tracks
  rw [same] at cells buf delivered
  rw [refilledBy_replicate] at buf
  rw [handedOutBy_replicate] at delivered
  exact ⟨one, other, returned, otherReturned, determined.delivered.trans delivered.symm,
    determined.toTracks.delimiter_eq tracks (determined.cells.trans cells.symm)
      (determined.buf.trans buf.symm)⟩

/-- Two frames of three bytes, in one chunk and in two. -/
theorem framings_agree_three
    : let whole : Arrival := ⟨[3, 0, 7, 3, 0, 7], .holding 0 0, by decide, by decide⟩
      let begun : Arrival := ⟨[3, 0, 7, 3, 0], .holding 0 0, by decide, by decide⟩
      let rest : Arrival := .single 7 (.holding 0 0)
      ∃ enough, ∀ fuel, enough ≤ fuel →
        ∃ one other,
          feed (.fixed 3) fuel fresh [whole] = .ok one
          ∧ feed .var fuel fresh [begun, rest] = .ok other
          ∧ one.delivered = other.delivered
          ∧ one.delimiter = other.delimiter := by
  refine @framings_agree 3 (by decide) (by decide) [frame3, frame3] ?_ (by decide) _ _ rfl rfl ?_
  · simp [frame3]
  · simp [Arrival.Passive, Arrival.single, Surroundings.holding]

end Ethnm
