import Ethnm.Delimiter.CutRuns

/-! What the two delimiters make of a stream: the frames it was put together from, and its
consecutive pieces of a fixed size.
-/

namespace Ethnm
open ByteCircularBuffer

-----------------------------------------------------------------------------------------
-- Frames
-----------------------------------------------------------------------------------------

/-- A well-formed variable-length message: its first two bytes announce its length. -/
structure Frame where
  bytes : List UInt8
  three : 3 ≤ bytes.length
  sized : bytes.length ≤ kBufferSize
  header : (hostOrder bytes).toNat = bytes.length

section Frames

variable {pieces : List (List UInt8)} {tail : List UInt8} {k : Nat}

/-- A header that the physical end does not cut is seen as it was sent. -/
theorem seenLength_offset (within : k < pieces.length)
    (header : (hostOrder (pieces.getD k [])).toNat = (pieces.getD k []).length)
    (two : 2 ≤ (pieces.getD k []).length) (uncut : offset pieces k % 10240 ≠ 10239)
    (stale : UInt8)
    : seenLength (pieces.flatten ++ tail) (offset pieces k) stale
      = (pieces.getD k []).length := by
  have first := byteAt_drop (pieces.flatten ++ tail) (offset pieces k) 0
  have second := byteAt_drop (pieces.flatten ++ tail) (offset pieces k) 1
  rw [flatten_drop_offset _ within, byteAt_append (by omega)] at first second
  rw [seenLength, if_neg uncut, ← second, ← header, hostOrder, UInt16.toNat_ofNat',
    Nat.mod_eq_of_lt]
  · exact congrArg (· + _) first.symm
  · have low := ((pieces.getD k []).getD 0 0).toNat_lt
    have high := ((pieces.getD k []).getD 1 0).toNat_lt
    omega

/-- Variable-length messages announce the frames of the stream. -/
theorem cuts_var (frames : List Frame) : Framing.var.Cuts (frames.map Frame.bytes) [] := by
  have framed {k : Nat} (within : k < (frames.map Frame.bytes).length)
      : ∃ frame : Frame, (frames.map Frame.bytes).getD k [] = frame.bytes := by
    rw [getD_eq_of_lt within, List.getElem_map]
    exact ⟨_, rfl⟩
  have seen {received : List UInt8} {k : Nat}
      (begins : received <+: (frames.map Frame.bytes).flatten ++ [])
      (within : k < (frames.map Frame.bytes).length)
      (three : offset (frames.map Frame.bytes) k + 3 ≤ received.length)
      (uncut : offset (frames.map Frame.bytes) k % 10240 ≠ 10239) (stale : UInt8)
      : seenLength received (offset (frames.map Frame.bytes) k) stale
        = ((frames.map Frame.bytes).getD k []).length := by
    obtain ⟨frame, frame_eq⟩ := framed within
    have large := frame.three
    rw [← seenLength_begins begins (by omega)]
    refine seenLength_offset within ?_ ?_ uncut stale
    · rw [frame_eq]
      exact frame.header
    · rw [frame_eq]
      omega
  refine ⟨trivial, ?_, by decide, ?_, ?_, ?_⟩
  · intro piece member
    obtain ⟨frame, -, rfl⟩ := List.mem_map.mp member
    exact ⟨Nat.lt_of_lt_of_le (by decide) frame.three, frame.sized⟩
  · intro received k stale begins unbroken complete
    obtain ⟨frame, frame_eq⟩ := framed complete.1
    have large := frame.three
    have next := offset_succ (frames.map Frame.bytes) k
    have whole := complete.2
    rw [Straddles, frame_eq] at unbroken
    rw [frame_eq] at next
    have three : offset (frames.map Frame.bytes) k + 3 ≤ received.length := by omega
    refine ⟨three, ?_⟩
    rw [seen begins complete.1 three (by omega), frame_eq]
    omega
  · intro received k stale begins bound within quiet ready
    obtain ⟨frame, frame_eq⟩ := framed within
    obtain ⟨three, available⟩ := ready
    have large := frame.three
    have next := offset_succ (frames.map Frame.bytes) k
    have uncut : offset (frames.map Frame.bytes) k % 10240 ≠ 10239 := by
      intro cut
      rcases quiet with rfl | unbroken
      · rw [seenLength, if_pos cut] at available
        have : (255 : UInt8).toNat = 255 := rfl
        omega
      · rw [Straddles, frame_eq] at unbroken
        omega
    have seen := seen begins within three uncut
    rw [seen] at available
    exact ⟨⟨within, by omega⟩, seen⟩
  · intro received stale begins ready
    have three := ready.1
    have total := begins.length_le
    rw [List.append_nil] at total
    rw [offset_length] at three
    omega

/-- Frames of one length begin at its multiples, by induction on their number. -/
theorem offset_equal {size : Nat} {frames : List Frame}
    (equal : ∀ frame ∈ frames, frame.bytes.length = size)
    (within : k ≤ frames.length)
    : offset (frames.map Frame.bytes) k = k * size := by
  induction k with
  | zero => rw [Nat.zero_mul, offset, List.take_zero, List.flatten_nil, List.length_nil]
  | succ k ih =>
      have inside : k < (frames.map Frame.bytes).length := by rwa [List.length_map]
      rw [offset_succ, ih (Nat.le_of_succ_le within), getD_eq_of_lt inside, List.getElem_map,
        equal _ (List.getElem_mem _), Nat.succ_mul]

end Frames

/-- Every run on the chunks delivers the frames, and leaves nothing in the ring. -/
def Reassembles (frames : List Frame) (chunks : List (List UInt8)) : Prop :=
  Delivers .var chunks (frames.map Frame.bytes) []

/-- A stream of frames is reassembled in every run, whatever its chunks, exactly when no
frame passes the physical end of the ring.
-/
theorem reassembles_iff (frames : List Frame) {chunks : List (List UInt8)}
    (sized : ∀ chunk ∈ chunks, 0 < chunk.length ∧ chunk.length ≤ kBufferSize)
    (total : chunks.flatten = (frames.map Frame.bytes).flatten)
    : Reassembles frames chunks
      ↔ ∀ k < (frames.map Frame.bytes).length, ¬ Straddles (frames.map Frame.bytes) k :=
  (cuts_var frames).delivers_iff sized (by rw [total, List.append_nil])

/-- A frame of three bytes. -/
def frame3 : Frame where
  bytes := [3, 0, 7]
  three := by decide
  sized := by decide
  header := by decide

/-- Two frames, with both headers in two chunks. -/
theorem reassembles_frame3 : Reassembles [frame3, frame3] [[3], [0, 7, 3], [0, 7]] := by
  have total : [[3], [0, 7, 3], [0, 7]].flatten
      = ([frame3, frame3].map Frame.bytes).flatten := rfl
  exact (reassembles_iff [frame3, frame3] (by decide) total).mpr (by decide)

/-- A frame of 1000 bytes, all equal behind the header. -/
def frame1000 (byte : UInt8) : Frame where
  bytes := 0xE8 :: 0x03 :: List.replicate 998 byte
  three := by
    rw [List.length_cons, List.length_cons, List.length_replicate]
    decide
  sized := by
    rw [List.length_cons, List.length_cons, List.length_replicate]
    decide
  header := by
    rw [List.length_cons, List.length_cons, List.length_replicate]
    exact (by decide : (hostOrder [0xE8, 0x03]).toNat = 1000)

theorem length_frame1000 (byte : UInt8) : (frame1000 byte).bytes.length = 1000 := by
  rw [frame1000, List.length_cons, List.length_cons, List.length_replicate]

/-- The eleventh of eleven such frames passes the physical end. -/
theorem not_reassembles_frames1000
    : ¬ Reassembles (List.replicate 10 (frame1000 0) ++ [frame1000 1])
        (List.replicate 10 (frame1000 0).bytes ++ [(frame1000 1).bytes]) := by
  have same : (List.replicate 10 (frame1000 0) ++ [frame1000 1]).map Frame.bytes
      = List.replicate 10 (frame1000 0).bytes ++ [(frame1000 1).bytes] := by
    rw [List.map_append, List.map_replicate, List.map_singleton]
  refine (cuts_var _).not_delivers (k := 10) ?_ ?_ ?_ ?_
  · rw [← same]
    intro chunk member
    obtain ⟨frame, -, rfl⟩ := List.mem_map.mp member
    exact ⟨Nat.lt_of_lt_of_le (by decide) frame.three, frame.sized⟩
  · rw [same, List.append_nil]
  · rw [List.length_map, List.length_append, List.length_replicate, List.length_singleton]
    decide
  · rw [same, Straddles, offset, List.take_left' List.length_replicate, List.length_flatten,
      List.map_replicate, List.sum_replicate_nat, length_frame1000,
      List.getD_append_right _ _ _ _ (by rw [List.length_replicate]), List.length_replicate,
      Nat.sub_self]
    exact Nat.lt_of_lt_of_eq (by decide) (congrArg _ (length_frame1000 1).symm)

-----------------------------------------------------------------------------------------
-- Pieces of a fixed size
-----------------------------------------------------------------------------------------

/-- The first `count` consecutive pieces of `size` bytes. -/
def piecesOf (size count : Nat) (bytes : List UInt8) : List (List UInt8) :=
  (List.range count).map fun index => (bytes.drop (index * size)).take size

section Pieces

variable {size count : Nat} {bytes : List UInt8}

theorem length_piecesOf (size count : Nat) (bytes : List UInt8)
    : (piecesOf size count bytes).length = count := by
  rw [piecesOf, List.length_map, List.length_range]

/-- Consecutive pieces make up the stream's beginning, by induction on their number. -/
theorem flatten_piecesOf (size count : Nat) (bytes : List UInt8)
    : (piecesOf size count bytes).flatten = bytes.take (count * size) := by
  induction count with
  | zero => rw [Nat.zero_mul, List.take_zero, piecesOf, List.range_zero, List.map_nil,
      List.flatten_nil]
  | succ count ih =>
      rw [piecesOf, List.range_succ, List.map_append, List.flatten_append, List.map_singleton,
        List.flatten_singleton, Nat.succ_mul, List.take_add, ← ih, piecesOf]

/-- Fewer pieces are the first of more. -/
theorem take_piecesOf {fewer : Nat} (le : fewer ≤ count)
    : (piecesOf size count bytes).take fewer = piecesOf size fewer bytes := by
  rw [piecesOf, ← List.map_take, List.take_range, Nat.min_eq_left le, piecesOf]

/-- Whole pieces have the fixed size. -/
theorem length_getD_piecesOf (whole : count * size ≤ bytes.length) {k : Nat}
    (within : k < count)
    : ((piecesOf size count bytes).getD k []).length = size := by
  have inside : k < (piecesOf size count bytes).length := by rwa [length_piecesOf]
  have last : (k + 1) * size ≤ count * size := Nat.mul_le_mul_right size within
  rw [getD_eq_of_lt inside]
  simp only [piecesOf, List.getElem_map, List.getElem_range, List.length_take,
    List.length_drop]
  rw [Nat.succ_mul] at last
  omega

theorem offset_piecesOf (whole : count * size ≤ bytes.length) {k : Nat} (within : k ≤ count)
    : offset (piecesOf size count bytes) k = k * size := by
  have le : k * size ≤ count * size := Nat.mul_le_mul_right size within
  rw [offset, take_piecesOf within, flatten_piecesOf, List.length_take]
  omega

end Pieces

/-- Fixed-size messages are the consecutive pieces of the stream. -/
theorem cuts_fixed {fixedSize : UInt16} (positive : 0 < fixedSize.toNat)
    (fits : fixedSize.toNat ≤ kBufferSize) (bytes : List UInt8)
    : (Framing.fixed fixedSize).Cuts
        (piecesOf fixedSize.toNat (bytes.length / fixedSize.toNat) bytes)
        (bytes.drop (bytes.length / fixedSize.toNat * fixedSize.toNat)) := by
  have whole := Nat.div_mul_le_self bytes.length fixedSize.toNat
  have left := Nat.mod_lt bytes.length positive
  have parts := Nat.div_add_mod' bytes.length fixedSize.toNat
  generalize hcount : bytes.length / fixedSize.toNat = count at whole parts ⊢
  have piece {k : Nat} (within : k < count)
      : ((piecesOf fixedSize.toNat count bytes).getD k []).length = fixedSize.toNat :=
    length_getD_piecesOf whole within
  refine ⟨positive, ?_, ?_, ?_, ?_, ?_⟩
  · intro other member
    obtain ⟨k, within, rfl⟩ := List.getElem_of_mem member
    rw [length_piecesOf] at within
    rw [← getD_eq_of_lt, piece within]
    exact ⟨positive, fits⟩
  · rw [List.length_drop]
    omega
  · intro received k stale _ _ complete
    have enough := complete.enough
    have within := complete.1
    rw [length_piecesOf] at within
    rw [piece within] at enough
    exact enough
  · intro received k stale _ _ within _ ready
    have next := offset_succ (piecesOf fixedSize.toNat count bytes) k
    rw [length_piecesOf] at within
    rw [piece within] at next ⊢
    change fixedSize.toNat ≤ received.length - _ at ready
    refine ⟨⟨by rwa [length_piecesOf], by omega⟩, fun _ => rfl⟩
  · intro received stale begins ready
    have total := begins.length_le
    change fixedSize.toNat ≤ received.length - _ at ready
    rw [flatten_piecesOf, List.take_append_drop] at total
    rw [length_piecesOf, offset_piecesOf whole (Nat.le_refl count)] at ready
    omega

/-- Pieces of a fixed size all lie in one stretch when they fill the ring exactly, or when
there are no more of them than fit in it.
-/
theorem unbroken_piecesOf_iff {size count : Nat} {bytes : List UInt8} (positive : 0 < size)
    (whole : count * size ≤ bytes.length)
    : (∀ k < (piecesOf size count bytes).length, ¬ Straddles (piecesOf size count bytes) k)
      ↔ size ∣ 10240 ∨ count ≤ 10240 / size := by
  have straddles {k : Nat} (within : k < count)
      : Straddles (piecesOf size count bytes) k ↔ 10240 < k * size % 10240 + size := by
    rw [Straddles, offset_piecesOf whole within.le, length_getD_piecesOf whole within]
  have parts := Nat.div_add_mod' 10240 size
  have rest := Nat.mod_lt 10240 positive
  rw [length_piecesOf]
  constructor
  · intro unbroken
    by_contra neither
    obtain ⟨indivisible, many⟩ := not_or.mp neither
    have within : 10240 / size < count := Nat.lt_of_not_le many
    have some : 10240 % size ≠ 0 := fun none => indivisible (Nat.dvd_of_mod_eq_zero none)
    refine unbroken (10240 / size) within ((straddles within).mpr ?_)
    rw [Nat.mod_eq_of_lt (by omega)]
    omega
  · intro condition k within
    rw [straddles within]
    rcases condition with ⟨ring, divides⟩ | few
    · rw [divides, Nat.mul_comm k, Nat.mul_mod_mul_left]
      have below : k % ring < ring := Nat.mod_lt _ (by
        by_contra none
        rw [Nat.eq_zero_of_not_pos none] at divides
        exact absurd divides (by rw [Nat.mul_zero]; decide))
      have room := Nat.mul_le_mul_left size below
      rw [Nat.mul_succ] at room
      omega
    · have room : (k + 1) * size ≤ 10240 / size * size :=
        Nat.mul_le_mul_right size (within.trans_le few)
      rw [Nat.succ_mul] at room
      have short := Nat.mod_le (k * size) 10240
      omega

/-- Every run on the chunks delivers the consecutive pieces of a fixed size, and leaves the
last bytes of the stream in the ring, fewer than a piece.
-/
def CutsExactly (fixedSize : UInt16) (chunks : List (List UInt8)) : Prop :=
  let bytes := chunks.flatten
  Delivers (.fixed fixedSize) chunks
    (piecesOf fixedSize.toNat (bytes.length / fixedSize.toNat) bytes)
    (bytes.drop (bytes.length - bytes.length % fixedSize.toNat))

/-- Exact cutting as a matter of pieces that pass the physical end. -/
theorem cutsExactly_iff_unbroken {fixedSize : UInt16} (positive : 0 < fixedSize.toNat)
    (fits : fixedSize.toNat ≤ kBufferSize) {chunks : List (List UInt8)}
    (sized : ∀ chunk ∈ chunks, 0 < chunk.length ∧ chunk.length ≤ kBufferSize) {count : Nat}
    (count_eq : chunks.flatten.length / fixedSize.toNat = count)
    : CutsExactly fixedSize chunks
      ↔ ∀ k < (piecesOf fixedSize.toNat count chunks.flatten).length,
          ¬ Straddles (piecesOf fixedSize.toNat count chunks.flatten) k := by
  subst count_eq
  have parts := Nat.div_add_mod' chunks.flatten.length fixedSize.toNat
  have cut : chunks.flatten.length - chunks.flatten.length % fixedSize.toNat
      = chunks.flatten.length / fixedSize.toNat * fixedSize.toNat := by omega
  rw [CutsExactly, cut]
  refine (cuts_fixed positive fits chunks.flatten).delivers_iff sized ?_
  rw [flatten_piecesOf, List.take_append_drop]

/-- A stream is cut into its pieces of a fixed size in every run, whatever its chunks,
exactly when the size divides the ring's capacity or the pieces fit in the ring.
-/
theorem cutsExactly_iff {fixedSize : UInt16} (positive : 0 < fixedSize.toNat)
    (fits : fixedSize.toNat ≤ kBufferSize) {chunks : List (List UInt8)}
    (sized : ∀ chunk ∈ chunks, 0 < chunk.length ∧ chunk.length ≤ kBufferSize)
    : CutsExactly fixedSize chunks
      ↔ fixedSize.toNat ∣ kBcbSize.toNat
        ∨ chunks.flatten.length / fixedSize.toNat ≤ kBcbSize.toNat / fixedSize.toNat :=
  (cutsExactly_iff_unbroken positive fits sized rfl).trans
    (unbroken_piecesOf_iff positive (Nat.div_mul_le_self _ _))

/-- Pieces of two bytes from two chunks of three. -/
theorem cutsExactly_two : CutsExactly 2 [[1, 2, 3], [4, 5, 6]] :=
  (cutsExactly_iff (by decide : 0 < (2 : UInt16).toNat) (by decide) (by decide)).mpr (by decide)

/-- The eleventh of eleven pieces of 1000 bytes passes the physical end. -/
theorem not_cutsExactly_1000
    : ¬ CutsExactly 1000
        (List.replicate 10 (List.replicate 1000 0) ++ [List.replicate 1000 1]) := by
  have total : (List.replicate 10 (List.replicate 1000 (0 : UInt8))
      ++ [List.replicate 1000 1]).flatten.length = 11000 := by
    rw [List.flatten_append, List.length_append, List.length_flatten, List.map_replicate,
      List.sum_replicate_nat, List.flatten_singleton, List.length_replicate,
      List.length_replicate]
  have sized : ∀ chunk ∈ List.replicate 10 (List.replicate 1000 (0 : UInt8))
      ++ [List.replicate 1000 1], 0 < chunk.length ∧ chunk.length ≤ kBufferSize := by
    intro chunk member
    rcases List.mem_append.mp member with zeros | ones
    · rw [List.eq_of_mem_replicate zeros, List.length_replicate]
      decide
    · rw [List.mem_singleton.mp ones, List.length_replicate]
      decide
  have count : (List.replicate 10 (List.replicate 1000 (0 : UInt8))
      ++ [List.replicate 1000 1]).flatten.length / (1000 : UInt16).toNat = 11 := by
    rw [total]
    rfl
  rw [cutsExactly_iff_unbroken (by decide) (by decide) sized count,
    unbroken_piecesOf_iff (by decide) (by rw [total]; decide)]
  decide

end Ethnm
