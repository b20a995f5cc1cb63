import Ethnm.Delimiter.Framings

/-! Streams that are cut into known pieces. A delimiter that announces the pieces one by one
delivers them exactly as long as none of them passes the physical end of the ring.
-/

namespace Ethnm
open ByteCircularBuffer

/-- The stream position of the `k`-th piece. -/
def offset (pieces : List (List UInt8)) (k : Nat) : Nat :=
  (pieces.take k).flatten.length

/-- The `k`-th piece begins before the physical end of the ring and ends behind it. -/
def Straddles (pieces : List (List UInt8)) (k : Nat) : Prop :=
  10240 < offset pieces k % 10240 + (pieces.getD k []).length

instance (pieces : List (List UInt8)) : DecidablePred (Straddles pieces) :=
  fun _ => inferInstanceAs (Decidable (_ < _))

/-- Pieces with the length that the callback is told. -/
def labelled (pieces : List (List UInt8)) : List (List UInt8 × Nat) :=
  pieces.map fun piece => (piece, piece.length)

/-- What the callback was given: bytes and length, in order. -/
def Progress.delivered (progress : Progress) : List (List UInt8 × Nat) :=
  progress.iterations.map fun turn => (turn.msg, turn.len.toNat)

section Offsets

variable {pieces : List (List UInt8)} {tail received : List UInt8} {k : Nat}

theorem offset_succ (pieces : List (List UInt8)) (k : Nat)
    : offset pieces (k + 1) = offset pieces k + (pieces.getD k []).length := by
  rw [offset, offset, List.take_add_one, List.flatten_append, List.length_append,
    List.getD_eq_getElem?_getD]
  cases pieces[k]? with
  | none => rfl
  | some piece => simp only [Option.toList_some, List.flatten_singleton, Option.getD_some]

theorem offset_length (pieces : List (List UInt8))
    : offset pieces pieces.length = pieces.flatten.length := by
  rw [offset, List.take_length]

theorem offset_le (pieces : List (List UInt8)) (k : Nat)
    : offset pieces k ≤ pieces.flatten.length := by
  have both := congrArg List.flatten (List.take_append_drop k pieces)
  rw [List.flatten_append] at both
  rw [offset, ← both, List.length_append]
  exact Nat.le_add_right _ _

theorem getD_eq_of_lt (within : k < pieces.length) : pieces.getD k [] = pieces[k] := by
  rw [List.getD_eq_getElem?_getD, List.getElem?_eq_getElem within, Option.getD_some]

/-- The stream from an offset on is that piece, then the later ones. -/
theorem flatten_drop_offset (tail : List UInt8) (within : k < pieces.length)
    : (pieces.flatten ++ tail).drop (offset pieces k)
      = pieces.getD k [] ++ ((pieces.drop (k + 1)).flatten ++ tail) := by
  have both := congrArg List.flatten (List.take_append_drop k pieces)
  rw [List.flatten_append] at both
  rw [← both, List.append_assoc, offset, List.drop_left, List.drop_eq_getElem_cons within,
    List.flatten_cons, List.append_assoc, getD_eq_of_lt within]

/-- What was received of a stream up to some position is there as the stream has it. -/
theorem take_drop_begins {bytes : List UInt8} {start length : Nat} (begins : received <+: bytes)
    (whole : start + length ≤ received.length)
    : (received.drop start).take length = (bytes.drop start).take length := by
  obtain ⟨rest, rfl⟩ := begins
  rw [List.drop_append_of_le_length (by omega), List.take_append_of_le_length]
  rw [List.length_drop]
  omega

/-- Once a whole piece was received, it lies at its offset. -/
theorem take_drop_offset (begins : received <+: pieces.flatten ++ tail)
    (within : k < pieces.length) (whole : offset pieces (k + 1) ≤ received.length)
    : (received.drop (offset pieces k)).take (pieces.getD k []).length
      = pieces.getD k [] := by
  rw [offset_succ] at whole
  rw [take_drop_begins begins whole, flatten_drop_offset tail within, List.take_left]

end Offsets

/-- The delimiter stands at the `k`-th cut: it has delivered the pieces before, and holds
the bytes behind.
-/
structure Cut (pieces : List (List UInt8)) (received : List UInt8) (k : Nat)
    (progress : Progress) : Prop
    extends Tracks received (offset pieces k) progress where
  delivered : progress.delivered = labelled (pieces.take k)

/-- The `k`-th piece was received, and nothing is missing of it. -/
def Complete (pieces : List (List UInt8)) (received : List UInt8) (k : Nat) : Prop :=
  k < pieces.length ∧ offset pieces (k + 1) ≤ received.length

/-- A framing announces the given pieces, one after the other, and then nothing more. An
announcement whose header is cut by the physical end is wrong, but a local with a high byte
of 255 keeps it from being acted on.
-/
structure Framing.Cuts (framing : Framing) (pieces : List (List UInt8)) (tail : List UInt8)
    : Prop where
  valid : framing.Valid
  sized : ∀ piece ∈ pieces, 0 < piece.length ∧ piece.length ≤ kBufferSize
  short : tail.length < kBufferSize
  ready : ∀ {received k stale}, received <+: pieces.flatten ++ tail → ¬ Straddles pieces k →
    Complete pieces received k → framing.Ready received (offset pieces k) stale
  announced : ∀ {received k stale}, received <+: pieces.flatten ++ tail →
    received.length - offset pieces k ≤ 10240 →
    k < pieces.length → stale = 255 ∨ ¬ Straddles pieces k →
    framing.Ready received (offset pieces k) stale →
      Complete pieces received k
      ∧ ∀ other, framing.announced received (offset pieces k) other
          = (pieces.getD k []).length
  done : ∀ {received stale}, received <+: pieces.flatten ++ tail →
    ¬ framing.Ready received (offset pieces pieces.length) stale

section Delivering

variable {pieces : List (List UInt8)} {tail received : List UInt8} {k : Nat}
  {progress : Progress} {framing : Framing}

/-- The callback's view of a finished turn. -/
theorem delivered_advanced (around : Surroundings) (turn : Nat) (size : UInt16)
    (progress : Progress)
    : (progress.advanced around turn size).delivered
      = progress.delivered
        ++ [
            ((copiedOut progress.delimiter.bcb.leading
                (progress.delimiter.bcb.live.take size.toNat)
                progress.delimiter.buf).take size.toNat,
              size.toNat)
          ] := by
  rw [Progress.delivered, iterations_advanced, List.map_append]
  rfl

theorem Framing.Cuts.sized_getD (cuts : framing.Cuts pieces tail) (within : k < pieces.length)
    : 0 < (pieces.getD k []).length ∧ (pieces.getD k []).length ≤ kBufferSize := by
  rw [getD_eq_of_lt within]
  exact cuts.sized _ (List.getElem_mem within)

theorem labelled_take (pieces : List (List UInt8)) (k : Nat)
    : labelled (pieces.take k) = (labelled pieces).take k :=
  List.map_take

theorem labelled_take_succ (within : k < pieces.length)
    : labelled (pieces.take (k + 1))
      = labelled (pieces.take k) ++ [(pieces.getD k [], (pieces.getD k []).length)] := by
  rw [List.take_succ_eq_append_getElem within, labelled, labelled, List.map_append,
    List.map_singleton, getD_eq_of_lt within]

/-- The first live bytes at a cut are the next piece. -/
theorem Cut.take_live (cut : Cut pieces received k progress)
    (begins : received <+: pieces.flatten ++ tail) (complete : Complete pieces received k)
    : progress.delimiter.bcb.live.take (pieces.getD k []).length = pieces.getD k [] := by
  rw [cut.live, take_drop_offset begins complete.1 complete.2]

/-- What is received behind a cut covers the next piece when that is complete. -/
theorem Complete.enough (complete : Complete pieces received k)
    : (pieces.getD k []).length ≤ received.length - offset pieces k := by
  have next := offset_succ pieces k
  have whole := complete.2
  omega

/-- A turn that delivers a piece lying in one stretch leads to the next cut. -/
theorem Cut.advanced (cut : Cut pieces received k progress)
    (begins : received <+: pieces.flatten ++ tail) (complete : Complete pieces received k)
    (fits : (pieces.getD k []).length ≤ kBufferSize) (unbroken : ¬ Straddles pieces k)
    (around : Surroundings) (turn : Nat) {size : UInt16}
    (size_eq : size.toNat = (pieces.getD k []).length)
    : Cut pieces received (k + 1) (progress.advanced around turn size) := by
  have tracks := cut.toTracks.advanced around turn
    (by rw [size_eq]; exact complete.enough : size.toNat ≤ _)
    (by rw [size_eq]; exact copyFits_of_le fits)
  rw [size_eq, ← offset_succ] at tracks
  refine { toTracks := tracks, delivered := ?_ }
  rw [delivered_advanced, cut.delivered, labelled_take_succ complete.1, size_eq,
    cut.take_live begins complete, copiedOut_of_le, List.take_left]
  rw [cut.leading]
  unfold Straddles at unbroken
  omega

/-- What a delimiter has delivered is not how the stream was cut. -/
def Astray (pieces : List (List UInt8)) (progress : Progress) : Prop :=
  ¬ progress.delivered <+: labelled pieces

/-- A wrong delivery is not made good later. -/
theorem Astray.extends {next : Progress} (astray : Astray pieces progress)
    (extended : progress.Extends next)
    : Astray pieces next :=
  fun right => astray ((extended.iterations.map _).trans right)

/-- A turn that delivers a piece across the physical end leads astray when the cell of the
message buffer that is left over holds a byte other than the piece's last.
-/
theorem Cut.astray (cut : Cut pieces received k progress)
    (begins : received <+: pieces.flatten ++ tail) (complete : Complete pieces received k)
    (straddles : Straddles pieces k)
    (stale : progress.delimiter.buf[(pieces.getD k []).length - 1]?
      ≠ (pieces.getD k [])[(pieces.getD k []).length - 1]?)
    (around : Surroundings) (turn : Nat) {size : UInt16}
    (size_eq : size.toNat = (pieces.getD k []).length)
    : Astray pieces (progress.advanced around turn size) := by
  intro right
  rw [delivered_advanced, cut.delivered, size_eq, cut.take_live begins complete] at right
  have length : (labelled (pieces.take k)).length = k := by
    rw [labelled, List.length_map, List.length_take, Nat.min_eq_left complete.1.le]
  have whole := List.prefix_iff_eq_take.mp right
  rw [List.length_append, length, List.length_singleton, ← labelled_take] at whole
  have last := List.append_cancel_left (whole.trans (labelled_take_succ complete.1))
  have message := congrArg Prod.fst (List.singleton_inj.mp last)
  have below : offset pieces k % 10240 < 10240 := Nat.mod_lt _ (by decide)
  unfold Straddles at straddles
  have left := copiedOut_last_of_lt progress.delimiter.buf
    (by rw [cut.leading]; omega : progress.delimiter.bcb.leading < (pieces.getD k []).length)
    (by rw [cut.leading]; omega)
  have same := congrArg (·[(pieces.getD k []).length - 1]?) message
  simp only at same
  rw [List.getElem?_take_of_lt (by omega)] at same
  exact stale (left.symm.trans same)

end Delivering

end Ethnm
