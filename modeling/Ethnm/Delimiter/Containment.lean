import Ethnm.Delimiter.Reassembly

/-! What a message that passes the physical end of the ring costs. Whatever the callbacks leave
in the message buffer, such a message is the only one that is delivered wrongly: the delimiter
has consumed it as a whole, and is in step with the stream behind it.
-/

namespace Ethnm
open ByteCircularBuffer

/-- A framing announces the given pieces, one after the other, and then nothing more. It does
so wherever a piece lies in the ring.
-/
structure Framing.Parses (framing : Framing) (pieces : List (List UInt8)) (tail : List UInt8)
    : Prop where
  valid : framing.Valid
  sized : ∀ piece ∈ pieces, 0 < piece.length ∧ piece.length ≤ kBufferSize
  short : tail.length < kBufferSize
  ready : ∀ {received k stale}, received <+: pieces.flatten ++ tail →
    Complete pieces received k → framing.Ready received (offset pieces k) stale
  announced : ∀ {received k stale}, received <+: pieces.flatten ++ tail →
    k < pieces.length → framing.Ready received (offset pieces k) stale →
      Complete pieces received k
      ∧ ∀ other, framing.announced received (offset pieces k) other
          = (pieces.getD k []).length
  done : ∀ {received stale}, received <+: pieces.flatten ++ tail →
    ¬ framing.Ready received (offset pieces pieces.length) stale

/-- What the callback is given for the `k`-th piece: as many bytes, which are the piece's own
when it lies in one stretch, and begin with those behind the physical end when it does not.
-/
structure ShowsPiece (pieces : List (List UInt8)) (k : Nat) (message : List UInt8 × Nat)
    : Prop where
  length : message.1.length = (pieces.getD k []).length
  told : message.2 = (pieces.getD k []).length
  whole : ¬ Straddles pieces k → message.1 = pieces.getD k []
  torn : Straddles pieces k →
    (pieces.getD k []).drop (10240 - offset pieces k % 10240) <+: message.1

/-- The delimiter has delivered one message for each of the first `k` pieces, and holds what
lies behind them.
-/
structure InStep (pieces : List (List UInt8)) (received : List UInt8) (k : Nat)
    (progress : Progress) : Prop
    extends Tracks received (offset pieces k) progress where
  count : progress.delivered.length = k
  shown : ∀ j < k, ∃ message,
    progress.delivered[j]? = some message ∧ ShowsPiece pieces j message

section Steps

variable {pieces : List (List UInt8)} {tail received : List UInt8} {k : Nat}
  {progress : Progress} {framing : Framing}

/-- A framing that announces all pieces announces those in one stretch. -/
theorem Framing.Parses.cuts (parses : framing.Parses pieces tail) : framing.Cuts pieces tail where
  valid := parses.valid
  sized := parses.sized
  short := parses.short
  ready := fun begins _ complete => parses.ready begins complete
  announced := fun begins _ within _ ready => parses.announced begins within ready
  done := parses.done

theorem InStep.congr {next : Progress} (inStep : InStep pieces received k progress)
    (same : next.delimiter = progress.delimiter)
    (undelivered : next.iterations = progress.iterations)
    : InStep pieces received k next := by
  have delivered : next.delivered = progress.delivered := by
    rw [Progress.delivered, Progress.delivered, undelivered]
  refine { toTracks := inStep.toTracks.congr same, count := ?_, shown := ?_ }
  · rw [delivered]
    exact inStep.count
  · rw [delivered]
    exact inStep.shown

/-- The piece that a turn takes is shown as it was copied: in one piece, or with its second
part over its first.
-/
theorem shown_copiedOut {buf : List UInt8} (room : buf.length = kBufferSize)
    (fits : (pieces.getD k []).length ≤ kBufferSize)
    : ShowsPiece pieces k
        ((copiedOut (10240 - offset pieces k % 10240) (pieces.getD k []) buf).take
            (pieces.getD k []).length,
          (pieces.getD k []).length) := by
  have below : offset pieces k % 10240 < 10240 := Nat.mod_lt _ (by decide)
  have copied :=
    length_copiedOut
      (by
        rw [room]
        exact copyFits_of_le fits
        : CopyFits (10240 - offset pieces k % 10240) (pieces.getD k []).length buf.length)
  refine ⟨?_, rfl, fun unbroken => ?_, fun straddles => ?_⟩
  · rw [List.length_take, copied, room, Nat.min_eq_left fits]
  · unfold Straddles at unbroken
    rw [copiedOut_of_le (by omega), List.take_left]
  · unfold Straddles at straddles
    have beyond : ¬ (pieces.getD k []).length ≤ 10240 - offset pieces k % 10240 := by omega
    rw [copiedOut, if_neg beyond, CircularWindow.overlay_zero, List.take_append,
      List.take_of_length_le (by rw [List.length_drop]; omega)]
    exact List.prefix_append _ _

/-- A turn that takes the next piece stays in step. -/
theorem InStep.advanced (inStep : InStep pieces received k progress)
    (begins : received <+: pieces.flatten ++ tail) (complete : Complete pieces received k)
    (fits : (pieces.getD k []).length ≤ kBufferSize) (around : Surroundings) (turn : Nat)
    {size : UInt16} (size_eq : size.toNat = (pieces.getD k []).length)
    : InStep pieces received (k + 1) (progress.advanced around turn size) := by
  have tracks := inStep.toTracks.advanced around turn
    (by rw [size_eq]; exact complete.enough : size.toNat ≤ _)
    (by rw [size_eq]; exact copyFits_of_le fits)
  rw [size_eq, ← offset_succ] at tracks
  have live : progress.delimiter.bcb.live.take (pieces.getD k []).length = pieces.getD k [] := by
    rw [inStep.live, take_drop_offset begins complete.1 complete.2]
  have delivered := delivered_advanced around turn size progress
  rw [size_eq, live, inStep.leading] at delivered
  refine { toTracks := tracks, count := ?_, shown := fun j earlier => ?_ }
  · rw [delivered, List.length_append, inStep.count, List.length_singleton]
  · rw [delivered]
    rcases Nat.lt_or_eq_of_le (Nat.le_of_lt_succ earlier) with before | rfl
    · rw [List.getElem?_append_left (by rw [inStep.count]; exact before)]
      exact inStep.shown j before
    · refine ⟨_, ?_, shown_copiedOut inStep.room fits⟩
      rw [List.getElem?_append_right inStep.count.le, inStep.count, Nat.sub_self,
        List.getElem?_cons_zero]

/-- The delimiter is in step, and no whole piece is left in its ring. -/
def Emptied (pieces : List (List UInt8)) (received : List UInt8) (progress : Progress) : Prop :=
  ∃ k, k ≤ pieces.length ∧ InStep pieces received k progress ∧ ¬ Complete pieces received k

/-- The drain loop takes all complete pieces, by induction on its fuel: each turn uses one unit
of fuel and at least one live byte.
-/
theorem Framing.Parses.loop_emptied (parses : framing.Parses pieces tail)
    (begins : received <+: pieces.flatten ++ tail)
    (inStep : InStep pieces received k progress) (within : k ≤ pieces.length)
    (around : Surroundings) {fuel : Nat} (turn : Nat) (readSize : UInt16)
    (enough : received.length - offset pieces k < fuel)
    : (framing.loop around fuel turn readSize progress).Meets (Emptied pieces received)
        (fun _ => False) := by
  induction fuel generalizing k turn readSize progress with
  | zero => exact absurd enough (Nat.not_lt_zero _)
  | succ fuel ih =>
      by_cases complete : Complete pieces received k
      · have ready (stale : UInt8) : framing.Ready received (offset pieces k) stale :=
          parses.ready begins complete
        have announced := (parses.announced begins complete.1 (ready 0)).2
        obtain ⟨positive, fits⟩ := parses.cuts.sized_getD complete.1
        obtain ⟨size, size_eq, next⟩ :=
          inStep.toTracks.loop_turn around fuel turn readSize (ready _) (announced _) positive
            complete.enough (copyFits_of_le fits)
        have further := offset_succ pieces k
        have available := complete.enough
        rw [next]
        exact ih (inStep.advanced begins complete fits around turn size_eq) complete.1
          (turn + 1) size (by omega)
      · have rest
            : ¬ framing.Ready received (offset pieces k)
                (highByte (around.msgSize (turn + 1))) := by
          rcases Nat.lt_or_eq_of_le within with inside | rfl
          · exact fun ready => complete (parses.announced begins inside ready).1
          · exact parses.done begins
        obtain ⟨next, returned, same, undelivered⟩ :=
          inStep.toTracks.loop_done around fuel turn readSize rest
        rw [returned]
        exact ⟨k, within, inStep.congr same undelivered, complete⟩

/-- Every run over the pieces stays in step with them. -/
theorem Framing.Parses.feed_emptied (parses : framing.Parses pieces tail) {fuel : Nat}
    (enough : 10240 < fuel) {arrivals : List Arrival}
    (begins : stream arrivals <+: pieces.flatten ++ tail)
    : (feed framing fuel fresh arrivals).Meets (Emptied pieces (stream arrivals))
        (fun _ => False) := by
  have start : Emptied pieces [] fresh := by
    refine ⟨0, Nat.zero_le _, { toTracks := tracks_fresh, count := rfl, shown := nofun }, ?_⟩
    rintro ⟨within, whole⟩
    have next := offset_succ pieces 0
    have positive := (parses.cuts.sized_getD within).1
    rw [List.length_nil] at whole
    omega
  refine feed_fresh_meets (fun _ => True) ?_ begins (fun _ _ => trivial) start
  rintro received progress arrival more - ⟨k, within, inStep, emptied⟩
  have sized := arrival.sized
  have rest := parses.cuts.rest_lt ((List.prefix_append _ _).trans more) within emptied
  have fits : received.length - offset pieces k + arrival.chunk.length ≤ 10240 := by
    unfold kBufferSize at sized rest
    omega
  have written : InStep pieces (received ++ arrival.chunk) k (progress.written arrival.chunk) :=
    { toTracks := inStep.toTracks.written fits, count := inStep.count, shown := inStep.shown }
  rw [inStep.toTracks.process_eq parses.valid fuel fits]
  split
  · refine parses.loop_emptied more written within arrival.around 0 _ ?_
    rw [List.length_append]
    omega
  · rename_i unready
    exact ⟨k, within, written, fun complete => unready (parses.ready more complete)⟩

/-- Every run over the whole stream delivers one message for each piece, all of them whole but
those that pass the physical end.
-/
theorem Framing.Parses.contained (parses : framing.Parses pieces tail)
    {arrivals : List Arrival} (total : stream arrivals = pieces.flatten ++ tail) {fuel : Nat}
    (enough : 10240 < fuel)
    : ∃ progress,
        feed framing fuel fresh arrivals = .ok progress
        ∧ progress.delivered.length = pieces.length
        ∧ (∀ k < pieces.length,
            ∃ message, progress.delivered[k]? = some message ∧ ShowsPiece pieces k message)
        ∧ progress.delimiter.bcb.live = tail := by
  have begins : stream arrivals <+: pieces.flatten ++ tail := by rw [total]
  have emptied := parses.feed_emptied enough begins
  cases result : feed framing fuel fresh arrivals with
  | error stop =>
      rw [result] at emptied
      exact emptied.elim
  | ok progress =>
      obtain ⟨k, within, inStep, rest⟩ := emptied.of_ok result
      have all : k = pieces.length := by
        rcases Nat.lt_or_eq_of_le within with inside | last
        · refine absurd ⟨inside, ?_⟩ rest
          rw [total, List.length_append]
          exact (offset_le pieces (k + 1)).trans (Nat.le_add_right _ _)
        · exact last
      subst all
      refine ⟨progress, rfl, inStep.count, inStep.shown, ?_⟩
      rw [inStep.live, total, offset_length, List.drop_left]

end Steps

-----------------------------------------------------------------------------------------
-- Both delimiters
-----------------------------------------------------------------------------------------

/-- Pieces of a fixed size are announced wherever they lie. -/
theorem parses_fixed {fixedSize : UInt16} (positive : 0 < fixedSize.toNat)
    (fits : fixedSize.toNat ≤ kBufferSize) (bytes : List UInt8)
    : (Framing.fixed fixedSize).Parses
        (piecesOf fixedSize.toNat (bytes.length / fixedSize.toNat) bytes)
        (bytes.drop (bytes.length / fixedSize.toNat * fixedSize.toNat)) := by
  have cuts := cuts_fixed positive fits bytes
  have whole := Nat.div_mul_le_self bytes.length fixedSize.toNat
  generalize bytes.length / fixedSize.toNat = count at cuts whole ⊢
  have piece {k : Nat} (within : k < (piecesOf fixedSize.toNat count bytes).length)
      : ((piecesOf fixedSize.toNat count bytes).getD k []).length = fixedSize.toNat :=
    length_getD_piecesOf whole (by rwa [length_piecesOf] at within)
  refine {
    valid := cuts.valid
    sized := cuts.sized
    short := cuts.short
    ready := fun _ complete => ?_
    announced := fun {received k stale} _ within ready => ?_
    done := cuts.done
  }
  · have enough := complete.enough
    rw [piece complete.1] at enough
    exact enough
  · have next := offset_succ (piecesOf fixedSize.toNat count bytes) k
    rw [piece within] at next ⊢
    change fixedSize.toNat ≤ received.length - _ at ready
    exact ⟨⟨within, by omega⟩, fun _ => rfl⟩

/-- Frames are announced wherever they lie, unless a header is cut by the physical end. -/
theorem parses_var {frames : List Frame}
    (uncut : ∀ k < frames.length, offset (frames.map Frame.bytes) k % 10240 ≠ 10239)
    : Framing.var.Parses (frames.map Frame.bytes) [] := by
  have cuts := cuts_var frames
  have framed {k : Nat} (within : k < (frames.map Frame.bytes).length)
      : ∃ frame : Frame, (frames.map Frame.bytes).getD k [] = frame.bytes := by
    rw [getD_eq_of_lt within, List.getElem_map]
    exact ⟨_, rfl⟩
  have seen {received : List UInt8} {k : Nat}
      (begins : received <+: (frames.map Frame.bytes).flatten ++ [])
      (within : k < (frames.map Frame.bytes).length)
      (three : offset (frames.map Frame.bytes) k + 3 ≤ received.length) (stale : UInt8)
      : seenLength received (offset (frames.map Frame.bytes) k) stale
        = ((frames.map Frame.bytes).getD k []).length := by
    obtain ⟨frame, frame_eq⟩ := framed within
    have whole := uncut k (by rwa [List.length_map] at within)
    rw [← seenLength_begins begins (by omega)]
    refine seenLength_offset within ?_ ?_ whole stale
    · rw [frame_eq]
      exact frame.header
    · rw [frame_eq]
      exact Nat.le_of_succ_le frame.three
  refine {
    valid := cuts.valid
    sized := cuts.sized
    short := cuts.short
    ready := fun {received k stale} begins complete => ?_
    announced := fun {received k stale} begins within ready => ?_
    done := cuts.done
  }
  · have next := offset_succ (frames.map Frame.bytes) k
    have whole := complete.2
    obtain ⟨frame, frame_eq⟩ := framed complete.1
    have large := frame.three
    rw [← frame_eq] at large
    refine ⟨by omega, ?_⟩
    rw [seen begins complete.1 (by omega)]
    omega
  · obtain ⟨three, available⟩ := ready
    have next := offset_succ (frames.map Frame.bytes) k
    rw [seen begins within three] at available
    exact ⟨⟨within, by omega⟩, seen begins within three⟩

/-- A fixed-size delimiter delivers a message for each whole piece of the stream. -/
theorem feed_fixed_contained {fixedSize : UInt16} (positive : 0 < fixedSize.toNat)
    (fits : fixedSize.toNat ≤ kBufferSize) {fuel : Nat} (enough : 10240 < fuel)
    (arrivals : List Arrival)
    : let bytes := stream arrivals
      let count := bytes.length / fixedSize.toNat
      ∃ progress,
        feed (.fixed fixedSize) fuel fresh arrivals = .ok progress
        ∧ progress.delivered.length = count
        ∧ (∀ k < count,
            ∃ message,
              progress.delivered[k]? = some message
              ∧ ShowsPiece (piecesOf fixedSize.toNat count bytes) k message)
        ∧ progress.delimiter.bcb.live = bytes.drop (count * fixedSize.toNat) := by
  intro bytes count
  have total : bytes = (piecesOf fixedSize.toNat count bytes).flatten
      ++ bytes.drop (count * fixedSize.toNat) := by
    rw [flatten_piecesOf, List.take_append_drop]
  obtain ⟨progress, returned, delivered, shown, rest⟩ :=
    (parses_fixed positive fits bytes).contained total enough
  rw [length_piecesOf] at delivered shown
  exact ⟨progress, returned, delivered, shown, rest⟩

/-- A fixed-size delimiter loses step at no message: each of them is delivered, and is the piece
of the stream unless that passes the physical end.
-/
theorem fixed_contained {fixedSize : UInt16} (positive : 0 < fixedSize.toNat)
    (fits : fixedSize.toNat ≤ kBufferSize) (arrivals : List Arrival)
    : let bytes := stream arrivals
      let count := bytes.length / fixedSize.toNat
      ∃ enough, ∀ fuel, enough ≤ fuel →
        ∃ progress,
          feed (.fixed fixedSize) fuel fresh arrivals = .ok progress
          ∧ progress.delivered.length = count
          ∧ (∀ k < count,
              ∃ message,
                progress.delivered[k]? = some message
                ∧ ShowsPiece (piecesOf fixedSize.toNat count bytes) k message)
          ∧ progress.delimiter.bcb.live = bytes.drop (count * fixedSize.toNat) :=
  ⟨10241, fun _ enough => feed_fixed_contained positive fits enough arrivals⟩

/-- Each frame arrives as one chunk. -/
def Frame.arrival (frame : Frame) : Arrival where
  chunk := frame.bytes
  around := .holding 0 0
  nonempty := Nat.lt_of_lt_of_le (by decide) frame.three
  sized := frame.sized

theorem stream_arrivals (frames : List Frame)
    : stream (frames.map Frame.arrival) = (frames.map Frame.bytes).flatten := by
  rw [stream, List.flatMap_map, List.flatMap_def]
  rfl

/-- Eleven frames of 1000 bytes, of which the last passes the physical end. -/
def frames1000 : List Frame :=
  List.replicate 10 (frame1000 0) ++ [frame1000 1]

theorem length_frames1000 : ∀ frame ∈ frames1000, frame.bytes.length = 1000 := by
  refine List.forall_mem_append.mpr ⟨fun frame member => ?_, List.forall_mem_singleton.mpr ?_⟩
  · rw [List.eq_of_mem_replicate member]
    exact length_frame1000 0
  · exact length_frame1000 1

theorem offset_frames1000 {k : Nat} (within : k ≤ 11)
    : offset (frames1000.map Frame.bytes) k = k * 1000 :=
  offset_equal length_frames1000 within

theorem length_stream_frames1000 : (stream (frames1000.map Frame.arrival)).length = 11000 := by
  rw [stream_arrivals, ← offset_length]
  exact offset_frames1000 (Nat.le_refl 11)

/-- The eleventh piece begins before the physical end and ends behind it, and is torn. -/
theorem fixed_contained_frames1000
    : let bytes := stream (frames1000.map Frame.arrival)
      (∃ enough, ∀ fuel, enough ≤ fuel →
        ∃ progress,
          feed (.fixed 1000) fuel fresh (frames1000.map Frame.arrival) = .ok progress
          ∧ progress.delivered.length = 11
          ∧ (∀ k < 11,
              ∃ message,
                progress.delivered[k]? = some message
                ∧ ShowsPiece (piecesOf 1000 11 bytes) k message)
          ∧ progress.delimiter.bcb.live = [])
      ∧ Straddles (piecesOf 1000 11 bytes) 10 := by
  intro bytes
  have length : bytes.length = 11000 := length_stream_frames1000
  have contained := @fixed_contained 1000 (by decide) (by decide) (frames1000.map Frame.arrival)
  have count : bytes.length / (1000 : UInt16).toNat = 11 := by
    rw [length]
    rfl
  have rest : bytes.drop (11 * 1000) = [] := List.drop_eq_nil_of_le (Nat.le_of_eq length)
  have whole : 11 * 1000 ≤ bytes.length := Nat.le_of_eq length.symm
  dsimp only at contained
  rw [count] at contained
  refine ⟨rest ▸ contained, ?_⟩
  rw [Straddles, offset_piecesOf whole (by decide), length_getD_piecesOf whole (by decide)]
  decide

/-- A variable-length delimiter loses step at no frame whose header is in one piece: each of
them is delivered, and as it was sent unless it passes the physical end.
-/
theorem var_contained {frames : List Frame}
    (uncut : ∀ k < frames.length, offset (frames.map Frame.bytes) k % 10240 ≠ 10239)
    {arrivals : List Arrival} (total : stream arrivals = (frames.map Frame.bytes).flatten)
    : ∃ enough, ∀ fuel, enough ≤ fuel →
        ∃ progress,
          feed .var fuel fresh arrivals = .ok progress
          ∧ progress.delivered.length = frames.length
          ∧ (∀ k < frames.length,
              ∃ message,
                progress.delivered[k]? = some message
                ∧ ShowsPiece (frames.map Frame.bytes) k message)
          ∧ progress.delimiter.bcb.live = [] := by
  refine ⟨10241, fun fuel enough => ?_⟩
  obtain ⟨progress, returned, delivered, shown, rest⟩ :=
    (parses_var uncut).contained (by rw [total, List.append_nil]) enough
  rw [List.length_map] at delivered shown
  exact ⟨progress, returned, delivered, shown, rest⟩

/-- The eleventh frame begins before the physical end and ends behind it, and is torn. -/
theorem var_contained_frames1000
    : (∃ enough, ∀ fuel, enough ≤ fuel →
        ∃ progress,
          feed .var fuel fresh (frames1000.map Frame.arrival) = .ok progress
          ∧ progress.delivered.length = 11
          ∧ (∀ k < 11,
              ∃ message,
                progress.delivered[k]? = some message
                ∧ ShowsPiece (frames1000.map Frame.bytes) k message)
          ∧ progress.delimiter.bcb.live = [])
      ∧ Straddles (frames1000.map Frame.bytes) 10 := by
  refine ⟨@var_contained frames1000 (fun k within => ?_) _ (stream_arrivals frames1000), ?_⟩
  · rw [offset_frames1000 (Nat.le_of_lt within)]
    have below : k < 11 := within
    omega
  · have last : ((frames1000.map Frame.bytes).getD 10 []).length = 1000 := length_frame1000 1
    rw [Straddles, offset_frames1000 (by decide), last]
    decide

end Ethnm
