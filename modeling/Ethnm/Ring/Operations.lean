import Ethnm.Ring.LiveBytes

/-! The exact result of `BCBWrite` and `BCBRead` on a well-formed ring. A write appends all
of its data or nothing; a read removes exactly what it reports, whatever it copies.
-/

namespace Ethnm
open CircularWindow

namespace ByteCircularBuffer

variable {bcb : ByteCircularBuffer}

-----------------------------------------------------------------------------------------
-- Sixteen-bit positions
-----------------------------------------------------------------------------------------

/-- Advancing a position and resetting it at the end is addition modulo the capacity,
and the sixteen-bit sum does not wrap.
-/
theorem wrapped_add {position step size : UInt16}
    (within : position.toNat + step.toNat ≤ size.toNat)
    : (if position + step = size then 0 else position + step)
      = UInt16.ofNat ((position.toNat + step.toNat) % size.toNat) := by
  have bound := size.toNat_lt
  have sum : (position + step).toNat = position.toNat + step.toNat := by
    rw [UInt16.toNat_add]
    exact Nat.mod_eq_of_lt (by omega)
  apply UInt16.toNat_inj.mp
  split
  · rename_i same
    rw [← sum, same, Nat.mod_self]
    rfl
  · rename_i differs
    have strict : position.toNat + step.toNat ≠ size.toNat := by
      intro equal
      exact differs (UInt16.toNat_inj.mp (sum.trans equal))
    rw [Nat.mod_eq_of_lt (by omega), UInt16.toNat_ofNat', sum, Nat.mod_eq_of_lt (by omega)]

/-- Two sixteen-bit sizes add up without wrapping when their sum is a size again. -/
theorem add_eq_ofNat {left right : UInt16} : left + right = .ofNat (left.toNat + right.toNat) := by
  apply UInt16.toNat_inj.mp
  rw [UInt16.toNat_add, UInt16.toNat_ofNat']

/-- A sixteen-bit difference is the difference of the sizes. -/
theorem sub_eq_ofNat {left right : UInt16} (le : right.toNat ≤ left.toNat)
    : left - right = .ofNat (left.toNat - right.toNat) := by
  have bound := left.toNat_lt
  apply UInt16.toNat_inj.mp
  rw [UInt16.toNat_sub_of_le _ _ (UInt16.le_iff_toNat_le.mpr le), UInt16.toNat_ofNat',
    Nat.mod_eq_of_lt (by omega)]

/-- The space that `BCBAvailableSize` reports is what the live bytes leave. -/
theorem WellFormed.available (wf : bcb.WellFormed)
    : (bcbAvailableSize bcb).toNat = bcb.bufferSize.toNat - bcb.currentSize.toNat :=
  UInt16.toNat_sub_of_le _ _ (UInt16.le_iff_toNat_le.mpr wf.current_le)

-----------------------------------------------------------------------------------------
-- Writing
-----------------------------------------------------------------------------------------

/-- Appending nothing changes no field. -/
theorem WellFormed.appended_nil (wf : bcb.WellFormed) : bcb.appended [] = bcb := by
  have same : store bcb.buffer bcb.front.toNat [] = bcb.buffer := by
    have below := wf.front_lt
    rw [store, if_pos (by rw [wf.storage, List.length_nil]; omega), overlay_nil]
  rw [appended, same, List.length_nil, Nat.add_zero, Nat.mod_eq_of_lt wf.front_lt,
    UInt16.ofNat_toNat, Nat.add_zero, UInt16.ofNat_toNat]

/-- A write that does not fit is refused as a whole. -/
theorem WellFormed.bcbWrite_refused (wf : bcb.WellFormed) {data : List UInt8}
    {dataSize : UInt16}
    (large : bcb.bufferSize.toNat < bcb.currentSize.toNat + dataSize.toNat)
    : bcbWrite bcb data dataSize = .ok (bcb, 0) := by
  have short : bcbAvailableSize bcb < dataSize := by
    rw [UInt16.lt_iff_toNat_lt, wf.available]
    have := wf.current_le
    omega
  rw [bcbWrite, if_pos short, ite_self]

/-- A write that fits appends exactly its `dataSize` bytes.
Witness: the three copy branches are the one- and two-piece cases of `store`.
-/
theorem WellFormed.bcbWrite_accepted (wf : bcb.WellFormed) {data : List UInt8}
    {dataSize : UInt16} (available : dataSize.toNat ≤ data.length)
    (fits : bcb.currentSize.toNat + dataSize.toNat ≤ bcb.bufferSize.toNat)
    : bcbWrite bcb data dataSize
      = .ok (bcb.appended (data.take dataSize.toNat), dataSize) := by
  have width : (data.take dataSize.toNat).length = dataSize.toNat := by
    rw [List.length_take]
    omega
  have below := wf.front_lt
  have storage := wf.storage
  have grown : bcb.currentSize + dataSize
      = .ofNat (bcb.currentSize.toNat + (data.take dataSize.toNat).length) := by
    rw [width, add_eq_ofNat]
  unfold bcbWrite
  by_cases full : bcbIsFull bcb
  · have same : bcb.currentSize = bcb.bufferSize := by simpa [bcbIsFull] using full
    have none : dataSize = 0 := by
      apply UInt16.toNat_inj.mp
      rw [same] at fits
      have : (0 : UInt16).toNat = 0 := rfl
      omega
    rw [if_pos full, none, show (0 : UInt16).toNat = 0 from rfl, List.take_zero,
      wf.appended_nil]
  have enough : ¬ bcbAvailableSize bcb < dataSize := by
    rw [UInt16.lt_iff_toNat_lt, wf.available]
    omega
  rw [if_neg full, if_neg enough]
  -- A single copy, taken when the block ends inside the storage.
  have single (within : bcb.front.toNat + dataSize.toNat ≤ bcb.bufferSize.toNat)
      : (do
          let buffer ← memcpy bcb.buffer bcb.front.toNat data 0 dataSize.toNat
          let front := bcb.front + dataSize
          let front := if front = bcb.bufferSize then 0 else front
          return ({ bcb with buffer, front, currentSize := bcb.currentSize + dataSize },
            dataSize) : Except Fault (ByteCircularBuffer × UInt16))
        = .ok (bcb.appended (data.take dataSize.toNat), dataSize) := by
    rw [memcpy_eq_overlay (by omega) (by omega), List.drop_zero]
    simp only [bind, Except.bind, pure, Except.pure]
    rw [wrapped_add within, grown, appended, store, width,
      if_pos (by rw [storage]; exact within)]
  by_cases behind : bcb.front < bcb.rear
  · rw [if_pos behind]
    rw [UInt16.lt_iff_toNat_lt] at behind
    have inside := wf.rear_lt
    rcases wf.front_cases with ⟨_, position⟩ | ⟨_, position⟩
    · omega
    · exact single (by omega)
  have leading : (bcb.bufferSize - bcb.front).toNat
      = bcb.bufferSize.toNat - bcb.front.toNat :=
    UInt16.toNat_sub_of_le _ _ (UInt16.le_iff_toNat_le.mpr below.le)
  rw [if_neg behind]
  change (if _ ≤ bcb.bufferSize - bcb.front then _ else _) = _
  by_cases short : dataSize ≤ bcb.bufferSize - bcb.front
  · rw [if_pos short]
    rw [UInt16.le_iff_toNat_le, leading] at short
    exact single (by omega)
  rw [if_neg short]
  rw [UInt16.le_iff_toNat_le, leading] at short
  have first : ((data.drop 0).take (bcb.bufferSize.toNat - bcb.front.toNat)).length
      = bcb.bufferSize.toNat - bcb.front.toNat := by
    rw [List.drop_zero, List.length_take]
    omega
  have piece : (overlay bcb.buffer bcb.front.toNat
      ((data.drop 0).take (bcb.bufferSize.toNat - bcb.front.toNat))).length
      = bcb.bufferSize.toNat := by
    rw [length_overlay (by omega), storage]
  have wrapped : (bcb.front.toNat + dataSize.toNat) % bcb.bufferSize.toNat
      = dataSize.toNat - (bcb.bufferSize.toNat - bcb.front.toNat) := by
    have inside := wf.rear_lt
    have ahead : bcb.rear.toNat ≤ bcb.front.toNat := by
      rw [UInt16.lt_iff_toNat_lt] at behind
      omega
    rw [Nat.mod_eq_sub_mod (by omega), Nat.mod_eq_of_lt (by omega)]
    omega
  simp only [bind, Except.bind, pure, Except.pure]
  rw [leading, memcpy_eq_overlay (by omega) (by omega)]
  simp only
  rw [memcpy_eq_overlay (by omega) (by rw [piece]; omega), grown, appended, store, width,
    if_neg (by rw [storage]; omega), storage, List.drop_zero, List.take_take,
    Nat.min_eq_left (by omega), List.drop_take, sub_eq_ofNat (by rw [leading]; omega),
    leading, wrapped]

/-- A block that fits is appended as a whole, since its length is not truncated. -/
theorem WellFormed.bcbWrite_whole (wf : bcb.WellFormed) {data : List UInt8}
    (fits : bcb.currentSize.toNat + data.length ≤ bcb.bufferSize.toNat)
    : bcbWrite bcb data (.ofNat data.length) = .ok (bcb.appended data, .ofNat data.length) := by
  have capacity_lt := bcb.bufferSize.toNat_lt
  have size : (UInt16.ofNat data.length).toNat = data.length := by
    rw [UInt16.toNat_ofNat', Nat.mod_eq_of_lt (by omega)]
  rw [wf.bcbWrite_accepted (by rw [size]) (by rw [size]; exact fits), size, List.take_length]

-----------------------------------------------------------------------------------------
-- Reading
-----------------------------------------------------------------------------------------

/-- A read of more than the live bytes reports zero and touches nothing. -/
theorem bcbRead_short {buffer : List UInt8} {dataSize : UInt16} {remove : Bool}
    (few : bcb.currentSize.toNat < dataSize.toNat)
    : bcbRead bcb buffer dataSize remove = .ok (bcb, buffer, 0) := by
  rw [bcbRead, if_pos (UInt16.lt_iff_toNat_lt.mpr few)]

/-- A read of live bytes that fit the caller's buffer reports its size, leaves `copiedOut`
in the buffer, and removes exactly what it reports when asked to.
Witness: the first two branches copy one segment of the storage, the last one two.
-/
theorem WellFormed.bcbRead_served (wf : bcb.WellFormed) {buffer : List UInt8}
    {dataSize : UInt16} (remove : Bool)
    (enough : dataSize.toNat ≤ bcb.currentSize.toNat)
    (fits : CopyFits bcb.leading dataSize.toNat buffer.length)
    : bcbRead bcb buffer dataSize remove
      = .ok (if remove then bcb.removed dataSize.toNat else bcb,
          copiedOut bcb.leading (bcb.live.take dataSize.toNat) buffer, dataSize) := by
  have inside := wf.rear_lt
  have bound := wf.current_le
  have storage := wf.storage
  have width : (bcb.live.take dataSize.toNat).length = dataSize.toNat := by
    rw [List.length_take, wf.length_live]
    omega
  have bytes : bcb.live.take dataSize.toNat
      = window bcb.buffer bcb.rear.toNat dataSize.toNat := take_window _ _ enough
  have shrunk : bcb.currentSize - dataSize
      = .ofNat (bcb.currentSize.toNat - dataSize.toNat) := sub_eq_ofNat enough
  unfold bcbRead
  rw [if_neg (by rw [UInt16.lt_iff_toNat_lt]; omega)]
  -- A single copy, taken when the bytes end inside the storage.
  have single (within : bcb.rear.toNat + dataSize.toNat ≤ bcb.bufferSize.toNat)
      : (do
          let buffer ← memcpy buffer 0 bcb.buffer bcb.rear.toNat dataSize.toNat
          if remove then
            let rear := bcb.rear + dataSize
            let rear := if rear = bcb.bufferSize then 0 else rear
            return ({ bcb with rear, currentSize := bcb.currentSize - dataSize }, buffer,
              dataSize)
          else
            return (bcb, buffer, dataSize)
            : Except Fault (ByteCircularBuffer × List UInt8 × UInt16))
        = .ok (if remove then bcb.removed dataSize.toNat else bcb,
            copiedOut bcb.leading (bcb.live.take dataSize.toNat) buffer, dataSize) := by
    have near : dataSize.toNat ≤ bcb.leading := by
      unfold leading
      omega
    rw [CopyFits, if_pos near] at fits
    have copied : copiedOut bcb.leading (bcb.live.take dataSize.toNat) buffer
        = overlay buffer 0 ((bcb.buffer.drop bcb.rear.toNat).take dataSize.toNat) := by
      rw [copiedOut, if_pos (by omega), bytes, window_of_le (by omega)]
    rw [memcpy_eq_overlay (by omega) (by omega), copied]
    cases remove
    · rfl
    · simp only [bind, Except.bind, if_true, pure, Except.pure]
      rw [wrapped_add within, shrunk, removed]
  by_cases behind : bcb.rear < bcb.front
  · rw [if_pos behind]
    rw [UInt16.lt_iff_toNat_lt] at behind
    rcases wf.front_cases with ⟨_, position⟩ | ⟨_, position⟩
    · exact single (by omega)
    · omega
  have lead : (bcb.bufferSize - bcb.rear).toNat = bcb.leading :=
    UInt16.toNat_sub_of_le _ _ (UInt16.le_iff_toNat_le.mpr inside.le)
  have span : bcb.leading = bcb.bufferSize.toNat - bcb.rear.toNat := rfl
  rw [if_neg behind]
  change (if _ ≤ bcb.bufferSize - bcb.rear then _ else _) = _
  by_cases short : dataSize ≤ bcb.bufferSize - bcb.rear
  · rw [if_pos short]
    rw [UInt16.le_iff_toNat_le, lead] at short
    exact single (by omega)
  rw [if_neg short]
  rw [UInt16.le_iff_toNat_le, lead] at short
  rw [CopyFits, if_neg short] at fits
  have head : (bcb.live.take dataSize.toNat).take bcb.leading
      = (bcb.buffer.drop bcb.rear.toNat).take bcb.leading := by
    rw [bytes, take_window _ _ (by omega), window_of_le (by omega)]
  have tail : (bcb.live.take dataSize.toNat).drop bcb.leading
      = (bcb.buffer.drop 0).take (dataSize.toNat - bcb.leading) := by
    rw [bytes, window_of_wrap (by omega) (by omega) (by omega), List.drop_append,
      List.drop_of_length_le (by rw [List.length_drop]; omega), List.nil_append,
      List.drop_zero, List.length_drop, storage, span, Nat.sub_self, List.drop_zero]
    congr 1
    omega
  have piece : (overlay buffer 0 ((bcb.buffer.drop bcb.rear.toNat).take bcb.leading)).length
      = buffer.length :=
    length_overlay (by rw [List.length_take, List.length_drop]; omega)
  have wrapped : (bcb.rear.toNat + dataSize.toNat) % bcb.bufferSize.toNat
      = dataSize.toNat - bcb.leading := by
    rw [Nat.mod_eq_sub_mod (by omega), Nat.mod_eq_of_lt (by omega)]
    omega
  simp only [bind, Except.bind]
  have copied : copiedOut bcb.leading (bcb.live.take dataSize.toNat) buffer
      = overlay (overlay buffer 0 ((bcb.buffer.drop bcb.rear.toNat).take bcb.leading)) 0
          ((bcb.buffer.drop 0).take (dataSize.toNat - bcb.leading)) := by
    rw [copiedOut, if_neg (by omega), head, tail]
  have remaining : dataSize.toNat - bcb.leading ≤ bcb.buffer.length := by omega
  rw [lead, memcpy_eq_overlay (by omega) (by omega)]
  simp only
  rw [memcpy_eq_overlay (by omega) (by rw [piece]; omega), copied]
  cases remove
  · rfl
  · simp only [if_true, pure, Except.pure]
    rw [shrunk, removed, sub_eq_ofNat (by omega), lead, wrapped]

/-- A read of live bytes whose copy leaves the caller's buffer is undefined.
Witness: in the two-piece branch whichever copy is too long fails, the first one first.
-/
theorem WellFormed.bcbRead_overrun (wf : bcb.WellFormed) {buffer : List UInt8}
    {dataSize : UInt16} (remove : Bool)
    (enough : dataSize.toNat ≤ bcb.currentSize.toNat)
    (beyond : ¬ CopyFits bcb.leading dataSize.toNat buffer.length)
    : bcbRead bcb buffer dataSize remove = .error .outOfRange := by
  have inside := wf.rear_lt
  have bound := wf.current_le
  have storage := wf.storage
  have span : bcb.leading = bcb.bufferSize.toNat - bcb.rear.toNat := rfl
  unfold bcbRead
  rw [if_neg (by rw [UInt16.lt_iff_toNat_lt]; omega)]
  by_cases behind : bcb.rear < bcb.front
  · have near : dataSize.toNat ≤ bcb.leading := by
      have position := UInt16.lt_iff_toNat_lt.mp behind
      rcases wf.front_cases with ⟨_, front⟩ | ⟨_, front⟩ <;> omega
    rw [CopyFits, if_pos near] at beyond
    rw [if_pos behind, memcpy_overrun (by omega)]
    rfl
  have lead : (bcb.bufferSize - bcb.rear).toNat = bcb.leading :=
    UInt16.toNat_sub_of_le _ _ (UInt16.le_iff_toNat_le.mpr inside.le)
  rw [if_neg behind]
  change (if _ ≤ bcb.bufferSize - bcb.rear then _ else _) = _
  by_cases short : dataSize ≤ bcb.bufferSize - bcb.rear
  · rw [if_pos short]
    rw [UInt16.le_iff_toNat_le, lead] at short
    rw [CopyFits, if_pos short] at beyond
    rw [memcpy_overrun (by omega)]
    rfl
  rw [if_neg short]
  rw [UInt16.le_iff_toNat_le, lead] at short
  rw [CopyFits, if_neg short] at beyond
  simp only [bind, Except.bind]
  rw [lead]
  by_cases first : bcb.leading ≤ buffer.length
  · have piece : (overlay buffer 0
        ((bcb.buffer.drop bcb.rear.toNat).take bcb.leading)).length = buffer.length :=
      length_overlay (by rw [List.length_take, List.length_drop]; omega)
    rw [memcpy_eq_overlay (by omega) (by omega)]
    simp only
    rw [memcpy_overrun (by rw [piece]; omega)]
  · rw [memcpy_overrun (by omega)]

end ByteCircularBuffer

end Ethnm
