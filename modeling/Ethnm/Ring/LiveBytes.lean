import Ethnm.Library.CircularWindow
import Ethnm.Ring.ByteCircularBuffer

/-! The live bytes of a ring, and the exact effect of each ring operation on them.
Every operation has one lemma here; no later module unfolds the operations themselves.
-/

namespace Ethnm
open CircularWindow

-----------------------------------------------------------------------------------------
-- Copies between byte objects
-----------------------------------------------------------------------------------------

/-- A copy inside both objects overlays the selected source bytes on the destination. -/
theorem memcpy_eq_overlay {dest src : List UInt8} {destOffset srcOffset count : Nat}
    (source : srcOffset + count ≤ src.length) (target : destOffset + count ≤ dest.length)
    : memcpy dest destOffset src srcOffset count
      = .ok (overlay dest destOffset ((src.drop srcOffset).take count)) := by
  have width : ((src.drop srcOffset).take count).length = count := by
    rw [List.length_take, List.length_drop]
    omega
  rw [memcpy, if_pos ⟨source, target⟩, overlay, width]

/-- A copy past the end of its destination is undefined. -/
theorem memcpy_overrun {dest src : List UInt8} {destOffset srcOffset count : Nat}
    (beyond : dest.length < destOffset + count)
    : memcpy dest destOffset src srcOffset count = .error .outOfRange := by
  rw [memcpy, if_neg (by omega)]

-----------------------------------------------------------------------------------------
-- The representation invariant
-----------------------------------------------------------------------------------------

namespace ByteCircularBuffer

/-- The representation invariant: positions inside the storage, and `front` exactly
`currentSize` cells after `rear`.
-/
structure WellFormed (bcb : ByteCircularBuffer) : Prop where
  storage : bcb.buffer.length = bcb.bufferSize.toNat
  rear_lt : bcb.rear.toNat < bcb.bufferSize.toNat
  current_le : bcb.currentSize.toNat ≤ bcb.bufferSize.toNat
  front_eq
    : bcb.front.toNat
      = (bcb.rear.toNat + bcb.currentSize.toNat) % bcb.bufferSize.toNat

/-- The bytes written and not yet removed, oldest first. -/
def live (bcb : ByteCircularBuffer) : List UInt8 :=
  window bcb.buffer bcb.rear.toNat bcb.currentSize.toNat

/-- The cells from `rear` to the physical end of the storage. -/
def leading (bcb : ByteCircularBuffer) : Nat :=
  bcb.bufferSize.toNat - bcb.rear.toNat

/-- The ring after `data` has been appended. -/
def appended (bcb : ByteCircularBuffer) (data : List UInt8) : ByteCircularBuffer :=
  {
    bcb with
    buffer := store bcb.buffer bcb.front.toNat data
    front := .ofNat ((bcb.front.toNat + data.length) % bcb.bufferSize.toNat)
    currentSize := .ofNat (bcb.currentSize.toNat + data.length)
  }

/-- The ring after its `count` oldest bytes have been removed. -/
def removed (bcb : ByteCircularBuffer) (count : Nat) : ByteCircularBuffer :=
  {
    bcb with
    rear := .ofNat ((bcb.rear.toNat + count) % bcb.bufferSize.toNat)
    currentSize := .ofNat (bcb.currentSize.toNat - count)
  }

section Invariant

variable {bcb : ByteCircularBuffer}

theorem WellFormed.capacity_pos (wf : bcb.WellFormed) : 0 < bcb.bufferSize.toNat :=
  Nat.zero_lt_of_lt wf.rear_lt

theorem WellFormed.front_lt (wf : bcb.WellFormed)
    : bcb.front.toNat < bcb.bufferSize.toNat := by
  rw [wf.front_eq]
  exact Nat.mod_lt _ wf.capacity_pos

/-- `front` as a case distinction: the live bytes pass the physical end at most once. -/
theorem WellFormed.front_cases (wf : bcb.WellFormed)
    : bcb.rear.toNat + bcb.currentSize.toNat < bcb.bufferSize.toNat
        ∧ bcb.front.toNat = bcb.rear.toNat + bcb.currentSize.toNat
      ∨ bcb.bufferSize.toNat ≤ bcb.rear.toNat + bcb.currentSize.toNat
        ∧ bcb.front.toNat + bcb.bufferSize.toNat
          = bcb.rear.toNat + bcb.currentSize.toNat := by
  have inside := wf.rear_lt
  have bound := wf.current_le
  rw [wf.front_eq]
  rcases Nat.lt_or_ge (bcb.rear.toNat + bcb.currentSize.toNat) bcb.bufferSize.toNat
    with within | wraps
  · exact Or.inl ⟨within, Nat.mod_eq_of_lt within⟩
  · refine Or.inr ⟨wraps, ?_⟩
    rw [Nat.mod_eq_sub_mod wraps, Nat.mod_eq_of_lt (by omega)]
    omega

theorem WellFormed.length_live (wf : bcb.WellFormed)
    : bcb.live.length = bcb.currentSize.toNat :=
  length_window _ (by rw [wf.storage]; exact wf.current_le)

theorem WellFormed.leading_pos (wf : bcb.WellFormed) : 0 < bcb.leading :=
  Nat.sub_pos_of_lt wf.rear_lt

theorem WellFormed.front_appended (wf : bcb.WellFormed) (data : List UInt8)
    : (bcb.appended data).front.toNat
      = (bcb.front.toNat + data.length) % bcb.bufferSize.toNat := by
  have size := bcb.bufferSize.toNat_lt
  have below := Nat.mod_lt (bcb.front.toNat + data.length) wf.capacity_pos
  simp only [ByteCircularBuffer.appended, UInt16.toNat_ofNat']
  exact Nat.mod_eq_of_lt (by omega)

theorem currentSize_appended {data : List UInt8}
    (fits : bcb.currentSize.toNat + data.length ≤ bcb.bufferSize.toNat)
    : (bcb.appended data).currentSize.toNat = bcb.currentSize.toNat + data.length := by
  have size := bcb.bufferSize.toNat_lt
  simp only [ByteCircularBuffer.appended, UInt16.toNat_ofNat']
  exact Nat.mod_eq_of_lt (by omega)

theorem WellFormed.rear_removed (wf : bcb.WellFormed) (count : Nat)
    : (bcb.removed count).rear.toNat
      = (bcb.rear.toNat + count) % bcb.bufferSize.toNat := by
  have size := bcb.bufferSize.toNat_lt
  have below := Nat.mod_lt (bcb.rear.toNat + count) wf.capacity_pos
  simp only [ByteCircularBuffer.removed, UInt16.toNat_ofNat']
  exact Nat.mod_eq_of_lt (by omega)

theorem currentSize_removed (count : Nat)
    : (bcb.removed count).currentSize.toNat = bcb.currentSize.toNat - count := by
  have size := bcb.currentSize.toNat_lt
  simp only [ByteCircularBuffer.removed, UInt16.toNat_ofNat']
  exact Nat.mod_eq_of_lt (by omega)

/-- Appending what fits keeps the invariant, by moving `front` along. -/
theorem WellFormed.append (wf : bcb.WellFormed) {data : List UInt8}
    (fits : bcb.currentSize.toNat + data.length ≤ bcb.bufferSize.toNat)
    : (bcb.appended data).WellFormed where
  storage := by
    have below := wf.front_lt
    rw [ByteCircularBuffer.appended, length_store] <;> rw [wf.storage] <;> omega
  rear_lt := wf.rear_lt
  current_le := by
    rw [currentSize_appended fits]
    exact fits
  front_eq := by
    rw [wf.front_appended, currentSize_appended fits, wf.front_eq, Nat.mod_add_mod,
      Nat.add_assoc]
    rfl

/-- Removing live bytes keeps the invariant, since `front` stays where it is. -/
theorem WellFormed.remove (wf : bcb.WellFormed) {count : Nat}
    (le : count ≤ bcb.currentSize.toNat)
    : (bcb.removed count).WellFormed where
  storage := wf.storage
  rear_lt := by
    rw [wf.rear_removed]
    exact Nat.mod_lt _ wf.capacity_pos
  current_le := by
    rw [currentSize_removed]
    exact (Nat.sub_le _ _).trans wf.current_le
  front_eq := by
    have moved : bcb.rear.toNat + bcb.currentSize.toNat
        = bcb.rear.toNat + count + (bcb.currentSize.toNat - count) := by omega
    rw [wf.rear_removed, currentSize_removed]
    change bcb.front.toNat = _ % bcb.bufferSize.toNat
    rw [Nat.mod_add_mod, ← moved]
    exact wf.front_eq

/-- The live bytes grow at the end by the appended data. -/
theorem WellFormed.live_appended (wf : bcb.WellFormed) {data : List UInt8}
    (fits : bcb.currentSize.toNat + data.length ≤ bcb.bufferSize.toNat)
    : (bcb.appended data).live = bcb.live ++ data := by
  have inside : bcb.rear.toNat < bcb.buffer.length := by
    rw [wf.storage]
    exact wf.rear_lt
  rw [live, currentSize_appended fits]
  change window (store bcb.buffer bcb.front.toNat data) bcb.rear.toNat _ = _
  rw [wf.front_eq, ← wf.storage]
  exact window_store inside (by rw [wf.storage]; exact fits)

/-- The live bytes lose the removed prefix. -/
theorem WellFormed.live_removed (wf : bcb.WellFormed) {count : Nat}
    (le : count ≤ bcb.currentSize.toNat)
    : (bcb.removed count).live = bcb.live.drop count := by
  rw [live, live, drop_window _ le (by rw [wf.storage]; exact wf.current_le),
    wf.rear_removed, currentSize_removed, wf.storage]
  rfl

/-- A new ring of any capacity is well formed. -/
theorem wellFormed_bcbCreateNew {size : UInt16} (positive : 0 < size)
    : (bcbCreateNew size).WellFormed where
  storage := by simp [bcbCreateNew]
  rear_lt := UInt16.lt_iff_toNat_lt.mp positive
  current_le := Nat.zero_le _
  front_eq := by simp [bcbCreateNew]

@[simp]
theorem live_bcbCreateNew (size : UInt16) : (bcbCreateNew size).live = [] := by
  simp [live, bcbCreateNew]

/-- Resetting keeps the storage and empties the ring. -/
theorem WellFormed.reset (wf : bcb.WellFormed) : (bcbReset bcb).WellFormed where
  storage := wf.storage
  rear_lt := wf.capacity_pos
  current_le := Nat.zero_le _
  front_eq := by simp [bcbReset]

@[simp]
theorem live_bcbReset (bcb : ByteCircularBuffer) : (bcbReset bcb).live = [] := by
  simp [live, bcbReset]

end Invariant

-----------------------------------------------------------------------------------------
-- What a read leaves in the caller's buffer
-----------------------------------------------------------------------------------------

/-- The caller's buffer after `bytes` were copied into it, `leading` of them lying before
the physical end of the ring. Both pieces go to the start of the buffer.
-/
def copiedOut (leading : Nat) (bytes buffer : List UInt8) : List UInt8 :=
  if bytes.length ≤ leading then
    overlay buffer 0 bytes
  else
    overlay (overlay buffer 0 (bytes.take leading)) 0 (bytes.drop leading)

/-- Every piece of a copy of `count` bytes fits in a buffer of `room` bytes. -/
def CopyFits (leading count room : Nat) : Prop :=
  if count ≤ leading then count ≤ room else leading ≤ room ∧ count - leading ≤ room

instance (leading count room : Nat) : Decidable (CopyFits leading count room) := by
  unfold CopyFits
  infer_instance

/-- A copy of no more bytes than the buffer holds fits in any case. -/
theorem copyFits_of_le {leading count room : Nat} (le : count ≤ room)
    : CopyFits leading count room := by
  unfold CopyFits
  split <;> omega

/-- A copy that ends before the physical end is exact. -/
theorem copiedOut_of_le {leading : Nat} {bytes buffer : List UInt8}
    (le : bytes.length ≤ leading)
    : copiedOut leading bytes buffer = bytes ++ buffer.drop bytes.length := by
  rw [copiedOut, if_pos le, overlay_zero]

/-- No copy changes the length of the caller's buffer. -/
theorem length_copiedOut {leading : Nat} {bytes buffer : List UInt8}
    (fits : CopyFits leading bytes.length buffer.length)
    : (copiedOut leading bytes buffer).length = buffer.length := by
  unfold copiedOut
  unfold CopyFits at fits
  split at fits
  · rw [if_pos (by assumption), length_overlay (by omega)]
  · have first : (overlay buffer 0 (bytes.take leading)).length = buffer.length :=
      length_overlay (by rw [List.length_take]; omega)
    rw [if_neg (by assumption), length_overlay (by rw [first, List.length_drop]; omega), first]

/-- A copy that passes the physical end leaves the last of its bytes unwritten: that cell
keeps what the caller's buffer held before.
-/
theorem copiedOut_last_of_lt {leading : Nat} {bytes : List UInt8} (buffer : List UInt8)
    (straddles : leading < bytes.length) (positive : 0 < leading)
    : (copiedOut leading bytes buffer)[bytes.length - 1]? = buffer[bytes.length - 1]? := by
  rw [copiedOut, if_neg (by omega), getElem?_overlay _ _ (Nat.zero_le _),
    if_neg (Nat.not_lt_zero _), if_neg (by rw [List.length_drop]; omega),
    getElem?_overlay _ _ (Nat.zero_le _), if_neg (Nat.not_lt_zero _),
    if_neg (by rw [List.length_take]; omega)]

end ByteCircularBuffer

end Ethnm
