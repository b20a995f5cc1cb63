import Mathlib.Data.List.Rotate
import Mathlib.Data.Nat.ModEq

/-! Windows of a circular list: reading a run of cells that may pass the end of the list,
and writing a block the same way. A window is a prefix of a rotation, so every offset is
covered by one definition.
-/

namespace CircularWindow

variable {α : Type*}

-----------------------------------------------------------------------------------------
-- Overwriting a contiguous block
-----------------------------------------------------------------------------------------

/-- `overlay cells start block` replaces the cells from `start` on by `block`. -/
def overlay (cells : List α) (start : Nat) (block : List α) : List α :=
  cells.take start ++ block ++ cells.drop (start + block.length)

/-- A block that ends inside the list keeps its length, by counting the three pieces. -/
theorem length_overlay {cells block : List α} {start : Nat}
    (fits : start + block.length ≤ cells.length)
    : (overlay cells start block).length = cells.length := by
  simp only [overlay, List.length_append, List.length_take, List.length_drop]
  omega

/-- Each cell of an overlay is the block's cell or the old one, by locating its piece. -/
theorem getElem?_overlay {cells : List α} {start : Nat} (block : List α) (index : Nat)
    (inside : start ≤ cells.length)
    : (overlay cells start block)[index]?
      = if index < start then cells[index]?
        else if index < start + block.length then block[index - start]?
        else cells[index]? := by
  have width : (cells.take start).length = start := by simp [inside]
  rw [overlay, List.append_assoc, List.getElem?_append, width]
  split
  · rename_i early
    exact List.getElem?_take_of_lt early
  · rename_i late
    rw [List.getElem?_append]
    split
    · rename_i within
      rw [if_pos (by omega)]
    · rename_i beyond
      rw [if_neg (by omega), List.getElem?_drop]
      congr 1
      omega

/-- Overlaying nothing changes nothing, by rejoining the two halves. -/
@[simp]
theorem overlay_nil (cells : List α) (start : Nat) : overlay cells start [] = cells := by
  simp [overlay]

/-- An overlay from the first cell is the block followed by what it does not reach. -/
theorem overlay_zero (cells block : List α)
    : overlay cells 0 block = block ++ cells.drop block.length := by
  simp [overlay]

-----------------------------------------------------------------------------------------
-- Reading a window
-----------------------------------------------------------------------------------------

/-- The `count` cells from `start` on, going round at the end of the list. -/
def window (cells : List α) (start count : Nat) : List α :=
  (cells.rotate start).take count

/-- A window no longer than the list has exactly the requested length. -/
theorem length_window {cells : List α} {count : Nat} (start : Nat)
    (fits : count ≤ cells.length)
    : (window cells start count).length = count := by
  simp [window, fits]

/-- An empty window holds nothing. -/
@[simp]
theorem window_zero (cells : List α) (start : Nat) : window cells start 0 = [] := by
  simp [window]

/-- The windows of a list only depend on the offset modulo its length. -/
theorem window_mod (cells : List α) (start count : Nat)
    : window cells (start % cells.length) count = window cells start count := by
  simp [window, List.rotate_mod]

/-- A window that ends inside the list is an ordinary segment, by cutting the rotation. -/
theorem window_of_le {cells : List α} {start count : Nat}
    (inside : start + count ≤ cells.length)
    : window cells start count = (cells.drop start).take count := by
  rw [window, List.rotate_eq_drop_append_take (by omega), List.take_append_of_le_length]
  simp only [List.length_drop]
  omega

/-- A window that passes the end of the list is its tail followed by a prefix. -/
theorem window_of_wrap {cells : List α} {start count : Nat} (inside : start ≤ cells.length)
    (wraps : cells.length ≤ start + count) (fits : count ≤ cells.length)
    : window cells start count
      = cells.drop start ++ cells.take (start + count - cells.length) := by
  rw [window, List.rotate_eq_drop_append_take inside, List.take_append,
    List.take_of_length_le (by simp only [List.length_drop]; omega), List.take_take]
  congr 2
  simp only [List.length_drop]
  omega

/-- The cell at `index` of a window lies `index` cells after `start`, modulo the length. -/
theorem getElem?_window_mod {cells : List α} {count index : Nat} (start : Nat)
    (within : index < count) (fits : count ≤ cells.length)
    : (window cells start count)[index]? = cells[(start + index) % cells.length]? := by
  rw [window, List.getElem?_take_of_lt within, List.getElem?_rotate (by omega), Nat.add_comm]

/-- A prefix of a window is the shorter window at the same place. -/
theorem take_window (cells : List α) (start : Nat) {shorter count : Nat}
    (le : shorter ≤ count)
    : (window cells start count).take shorter = window cells start shorter := by
  rw [window, window, List.take_take, Nat.min_eq_left le]

/-- Dropping from a window moves its start forward, by rotating the list further. -/
theorem drop_window {cells : List α} {count skipped : Nat} (start : Nat)
    (le : skipped ≤ count) (fits : count ≤ cells.length)
    : (window cells start count).drop skipped
      = window cells ((start + skipped) % cells.length) (count - skipped) := by
  rw [window_mod, window, window, ← List.rotate_rotate, List.drop_take]
  have shorter : skipped ≤ (cells.rotate start).length := by
    rw [List.length_rotate]
    omega
  rw [List.rotate_eq_drop_append_take shorter, List.take_append_of_le_length]
  rw [List.length_drop, List.length_rotate]
  omega

-----------------------------------------------------------------------------------------
-- Writing cell by cell
-----------------------------------------------------------------------------------------

/-- Write the elements of a block one after the other, from a position that is not limited to
the cells.
-/
def imprint (cells : List α) (position : Nat) : List α → List α
  | [] => cells
  | head :: rest => imprint (cells.set (position % cells.length) head) (position + 1) rest

@[simp]
theorem length_imprint (cells : List α) (position : Nat) (block : List α)
    : (imprint cells position block).length = cells.length := by
  induction block generalizing cells position with
  | nil => rfl
  | cons head rest ih => rw [imprint, ih, List.length_set]

/-- A block can be written in two parts, by induction on the first. -/
theorem imprint_append (cells : List α) (position : Nat) (first second : List α)
    : imprint cells position (first ++ second)
      = imprint (imprint cells position first) (position + first.length) second := by
  induction first generalizing cells position with
  | nil => rfl
  | cons head rest ih =>
      rw [List.cons_append, imprint, ih, imprint, List.length_cons, Nat.add_assoc, Nat.add_comm 1]

/-- Only the place in the list matters, by induction on the block. -/
theorem imprint_congr {cells : List α} {position other : Nat} (block : List α)
    (same : position % cells.length = other % cells.length)
    : imprint cells position block = imprint cells other block := by
  induction block generalizing cells position other with
  | nil => rfl
  | cons head rest ih =>
      rw [imprint, imprint, same]
      apply ih
      rw [List.length_set, Nat.add_mod, same, ← Nat.add_mod]

/-- A cell written right behind a window extends that window: none of the window's cells has
the same place, since all of them and the new one are different modulo the length.
-/
theorem window_set_succ {cells : List α} (start : Nat) {count : Nat} (head : α)
    (free : count < cells.length)
    : window (cells.set ((start + count) % cells.length) head) start (count + 1)
      = window cells start count ++ [head] := by
  have width : (cells.set ((start + count) % cells.length) head).length = cells.length :=
    List.length_set
  have old : (window cells start count).length = count := length_window start free.le
  apply List.ext_getElem?
  intro index
  rcases Nat.lt_trichotomy index count with before | rfl | behind
  · have other : (start + count) % cells.length ≠ (start + index) % cells.length := by
      intro same
      have equal := (Nat.ModEq.add_left_cancel' start same).eq_of_lt_of_lt free
        (before.trans free)
      exact before.ne' equal
    rw [getElem?_window_mod start (by omega) (by omega), width, List.getElem?_set_ne other,
      List.getElem?_append_left (by omega), getElem?_window_mod start before free.le]
  · have inside : (start + index) % cells.length < cells.length := Nat.mod_lt _ (by omega)
    rw [getElem?_window_mod start (by omega) (by omega), width, List.getElem?_set_self inside,
      List.getElem?_append_right old.le, old, Nat.sub_self]
    rfl
  · rw [List.getElem?_eq_none (by rw [length_window start (by omega)]; omega),
      List.getElem?_eq_none (by rw [List.length_append, old, List.length_singleton]; omega)]

/-- Writing right behind a window extends that window by the block, by induction on the block. -/
theorem window_imprint {cells block : List α} (start : Nat) {count : Nat}
    (fits : count + block.length ≤ cells.length)
    : window (imprint cells (start + count) block) start (count + block.length)
      = window cells start count ++ block := by
  induction block generalizing cells count with
  | nil => rw [imprint, List.append_nil, List.length_nil, Nat.add_zero]
  | cons head rest ih =>
      rw [List.length_cons] at fits
      rw [imprint, List.length_cons, Nat.add_comm rest.length, ← Nat.add_assoc,
        Nat.add_assoc start, ih (by rw [List.length_set]; omega),
        window_set_succ start head (by omega), List.append_assoc, List.singleton_append]

/-- The first element of a block can be written before the others. -/
theorem overlay_cons {cells : List α} {start : Nat} (head : α) (rest : List α)
    (inside : start < cells.length)
    : overlay cells start (head :: rest) = overlay (cells.set start head) (start + 1) rest := by
  have width : (cells.take start).length = start := by simp [inside.le]
  have first : (cells.set start head).take (start + 1) = cells.take start ++ [head] := by
    rw [List.set_eq_take_append_cons_drop, if_pos inside, List.take_append, width,
      List.take_take, Nat.min_eq_right (Nat.le_succ start), Nat.add_sub_cancel_left]
    rfl
  have others : start + 1 + rest.length = start + (head :: rest).length := by
    rw [List.length_cons]
    omega
  rw [overlay, overlay, first, List.drop_set_of_lt (by omega), others]
  simp only [List.append_assoc, List.cons_append, List.nil_append]

/-- A block that ends inside the list can be written cell by cell, by induction on the block. -/
theorem overlay_eq_imprint {cells block : List α} {start : Nat}
    (fits : start + block.length ≤ cells.length)
    : overlay cells start block = imprint cells start block := by
  induction block generalizing cells start with
  | nil => exact overlay_nil cells start
  | cons head rest ih =>
      rw [List.length_cons] at fits
      rw [overlay_cons head rest (by omega), ih (by rw [List.length_set]; omega), imprint,
        Nat.mod_eq_of_lt (by omega)]

-----------------------------------------------------------------------------------------
-- Writing a block
-----------------------------------------------------------------------------------------

/-- Write `block` from `start` on, in two pieces when it passes the end of the list. -/
def store (cells : List α) (start : Nat) (block : List α) : List α :=
  if start + block.length ≤ cells.length then
    overlay cells start block
  else
    overlay (overlay cells start (block.take (cells.length - start))) 0
      (block.drop (cells.length - start))

/-- A block stored in one or two pieces can be written cell by cell. -/
theorem store_eq_imprint {cells block : List α} {start : Nat} (inside : start ≤ cells.length)
    (fits : block.length ≤ cells.length)
    : store cells start block = imprint cells start block := by
  rw [store]
  split
  · rename_i whole
    exact overlay_eq_imprint whole
  · rename_i wraps
    have first : (block.take (cells.length - start)).length = cells.length - start := by
      rw [List.length_take]
      omega
    have second : (block.drop (cells.length - start)).length ≤ cells.length := by
      rw [List.length_drop]
      omega
    have whole := imprint_append cells start (block.take (cells.length - start))
      (block.drop (cells.length - start))
    rw [List.take_append_drop, first, Nat.add_sub_cancel' inside] at whole
    have tail : overlay cells start (block.take (cells.length - start))
        = imprint cells start (block.take (cells.length - start)) :=
      overlay_eq_imprint (by omega)
    rw [whole, tail, overlay_eq_imprint (by rw [length_imprint, Nat.zero_add]; exact second)]
    apply imprint_congr
    rw [length_imprint, Nat.mod_self, Nat.zero_mod]

/-- Storing keeps the number of cells. -/
theorem length_store {cells block : List α} {start : Nat} (inside : start ≤ cells.length)
    (fits : block.length ≤ cells.length)
    : (store cells start block).length = cells.length := by
  rw [store_eq_imprint inside fits, length_imprint]

/-- Storing right after a window extends that window by the block. -/
theorem window_store {cells block : List α} {start count : Nat}
    (inside : start < cells.length) (fits : count + block.length ≤ cells.length)
    : window (store cells ((start + count) % cells.length) block) start
        (count + block.length)
      = window cells start count ++ block := by
  have below : (start + count) % cells.length < cells.length := Nat.mod_lt _ (by omega)
  rw [store_eq_imprint below.le (by omega), ← window_imprint start fits]
  congr 1
  exact imprint_congr block (Nat.mod_mod _ _)

/-- Two blocks stored one behind the other are one block. -/
theorem store_store {cells first second : List α} {start : Nat} (inside : start < cells.length)
    (fits : first.length + second.length ≤ cells.length)
    : store (store cells start first) ((start + first.length) % cells.length) second
      = store cells start (first ++ second) := by
  have below : (start + first.length) % cells.length < cells.length := Nat.mod_lt _ (by omega)
  have width := length_store inside.le (show first.length ≤ cells.length by omega)
  rw [store_eq_imprint (by omega) (by omega), store_eq_imprint inside.le (by omega),
    store_eq_imprint inside.le (by rw [List.length_append]; omega), imprint_append]
  apply imprint_congr
  rw [length_imprint, Nat.mod_mod]

end CircularWindow
