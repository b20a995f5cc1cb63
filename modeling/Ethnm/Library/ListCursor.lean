/-! A doubly linked list with one iterator into it: what lies before the iterator, and what
lies from it on. Erasing the element under the iterator leaves the iterator dangling.
-/

namespace ListCursor

variable {α : Type}

structure Cursor (α : Type) where
  before : List α
  after : List α
  deriving DecidableEq, Repr

namespace Cursor

/-- `list.begin()`. -/
def start (list : List α) : Cursor α :=
  { before := [], after := list }

def toList (cursor : Cursor α) : List α :=
  cursor.before ++ cursor.after

/-- `++it`; the end stays where it is. -/
def next (cursor : Cursor α) : Cursor α :=
  match cursor.after with
  | [] => cursor
  | element :: rest => { before := cursor.before ++ [element], after := rest }

/-- `list.remove(value)`: all equal elements go. The result is empty when the iterator is
left dangling.
-/
def remove [DecidableEq α] (cursor : Cursor α) (value : α) : Option (Cursor α) :=
  if cursor.after.head? = some value then
    none
  else
    some {
      before := cursor.before.filter (· ≠ value)
      after := cursor.after.filter (· ≠ value)
    }

/-- Advancing and then removing leaves fewer elements behind the iterator. -/
theorem length_after_next_remove [DecidableEq α] {cursor rest : Cursor α} {element value : α}
    {others : List α} (nonempty : cursor.after = element :: others)
    (removed : cursor.next.remove value = some rest)
    : rest.after.length < cursor.after.length := by
  rw [remove] at removed
  split at removed
  · cases removed
  · cases removed
    rw [nonempty, next, nonempty, List.length_cons]
    exact Nat.lt_succ_of_le (List.length_filter_le _ _)

/-- Removing what does not lie from the iterator on keeps that part. -/
theorem remove_of_notMem [DecidableEq α] {cursor : Cursor α} {value : α}
    (absent : value ∉ cursor.after)
    : cursor.remove value
      = some { before := cursor.before.filter (· ≠ value), after := cursor.after } := by
  have kept : cursor.after.filter (· ≠ value) = cursor.after := by
    refine List.filter_eq_self.mpr (fun element member => decide_eq_true ?_)
    rintro rfl
    exact absent member
  rw [remove, if_neg (fun head => absent (List.mem_of_head? head)), kept]

/-- Advancing does not change the list. -/
theorem toList_next (cursor : Cursor α) : cursor.next.toList = cursor.toList := by
  obtain ⟨before, after⟩ := cursor
  cases after with
  | nil => rfl
  | cons element rest => exact List.append_assoc before [element] rest

/-- Removing leaves nothing new. -/
theorem subset_of_remove [DecidableEq α] {cursor rest : Cursor α} {value : α}
    (removed : cursor.remove value = some rest)
    : rest.toList ⊆ cursor.toList := by
  rw [remove] at removed
  split at removed
  · cases removed
  · cases removed
    intro element member
    rcases List.mem_append.mp member with before | after
    · exact List.mem_append_left _ (List.mem_filter.mp before).1
    · exact List.mem_append_right _ (List.mem_filter.mp after).1

end Cursor

section Loop

variable {list rest : List α} {index : Nat} {element : α}

/-- A loop that still has these elements to visit is at the first of them. -/
theorem getElem?_of_drop_eq_cons (position : list.drop index = element :: rest)
    : list[index]? = some element := by
  rw [← List.head?_drop, position, List.head?_cons]

theorem drop_succ_of_drop_eq_cons (position : list.drop index = element :: rest)
    : list.drop (index + 1) = rest := by
  rw [← List.drop_drop, position, List.drop_one, List.tail_cons]

end Loop

end ListCursor
