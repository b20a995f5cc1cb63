/-! Decimal numbers as text, and lists of them with dots between. Both are canonical: a text
stands for at most one value, and what is written is what is read.
-/

namespace DottedText

-----------------------------------------------------------------------------------------
-- Texts with separators
-----------------------------------------------------------------------------------------

section Separators

variable {α : Type} [DecidableEq α] {separator : α} {first second rest other : List α}

/-- The part before the first separator. -/
theorem takeWhile_append_cons (absent : separator ∉ first)
    : (first ++ separator :: rest).takeWhile (· ≠ separator) = first := by
  rw [List.takeWhile_append_of_pos, List.takeWhile_cons_of_neg, List.append_nil]
  · simp
  · intro element member
    refine decide_eq_true ?_
    rintro rfl
    exact absent member

/-- The part before the first separator, and the part behind it, are determined. -/
theorem append_cons_inj (left : separator ∉ first) (right : separator ∉ second)
    (same : first ++ separator :: rest = second ++ separator :: other)
    : first = second ∧ rest = other := by
  have equal : first = second := by
    rw [← takeWhile_append_cons left, same, takeWhile_append_cons right]
  refine ⟨equal, ?_⟩
  rw [equal] at same
  exact (List.cons.inj (List.append_cancel_left same)).2

end Separators

-----------------------------------------------------------------------------------------
-- Decimal numbers
-----------------------------------------------------------------------------------------

/-- The decimal digits of a number, without leading zeros. -/
def decimal (number : Nat) : List Char :=
  Nat.toDigits 10 number

/-- The number with exactly these digits. -/
def parseDecimal (text : List Char) : Option Nat :=
  let number := Nat.ofDigitChars 10 text 0
  if decimal number = text then some number else none

theorem parseDecimal_decimal (number : Nat) : parseDecimal (decimal number) = some number := by
  have value : Nat.ofDigitChars 10 (decimal number) 0 = number := Nat.ofDigitChars_ten_toDigits
  rw [parseDecimal, value, if_pos rfl]

theorem decimal_inj {left right : Nat} (same : decimal left = decimal right) : left = right := by
  have parsed := congrArg parseDecimal same
  rw [parseDecimal_decimal, parseDecimal_decimal] at parsed
  exact Option.some.inj parsed

/-- A decimal number has no other characters than digits. -/
theorem notMem_decimal {character : Char} (other : character.isDigit = false) (number : Nat)
    : character ∉ decimal number := by
  intro member
  have digit := Nat.isDigit_of_mem_toDigits (by decide) (by decide) member
  rw [other] at digit
  cases digit

-----------------------------------------------------------------------------------------
-- Numbers with dots between
-----------------------------------------------------------------------------------------

def dotted (numbers : List Nat) : List Char :=
  ['.'].intercalate (numbers.map decimal)

/-- The numbers with exactly this text. -/
def parseDotted (text : List Char) : Option (List Nat) :=
  (text.splitOn '.').mapM parseDecimal

theorem mapM_parseDecimal (numbers : List Nat)
    : (numbers.map decimal).mapM parseDecimal = some numbers := by
  induction numbers with
  | nil => rfl
  | cons number rest ih =>
      rw [List.map_cons, List.mapM_cons, parseDecimal_decimal, ih]
      rfl

theorem parseDotted_dotted {numbers : List Nat} (nonempty : numbers ≠ [])
    : parseDotted (dotted numbers) = some numbers := by
  have fields : (dotted numbers).splitOn '.' = numbers.map decimal := by
    refine List.splitOn_intercalate '.' ?_ (mt List.map_eq_nil_iff.mp nonempty)
    intro field member
    obtain ⟨number, -, rfl⟩ := List.mem_map.mp member
    exact notMem_decimal (by decide) number
  rw [parseDotted, fields, mapM_parseDecimal]

theorem dotted_singleton (number : Nat) : dotted [number] = decimal number :=
  List.intercalate_singleton

theorem dotted_cons_cons (number next : Nat) (rest : List Nat)
    : dotted (number :: next :: rest) = decimal number ++ '.' :: dotted (next :: rest) := by
  rw [dotted, List.map_cons, List.map_cons, List.intercalate_cons_cons, dotted, List.map_cons,
    List.append_assoc, List.singleton_append]

/-- A dotted text has no other characters than digits and dots, by induction on the numbers. -/
theorem notMem_dotted {character : Char} (other : character.isDigit = false)
    (noDot : character ≠ '.') (numbers : List Nat)
    : character ∉ dotted numbers := by
  induction numbers with
  | nil => exact List.not_mem_nil
  | cons number rest ih =>
      cases rest with
      | nil =>
          rw [dotted_singleton]
          exact notMem_decimal other number
      | cons next rest =>
          rw [dotted_cons_cons, List.mem_append, List.mem_cons]
          rintro (member | same | member)
          · exact notMem_decimal other number member
          · exact noDot same
          · exact ih member

/-- Numbers of at most `width` digits, each with one more character, bound the text; by
induction on the numbers.
-/
theorem length_dotted_lt {width : Nat} {numbers : List Nat} (nonempty : numbers ≠ [])
    (short : ∀ number ∈ numbers, (decimal number).length ≤ width)
    : (dotted numbers).length < (width + 1) * numbers.length := by
  induction numbers with
  | nil => exact absurd rfl nonempty
  | cons number rest ih =>
      obtain ⟨head, tail⟩ := List.forall_mem_cons.mp short
      cases rest with
      | nil =>
          rw [dotted_singleton, List.length_singleton]
          omega
      | cons next rest =>
          have others := ih (List.cons_ne_nil next rest) tail
          rw [dotted_cons_cons, List.length_append, List.length_cons,
            List.length_cons (a := number), Nat.mul_succ]
          omega

end DottedText
