/-! Byte objects in memory, and the ways an execution can leave defined behaviour. -/

namespace Ethnm

/-- What ends a call other than its return: a failed `assert` or an undefined operation. -/
inductive Fault
  | assertionFailed
  | outOfRange
  | divisionByZero
  | useAfterFree
  | danglingIterator
  | nullPointer
  | noThread
  deriving DecidableEq, Repr

/-- `memcpy(&dest[destOffset], &src[srcOffset], count)`; both ranges have to lie inside
their objects.
-/
def memcpy (dest : List UInt8) (destOffset : Nat) (src : List UInt8) (srcOffset count : Nat)
    : Except Fault (List UInt8) :=
  if srcOffset + count ≤ src.length ∧ destOffset + count ≤ dest.length then
    .ok (dest.take destOffset ++ (src.drop srcOffset).take count
      ++ dest.drop (destOffset + count))
  else
    .error .outOfRange

end Ethnm
