/-!
# Decimal numbers in text

The number that a run of decimal digits denotes, and the largest integer that a program may
write, which is the largest that a signed word of 64 bits holds.
-/

namespace MonkeyLang

/-- The number that a run of digits denotes. -/
def decimalValue (digits : List Char) : Nat :=
  digits.foldl (fun n d ↦ 10 * n + (d.toNat - '0'.toNat)) 0

@[simp] theorem decimalValue_nil : decimalValue [] = 0 := rfl

/-- A further digit makes ten of every one before it. -/
theorem decimalValue_concat (digits : List Char) (d : Char) :
    decimalValue (digits ++ [d]) = 10 * decimalValue digits + (d.toNat - '0'.toNat) := by
  simp [decimalValue]

/-- The largest integer that a program may write. -/
def maxInteger : Nat := Nat.pow 2 63 - 1

/-- The largest number that a word of the machine holds. -/
def maxWord : Nat := Nat.pow 2 64 - 1

end MonkeyLang
