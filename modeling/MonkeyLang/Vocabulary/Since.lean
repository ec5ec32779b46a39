import MonkeyLang.Text.Dump

/-!
# When a vocabulary item appeared

Every word and sign of the language records the language version that first had it and how
settled it is. Versions are pairs, ordered by major number and then by minor number.
-/

namespace MonkeyLang

/-- The language version that first had a vocabulary item. -/
structure Since where
  major : Nat
  minor : Nat
  deriving DecidableEq

namespace Since

/-- A version is written as its two numbers with a point between them. -/
def render (s : Since) : String :=
  toString s.major ++ "." ++ toString s.minor

/-- The two numbers of a version, as a dump shows them. -/
def dump (s : Since) : Dump := .wrapped "Since" [.nat s.major, .nat s.minor]

/-- Versions are compared by major number, and within one major number by minor number. -/
instance : Ord Since where
  compare a b := (compare a.major b.major).then (compare a.minor b.minor)

theorem compare_eq (a b : Since) :
    compare a b = (compare a.major b.major).then (compare a.minor b.minor) := rfl

end Since

/-- How settled a vocabulary item is. -/
inductive Stability
  | stable
  | draft
  | deprecated
  deriving DecidableEq

end MonkeyLang
