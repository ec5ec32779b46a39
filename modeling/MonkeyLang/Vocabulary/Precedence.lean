/-!
# Binding strength

A ladder of seven steps orders phrases by how tightly they hold their operands. An operator may
extend a phrase only where it stands on a higher step than the phrase's caller does, so the
order of the ladder is all that the expression grammar takes from it. Steps compare by rank.
-/

namespace MonkeyLang

/-- A step of the ladder, from the loosest to the tightest. -/
inductive Precedence
  | lowest
  | equals
  | lessGreater
  | sum
  | product
  | unary
  | call
  deriving DecidableEq

namespace Precedence

/-- Every step, from the loosest to the tightest. -/
def all : List Precedence := [lowest, equals, lessGreater, sum, product, unary, call]

/-- The number of steps below a step. -/
def rank : Precedence → Nat
  | lowest => 0
  | equals => 1
  | lessGreater => 2
  | sum => 3
  | product => 4
  | unary => 5
  | call => 6

instance : LT Precedence := ⟨fun p q ↦ p.rank < q.rank⟩

instance : LE Precedence := ⟨fun p q ↦ p.rank ≤ q.rank⟩

instance (p q : Precedence) : Decidable (p < q) :=
  inferInstanceAs (Decidable (p.rank < q.rank))

instance (p q : Precedence) : Decidable (p ≤ q) :=
  inferInstanceAs (Decidable (p.rank ≤ q.rank))

instance : Ord Precedence := ⟨fun p q ↦ compare p.rank q.rank⟩

theorem lt_iff {p q : Precedence} : p < q ↔ p.rank < q.rank := Iff.rfl

theorem le_iff {p q : Precedence} : p ≤ q ↔ p.rank ≤ q.rank := Iff.rfl

/-- The next step down; the lowest step stays where it is. -/
def lower : Precedence → Precedence
  | lowest => lowest
  | equals => lowest
  | lessGreater => equals
  | sum => lessGreater
  | product => sum
  | unary => product
  | call => unary

theorem rank_lower (p : Precedence) : p.lower.rank = p.rank - 1 := by
  cases p <;> rfl

end Precedence

end MonkeyLang
