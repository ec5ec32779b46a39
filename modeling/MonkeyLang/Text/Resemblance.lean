/-!
# Words that resemble a name

A misspelled name is found by the letters that it shares with the name. From the left, each letter
of the word is paired with the first equal letter of the name that is still free and not too far
off. Three shares then count alike: of the word's letters the paired ones, of the name's letters
the paired ones, and of the pairs those in order. The mean of the shares is the resemblance. It
lies between zero and one, and is compared with a bound by whole numbers, so nothing is rounded.
-/

namespace MonkeyLang.Text

/-- How far apart the letters of a pair may stand: half the longer length, less one. -/
def pairReach (word name : List Char) : Nat :=
  max word.length name.length / 2 - 1

/-- The first free place of the name that is within reach of a place of the word and holds its
letter. -/
def partner? (name : List Char) (reach : Nat) (taken : List Nat) (c : Char) (place : Nat) :
    Option Nat :=
  (List.range name.length).find? fun i ↦
    decide (place ≤ i + reach ∧ i ≤ place + reach ∧ name[i]? = some c) && !taken.contains i

/-- The places of the name that are paired, in the order of the word. -/
def partners (word name : List Char) : List Nat :=
  word.zipIdx.foldl
    (fun taken p ↦ taken ++ (partner? name (pairReach word name) taken p.1 p.2).toList) []

/-- How many paired letters stand elsewhere in the word's order than in the name's order. -/
def misplaced (name : List Char) (places : List Nat) : Nat :=
  let inWord := places.filterMap (name[·]?)
  let inName := ((List.range name.length).filter (places.contains ·)).filterMap (name[·]?)
  (inWord.zip inName).countP fun p ↦ decide (p.1 ≠ p.2)

/-- Whether the resemblance of a word to a name is at least `num / den`. Of misplaced letters, two
make one pair that is out of order. -/
def resembles (num den : Nat) (word name : List Char) : Bool :=
  let places := partners word name
  let pairs := places.length
  let ordered := pairs - misplaced name places / 2
  let shares := pairs * pairs * (name.length + word.length) + ordered * word.length * name.length
  decide (0 < pairs ∧ 3 * num * (pairs * word.length * name.length) ≤ den * shares)

/-- Two letters that changed places leave a word close to its name. -/
example : resembles 7 10 ['r', 'e', 'l', 'p'] ['r', 'e', 'p', 'l'] = true := by decide

/-- Letters that stand too far from their place in the name do not count. -/
example : resembles 7 10 ['p', 'l'] ['r', 'e', 'p', 'l'] = false := by decide

end MonkeyLang.Text
