/-!
# Lists made step by step

A text becomes tokens, and tokens become statements, by the same scheme: take one item off the
front and go on with a smaller rest. The scheme is stated once, over any state with a size that
each step makes smaller. It runs in constant stack by gathering the items in reverse;
`gather_eq` is the equation that reasoning uses, and it does not mention the gathering.
-/

namespace MonkeyLang

variable {σ α : Type} (size : σ → Nat)

/-- The gathered items, which are kept in reverse, and behind them those that `step` takes off
`s` and its rests. -/
def gatherOnto (step : (s : σ) → Option (α × { t : σ // size t < size s })) (gathered : List α)
    (s : σ) : List α :=
  match step s with
  | none => gathered.reverse
  | some (a, t) => gatherOnto step (a :: gathered) t.1
termination_by size s
decreasing_by exact t.2

/-- The items that `step` takes off `s`, off the rest that it leaves, and so on to the end. -/
def gather (step : (s : σ) → Option (α × { t : σ // size t < size s })) (s : σ) : List α :=
  gatherOnto size step [] s

variable {size} {step : (s : σ) → Option (α × { t : σ // size t < size s })}

/-- What has been gathered stands in front, the right way round. -/
theorem gatherOnto_eq (gathered : List α) (s : σ) :
    gatherOnto size step gathered s = gathered.reverse ++ gather size step s := by
  induction hn : size s using Nat.strongRecOn generalizing gathered s with
  | _ n ih =>
    subst hn
    rw [gather, gatherOnto, gatherOnto]
    cases step s with
    | none => simp
    | some taken =>
      obtain ⟨a, t⟩ := taken
      simp only
      rw [ih (size t.1) t.2 (a :: gathered) t.1 rfl, ih (size t.1) t.2 [a] t.1 rfl]
      simp

/-- One step: the first item, then the items of the rest. -/
theorem gather_eq (s : σ) :
    gather size step s =
      match step s with
      | none => []
      | some (a, t) => a :: gather size step t.1 := by
  rw [gather, gatherOnto]
  cases step s with
  | none => rfl
  | some taken =>
    obtain ⟨a, t⟩ := taken
    simpa using @gatherOnto_eq _ _ size step [a] t.1

end MonkeyLang
