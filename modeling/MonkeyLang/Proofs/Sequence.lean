/-!
# One program behind another

A program over a state gives a value or fails, and leaves a state either way. The writer of a
conversation is such a state, and so is the window that a reader moves. What a sequence of programs
does is told by its first one: with a value the next one goes on from the state that is left, and
with a failure it was the last one.
-/

namespace MonkeyLang

variable {ε σ α β : Type}

/-- Behind a program that gives a value, the next one goes on from the state that is left. -/
theorem bind_of_ok {x : EStateM ε σ α} {a : α} {s s' : σ} (h : x s = .ok a s')
    (next : α → EStateM ε σ β) : (x >>= next) s = next a s' := by
  show EStateM.bind x next s = _
  rw [EStateM.bind, h]

/-- A program that fails is the last one. -/
theorem bind_of_error {x : EStateM ε σ α} {e : ε} {s s' : σ} (h : x s = .error e s')
    (next : α → EStateM ε σ β) : (x >>= next) s = .error e s' := by
  show EStateM.bind x next s = _
  rw [EStateM.bind, h]

/-- A program that looks at the state leaves it. -/
theorem get_bind (next : σ → EStateM ε σ β) (s : σ) :
    ((get : EStateM ε σ σ) >>= next) s = next s s :=
  rfl

end MonkeyLang
