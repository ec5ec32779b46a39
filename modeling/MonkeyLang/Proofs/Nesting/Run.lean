import MonkeyLang.Proofs.Nesting.Machine

/-!
# Reading a program with one counter

A program is read in the states between two statements and in those within the expression of one,
where the machine reads that. The counter is carried through all of them, and nothing sets it in
between: that each statement begins with a counter of zero is not built in.

The machine reads a program to its end, with the statements and the errors that the readers give
(`Machine.reaches_end`).
-/

namespace MonkeyLang

open Relation StateTransition

/-! ### The state while a program is read -/

namespace ParseOutput

/-- One more statement was read. -/
def withStatement (o : ParseOutput) (s : Statement) : ParseOutput :=
  ⟨⟨o.program.statements ++ [s]⟩, o.errors⟩

/-- One more error was met. -/
def withError (o : ParseOutput) (e : ParseError) : ParseOutput :=
  ⟨o.program, o.errors ++ [e]⟩

end ParseOutput

namespace Frame

variable (f : Frame)

/-- What a statement starts with, and the tokens from its expression on. -/
def readOpening (first : Token) (rest : List Token) : Except Failure (Opening × List Token) :=
  match first.kind with
  | .keyword .letWord =>
    match f.expect .identifier first rest with
    | .error e => .error e
    | .ok name =>
      match f.expect (.operator .assign) name.last name.rest with
      | .error e => .error e
      | .ok sign => .ok (.binding first name.value sign.value, sign.rest)
  | .keyword .returnWord => .ok (.result first, rest)
  | _ => .ok (.bare, first :: rest)

variable {first : Token} {rest : List Token}

/-- A statement that is no binding and no return has nothing in front of its expression. -/
theorem readOpening_bare (no_let : first.kind ≠ .keyword .letWord)
    (no_return : first.kind ≠ .keyword .returnWord) :
    f.readOpening first rest = .ok (.bare, first :: rest) := by
  rw [readOpening]
  split
  · exact absurd ‹_› no_let
  · exact absurd ‹_› no_return
  · rfl

/-- A statement is an opening and the expression behind it. -/
theorem readStatement_eq_readOpening (first : Token) (rest : List Token) :
    f.readStatement first rest =
      match f.readOpening first rest with
      | .error e => .error e
      | .ok (o, tokens) => (f.readValue tokens).map (.map o.statement) := by
  rw [readStatement]
  split
  · rename_i hk
    simp only [readOpening, hk, readLet]
    rcases f.expect .identifier first rest with e | name
    · rfl
    · simp only
      rcases f.expect (.operator .assign) name.last name.rest with e | sign <;> rfl
  · rename_i hk
    simp only [readOpening, hk]
    rfl
  · rename_i no_let no_return
    rw [f.readOpening_bare no_let no_return]
    rfl

end Frame

/-- The state while a program is read: between two statements, or within the expression of one. -/
inductive RunState (width : Nat)
  | between (depth : BitVec width) (output : ParseOutput) (tokens : List Token)
  | within (output : ParseOutput) (opening : Opening) (calls : CallState width)

namespace RunState

variable {width : Nat}

/-- The counter. -/
def depth : RunState width → BitVec width
  | between depth _ _ => depth
  | within _ _ calls => calls.depth

/-- The number of calls that have passed the limit and are not over. -/
def openCalls : RunState width → Nat
  | between .. => 0
  | within _ _ calls => calls.openCalls

/-- Whether the counter has failed. -/
def isFault : RunState width → Bool
  | between .. => false
  | within _ _ calls => calls.task.isFault

/-- The state behind a statement that was read or has failed. -/
def afterStatement (depth : BitVec width) (output : ParseOutput) :
    Reading Statement → RunState width
  | .ok p => between depth (output.withStatement p.value) p.rest
  | .error e => between depth (output.withError e.error) (resume e.stand)

/-- The state in which a source text is begun. -/
def start (width : Nat) (source : String) : RunState width :=
  between 0 ⟨⟨[]⟩, []⟩ (Cursor.start source).pending

end RunState

namespace Machine

variable {width : Nat}

/-- A machine for a source text, under a limit on nesting. -/
def ofSource (limit : BitVec width) (source : String) : Machine width :=
  ⟨limit, (Cursor.start source).stop⟩

variable (m : Machine width)

/-- One step of reading a program. The machine stops at the end of the tokens. -/
def advance : RunState width → Option (RunState width)
  | .between _ _ [] => none
  | .between depth output (first :: more) =>
    match m.frame.readOpening first more with
    | .error e => some (.afterStatement depth output (.error e))
    | .ok (o, tokens) => some (.within output o ⟨depth, [], .call .lowest tokens⟩)
  | .within output o ⟨depth, [], .returned outcome⟩ =>
    some (.afterStatement depth output ((outcome.map .withSemicolon).map (.map o.statement)))
  | .within output o calls => (m.step calls).map (.within output o)

/-! ### The machine parses -/

section Simulation

variable {m}

/-- Within an expression the machine goes on with that, until its outermost call is over. -/
theorem advance_within {s : CallState width} (h : ¬ s.HasReturned []) (output : ParseOutput)
    (o : Opening) :
    m.advance (.within output o s) = (m.step s).map (.within output o) := by
  obtain ⟨depth, callers, task⟩ := s
  rcases callers with - | ⟨c, callers⟩
  · cases task with
    | returned outcome => exact absurd ⟨rfl, outcome, rfl⟩ h
    | _ => rfl
  · rfl

/-- A step within an expression is a step of the program. -/
theorem advance_within_of_step {s t : CallState width} (h : m.step s = some t)
    (output : ParseOutput) (o : Opening) :
    m.advance (.within output o s) = some (.within output o t) := by
  have goes_on : ¬ s.HasReturned [] := by
    obtain ⟨depth, callers, task⟩ := s
    rintro ⟨rfl, outcome, rfl⟩
    cases h
  rw [advance_within goes_on, h]
  rfl

/-- What is reached within an expression is reached in the program. -/
theorem reaches_within {s t : CallState width} (h : Reaches m.step s t) (output : ParseOutput)
    (o : Opening) : Reaches m.advance (.within output o s) (.within output o t) :=
  ReflTransGen.lift (RunState.within output o)
    (fun _ _ hstep ↦ advance_within_of_step hstep output o) _ _ h

variable (m)

/-- A statement is read as `readStatement` reads it, from counter zero to counter zero. -/
theorem reaches_afterStatement (output : ParseOutput) (first : Token) (more : List Token) :
    Reaches m.advance (.between 0 output (first :: more))
      (.afterStatement 0 output (m.frame.readStatement first more)) := by
  rw [Frame.readStatement_eq_readOpening]
  rcases h : m.frame.readOpening first more with e | ⟨o, tokens⟩
  · have refused : m.advance (.between 0 output (first :: more)) =
        some (.afterStatement 0 output (.error e)) := by
      simp only [advance, h]
    exact .single refused
  · have opened : m.advance (.between 0 output (first :: more)) =
        some (.within output o ⟨0, [], .call .lowest tokens⟩) := by
      simp only [advance, h]
    have full : (0 : BitVec width).toNat + m.limit.toNat = m.limit.toNat := by simp
    have called := reaches_within ((m.runs_call _).1 _ [] .lowest tokens full).reaches output o
    exact ReflTransGen.head opened (called.tail rfl)

/-- **The machine reads a program to its end**, with the statements and the errors of the tokens
and the counter at zero. -/
theorem reaches_end (tokens : List Token) (output : ParseOutput) :
    Reaches m.advance (.between 0 output tokens)
      (.between 0 ⟨⟨output.program.statements ++ m.frame.statements tokens⟩,
        output.errors ++ m.frame.errors tokens⟩ []) := by
  induction tokens using Frame.program_induction m.frame generalizing output with
  | none_left =>
    rw [Frame.statements_nil, Frame.errors_nil, List.append_nil, List.append_nil]
    exact .refl
  | read first more p hread ih =>
    have here := m.reaches_afterStatement output first more
    rw [hread] at here
    rw [Frame.statements_cons_of_ok hread, Frame.errors_cons_of_ok hread]
    have there := ih (output.withStatement p.value)
    rw [ParseOutput.withStatement, List.append_assoc] at there
    exact here.trans there
  | failed first more e hread ih =>
    have here := m.reaches_afterStatement output first more
    rw [hread] at here
    rw [Frame.statements_cons_of_error hread, Frame.errors_cons_of_error hread]
    have there := ih (output.withError e.error)
    rw [ParseOutput.withError, List.append_assoc] at there
    exact here.trans there

end Simulation

end Machine

end MonkeyLang
