import Mathlib.Logic.Function.Iterate
import MonkeyLang.Proofs.Lexing.Tiling
import MonkeyLang.Proofs.Reading.Program

/-!
# Parsing makes progress and comes to its end

A program is read by a loop. Each pass of it attempts the statement that begins with the first token
left, and adds that statement to the program or an error to the errors (`Parser.pass?`). Whatever the
limit on nesting, and whether the attempt failed at once or far behind, a pass leaves fewer tokens
than it found: that is the step (`Parser.advances_of_pass?`), and it rests on recovery, which leaves
the token behind on which a reader stood. So no run of the loop has more passes than there are tokens
(`Parser.le_length_of_passes`).

A parser is defined without this loop, by the attempts at its tokens. It reads what the loop has read
when no token is left (`Parser.passes_readProgram`), and there is a pass for each statement and for
each error (`Frame.length_attempts`). Behind that, a parser has no tokens, so whatever is asked of it
again finds nothing and adds nothing (`readProgram_progresses`).
-/

namespace MonkeyLang

namespace Frame

variable (f : Frame)

/-- Every attempt has read a statement or met an error, and not both. -/
theorem length_attempts (tokens : List Token) :
    (f.attempts tokens).length = (f.statements tokens).length + (f.errors tokens).length := by
  induction tokens using program_induction f with
  | none_left => rw [attempts_nil, statements_nil, errors_nil]; rfl
  | read first more p h ih =>
    rw [attempts_cons, Attempt.rest_make_of_ok h, statements_cons_of_ok h, errors_cons_of_ok h,
      List.length_cons, List.length_cons, ih, Nat.add_right_comm]
  | failed first more e h ih =>
    rw [attempts_cons, Attempt.rest_make_of_error h, statements_cons_of_error h,
      errors_cons_of_error h, List.length_cons, List.length_cons, ih, Nat.add_assoc]

/-- No attempt is made exactly if there is no token. -/
theorem length_attempts_eq_zero_iff {tokens : List Token} :
    (f.attempts tokens).length = 0 ↔ tokens = [] := by
  rcases tokens with - | ⟨first, more⟩
  · simp
  · simp [attempts_cons]

end Frame

namespace Parser

/-! ### Passes -/

/-- One pass of the loop that reads a program: the statement that begins with the first token left is
attempted, and is added to the program, or its error to the errors. At the end of the input there is
no pass. -/
def pass? : Program × Parser → Option (Program × Parser)
  | (program, p) =>
    match p.pending with
    | [] => none
    | first :: more =>
      let attempt := Attempt.make p.frame first more
      some (⟨program.statements ++ attempt.statement?.toList⟩,
        { p with pending := attempt.rest, errors := p.errors ++ attempt.error?.toList })

/-- Some passes, one after the other, if there are so many. -/
def passes : Nat → Program × Parser → Option (Program × Parser)
  | 0, s => some s
  | n + 1, s => (pass? s).bind (passes n)

/-- A pass takes some tokens, of which none is the end of the input, and adds one statement and no
error, or one error and no statement. -/
structure Advances (s s' : Program × Parser) : Prop where
  frame_eq : s'.2.frame = s.2.frame
  takes : ∃ taken, taken ≠ [] ∧ s.2.pending = taken ++ s'.2.pending ∧
    ∀ t ∈ taken, t.kind ≠ .endOfInput
  adds : (∃ st, s'.1.statements = s.1.statements ++ [st] ∧ s'.2.errors = s.2.errors) ∨
    ∃ e, s'.1.statements = s.1.statements ∧ s'.2.errors = s.2.errors ++ [e]

variable {s s' : Program × Parser}

/-- There is no pass exactly at the end of the input. -/
theorem pass?_eq_none_iff : pass? s = none ↔ s.2.pending = [] := by
  obtain ⟨program, frame, pending, errors⟩ := s
  rcases pending with - | ⟨first, more⟩
  · exact iff_of_true rfl rfl
  · exact iff_of_false nofun (List.cons_ne_nil _ _)

/-- **Every pass advances**, whatever comes of the attempt. -/
theorem advances_of_pass? (h : pass? s = some s')
    (inner : ∀ t ∈ s.2.pending, t.kind ≠ .endOfInput) : Advances s s' := by
  obtain ⟨program, frame, pending, errors⟩ := s
  rcases pending with - | ⟨first, more⟩
  · cases h
  obtain rfl := Option.some.inj h
  obtain ⟨passed, hpassed⟩ := Attempt.rest_make_suffix frame first more
  have taken_eq : first :: more = first :: passed ++ (Attempt.make frame first more).rest := by
    rw [List.cons_append, hpassed]
  refine ⟨rfl, ⟨first :: passed, List.cons_ne_nil _ _, taken_eq, fun t ht ↦ ?_⟩, ?_⟩
  · refine inner t ?_
    rw [show (_ : List Token) = first :: more from rfl, taken_eq]
    exact List.mem_append_left _ ht
  · rcases hread : frame.readStatement first more with e | p
    · right
      refine ⟨e.error, ?_, ?_⟩
      · rw [Attempt.statement?_of_error hread]
        exact List.append_nil _
      · rw [Attempt.error?_of_error hread]
        rfl
    · left
      refine ⟨p.value, ?_, ?_⟩
      · rw [Attempt.statement?_of_ok hread]
        rfl
      · rw [Attempt.error?_of_ok hread]
        exact List.append_nil _

/-! ### Runs -/

/-- What is left after some passes stands at the end of what was there. -/
theorem pending_suffix_of_passes {n : Nat} (h : passes n s = some s')
    (inner : ∀ t ∈ s.2.pending, t.kind ≠ .endOfInput) : s'.2.pending <:+ s.2.pending := by
  induction n generalizing s with
  | zero =>
    obtain rfl := Option.some.inj h
    exact List.suffix_refl _
  | succ n ih =>
    obtain ⟨s₁, first, others⟩ := Option.bind_eq_some_iff.1 h
    obtain ⟨taken, -, taken_eq, -⟩ := (advances_of_pass? first inner).takes
    have behind : s₁.2.pending <:+ s.2.pending := taken_eq ▸ List.suffix_append taken _
    exact (ih others fun t ht ↦ inner t (behind.subset ht)).trans behind

/-- **A run has no more passes than there are tokens.** -/
theorem le_length_of_passes {n : Nat} (h : passes n s = some s')
    (inner : ∀ t ∈ s.2.pending, t.kind ≠ .endOfInput) :
    n + s'.2.pending.length ≤ s.2.pending.length := by
  induction n generalizing s with
  | zero =>
    obtain rfl := Option.some.inj h
    rw [Nat.zero_add]
  | succ n ih =>
    obtain ⟨s₁, first, others⟩ := Option.bind_eq_some_iff.1 h
    obtain ⟨taken, some_taken, taken_eq, -⟩ := (advances_of_pass? first inner).takes
    have rest := ih others fun t ht ↦ inner t (taken_eq ▸ List.mem_append_right taken ht)
    have := List.length_pos_iff.2 some_taken
    rw [taken_eq, List.length_append]
    omega

/-- **The loop reads what a parser reads**, in as many passes as there are attempts. -/
theorem passes_readProgram (program : Program) (p : Parser) :
    passes (p.frame.attempts p.pending).length (program, p) =
      some (⟨program.statements ++ p.readProgram.1.statements⟩, p.readProgram.2) := by
  obtain ⟨frame, pending, errors⟩ := p
  show passes (frame.attempts pending).length (program, ⟨frame, pending, errors⟩) =
    some (⟨program.statements ++ (frame.attempts pending).filterMap Attempt.statement?⟩,
      ⟨frame, [], errors ++ (frame.attempts pending).filterMap Attempt.error?⟩)
  induction pending using Frame.attempts_induction frame generalizing program errors with
  | none_left =>
    rw [Frame.attempts_nil, List.filterMap_nil, List.filterMap_nil, List.append_nil,
      List.append_nil]
    rfl
  | attempted first more ih =>
    rw [Frame.attempts_cons, List.length_cons, passes]
    show passes _ (_, _) = _
    rw [ih]
    rcases hread : (Attempt.make frame first more).outcome with e | p
    · rw [List.filterMap_cons_none (Attempt.statement?_of_error hread),
        List.filterMap_cons_some (Attempt.error?_of_error hread), Attempt.statement?_of_error hread,
        Attempt.error?_of_error hread]
      simp
    · rw [List.filterMap_cons_some (Attempt.statement?_of_ok hread),
        List.filterMap_cons_none (Attempt.error?_of_ok hread), Attempt.statement?_of_ok hread,
        Attempt.error?_of_ok hread]
      simp

/-- A parser that has read its program stays as it is, whatever is read off it again. -/
theorem iterate_readProgram {p : Parser} (h : p.pending = []) (k : Nat) :
    (fun p : Parser ↦ p.readProgram.2)^[k] p = p := by
  refine Function.iterate_fixed ?_ k
  rw [readProgram_of_pending_nil h]

/-- **Parsing makes progress and comes to its end.** For every source and every limit on nesting,
each pass of the loop takes some tokens, none of them the end of the input, and adds one statement or
one error; no run has more passes than the source has tokens; and after as many passes as there are
statements and errors the loop stands at the end of the input, with what the parser reads. So there
are no more statements and errors than tokens, and there are none only if there is no token. Whenever
the parser is asked for a program again, it reads an empty one and is left as it is. -/
theorem readProgram_progresses (config : Config) (source : String) :
    let parser := Parser.ofCursor config (Cursor.start source)
    let tokens := (tokenize source).filter (·.kind ≠ .endOfInput)
    let read := parser.readProgram
    let total := read.1.statements.length + read.2.errors.length
    (∀ n s, passes n (⟨[]⟩, parser) = some s →
      n ≤ tokens.length ∧ ∀ s', pass? s = some s' → Advances s s') ∧
    (passes total (⟨[]⟩, parser) = some read ∧ pass? read = none) ∧
    (total ≤ tokens.length ∧ (total = 0 ↔ tokens = [])) ∧
    ∀ k, ((fun p : Parser ↦ p.readProgram.2)^[k] read.2).readProgram = (⟨[]⟩, read.2) := by
  intro parser tokens read total
  have tokens_eq : tokens = parser.pending := filter_tokenize source
  have inner : ∀ t ∈ parser.pending, t.kind ≠ .endOfInput := fun t ht ↦
    Cursor.kind_ne_of_mem_pending ht
  have total_eq : (parser.frame.attempts parser.pending).length = total :=
    parser.frame.length_attempts parser.pending
  have whole : passes total (⟨[]⟩, parser) = some read :=
    total_eq ▸ passes_readProgram ⟨[]⟩ parser
  refine ⟨fun n s hs ↦ ⟨?_, fun s' hs' ↦ advances_of_pass? hs' fun t ht ↦ ?_⟩,
    ⟨whole, pass?_eq_none_iff.2 rfl⟩, ⟨?_, ?_⟩, fun k ↦ ?_⟩
  · rw [tokens_eq]
    exact (Nat.le_add_right _ _).trans (le_length_of_passes hs inner)
  · exact inner t ((pending_suffix_of_passes hs inner).subset ht)
  · rw [tokens_eq]
    exact (Nat.le_add_right _ _).trans (le_length_of_passes whole inner)
  · rw [tokens_eq, ← total_eq, Frame.length_attempts_eq_zero_iff]
  · rw [iterate_readProgram rfl, readProgram_of_pending_nil rfl]

end Parser

end MonkeyLang
