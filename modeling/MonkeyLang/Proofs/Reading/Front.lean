import MonkeyLang.Proofs.Lexing.Cut
import MonkeyLang.Proofs.Reading.Program
import MonkeyLang.Proofs.Reading.Splice

/-!
# Programs with a common front

Two programs that begin with the same tokens, and go on behind them with tokens that end every
phrase, are attempted alike: their attempts match one by one until the common front is used up
(`Splice.exists_exit`). Each step is `Splice.attempt_cases`, which says where a pair of attempts
leaves the inputs. Where the two go on in the end depends on what stands behind the front, and on
whether the last attempt failed inside the front or stood behind it already; `Splice.Exit` lists
the ways.

The first use is a program whose tokens stand at other places: it has the same statements, and its
errors stand at those places (`Frame.program_mapSpan`). So a program that is moved has its errors
moved with it (`Cursor.parse_shift`), and a text behind another one is read as it is alone
(`sourceFrame_behind`).
-/

namespace MonkeyLang

namespace Splice

variable (s : Splice)

/-- Giving up inside the front either leads to a boundary in it, or else to the next boundary
behind it. -/
theorem toBoundary_cases (front : List Token) :
    (∃ more, toBoundary (s.before front) = s.before more ∧
        toBoundary (s.after front) = s.after more) ∨
      toBoundary (s.before front) = toBoundary s.sourceTail ∧
        toBoundary (s.after front) = toBoundary s.targetTail := by
  induction front with
  | nil => exact .inr ⟨rfl, rfl⟩
  | cons t front ih =>
    rw [before_cons, after_cons, toBoundary, toBoundary, Token.kind_mapSpan]
    split
    · exact .inl ⟨t :: front, rfl, rfl⟩
    · split
      · exact .inl ⟨front, rfl, rfl⟩
      · exact ih

/-- Going on after a failure that stood inside the front. -/
theorem resume_cases (t : Token) (front : List Token) :
    (∃ more, resume (s.before (t :: front)) = s.before more ∧
        resume (s.after (t :: front)) = s.after more) ∨
      resume (s.before (t :: front)) = toBoundary s.sourceTail ∧
        resume (s.after (t :: front)) = toBoundary s.targetTail := by
  rw [before_cons, after_cons, resume, resume, Token.kind_mapSpan]
  split
  · exact .inl ⟨front, rfl, rfl⟩
  · exact s.toBoundary_cases front

/-- Attempts whose readings follow. -/
def Matches (a a' : Attempt) : Prop := s.Follows a.outcome a'.outcome

/-- An attempt fails without having found its error inside the front: its reader stands on the
first token behind. -/
def StandsBehind (a : Attempt) : Prop := ∃ e, a.outcome = .error ⟨e, s.sourceTail⟩

/-- The ways past the front: the attempts reach its end, one ends with the semicolon behind it, or
one fails inside it and seeks a boundary. -/
inductive Past : List Token → List Token → Prop
  | reached : Past s.sourceTail s.targetTail
  | closed {t u : Token} {rest rest' : List Token} (ht : s.sourceTail = t :: rest)
    (hu : s.targetTail = u :: rest') : Past rest rest'
  | sought : Past (toBoundary s.sourceTail) (toBoundary s.targetTail)

/-- Attempts that begin in the front match, and go on inside it, or past it, or from where they
stand behind it. -/
theorem attempt_cases {t : Token} {front : List Token} {a a' : Attempt}
    (ha : a = .make s.source t (s.before front))
    (ha' : a' = .make s.target (t.mapSpan s.place) (s.after front)) :
    s.Matches a a' ∧
      ((¬ s.StandsBehind a ∧ ((∃ more, a.rest = s.before more ∧ a'.rest = s.after more) ∨
          s.Past a.rest a'.rest)) ∨
        s.StandsBehind a ∧ a.rest = resume s.sourceTail ∧ a'.rest = resume s.targetTail) := by
  have matched : s.Matches a a' := by
    rw [ha, ha']
    exact s.readStatement_follows t front
  have read : ∀ {p}, a.outcome = .ok p → ¬ s.StandsBehind a := by
    rintro p h ⟨e, he⟩
    rw [h] at he
    cases he
  refine ⟨matched, ?_⟩
  rcases matched.cases with ⟨value, last, more, h, h'⟩ | ⟨e, e', stand, -, h, h'⟩ |
    ⟨value, t, u, rest, rest', ht, hu, h, h'⟩
  · exact .inl ⟨read h, .inl ⟨more, Attempt.rest_of_ok h, Attempt.rest_of_ok h'⟩⟩
  · have hr := Attempt.rest_of_error h
    have hr' := Attempt.rest_of_error h'
    rcases stand with - | ⟨u, stand⟩
    · exact .inr ⟨⟨e, h⟩, hr, hr'⟩
    have hb : ¬ s.StandsBehind a := by
      rintro ⟨e', he⟩
      rw [h] at he
      have same := congrArg List.length (Failure.mk.inj (Except.error.inj he)).2
      rw [before, List.length_append, List.length_cons] at same
      omega
    refine .inl ⟨hb, ?_⟩
    rw [hr, hr']
    rcases s.resume_cases u stand with ⟨more, hm, hm'⟩ | ⟨hm, hm'⟩
    · exact .inl ⟨more, hm, hm'⟩
    · refine .inr ?_
      rw [hm, hm']
      exact .sought
  · refine .inl ⟨read h, .inr ?_⟩
    rw [Attempt.rest_of_ok h, Attempt.rest_of_ok h']
    exact .closed ht hu

/-- Where the inputs go on after the attempts that begin in the front: past it, or, if the last of
them stands behind it, wherever a failure there leads. -/
inductive Exit : List Attempt → List Token → List Token → Prop
  | past {as : List Attempt} {rest rest' : List Token} (h : ∀ a ∈ as, ¬ s.StandsBehind a)
    (hp : s.Past rest rest') : Exit as rest rest'
  | stood (as : List Attempt) {a : Attempt} (h : s.StandsBehind a) :
    Exit (as ++ [a]) (resume s.sourceTail) (resume s.targetTail)

variable {s} in
theorem Exit.cons {as : List Attempt} {rest rest' : List Token} (h : s.Exit as rest rest')
    {a : Attempt} (ha : ¬ s.StandsBehind a) : s.Exit (a :: as) rest rest' := by
  cases h with
  | past h hp => exact .past (List.forall_mem_cons.2 ⟨ha, h⟩) hp
  | stood as h => exact .stood (a :: as) h

/-- **The attempts at the statements of two programs with a common front match** one by one, until
the front is used up. -/
theorem exists_exit (front : List Token) :
    ∃ as as' rest rest', List.Forall₂ s.Matches as as' ∧ s.Exit as rest rest' ∧
      s.source.attempts (s.before front) = as ++ s.source.attempts rest ∧
      s.target.attempts (s.after front) = as' ++ s.target.attempts rest' := by
  induction hn : front.length using Nat.strongRecOn generalizing front with
  | _ n ih =>
    subst hn
    rcases front with - | ⟨t, front⟩
    · exact ⟨[], [], _, _, .nil, .past (by simp) .reached, rfl, rfl⟩
    have shorter := Attempt.length_rest_lt s.source t (s.before front)
    rw [before_cons, after_cons, Frame.attempts_cons, Frame.attempts_cons]
    obtain ⟨matched, goes_on⟩ := @attempt_cases s t front _ _ rfl rfl
    generalize Attempt.make s.source t (s.before front) = a at *
    generalize Attempt.make s.target (t.mapSpan s.place) (s.after front) = a' at *
    rcases goes_on with ⟨ha, ⟨more, h, h'⟩ | past⟩ | ⟨ha, h, h'⟩
    · have less : more.length < (t :: front).length := by
        rw [h, before, before, ← List.cons_append, List.length_append, List.length_append]
          at shorter
        exact Nat.lt_of_add_lt_add_right shorter
      obtain ⟨as, as', rest, rest', hm, he, hs, ht⟩ := ih _ less more rfl
      exact ⟨a :: as, a' :: as', rest, rest', .cons matched hm, he.cons ha,
        by rw [h, hs, List.cons_append], by rw [h', ht, List.cons_append]⟩
    · exact ⟨[a], [a'], _, _, .cons matched .nil, .past (List.forall_mem_singleton.2 ha) past,
        rfl, rfl⟩
    · refine ⟨[a], [a'], _, _, .cons matched .nil, .stood [] ha, ?_, ?_⟩
      · rw [h, List.singleton_append]
      · rw [h', List.singleton_append]

variable {s} {as as' : List Attempt}

/-- Attempts that match read the same statements. -/
theorem statements_eq_of_matches (h : List.Forall₂ s.Matches as as') :
    as'.filterMap Attempt.statement? = as.filterMap Attempt.statement? := by
  induction h with
  | nil => rfl
  | @cons a a' as as' hm _ ih =>
    have same : a'.statement? = a.statement? := by
      rcases hm.cases with ⟨_, _, _, h, h'⟩ | ⟨_, _, _, -, h, h'⟩ | ⟨_, _, _, _, _, -, -, h, h'⟩
      · rw [Attempt.statement?_of_ok h, Attempt.statement?_of_ok h']
      · rw [Attempt.statement?_of_error h, Attempt.statement?_of_error h']
      · rw [Attempt.statement?_of_ok h, Attempt.statement?_of_ok h']
    rw [List.filterMap_cons, List.filterMap_cons, same, ih]

/-- Attempts that match meet the same errors, up to the place, if the inputs agree. -/
theorem errors_eq_of_matches (h : List.Forall₂ s.Matches as as') (agrees : s.Agrees) :
    as'.filterMap Attempt.error? =
      (as.filterMap Attempt.error?).map (ParseError.mapSpan s.place) := by
  induction h with
  | nil => rfl
  | @cons a a' as as' hm _ ih =>
    have same : a'.error? = a.error?.map (ParseError.mapSpan s.place) := by
      rcases hm.cases with ⟨_, _, _, h, h'⟩ | ⟨_, _, _, he, h, h'⟩ | ⟨_, _, _, _, _, -, -, h, h'⟩
      · rw [Attempt.error?_of_ok h, Attempt.error?_of_ok h']
        rfl
      · rw [Attempt.error?_of_error h, Attempt.error?_of_error h', he agrees]
        rfl
      · rw [Attempt.error?_of_ok h, Attempt.error?_of_ok h']
        rfl
    rw [List.filterMap_cons, List.filterMap_cons, same, ih]
    cases a.error? <;> rfl

/-- An attempt that matches another one and fails stands in the front, or behind it. -/
theorem exists_stand_eq_of_matches (h : List.Forall₂ s.Matches as as') {a' : Attempt}
    (ha : a' ∈ as') {e : Failure} (he : a'.outcome = .error e) :
    ∃ front, e.stand = s.after front := by
  induction h with
  | nil => cases ha
  | @cons a b as as' hm _ ih =>
    rcases List.mem_cons.1 ha with rfl | ha
    · rcases hm.cases with ⟨_, _, _, -, h'⟩ | ⟨_, _, front, -, -, h'⟩ | ⟨_, _, _, _, _, -, -, -, h'⟩
      · rw [he] at h'
        cases h'
      · rw [he] at h'
        exact ⟨front, congrArg Failure.stand (Except.error.inj h')⟩
      · rw [he] at h'
        cases h'
    · exact ih ha

end Splice

namespace Frame

variable {f : Frame} {tokens rest : List Token} {as : List Attempt}

/-- The statements of a program are those of its first attempts, and those of the others. -/
theorem statements_of_attempts (h : f.attempts tokens = as ++ f.attempts rest) :
    f.statements tokens = as.filterMap Attempt.statement? ++ f.statements rest := by
  rw [statements, h, List.filterMap_append]
  rfl

/-- The errors of a program are those of its first attempts, and those of the others. -/
theorem errors_of_attempts (h : f.attempts tokens = as ++ f.attempts rest) :
    f.errors tokens = as.filterMap Attempt.error? ++ f.errors rest := by
  rw [errors, h, List.filterMap_append]
  rfl

end Frame

/-! ### Programs at other places -/

/-- A list of tokens and the same tokens at other places, with their end at `stop`. -/
def Splice.placed (place : Span → Span) (stop : Nat) (f : Frame) : Splice where
  place := place
  source := f
  sourceTail := []
  target := ⟨f.config, stop⟩
  targetTail := []
  config_eq := rfl
  source_closes := f.closes_facing_nil
  target_closes := rfl
  semicolon_iff := Iff.rfl

/-- **At other places a program has the same statements, and its errors stand at those places.** -/
theorem Frame.program_mapSpan {f : Frame} {place : Span → Span} {stop : Nat}
    (h : Token.endAt stop = (Token.endAt f.stop).mapSpan place) (tokens : List Token) :
    (⟨f.config, stop⟩ : Frame).statements (tokens.map (.mapSpan place)) = f.statements tokens ∧
      (⟨f.config, stop⟩ : Frame).errors (tokens.map (.mapSpan place)) =
        (f.errors tokens).map (ParseError.mapSpan place) := by
  let s : Splice := .placed place stop f
  obtain ⟨as, as', rest, rest', hm, exit, hs, ht⟩ := s.exists_exit tokens
  -- Nothing is behind the front, so nothing is left behind the attempts either.
  obtain ⟨rfl, rfl⟩ : rest = [] ∧ rest' = [] := by
    rcases exit with ⟨-, - | ⟨h, -⟩ | -⟩ | -
    · exact ⟨rfl, rfl⟩
    · cases h
    · exact ⟨rfl, rfl⟩
    · exact ⟨rfl, rfl⟩
  have source_eq : s.before tokens = tokens := List.append_nil _
  have target_eq : s.after tokens = tokens.map (.mapSpan place) := List.append_nil _
  rw [source_eq] at hs
  rw [target_eq] at ht
  have agrees : s.Agrees := h
  have statements : s.target.statements (tokens.map (.mapSpan place)) =
      s.source.statements tokens := by
    rw [statements_of_attempts hs, statements_of_attempts ht, Splice.statements_eq_of_matches hm,
      statements_nil, statements_nil]
  have errors : s.target.errors (tokens.map (.mapSpan place)) =
      (s.source.errors tokens).map (ParseError.mapSpan place) := by
    rw [errors_of_attempts hs, errors_of_attempts ht, Splice.errors_eq_of_matches hm agrees,
      errors_nil, errors_nil, List.append_nil, List.append_nil]
    rfl
  exact ⟨statements, errors⟩

/-- A parse from a place on is the statements and the errors of the tokens from there on. -/
theorem Cursor.parse_eq (config : Config) (c : Cursor) :
    c.parse config =
      ⟨⟨(⟨config, c.stop⟩ : Frame).statements c.pending⟩,
        (⟨config, c.stop⟩ : Frame).errors c.pending⟩ :=
  rfl

/-- **A program that is moved has the same statements, and its errors move with it.** -/
theorem Cursor.parse_shift (config : Config) (n : Nat) (c : Cursor) :
    (c.shift n).parse config =
      ⟨(c.parse config).program, (c.parse config).errors.map (ParseError.shift n)⟩ := by
  have ends : Token.endAt (c.stop + n) = (Token.endAt c.stop).mapSpan (Span.shift n) := rfl
  obtain ⟨statements, errors⟩ := Frame.program_mapSpan (f := ⟨config, c.stop⟩) ends c.pending
  rw [parse_eq, parse_eq, pending_shift, stop_shift]
  exact congrArg₂ (fun ss es ↦ (⟨⟨ss⟩, es⟩ : ParseOutput)) statements errors

/-- Behind another text, a text has its own statements, and its own errors moved. -/
theorem sourceFrame_behind (config : Config) (a b : String) :
    (sourceFrame config (a ++ b)).statements ((Cursor.start b).shift a.utf8ByteSize).pending =
        (parse config b).program.statements ∧
      (sourceFrame config (a ++ b)).errors ((Cursor.start b).shift a.utf8ByteSize).pending =
        (parse config b).errors.map (ParseError.shift a.utf8ByteSize) := by
  let g : Frame := sourceFrame config (a ++ b)
  let behind : Cursor := (Cursor.start b).shift a.utf8ByteSize
  have moved : behind.parse config = ⟨⟨g.statements behind.pending⟩, g.errors behind.pending⟩ := by
    rw [Cursor.parse_eq, ← Cursor.stop_start_append]
    rfl
  rw [Cursor.parse_shift] at moved
  obtain ⟨statements, errors⟩ := ParseOutput.mk.inj moved
  exact ⟨(congrArg Program.statements statements).symm, errors.symm⟩

end MonkeyLang
