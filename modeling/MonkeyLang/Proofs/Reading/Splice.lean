import MonkeyLang.Proofs.Lexing.Place
import MonkeyLang.Proofs.Reading.Statement

/-!
# What a reader sees of its tokens

Of a token a reader sees the kind and the text; its place only goes into errors. Of the tokens
behind what it reads it sees the first one, and that only to stop there. So two inputs with the
same tokens in front, be it at other places, are read alike up to where they part, if each goes on
with a token that ends every phrase.

A `Splice` is such a pair of inputs: a front that is given, and what stands behind it in the one
and in the other. The readers are taken one by one, from `expect` to `readStatement`; each
succeeds on both inputs or fails on both, and leaves the same tokens of the front. The attempts at
the statements of a program then match one by one, until the front is used up (`exists_exit`).
Where the two inputs go on from there depends on what is behind the front, and on whether the last
attempt failed inside the front or stood behind it: `Exit` lists the ways.
-/

namespace MonkeyLang

/-- The kinds that end every phrase: no expression starts or goes on with them, and no reader asks
for them. -/
def TokenKind.closes : TokenKind → Bool
  | keyword .letWord | keyword .returnWord | illegal | endOfInput => true
  | punctuation .lparen | punctuation .rparen => false
  | punctuation _ => true
  | _ => false

/-- The end of the input ends every phrase. -/
theorem Frame.closes_facing_nil (f : Frame) : (f.facing []).kind.closes = true := rfl

/-- An error whose span is changed. -/
def ParseError.mapSpan (g : Span → Span) (e : ParseError) : ParseError :=
  { e with span := g e.span }

/-- Two inputs with a common front: the places of its tokens may differ, and each input goes on
behind it with a token that ends every phrase, a semicolon in both or in neither. -/
structure Splice where
  /-- How the places of the front differ. -/
  place : Span → Span
  source : Frame
  sourceTail : List Token
  target : Frame
  targetTail : List Token
  config_eq : target.config = source.config
  source_closes : (source.facing sourceTail).kind.closes = true
  target_closes : (target.facing targetTail).kind.closes = true
  semicolon_iff : (source.facing sourceTail).kind = .punctuation .semicolon ↔
    (target.facing targetTail).kind = .punctuation .semicolon

namespace Splice

variable (s : Splice)

/-- The one input, with a given front. -/
def before (front : List Token) : List Token := front ++ s.sourceTail

/-- The other input, with the same front. -/
def after (front : List Token) : List Token := front.map (.mapSpan s.place) ++ s.targetTail

@[simp] theorem before_nil : s.before [] = s.sourceTail := rfl

@[simp] theorem after_nil : s.after [] = s.targetTail := rfl

theorem before_cons (t : Token) (front : List Token) :
    s.before (t :: front) = t :: s.before front := rfl

theorem after_cons (t : Token) (front : List Token) :
    s.after (t :: front) = t.mapSpan s.place :: s.after front := rfl

/-- Where no place differs, the front is the same in both. -/
theorem after_of_place_eq_id {s : Splice} (h : s.place = id) (front : List Token) :
    s.after front = front ++ s.targetTail := by
  rw [after, h, Token.mapSpan_id, List.map_id]

/-- What the inputs go on with behind the front is the same token, up to its place. -/
def Agrees : Prop :=
  s.target.facing s.targetTail = (s.source.facing s.sourceTail).mapSpan s.place

/-- The readers of both inputs face the same token, up to its place, as long as the front lasts,
and behind it if the inputs agree there. -/
theorem facing_after {front : List Token} (h : front = [] → s.Agrees) :
    s.target.facing (s.after front) = (s.source.facing (s.before front)).mapSpan s.place := by
  cases front with
  | nil => exact h rfl
  | cons t front => rfl

/-- Readings of the two inputs that come to the same: both succeed with one value, or both fail,
and either way the same tokens of the front are left. The errors are the same, up to the place, if
the inputs agree. -/
inductive Corresponds {α : Type} : Reading α → Reading α → Prop
  | ok (value : α) (last : Token) (front : List Token) :
    Corresponds (.ok ⟨value, last, s.before front⟩)
      (.ok ⟨value, last.mapSpan s.place, s.after front⟩)
  | error {e e' : ParseError} (h : s.Agrees → e' = e.mapSpan s.place) (front : List Token) :
    Corresponds (.error ⟨e, s.before front⟩) (.error ⟨e', s.after front⟩)

variable {s}

theorem Corresponds.map {α β : Type} {r r' : Reading α} (h : s.Corresponds r r') (g : α → β) :
    s.Corresponds (r.map (.map g)) (r'.map (.map g)) := by
  cases h with
  | ok value last front => exact .ok (g value) last front
  | error he front => exact .error he front

/-- What corresponding readings are. -/
theorem Corresponds.cases {α : Type} {r r' : Reading α} (h : s.Corresponds r r') :
    (∃ value last front, r = .ok ⟨value, last, s.before front⟩ ∧
        r' = .ok ⟨value, last.mapSpan s.place, s.after front⟩) ∨
      ∃ e e' front, (s.Agrees → e' = ParseError.mapSpan s.place e) ∧
        r = .error ⟨e, s.before front⟩ ∧ r' = .error ⟨e', s.after front⟩ := by
  cases h with
  | ok value last front => exact .inl ⟨value, last, front, rfl, rfl⟩
  | error he front => exact .inr ⟨_, _, front, he, rfl, rfl⟩

variable (s)

/-! ### Errors -/

theorem noOperand_corresponds {α : Type} (front : List Token) :
    s.Corresponds (α := α) (.error (s.source.noOperand (s.before front)))
      (.error (s.target.noOperand (s.after front))) := by
  refine .error (fun agrees ↦ ?_) front
  have facing := @facing_after s front fun _ ↦ agrees
  simp only [facing, Token.kind_mapSpan, Token.text_mapSpan, Token.span_mapSpan,
    ParseError.mapSpan]

/-- A reader that cites the token it faces on the nesting limit, standing there or one before. -/
theorem tooDeep_corresponds {α : Type} {cited front : List Token} :
    s.Corresponds (α := α) (.error (s.source.tooDeep (s.before cited) (s.before front)))
      (.error (s.target.tooDeep (s.after cited) (s.after front))) := by
  refine .error (fun agrees ↦ ?_) front
  simp only [s.facing_after fun _ ↦ agrees, s.config_eq, Token.span_mapSpan, ParseError.mapSpan]

/-- A kind that is due is found in the front, or fails to be found in either input. -/
theorem expect_cases (kind : TokenKind) (hk : kind.closes = false) (last : Token)
    (front : List Token) :
    (∃ t more, front = t :: more ∧
        s.source.expect kind last (s.before front) = .ok ⟨t, t, s.before more⟩ ∧
        s.target.expect kind (last.mapSpan s.place) (s.after front) =
          .ok ⟨t.mapSpan s.place, t.mapSpan s.place, s.after more⟩) ∨
      ∃ e e', (s.Agrees → e' = ParseError.mapSpan s.place e) ∧
        s.source.expect kind last (s.before front) = .error ⟨e, s.before (last :: front)⟩ ∧
        s.target.expect kind (last.mapSpan s.place) (s.after front) =
          .error ⟨e', s.after (last :: front)⟩ := by
  have refused : ∀ {g : Frame} {l : Token} {ts : List Token}, (g.facing ts).kind ≠ kind →
      g.expect kind l ts =
        .error ⟨⟨.unexpectedToken kind (g.facing ts).kind, (g.facing ts).span⟩, l :: ts⟩ :=
    fun h ↦ if_neg h
  have apart : ∀ {t : Token}, t.kind.closes = true → t.kind ≠ kind := by
    rintro t ht rfl
    rw [ht] at hk
    cases hk
  by_cases found : ∃ t more, front = t :: more ∧ t.kind = kind
  · obtain ⟨t, more, rfl, ht⟩ := found
    exact .inl ⟨t, more, rfl, s.source.expect_cons ht _ _,
      s.target.expect_cons (t := t.mapSpan s.place) ht _ _⟩
  · obtain ⟨h, h'⟩ : (s.source.facing (s.before front)).kind ≠ kind ∧
        (s.target.facing (s.after front)).kind ≠ kind := by
      rcases front with - | ⟨t, more⟩
      · exact ⟨apart s.source_closes, apart s.target_closes⟩
      · exact ⟨fun ht ↦ found ⟨t, more, rfl, ht⟩, fun ht ↦ found ⟨t, more, rfl, ht⟩⟩
    refine .inr ⟨_, _, fun agrees ↦ ?_, refused h, refused h'⟩
    simp only [s.facing_after fun _ ↦ agrees, Token.kind_mapSpan, Token.span_mapSpan,
      ParseError.mapSpan]

/-! ### Expressions -/

/-- No operand starts with a token that ends every phrase. -/
theorem readOperand_of_closes {f : Frame} {inner : Precedence → List Token → Reading Expr}
    {tokens : List Token} (h : (f.facing tokens).kind.closes = true) :
    f.readOperand inner tokens = .error (f.noOperand tokens) := by
  cases tokens with
  | nil => rfl
  | cons t rest =>
    have hk : t.kind.closes = true := h
    rw [Frame.readOperand]
    split
    case h_7 => rfl
    all_goals
      rename_i hs
      rw [hs] at hk
      cases hk

/-- No expression does, so reading one fails there. -/
theorem readExpression_of_closes {f : Frame} {tokens : List Token}
    (h : (f.facing tokens).kind.closes = true) (levels : Nat) (floor : Precedence) :
    f.readExpression levels floor tokens =
      .error (if levels = 0 then f.tooDeep tokens tokens else f.noOperand tokens) := by
  rcases levels with - | levels
  · rw [Frame.readExpression, if_pos rfl]
  · rw [Frame.readExpression, readOperand_of_closes h, if_neg (Nat.succ_ne_zero levels)]

/-- No operator is a token that ends every phrase. -/
theorem binaryAt?_of_closes {f : Frame} {floor : Precedence} {tokens : List Token}
    (h : (f.facing tokens).kind.closes = true) : binaryAt? floor tokens = none := by
  cases tokens with
  | nil => rfl
  | cons t rest =>
    have hk : t.kind.closes = true := h
    refine binaryAt?_cons_of_kind fun op hop ↦ ?_
    rw [hop] at hk
    cases hk

/-- Operands correspond, if the expressions inside them do. -/
theorem readOperand_corresponds {inner inner' : Precedence → List Token → Reading Expr}
    (hi : ∀ floor front, s.Corresponds (inner floor (s.before front)) (inner' floor (s.after front)))
    (front : List Token) :
    s.Corresponds (s.source.readOperand inner (s.before front))
      (s.target.readOperand inner' (s.after front)) := by
  cases front with
  | nil =>
    rw [before_nil, after_nil, readOperand_of_closes s.source_closes,
      readOperand_of_closes s.target_closes]
    exact s.noOperand_corresponds []
  | cons t front =>
    rw [before_cons, after_cons, Frame.readOperand, Frame.readOperand, Token.kind_mapSpan]
    split
    · exact .ok _ t front
    · rw [Frame.readInteger, Frame.readInteger, Token.text_mapSpan]
      split
      · exact .ok _ t front
      · exact .error (fun _ ↦ rfl) (t :: front)
    · exact .ok _ t front
    · exact .ok _ t front
    · split
      · exact (hi _ front).map _
      · exact s.noOperand_corresponds (t :: front)
    · rcases (hi .lowest front).cases with
        ⟨value, last, behind, h, h'⟩ | ⟨e, e', stand, he, h, h'⟩
      · simp only [h, h']
        rcases s.expect_cases (.punctuation .rparen) rfl last behind with
          ⟨u, more, rfl, h, h'⟩ | ⟨e, e', he, h, h'⟩
        · rw [h, h']
          exact .ok value u more
        · rw [h, h']
          exact .error he (last :: behind)
      · simp only [h, h']
        exact .error he stand
    · exact s.noOperand_corresponds (t :: front)

/-- **Expressions correspond**, and so does what extends a phrase. -/
theorem readExpression_corresponds (levels : Nat) :
    (∀ floor front, s.Corresponds (s.source.readExpression levels floor (s.before front))
      (s.target.readExpression levels floor (s.after front))) ∧
    ∀ floor value last front,
      s.Corresponds (s.source.extend levels floor ⟨value, last, s.before front⟩)
        (s.target.extend levels floor ⟨value, last.mapSpan s.place, s.after front⟩) := by
  -- Behind the front nothing extends a phrase; inside it the same operators do.
  have operators : ∀ floor front,
      (binaryAt? floor (s.before front) = none ∧ binaryAt? floor (s.after front) = none) ∨
      ∃ op t more, front = t :: more ∧ binaryAt? floor (s.before front) = some (op, s.before more) ∧
        binaryAt? floor (s.after front) = some (op, s.after more) := by
    intro floor front
    cases front with
    | nil =>
      exact .inl ⟨binaryAt?_of_closes s.source_closes, binaryAt?_of_closes s.target_closes⟩
    | cons t front =>
      rw [before_cons, after_cons, binaryAt?, binaryAt?, Token.kind_mapSpan]
      split
      · rename_i op _
        split
        · exact .inr ⟨op, t, front, rfl, rfl, rfl⟩
        · exact .inl ⟨rfl, rfl⟩
      · exact .inl ⟨rfl, rfl⟩
  induction levels with
  | zero =>
    constructor
    · intro floor front
      rw [Frame.readExpression, Frame.readExpression]
      exact s.tooDeep_corresponds
    · intro floor value last front
      rw [Frame.extend, Frame.extend]
      rcases operators floor front with ⟨h, h'⟩ | ⟨op, t, more, rfl, h, h'⟩
      · simp only [h, h']
        exact .ok value last front
      · simp only [h, h']
        exact @tooDeep_corresponds s _ _ (last :: t :: more)
  | succ levels ih =>
    obtain ⟨reads, extended⟩ := ih
    constructor
    · intro floor front
      rw [Frame.readExpression, Frame.readExpression]
      rcases (s.readOperand_corresponds reads front).cases with
        ⟨value, last, behind, h, h'⟩ | ⟨e, e', stand, he, h, h'⟩
      · simp only [h, h']
        exact extended floor value last behind
      · simp only [h, h']
        exact .error he stand
    · intro floor value last front
      rw [Frame.extend, Frame.extend]
      rcases operators floor front with ⟨h, h'⟩ | ⟨op, t, more, rfl, h, h'⟩
      · simp only [h, h']
        exact .ok value last front
      · simp only [h, h']
        rcases (reads op.rightFloor more).cases with
          ⟨right, last', behind, hr, hr'⟩ | ⟨e, e', stand, he, hr, hr'⟩
        · simp only [hr, hr']
          exact extended floor (.binary op value right) last' behind
        · simp only [hr, hr']
          exact .error he stand

/-! ### Statements -/

/-- Readings of the two inputs that come to the same at the end of a statement: they correspond, or
the statement ends with the semicolon that stands behind the front in both. -/
inductive Follows {α : Type} : Reading α → Reading α → Prop
  | inside {r r' : Reading α} (h : s.Corresponds r r') : Follows r r'
  | closed (value : α) {t u : Token} {rest rest' : List Token} (ht : s.sourceTail = t :: rest)
    (hu : s.targetTail = u :: rest') :
    Follows (.ok ⟨value, t, rest⟩) (.ok ⟨value, u, rest'⟩)

variable {s}

theorem Follows.map {α β : Type} {r r' : Reading α} (h : s.Follows r r') (g : α → β) :
    s.Follows (r.map (.map g)) (r'.map (.map g)) := by
  cases h with
  | inside h => exact .inside (h.map g)
  | closed value ht hu => exact .closed (g value) ht hu

variable (s)

/-- A semicolon in the front is taken from both inputs, and so is one that both go on with. -/
theorem withSemicolon_follows {α : Type} (value : α) (last : Token) (front : List Token) :
    s.Follows (.ok (Parsed.withSemicolon ⟨value, last, s.before front⟩))
      (.ok (Parsed.withSemicolon ⟨value, last.mapSpan s.place, s.after front⟩)) := by
  have taken : ∀ {last t : Token} {rest : List Token}, t.kind = .punctuation .semicolon →
      (⟨value, last, t :: rest⟩ : Parsed α).withSemicolon = ⟨value, t, rest⟩ := fun h ↦ if_pos h
  have left : ∀ (g : Frame) (last : Token) (rest : List Token),
      (g.facing rest).kind ≠ .punctuation .semicolon →
        (⟨value, last, rest⟩ : Parsed α).withSemicolon = ⟨value, last, rest⟩ := by
    intro g last rest h
    cases rest with
    | nil => rfl
    | cons t rest => exact if_neg h
  cases front with
  | cons t more =>
    by_cases ht : t.kind = .punctuation .semicolon
    · rw [before_cons, after_cons, taken ht, taken (t := t.mapSpan s.place) ht]
      exact .inside (.ok value t more)
    · rw [left s.source last (s.before (t :: more)) ht,
        left s.target _ (s.after (t :: more)) ht]
      exact .inside (.ok value last (t :: more))
  | nil =>
    by_cases ht : (s.source.facing s.sourceTail).kind = .punctuation .semicolon
    · have hu := s.semicolon_iff.1 ht
      rw [before_nil, after_nil]
      rcases hs : s.sourceTail with - | ⟨t, rest⟩
      · rw [hs] at ht
        cases ht
      rcases hs' : s.targetTail with - | ⟨u, rest'⟩
      · rw [hs'] at hu
        cases hu
      rw [hs] at ht
      rw [hs'] at hu
      rw [taken (t := t) ht, taken (t := u) hu]
      exact .closed value hs hs'
    · have hu := s.semicolon_iff.not.1 ht
      rw [before_nil, after_nil, left s.source last _ ht, left s.target _ _ hu]
      exact .inside (.ok value last [])

/-- The values of statements follow. -/
theorem readValue_follows (front : List Token) :
    s.Follows (s.source.readValue (s.before front)) (s.target.readValue (s.after front)) := by
  rw [Frame.readValue, Frame.readValue, s.config_eq]
  rcases ((s.readExpression_corresponds _).1 .lowest front).cases with
    ⟨value, last, behind, h, h'⟩ | ⟨e, e', stand, he, h, h'⟩
  · rw [h, h']
    exact s.withSemicolon_follows value last behind
  · rw [h, h']
    exact .inside (.error he stand)

/-- Bindings follow. -/
theorem readLet_follows (first : Token) (front : List Token) :
    s.Follows (s.source.readLet first (s.before front))
      (s.target.readLet (first.mapSpan s.place) (s.after front)) := by
  rw [Frame.readLet, Frame.readLet]
  rcases s.expect_cases .identifier rfl first front with
    ⟨name, front, rfl, h, h'⟩ | ⟨e, e', he, h, h'⟩
  · simp only [h, h']
    rcases s.expect_cases (.operator .assign) rfl name front with
      ⟨sign, front, rfl, h, h'⟩ | ⟨e, e', he, h, h'⟩
    · simp only [h, h']
      exact (s.readValue_follows front).map (Statement.letStatement name.text)
    · simp only [h, h']
      exact .inside (.error he (name :: front))
  · simp only [h, h']
    exact .inside (.error he (first :: front))

/-- **Statements follow.** -/
theorem readStatement_follows (first : Token) (front : List Token) :
    s.Follows (s.source.readStatement first (s.before front))
      (s.target.readStatement (first.mapSpan s.place) (s.after front)) := by
  rw [Frame.readStatement, Frame.readStatement, Token.kind_mapSpan]
  split
  · exact s.readLet_follows first front
  · exact (s.readValue_follows front).map Statement.returnStatement
  · exact (s.readValue_follows (first :: front)).map Statement.expressionStatement

variable {s} in
/-- What readings that follow are. -/
theorem Follows.cases {α : Type} {r r' : Reading α} (h : s.Follows r r') :
    (∃ value last front, r = .ok ⟨value, last, s.before front⟩ ∧
        r' = .ok ⟨value, last.mapSpan s.place, s.after front⟩) ∨
      (∃ e e' front, (s.Agrees → e' = ParseError.mapSpan s.place e) ∧
        r = .error ⟨e, s.before front⟩ ∧ r' = .error ⟨e', s.after front⟩) ∨
      ∃ value t u rest rest', s.sourceTail = t :: rest ∧ s.targetTail = u :: rest' ∧
        r = .ok ⟨value, t, rest⟩ ∧ r' = .ok ⟨value, u, rest'⟩ := by
  cases h with
  | inside h => exact h.cases.imp_right .inl
  | closed value ht hu => exact .inr (.inr ⟨value, _, _, _, _, ht, hu, rfl, rfl⟩)

end Splice

end MonkeyLang
