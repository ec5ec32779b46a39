import Mathlib.Data.List.TakeWhile
import MonkeyLang.Proofs.Grammar.Joining
import MonkeyLang.Proofs.Grammar.Trace
import MonkeyLang.Proofs.RoundTrip.Expression

/-!
# Written programs

A program that is written down and parsed is the same program, exactly if no statement of it
merges with the next one (`parse_render_iff`). Nothing stands between written statements, so a
bare word merges with whatever starts with a letter, and a bare number with a bare number. All
other neighbours stay apart, because no bare expression is written with a minus in front.

That merged statements are never read again as they were is a matter of counting. The tokens of
the written form that leave a trace in the tree are at most as many as the statements call for
(`traces_pending_text`), and they are fewer as soon as two statements merge, since the two
lexemes that meet are only one token then.
-/

namespace MonkeyLang

namespace Expr

/-- A word is an identifier or a boolean. -/
def isWord : Expr → Bool
  | identifier _ | boolean _ _ => true
  | _ => false

/-- A number is an integer. -/
def isNumber : Expr → Bool
  | integer _ _ => true
  | _ => false

/-- Words, and they alone, open with a letter. -/
theorem isLetter_eq_isWord {e : Expr} {c : Char} (h : e.opensWith c = true) :
    isLetter c = e.isWord := by
  cases e with
  | identifier | boolean => exact h
  | integer => exact isLetter_of_isDigit h
  | unary | binary =>
    obtain rfl : c = '(' := beq_iff_eq.1 h
    rfl

/-- Numbers, and they alone, open with a digit. -/
theorem isDigit_eq_isNumber {e : Expr} {c : Char} (h : e.opensWith c = true) :
    c.isDigit = e.isNumber := by
  have letter : isLetter c = true → c.isDigit = false := fun hl ↦
    Bool.eq_false_iff.2 fun hd ↦ absurd hl (Bool.eq_false_iff.1 (isLetter_of_isDigit hd))
  cases e with
  | identifier | boolean => exact letter h
  | integer => exact h
  | unary | binary =>
    obtain rfl : c = '(' := beq_iff_eq.1 h
    rfl

end Expr

namespace Statement

/-- The names, literals and operators in a statement are such as a text can have there. -/
def WellFormed : Statement → Prop
  | letStatement name value => IsName name ∧ value.WellFormed
  | returnStatement value => value.WellFormed
  | expressionStatement expression => expression.WellFormed

/-- Whether a statement is well-formed can be computed. -/
instance : DecidablePred WellFormed
  | letStatement name value => inferInstanceAs (Decidable (IsName name ∧ value.WellFormed))
  | returnStatement value => inferInstanceAs (Decidable value.WellFormed)
  | expressionStatement expression => inferInstanceAs (Decidable expression.WellFormed)

/-- A binding, a return, and a bare word start with a word. -/
def startsWithWord : Statement → Bool
  | letStatement _ _ | returnStatement _ => true
  | expressionStatement expression => expression.isWord

/-- A bare number starts with a number. -/
def startsWithNumber : Statement → Bool
  | letStatement _ _ | returnStatement _ => false
  | expressionStatement expression => expression.isNumber

/-- A statement merges with the next one if it is a bare word and the next one starts with a
word, or if both are bare numbers. -/
def Merges : Statement → Statement → Prop
  | expressionStatement expression, t =>
    expression.isWord = true ∧ t.startsWithWord = true ∨
      expression.isNumber = true ∧ t.startsWithNumber = true
  | _, _ => False

/-- Whether two statements merge can be computed. -/
instance : DecidableRel Merges
  | letStatement _ _, _ => inferInstanceAs (Decidable False)
  | returnStatement _, _ => inferInstanceAs (Decidable False)
  | expressionStatement _, _ => inferInstanceAs (Decidable (_ ∧ _ ∨ _ ∧ _))

/-- The characters that would run on with the written form of a statement. A semicolon runs on
with none. -/
def runsOn : Statement → Char → Bool
  | letStatement _ _ | returnStatement _ => fun _ ↦ false
  | expressionStatement expression => expression.runsOn

theorem render_let (name : String) (value : Expr) :
    (letStatement name value).render.toList =
      Keyword.letWord.spelling.toList ++ ' ' :: (name.toList ++
        ' ' :: (Operator.assign.spelling.toList ++
          ' ' :: (value.render.toList ++ Punctuation.semicolon.spelling.toList))) := by
  simp [render, Keyword.spelling, Operator.spelling, Punctuation.spelling]

theorem render_return (value : Expr) :
    (returnStatement value).render.toList =
      Keyword.returnWord.spelling.toList ++
        ' ' :: (value.render.toList ++ Punctuation.semicolon.spelling.toList) := by
  simp [render, Keyword.spelling, Punctuation.spelling]

/-- The first character of a written statement tells what the statement starts with. -/
theorem WellFormed.exists_first {s : Statement} (hs : s.WellFormed) :
    ∃ c cs, s.render.toList = c :: cs ∧ isLetter c = s.startsWithWord ∧
      c.isDigit = s.startsWithNumber := by
  cases s with
  | letStatement name value => exact ⟨_, _, render_let name value, rfl, rfl⟩
  | returnStatement value => exact ⟨_, _, render_return value, rfl, rfl⟩
  | expressionStatement expression =>
    obtain ⟨c, cs, h, hc⟩ := Expr.WellFormed.exists_first hs
    exact ⟨c, cs, h, Expr.isLetter_eq_isWord hc, Expr.isDigit_eq_isNumber hc⟩

/-- A statement runs on into the next one exactly if the two merge. -/
theorem leaves_runsOn_iff {s t : Statement} (ht : t.WellFormed) (rest : List Char) :
    Leaves s.runsOn (t.render.toList ++ rest) ↔ ¬ s.Merges t := by
  obtain ⟨c, cs, h, hw, hn⟩ := ht.exists_first
  rw [h, List.cons_append, leaves_cons]
  rcases s with ⟨name, value⟩ | value | e
  · simp [runsOn, Merges]
  · simp [runsOn, Merges]
  · rw [Merges, ← hw, ← hn]
    cases e <;> simp [runsOn, Expr.runsOn, Expr.isWord, Expr.isNumber]

/-! ### Written statements are clauses -/

/-- Written at an offset in front of `rest`, a statement is read as a clause that stands for it
and costs what its expression needs, and what is left to read is `rest`. The expression is an
atom, so it does not start with a minus. -/
def ClauseAt (s : Statement) (here : Nat) (rest : List Char) : Prop :=
  ∃ (c : Clause) (there : Nat), c.IsDerived ∧ Nonterminal.atom.Derives c.value ∧ c.tree = s ∧
    c.value.cost = s.expr.need ∧
    (⟨here, s.render.toList ++ rest⟩ : Cursor).pending =
      c.tokens ++ (⟨there, rest⟩ : Cursor).pending

/-- Behind an opening, a value with its semicolon makes a clause. -/
theorem exists_clause_of_opening {o : Opening} {value : Expr} {before : Cursor} {here : Nat}
    {rest : List Char}
    (h : before.pending = o.tokens ++ (⟨here, value.render.toList ++
      (Punctuation.semicolon.spelling.toList ++ rest)⟩ : Cursor).pending)
    (ho : o.IsDerived) (hv : value.WellFormed) :
    ∃ (c : Clause) (there : Nat), c.IsDerived ∧ Nonterminal.atom.Derives c.value ∧
      c.tree = o.statement value ∧ c.value.cost = value.need ∧
      before.pending = c.tokens ++ (⟨there, rest⟩ : Cursor).pending := by
  have stop : Leaves value.runsOn (Punctuation.semicolon.spelling.toList ++ rest) :=
    value.leaves_runsOn rfl rfl rest
  obtain ⟨p, there, hp, rfl, hcost, ht⟩ := hv.phraseAt here stop
  let t : Token := .spelled (.punctuation .semicolon) there Punctuation.semicolon.spelling.toList
  have hd := Nonterminal.expression_derives_iff.2 hp.tighterThan.lowest
  have semicolon : ∀ u ∈ some t, u.kind = .punctuation .semicolon := by
    rintro u ⟨⟩
    rfl
  refine ⟨⟨o, p, some t⟩, there + byteLength Punctuation.semicolon.spelling.toList,
    ⟨ho, hd, semicolon⟩, hp, rfl, hcost, ?_⟩
  rw [h, ht, Cursor.pending_punctuation]
  simp [Clause.tokens, t]

variable {here : Nat} {rest : List Char}

theorem clauseAt_let {name : String} {value : Expr} (hn : IsName name) (hv : value.WellFormed) :
    (letStatement name value).ClauseAt here rest := by
  have opening := @Cursor.pending_keyword here .letWord
    (' ' :: (name.toList ++ ' ' :: (Operator.assign.spelling.toList ++
      ' ' :: (value.render.toList ++ (Punctuation.semicolon.spelling.toList ++ rest)))))
    (leaves_cons.2 rfl)
  rw [Cursor.pending_blank rfl, hn.pending _ (leaves_cons.2 rfl), Cursor.pending_blank rfl,
    Cursor.pending_operator _ .assign fun _ ↦ leaves_cons.2 rfl, Cursor.pending_blank rfl]
    at opening
  obtain ⟨c, there, hc, hp, htree, hcost, ht⟩ :=
    exists_clause_of_opening (o := .binding _ _ _) opening ⟨rfl, rfl, rfl⟩ hv
  refine ⟨c, there, hc, hp, ?_, hcost, ?_⟩
  · rw [htree]
    exact congrArg (letStatement · value) String.ofList_toList
  · rw [← ht, render_let]
    simp only [List.append_assoc, List.cons_append]

theorem clauseAt_return {value : Expr} (hv : value.WellFormed) :
    (returnStatement value).ClauseAt here rest := by
  have opening := @Cursor.pending_keyword here .returnWord
    (' ' :: (value.render.toList ++ (Punctuation.semicolon.spelling.toList ++ rest)))
    (leaves_cons.2 rfl)
  rw [Cursor.pending_blank rfl] at opening
  obtain ⟨c, there, hc, hp, htree, hcost, ht⟩ :=
    exists_clause_of_opening (o := .result _) opening rfl hv
  refine ⟨c, there, hc, hp, htree, hcost, ?_⟩
  rw [← ht, render_return]
  simp only [List.append_assoc, List.cons_append]

theorem clauseAt_expression {e : Expr} (he : e.WellFormed) (hr : Leaves e.runsOn rest) :
    (expressionStatement e).ClauseAt here rest := by
  obtain ⟨p, there, hp, rfl, hcost, ht⟩ := he.phraseAt here hr
  have hd := Nonterminal.expression_derives_iff.2 hp.tighterThan.lowest
  refine ⟨⟨.bare, p, none⟩, there, ⟨trivial, hd, by simp⟩, hp, rfl, hcost, ?_⟩
  simpa [Clause.tokens, Opening.tokens, render] using ht

/-- **The written form of a statement is a clause** that stands for it and costs what its
expression needs, wherever it is written and whatever follows without running on. -/
theorem WellFormed.clauseAt {s : Statement} (hs : s.WellFormed) (here : Nat)
    (hr : Leaves s.runsOn rest) : s.ClauseAt here rest := by
  cases s with
  | letStatement name value => exact clauseAt_let hs.1 hs.2
  | returnStatement value => exact clauseAt_return hs
  | expressionStatement e => exact clauseAt_expression hs hr

end Statement

/-! ### Statements that stay apart -/

/-- No statement merges with the next one. -/
def StayApart (ss : List Statement) : Prop := ss.IsChain fun s t ↦ ¬ s.Merges t

/-- Whether statements stay apart can be computed. -/
instance (ss : List Statement) : Decidable (StayApart ss) :=
  inferInstanceAs (Decidable (ss.IsChain _))

/-- The text of statements that are written one after the other. -/
def statementText (ss : List Statement) : List Char := ss.flatMap fun s ↦ s.render.toList

@[simp] theorem statementText_cons (s : Statement) (ss : List Statement) :
    statementText (s :: ss) = s.render.toList ++ statementText ss :=
  List.flatMap_cons

theorem Program.toList_render (p : Program) : p.render.toList = statementText p.statements := by
  rw [render, String.toList_join, List.flatMap_map]
  rfl

/-- Statements stay apart if the first one does not run on into the others and these stay
apart. -/
theorem stayApart_cons {s : Statement} {ss : List Statement} (hss : ∀ t ∈ ss, t.WellFormed) :
    StayApart (s :: ss) ↔ Leaves s.runsOn (statementText ss) ∧ StayApart ss := by
  rcases ss with - | ⟨t, ss⟩
  · simp [StayApart, statementText]
  · rw [statementText_cons, Statement.leaves_runsOn_iff (hss t List.mem_cons_self)]
    exact List.isChain_cons_cons

/-- Statements that stay apart are written as clauses that are parsed to them. -/
theorem exists_clauses {ss : List Statement} (hss : ∀ s ∈ ss, s.WellFormed) (ha : StayApart ss)
    (here : Nat) :
    ∃ cs : List Clause, (∀ c ∈ cs, c.IsDerived ∧ Nonterminal.atom.Derives c.value ∧
        c.value.cost = c.tree.expr.need) ∧
      cs.map Clause.tree = ss ∧
      (⟨here, statementText ss⟩ : Cursor).pending = cs.flatMap Clause.tokens := by
  induction ss generalizing here with
  | nil => exact ⟨[], by simp, rfl, Cursor.pending_nil here⟩
  | cons s ss ih =>
    rw [List.forall_mem_cons] at hss
    obtain ⟨hr, behind⟩ := (stayApart_cons hss.2).1 ha
    obtain ⟨c, there, hc, hp, rfl, hcost, ht⟩ := hss.1.clauseAt here hr
    obtain ⟨cs, hcs, rfl, hts⟩ := ih hss.2 behind there
    refine ⟨c :: cs, List.forall_mem_cons.2 ⟨⟨hc, hp, hcost⟩, hcs⟩, rfl, ?_⟩
    rw [statementText_cons, ht, hts, List.flatMap_cons]

/-! ### Merged statements are fewer tokens -/

/-- The runs of a class of characters are lexemes: where no character of the class follows, a run
is one token, and it leaves a trace. -/
def RunsAreLexemes (p : Char → Bool) : Prop :=
  ∀ (here : Nat) (run rest : List Char), run ≠ [] → (∀ c ∈ run, p c = true) → Leaves p rest →
    ∃ t : Token, t.kind.leavesTrace = true ∧
      (⟨here, run ++ rest⟩ : Cursor).pending = t :: (⟨here + byteLength run, rest⟩ : Cursor).pending

theorem runsAreLexemes_isLetter : RunsAreLexemes isLetter := by
  intro here run rest hn hl hr
  refine ⟨_, ?_, Cursor.pending_word here hn hl hr⟩
  rw [Token.spelled, TokenKind.ofWord]
  split <;> rfl

theorem runsAreLexemes_isDigit : RunsAreLexemes Char.isDigit :=
  fun here _ _ hn hd hr ↦ ⟨_, rfl, Cursor.pending_number here hn hd hr⟩

/-- A run in front of more of its class adds no token. -/
theorem RunsAreLexemes.traces_append {p : Char → Bool} (hp : RunsAreLexemes p) (here : Nat)
    {run rest : List Char} (hn : run ≠ []) (hrun : ∀ c ∈ run, p c = true)
    (hr : ¬ Leaves p rest) :
    traces (⟨here, run ++ rest⟩ : Cursor).pending =
      traces (⟨here + byteLength run, rest⟩ : Cursor).pending := by
  -- The text behind the run starts with another run, which the two make one with.
  have more : ∀ c ∈ rest.takeWhile p, p c = true := fun c ↦ List.mem_takeWhile_imp
  have some_more : rest.takeWhile p ≠ [] := by
    obtain ⟨c, cs, rfl, hc⟩ := not_leaves_iff.1 hr
    simp [hc]
  have tail := leaves_dropWhile p rest
  obtain ⟨t, ht, both⟩ := hp here (run ++ rest.takeWhile p) (rest.dropWhile p) (by simp [hn])
    (List.forall_mem_append.2 ⟨hrun, more⟩) tail
  obtain ⟨u, hu, second⟩ := hp (here + byteLength run) (rest.takeWhile p) (rest.dropWhile p)
    some_more more tail
  rw [List.append_assoc, List.takeWhile_append_dropWhile, byteLength_append, ← Nat.add_assoc]
    at both
  rw [List.takeWhile_append_dropWhile] at second
  rw [both, second, traces_cons, traces_cons, ht, hu]

/-- What runs on into the text behind it is a leaf: it is written as one run. -/
theorem Expr.WellFormed.run_of_not_leaves {e : Expr} (he : e.WellFormed) {rest : List Char}
    (hr : ¬ Leaves e.runsOn rest) :
    RunsAreLexemes e.runsOn ∧ e.render.toList ≠ [] ∧ (∀ c ∈ e.render.toList, e.runsOn c = true) ∧
      e.size = 1 := by
  cases e with
  | identifier name =>
    exact ⟨runsAreLexemes_isLetter, String.toList_eq_nil_iff.not.2 he.1,
      List.all_eq_true.1 he.2.1, rfl⟩
  | integer value literal =>
    exact ⟨runsAreLexemes_isDigit, String.toList_eq_nil_iff.not.2 he.1,
      List.all_eq_true.1 he.2.1, rfl⟩
  | boolean value literal =>
    obtain rfl : literal = if value then "true" else "false" := he
    have letters : (if value then "true" else "false").toList.all isLetter = true := by
      cases value <;> decide
    refine ⟨runsAreLexemes_isLetter, ?_, List.all_eq_true.1 letters, rfl⟩
    cases value <;> decide
  | unary | binary =>
    obtain ⟨c, cs, -, hc⟩ := not_leaves_iff.1 hr
    cases hc

/-- The tokens of written statements that leave a trace are at most those that the statements
call for, and fewer if a statement merges with the next one. -/
theorem traces_pending_text {ss : List Statement} (hss : ∀ s ∈ ss, s.WellFormed) (here : Nat) :
    traces (⟨here, statementText ss⟩ : Cursor).pending ≤ (ss.map Statement.size).sum ∧
      (¬ StayApart ss →
        traces (⟨here, statementText ss⟩ : Cursor).pending < (ss.map Statement.size).sum) := by
  induction ss generalizing here with
  | nil => exact ⟨by simp [statementText], fun h ↦ absurd .nil h⟩
  | cons s ss ih =>
    rw [List.forall_mem_cons] at hss
    rw [stayApart_cons hss.2, statementText_cons, List.map_cons, List.sum_cons]
    by_cases hr : Leaves s.runsOn (statementText ss)
    · obtain ⟨c, there, hc, -, rfl, -, ht⟩ := hss.1.clauseAt here hr
      obtain ⟨le, lt⟩ := ih hss.2 there
      rw [ht, traces_append, hc.traces_tokens]
      refine ⟨by omega, fun h ↦ ?_⟩
      have := lt fun ha ↦ h ⟨hr, ha⟩
      omega
    -- A statement that runs on is a leaf without a semicolon. It becomes part of the next lexeme
    -- and adds no token, though it calls for one.
    · rcases s with ⟨name, value⟩ | value | e
      · exact absurd (not_leaves_iff.1 hr) (by simp [Statement.runsOn])
      · exact absurd (not_leaves_iff.1 hr) (by simp [Statement.runsOn])
      · obtain ⟨runs, hn, hrun, hsize⟩ := Expr.WellFormed.run_of_not_leaves hss.1 hr
        obtain ⟨le, -⟩ := ih hss.2 (here + byteLength e.render.toList)
        have merged := runs.traces_append here hn hrun hr
        rw [Statement.render, merged, Statement.size, hsize]
        omega

/-- **Written programs are parsed to themselves exactly if no statement merges with the next
one**, with a limit that allows what each expression needs. -/
theorem parse_render_iff {config : Config} {p : Program} (hp : ∀ s ∈ p.statements, s.WellFormed)
    (hl : ∀ s ∈ p.statements, s.expr.need ≤ config.maxDepth) :
    (parse config p.render).errors = [] ∧ (parse config p.render).program = p ↔
      StayApart p.statements := by
  have start : Cursor.start p.render = ⟨0, statementText p.statements⟩ := by
    rw [Cursor.start, p.toList_render]
  constructor
  · rintro ⟨clean, same⟩
    obtain ⟨cs, hcs, -, -, htree⟩ := exists_derivesProgram_of_parse clean
    have statements_eq : cs.map Clause.tree = p.statements :=
      congrArg Program.statements (htree.symm.trans same)
    -- A parse that gives the statements back has all the tokens that they call for.
    have called_for := hcs.traces_eq
    rw [statements_eq, start] at called_for
    by_contra ha
    exact absurd called_for ((traces_pending_text hp 0).2 ha).ne
  · intro ha
    obtain ⟨cs, hcs, htree, ht⟩ := exists_clauses hp ha 0
    have derives : DerivesProgram (Cursor.start p.render).pending cs :=
      ⟨fun c hc ↦ (hcs c hc).1, by rw [start, ht]⟩
    have joins : MinusJoins cs := by
      refine (List.pairwise_of_forall_mem_list ?_).isChain
      intro c _ d hd _ hminus
      exact (hcs d hd).2.1.not_minus_first (hminus.value (hcs d hd).1)
    have allowed : ∀ c ∈ cs, c.value.cost ≤ config.maxDepth := by
      intro c hc
      rw [(hcs c hc).2.2]
      exact hl c.tree (htree ▸ List.mem_map_of_mem hc)
    rw [parse_of_derivesProgram derives joins allowed, htree]
    exact ⟨rfl, rfl⟩

/-- A number in front of a word, and one in front of a binding, stay apart. -/
theorem parse_render_mixed :
    let p : Program := ⟨[.expressionStatement (.integer 5 "5"),
      .expressionStatement (.identifier "x"), .expressionStatement (.integer 7 "7"),
      .letStatement "a" (.unary .minus (.boolean true "true")),
      .expressionStatement (.identifier "y")]⟩
    (∀ s ∈ p.statements, s.WellFormed) ∧ (∀ s ∈ p.statements, s.expr.need ≤ 3) ∧
      (parse ⟨3⟩ p.render).errors = [] ∧ (parse ⟨3⟩ p.render).program = p := by
  intro p
  have hp : ∀ s ∈ p.statements, s.WellFormed := by decide +kernel
  have hl : ∀ s ∈ p.statements, s.expr.need ≤ (⟨3⟩ : Config).maxDepth := by decide +kernel
  exact ⟨hp, hl, (parse_render_iff hp hl).2 (by decide +kernel)⟩

end MonkeyLang
