import MonkeyLang.Proofs.Grammar.Joining
import MonkeyLang.Proofs.Reading.Front

/-!
# Lines without semicolons

A text without errors needs no semicolon at its end. Whatever stands on the next line, well-formed
or not, is read as it is alone, unless it goes on with a semicolon or with an operator that may
stand between two operands. An expression that starts a line may start with one such operator, the
minus. That joins: the last statement of the one line and the first of the other are then one
statement, or are refused together because that one is nested too deeply
(`parse_append_newline_of_clean`).

Both halves are about derivations in which minus signs join. The clauses of the first line are
read one by one in front of anything before which the last of them ends
(`Frame.program_flatMap_append`), and that is told by the first token of the next line. In front of
a minus it does not end, and there is one more derivation in which the minus joins
(`DerivesProgram.exists_join`).
-/

namespace MonkeyLang

/-- A clause ends before tokens that start with neither a semicolon nor a binary operator. -/
theorem Clause.endsBefore_of_head? (c : Clause) {rest : List Token}
    (h : ∀ t ∈ rest.head?, t.kind ≠ .punctuation .semicolon ∧
      ∀ op : Operator, op.isBinary = true → t.kind ≠ .operator op) : c.EndsBefore rest := by
  refine fun _ ↦ ⟨binaryAt?_eq_none_iff.2 fun t more op ht hk hb ↦ ?_, fun t ht ↦ (h t ht).1⟩
  exact absurd hk ((h t (by rw [ht, List.head?_cons]; rfl)).2 op hb)

/-! ### Joining two derivations -/

/-- A clause with the tokens of another one in front starts as that one does. -/
theorem Clause.startsWithMinus_of_append {c m : Clause} (hc : c.IsDerived) {more : List Token}
    (h : m.tokens = c.tokens ++ more) (hm : m.StartsWithMinus) : c.StartsWithMinus := by
  obtain ⟨t, behind, ht, -⟩ := hc.exists_first
  rw [StartsWithMinus, h, ht] at hm
  rwa [StartsWithMinus, ht]

/-- A program whose last clause has no semicolon and one that starts with a minus are together a
program in which the last clause of the one and the first of the other are one clause, and the minus
stands between two operands. -/
theorem DerivesProgram.exists_join {ts us : List Token} {cs ds : List Clause} {c d : Clause}
    (hts : DerivesProgram ts (cs ++ [c])) (hcs : MinusJoins (cs ++ [c]))
    (hus : DerivesProgram us (d :: ds)) (hds : MinusJoins (d :: ds)) (hs : c.semicolon? = none)
    (hd : d.StartsWithMinus) :
    ∃ m : Clause, DerivesProgram (ts ++ us) (cs ++ m :: ds) ∧ MinusJoins (cs ++ m :: ds) ∧
      ∀ t ∈ us.head?, t ∈ m.value.binarySigns := by
  obtain ⟨hcs', hc⟩ := List.forall_mem_append.1 hts.derived
  rw [List.forall_mem_singleton] at hc
  obtain ⟨hd', hds'⟩ := List.forall_mem_cons.1 hus.derived
  obtain ⟨m, hm, tokens_eq, semicolon_eq, here⟩ := Clause.exists_join hc hd' hs hd
  refine ⟨m, ⟨List.forall_mem_append.2 ⟨hcs', List.forall_mem_cons.2 ⟨hm, hds'⟩⟩, ?_⟩, ?_, ?_⟩
  · rw [← hts.tokens_eq, ← hus.tokens_eq]
    simp [tokens_eq]
  · obtain ⟨front, -, last⟩ := List.isChain_append.1 hcs
    refine List.isChain_append.2 ⟨front, ?_, ?_⟩
    · exact hds.cons_of_imp fun e he hn ↦ he (semicolon_eq ▸ hn)
    · rintro x hx y ⟨⟩ hn starts
      exact last x hx c rfl hn (Clause.startsWithMinus_of_append hc tokens_eq starts)
  · obtain ⟨t, more, ht, -⟩ := hd'.exists_first
    rw [← hus.tokens_eq, List.flatMap_cons, ht]
    rw [ht] at here
    exact here

/-- A derivation in which minus signs join, and whose clauses but for one cost no more than the
limit allows, is read clause by clause, or that one is refused on the limit. -/
theorem Frame.program_of_joined {f : Frame} {ts : List Token} {cs ds : List Clause} {m : Clause}
    (h : DerivesProgram ts (cs ++ m :: ds)) (hm : MinusJoins (cs ++ m :: ds))
    (hcs : ∀ c ∈ cs, c.value.cost ≤ f.config.maxDepth)
    (hds : ∀ d ∈ ds, d.value.cost ≤ f.config.maxDepth) :
    (f.statements ts = cs.map Clause.tree ++ m.tree :: ds.map Clause.tree ∧ f.errors ts = []) ∨
      ∃ e ∈ f.errors ts, e.cause = .nestingTooDeep f.config.maxDepth := by
  by_cases allowed : m.value.cost ≤ f.config.maxDepth
  · left
    have read := statements_flatMap_tokens (f := f) h.derived hm
      (List.forall_mem_append.2 ⟨hcs, List.forall_mem_cons.2 ⟨allowed, hds⟩⟩)
    rwa [h.tokens_eq, List.map_append, List.map_cons] at read
  · right
    obtain ⟨hcs', hmds⟩ := List.forall_mem_append.1 h.derived
    have hm' := hmds m List.mem_cons_self
    obtain ⟨front, -, last⟩ := List.isChain_append.1 hm
    have ends : ∀ c ∈ cs.getLast?, c.EndsBefore (m.tokens ++ ds.flatMap Clause.tokens) :=
      fun c hc ↦ (Clause.endsBefore_iff hm' _).2 (last c hc m rfl)
    obtain ⟨-, errors⟩ := program_flatMap_append hcs' front hcs ends
    obtain ⟨first, more, e, ht, hread, cause⟩ :=
      f.readStatement_tooDeep hm' (ds.flatMap Clause.tokens) (not_le.1 allowed)
    rw [← h.tokens_eq, List.flatMap_append, List.flatMap_cons, errors, ht,
      errors_cons_of_error hread]
    exact ⟨e.error, List.mem_cons_self, cause⟩

/-- A program whose first token is a minus starts with a clause that does. -/
theorem DerivesProgram.exists_first {ts : List Token} {cs : List Clause} (h : DerivesProgram ts cs)
    (hminus : ∃ t ∈ ts.head?, t.kind = .operator .minus) :
    ∃ c behind, cs = c :: behind ∧ c.StartsWithMinus := by
  obtain ⟨t, ht, hk⟩ := hminus
  rcases cs with - | ⟨c, cs⟩
  · rw [← h.tokens_eq] at ht
    cases ht
  obtain ⟨u, more, hu, -⟩ := (h.derived c List.mem_cons_self).exists_first
  rw [← h.tokens_eq, List.flatMap_cons, hu] at ht
  exact ⟨c, cs, rfl, t, by rw [hu]; exact ht, hk⟩

/-! ### Texts on lines of their own -/

/-- The last clause of a program whose last token is no semicolon has none. -/
theorem DerivesProgram.exists_last {ts : List Token} {cs : List Clause} (h : DerivesProgram ts cs)
    (hlast : ∃ t ∈ ts.getLast?, t.kind ≠ .punctuation .semicolon) :
    ∃ front c, cs = front ++ [c] ∧ c.semicolon? = none := by
  obtain ⟨t, ht, hk⟩ := hlast
  rcases List.eq_nil_or_concat' cs with rfl | ⟨front, c, rfl⟩
  · rw [← h.tokens_eq] at ht
    cases ht
  refine ⟨front, c, rfl, ?_⟩
  rcases hs : c.semicolon? with - | u
  · rfl
  · have semicolon := (h.derived c (List.mem_append_right _ List.mem_cons_self)).semicolon u hs
    rw [← h.tokens_eq] at ht
    simp [Clause.tokens, hs] at ht
    exact absurd (ht ▸ semicolon) hk

/-- **A line without errors ends where the next one starts**, whatever stands there, unless it goes
on with a semicolon or with an operator that may stand between two operands. -/
theorem parse_append_newline_of_head? {config : Config} {a b : String}
    (ha : (parse config a).errors = [])
    (hb : ∀ t ∈ (tokenize b).head?, t.kind ≠ .punctuation .semicolon ∧
      ∀ op : Operator, op.isBinary = true → t.kind ≠ .operator op) :
    parse config (a ++ "\n" ++ b) =
      ⟨⟨(parse config a).program.statements ++ (parse config b).program.statements⟩,
        (parse config b).errors.map (ParseError.shift (a.utf8ByteSize + 1))⟩ := by
  obtain ⟨cs, hcs, hm, hl, program_eq⟩ := exists_derivesProgram_of_parse ha
  let n : Nat := (a ++ "\n").utf8ByteSize
  have ends : ∀ c ∈ cs.getLast?, c.EndsBefore ((Cursor.start b).shift n).pending := by
    refine fun c _ ↦ c.endsBefore_of_head? fun t ht ↦ ?_
    rw [Cursor.pending_shift, List.head?_map] at ht
    obtain ⟨u, hu, rfl⟩ := Option.map_eq_some_iff.1 ht
    exact hb u (Cursor.mem_head?_tokens hu)
  obtain ⟨first, clean⟩ := Frame.program_flatMap_append
    (f := sourceFrame config (a ++ "\n" ++ b)) hcs.derived hm hl ends
  obtain ⟨statements, errors⟩ := sourceFrame_behind config (a ++ "\n") b
  rw [parse_eq, Cursor.pending_start_newline, ← hcs.tokens_eq, first, clean, statements, errors,
    program_eq, utf8ByteSize_append_newline]

/-- Two lines run on into each other at a token of the second one: the token stands between two
operands of one statement, which takes the place of the last statement of the first line and the
first statement of the second, or the two are refused because it is nested too deeply. -/
def RunsOnAt (config : Config) (a b : String) (t : Token) : Prop :=
  ∃ (m : Clause) (front behind : List Statement) (last next : Statement),
    m.IsDerived ∧ m.tokens <:+: (tokenize (a ++ "\n" ++ b)).dropLast ∧
      t.shift (a.utf8ByteSize + 1) ∈ m.value.binarySigns ∧
      (parse config a).program.statements = front ++ [last] ∧
      (parse config b).program.statements = next :: behind ∧
      (parse config (a ++ "\n" ++ b) = ⟨⟨front ++ m.tree :: behind⟩, []⟩ ∨
        ∃ e ∈ (parse config (a ++ "\n" ++ b)).errors, e.cause = .nestingTooDeep config.maxDepth)

/-- Lines that run on into each other are not parsed as if each stood alone, without an error in the
second one. -/
theorem RunsOnAt.parse_ne {config : Config} {a b : String} {t : Token} (h : RunsOnAt config a b t) :
    parse config (a ++ "\n" ++ b) ≠
      ⟨⟨(parse config a).program.statements ++ (parse config b).program.statements⟩, []⟩ := by
  obtain ⟨m, front, behind, last, next, -, -, -, ha, hb, joined | ⟨e, he, -⟩⟩ := h
  · intro same
    have statements := congrArg (fun o ↦ o.program.statements.length) (joined.symm.trans same)
    simp only [ha, hb, List.length_append, List.length_cons, List.length_nil] at statements
    omega
  · intro same
    rw [same] at he
    cases he

/-- **A minus at the start of the next line runs on** from a line without a semicolon, if neither
line has an error. -/
theorem runsOnAt_of_minus {config : Config} {a b : String} (ha : (parse config a).errors = [])
    (hlast : ∃ t ∈ (tokenize a).dropLast.getLast?, t.kind ≠ .punctuation .semicolon)
    (hb : (parse config b).errors = []) {t : Token} (ht : t ∈ (tokenize b).head?)
    (hk : t.kind = .operator .minus) : RunsOnAt config a b t := by
  obtain ⟨cs, hcs, hm, hl, program_eq⟩ := exists_derivesProgram_of_parse ha
  rw [dropLast_tokenize] at hlast
  obtain ⟨front, c, rfl, no_semicolon⟩ := hcs.exists_last hlast
  obtain ⟨more, pending_eq⟩ := Cursor.exists_pending_of_mem_head? ht (by simp [hk])
  let f : Frame := sourceFrame config (a ++ "\n" ++ b)
  let behind : Cursor := (Cursor.start b).shift (a ++ "\n").utf8ByteSize
  have tokens_eq : (Cursor.start (a ++ "\n" ++ b)).pending =
      (Cursor.start a).pending ++ behind.pending := Cursor.pending_start_newline a b
  -- The second line has a derivation behind the first one, and that starts with the minus.
  have first : t.shift (a.utf8ByteSize + 1) ∈ behind.pending.head? := by
    rw [Cursor.pending_shift, pending_eq, utf8ByteSize_append_newline]
    rfl
  obtain ⟨statements, errors⟩ := sourceFrame_behind config (a ++ "\n") b
  have clean : f.errors behind.pending = [] := by rw [errors, hb, List.map_nil]
  obtain ⟨ds, hds, hdm, hdl, trees⟩ := Frame.exists_derivesProgram_of_errors clean
  obtain ⟨d, ds, rfl, starts⟩ := hds.exists_first ⟨_, first, hk⟩
  obtain ⟨m, hjoined, hjm, here⟩ := hcs.exists_join hm hds hdm no_semicolon starts
  rw [List.forall_mem_append] at hl
  rw [List.forall_mem_cons] at hdl
  rw [← tokens_eq] at hjoined
  have inside : m.tokens <:+: (Cursor.start (a ++ "\n" ++ b)).pending :=
    ⟨front.flatMap Clause.tokens, ds.flatMap Clause.tokens, by
      rw [← hjoined.tokens_eq, List.flatMap_append, List.flatMap_cons, List.append_assoc]⟩
  refine ⟨m, front.map Clause.tree, ds.map Clause.tree, c.tree, d.tree,
    hjoined.derived m (List.mem_append_right _ List.mem_cons_self), ?_, here _ first, ?_, ?_,
    (Frame.program_of_joined (f := f) hjoined hjm hl.1 hdl.2).imp_left ?_⟩
  · rwa [dropLast_tokenize]
  · rw [program_eq, List.map_append]
    rfl
  · exact statements.symm.trans trees
  · rintro ⟨joined, none_met⟩
    rw [parse_eq, joined, none_met]

/-- A line without errors starts with neither a semicolon nor a binary operator other than the
minus. -/
theorem ne_operator_of_clean {config : Config} {b : String} (hb : (parse config b).errors = [])
    {t : Token} (ht : t ∈ (tokenize b).head?) : t.kind ≠ .punctuation .semicolon ∧
      ∀ op : Operator, op.isBinary = true → op ≠ .minus → t.kind ≠ .operator op := by
  by_cases hend : t.kind = .endOfInput
  · simp [hend]
  obtain ⟨more, pending_eq⟩ := Cursor.exists_pending_of_mem_head? ht hend
  obtain ⟨cs, hcs, -⟩ := exists_derivesProgram_of_parse hb
  rcases cs with - | ⟨c, cs⟩
  · rw [pending_eq] at hcs
    cases hcs.tokens_eq
  obtain ⟨u, behind, hu, starts⟩ := (hcs.derived c List.mem_cons_self).exists_first
  have tokens_eq := hcs.tokens_eq
  rw [pending_eq, List.flatMap_cons, hu] at tokens_eq
  obtain ⟨rfl, -⟩ := List.cons.inj tokens_eq
  constructor
  · intro hk
    rw [hk] at starts
    revert starts
    decide
  · intro op hop hminus hk
    rw [hk] at starts
    revert starts hop hminus
    cases op <;> decide

/-- **Programs compose line by line without semicolons.** A text without errors, of which the last
token is no semicolon, and the text on the next line are parsed as if each stood alone, if the
second one starts with neither a semicolon nor an operator that may stand between two operands. If
the second one has no errors either, a minus is the one first token that makes a difference: the two
lines then run on into each other. -/
theorem parse_append_newline_of_clean {config : Config} {a b : String}
    (ha : (parse config a).errors = [])
    (hlast : ∃ t ∈ (tokenize a).dropLast.getLast?, t.kind ≠ .punctuation .semicolon) :
    let apart : ParseOutput :=
      ⟨⟨(parse config a).program.statements ++ (parse config b).program.statements⟩,
        (parse config b).errors.map (ParseError.shift (a.utf8ByteSize + 1))⟩
    ((∀ t ∈ (tokenize b).head?, t.kind ≠ .punctuation .semicolon ∧
        ∀ op ∈ [Operator.plus, .minus, .asterisk, .slash, .lt, .gt, .eqEq, .notEq],
          t.kind ≠ .operator op) → parse config (a ++ "\n" ++ b) = apart) ∧
      ((parse config b).errors = [] →
        (parse config (a ++ "\n" ++ b) = apart ↔
            ∀ t ∈ (tokenize b).head?, t.kind ≠ .operator .minus) ∧
          ∀ t ∈ (tokenize b).head?, t.kind = .operator .minus → RunsOnAt config a b t) := by
  intro apart
  have alone : (∀ t ∈ (tokenize b).head?, t.kind ≠ .punctuation .semicolon ∧
      ∀ op : Operator, op.isBinary = true → t.kind ≠ .operator op) →
        parse config (a ++ "\n" ++ b) = apart := parse_append_newline_of_head? ha
  refine ⟨fun h ↦ alone fun t ht ↦ ⟨(h t ht).1, fun op hop ↦ ?_⟩, fun hb ↦ ⟨⟨?_, ?_⟩, ?_⟩⟩
  · exact (h t ht).2 op (Operator.isBinary_iff.1 hop)
  · intro same t ht hk
    have joins := (runsOnAt_of_minus ha hlast hb ht hk).parse_ne
    rw [same] at joins
    simp [apart, hb] at joins
  · intro h
    refine alone fun t ht ↦ ⟨(ne_operator_of_clean hb ht).1, fun op hop hk ↦ ?_⟩
    by_cases hminus : op = .minus
    · exact h t ht (hminus ▸ hk)
    · exact (ne_operator_of_clean hb ht).2 op hop hminus hk
  · exact fun t ht hk ↦ runsOnAt_of_minus ha hlast hb ht hk

/-- A binding without a semicolon, in front of a line that starts with a bang and has an error, and
in front of one that starts with a minus and has none. -/
theorem parse_append_newline_of_clean_let :
    (parse ⟨8⟩ "let x = (1 + y) * 2").errors = [] ∧
      (∃ t ∈ (tokenize "let x = (1 + y) * 2").dropLast.getLast?,
        t.kind ≠ .punctuation .semicolon) ∧
      parse ⟨8⟩ ("let x = (1 + y) * 2" ++ "\n" ++ "!z; ) (") =
        ⟨⟨[.letStatement "x" (.binary .asterisk (.binary .plus (.integer 1 "1") (.identifier "y"))
            (.integer 2 "2")), .expressionStatement (.unary .bang (.identifier "z"))]⟩,
          [⟨.noOperand (.punctuation .rparen), ⟨24, 25⟩⟩]⟩ ∧
      ∃ t ∈ (tokenize "-w * 3; v").head?,
        RunsOnAt ⟨8⟩ "let x = (1 + y) * 2" "-w * 3; v" t := by
  have clean : (parse ⟨8⟩ "let x = (1 + y) * 2").errors = [] := by decide +kernel
  have last : (tokenize "let x = (1 + y) * 2").dropLast.getLast? =
      some ⟨.integer, "2", ⟨18, 19⟩⟩ := by decide +kernel
  have open_end : ∃ t ∈ (tokenize "let x = (1 + y) * 2").dropLast.getLast?,
      t.kind ≠ .punctuation .semicolon := ⟨_, last, by decide⟩
  have bang : (tokenize "!z; ) (").head? = some ⟨.operator .bang, "!", ⟨0, 1⟩⟩ := by
    decide +kernel
  have minus : (tokenize "-w * 3; v").head? = some ⟨.operator .minus, "-", ⟨0, 1⟩⟩ := by
    decide +kernel
  have starts : ∀ t ∈ (tokenize "!z; ) (").head?, t.kind ≠ .punctuation .semicolon ∧
      ∀ op ∈ [Operator.plus, .minus, .asterisk, .slash, .lt, .gt, .eqEq, .notEq],
        t.kind ≠ .operator op := by
    rw [bang]
    rintro t ⟨⟩
    exact ⟨by decide, by decide⟩
  have next_clean : (parse ⟨8⟩ "-w * 3; v").errors = [] := by decide +kernel
  refine ⟨clean, open_end, ((parse_append_newline_of_clean clean open_end).1 starts).trans ?_,
    _, minus, ((parse_append_newline_of_clean clean open_end).2 next_clean).2 _ minus rfl⟩
  decide +kernel

end MonkeyLang
