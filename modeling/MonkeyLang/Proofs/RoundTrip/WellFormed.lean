import MonkeyLang.Proofs.Lexing.MaximalMunch
import MonkeyLang.Proofs.RoundTrip.Program

/-!
# The trees that a parse hands out

The trees of every program that a text is parsed to, with errors or without, are well-formed: their
names, literals and operators are such as a text can have there, and a number is what its digits
denote. Nothing narrower would do, since every well-formed tree is handed out for some text
(`parse_hands_out_wellFormed`).

Three facts meet here. The tokens of a text are spelled as their kinds ask
(`Cursor.spells_of_mem_pending`), which is a fact about lexemes. The derivation of a statement asks
for tokens of the right kinds and for operators with the right number of operands, so its tree is
well-formed as soon as its tokens are spelled that way (`Clause.IsDerived.wellFormed`). And what is
read comes from a derivation, wherever else the text fails.
-/

namespace MonkeyLang

/-! ### Spellings -/

namespace TokenKind

/-- How a token of a kind is spelled. -/
def Spells : TokenKind → String → Prop
  | identifier, text => IsName text
  | integer, text => text ≠ "" ∧ text.toList.all Char.isDigit = true
  | keyword k, text => text = k.spelling
  | operator op, text => text = op.spelling
  | punctuation p, text => text = p.spelling
  | illegal, text => text.length = 1
  | endOfInput, text => text = ""

end TokenKind

/-- A lexeme is spelled as the kind asks that the tables of the vocabulary give to it. -/
theorem Spelling.Resolves.spells {x : Spelling} {kind : TokenKind} (h : x.Resolves kind) :
    kind.Spells x.text := by
  obtain ⟨cls, text, mem⟩ := x
  cases cls with
  | word =>
    rcases h with ⟨k, hk, rfl⟩ | ⟨hk, rfl⟩
    · exact (Keyword.ofSpelling?_eq_some_iff.1 hk).symm
    · exact ⟨mem.1, List.all_eq_true.2 mem.2, hk⟩
  | number =>
    obtain rfl : kind = .integer := h
    exact ⟨mem.1, List.all_eq_true.2 mem.2⟩
  | sign =>
    rcases h with ⟨op, hop, rfl⟩ | ⟨p, hp, rfl⟩
    · exact (Operator.ofSpelling?_eq_some_iff.1 hop).symm
    · exact (Punctuation.ofSpelling?_eq_some_iff.1 hp).symm
  | stray =>
    obtain rfl : kind = .illegal := h
    obtain ⟨c, rfl, -⟩ := mem
    exact String.length_ofList

/-- **The tokens of a text are spelled as their kinds ask.** -/
theorem Cursor.spells_of_mem_pending {c : Cursor} {t : Token} (h : t ∈ c.pending) :
    t.kind.Spells t.text := by
  obtain ⟨x, here, rfl⟩ := exists_spelling_of_mem_pending h
  rw [Token.spelled, String.ofList_toList]
  exact x.resolves_kind.spells

/-! ### Parsed trees -/

/-- The tree of a phrase is well-formed, if its tokens are spelled as their kinds ask. -/
theorem Phrase.TighterThan.wellFormed {p : Phrase} {floor : Precedence} (h : p.TighterThan floor)
    (hs : ∀ t ∈ p.tokens, t.kind.Spells t.text) : p.tree.WellFormed := by
  induction p generalizing floor with
  | identifier t =>
    have spelled := hs t (List.mem_singleton_self t)
    have hk : t.kind = .identifier := h
    rw [hk] at spelled
    exact spelled
  | integer t =>
    have spelled := hs t (List.mem_singleton_self t)
    rw [h.1] at spelled
    exact ⟨spelled.1, spelled.2, rfl, Int.ofNat_le.2 h.2⟩
  | boolean value t =>
    have spelled := hs t (List.mem_singleton_self t)
    have hk : t.kind = .keyword (if value then .trueWord else .falseWord) := h
    rw [hk] at spelled
    cases value <;> exact spelled
  | unary op sign operand ih =>
    obtain ⟨-, hop, hx⟩ := h
    rw [tokens, List.forall_mem_cons] at hs
    exact ⟨Operator.isUnary_iff.1 hop, ih hx hs.2⟩
  | binary op left sign right ihl ihr =>
    obtain ⟨⟨-, hop⟩, -, hl, hr⟩ := h
    rw [tokens, List.forall_mem_append, List.forall_mem_cons] at hs
    exact ⟨Operator.isBinary_iff.1 hop, ihl hl hs.1, ihr hr hs.2.2⟩
  | parens opening inner closing ih =>
    rw [tokens, List.forall_mem_cons, List.forall_mem_append] at hs
    exact ih h.2.1 hs.2.1

/-- The tree of a clause is well-formed, if its tokens are spelled as their kinds ask. -/
theorem Clause.IsDerived.wellFormed {c : Clause} (hc : c.IsDerived)
    (hs : ∀ t ∈ c.tokens, t.kind.Spells t.text) : c.tree.WellFormed := by
  obtain ⟨o, p, s⟩ := c
  obtain ⟨ho, hp, -⟩ := hc
  rw [tokens, List.forall_mem_append, List.forall_mem_append] at hs
  obtain ⟨opening, value, -⟩ := hs
  have tree := (Nonterminal.expression_derives_iff.1 hp).wellFormed value
  cases o with
  | binding word name sign =>
    have named : name.kind.Spells name.text := opening name (by simp [Opening.tokens])
    rw [ho.2.1] at named
    exact ⟨named, tree⟩
  | result word => exact tree
  | bare => exact tree

/-- **What is read off tokens that are spelled as their kinds ask is well-formed**, whether or not
there are errors. -/
theorem Frame.wellFormed_of_spells {f : Frame} {tokens : List Token}
    (hs : ∀ t ∈ tokens, t.kind.Spells t.text) {s : Statement} (h : s ∈ f.statements tokens) :
    s.WellFormed := by
  obtain ⟨c, hc, -, rfl, inside⟩ := Frame.exists_clause_of_mem_statements h
  exact hc.wellFormed fun t ht ↦ hs t (inside ht)

/-! ### Parsed programs -/

/-- The trees of parsed programs are well-formed, whether or not there were errors. -/
theorem wellFormed_of_mem_statements {config : Config} {source : String} {s : Statement}
    (h : s ∈ (parse config source).program.statements) : s.WellFormed := by
  rw [parse_eq] at h
  exact Frame.wellFormed_of_spells (fun _ ↦ Cursor.spells_of_mem_pending) h

/-- A well-formed statement is what its written form is parsed to, with a limit that allows what
its expression needs. -/
theorem Statement.WellFormed.parse_render {s : Statement} (hs : s.WellFormed) {config : Config}
    (hl : s.expr.need ≤ config.maxDepth) : parse config s.render = ⟨⟨[s]⟩, []⟩ := by
  obtain ⟨c, there, hc, -, rfl, hcost, ht⟩ := hs.clauseAt 0 (leaves_nil _)
  rw [List.append_nil, Cursor.pending_nil, List.append_nil] at ht
  have derives : DerivesProgram (Cursor.start c.tree.render).pending [c] :=
    ⟨List.forall_mem_singleton.2 hc, by rw [List.flatMap_singleton, Cursor.start, ht]⟩
  exact parse_of_derivesProgram derives (.singleton c)
    (List.forall_mem_singleton.2 (hcost.le.trans hl))

/-- **Every tree that a parse hands out is well-formed**, whatever the limit on nesting and whether
or not there are errors, and every well-formed tree is handed out for some text. -/
theorem parse_hands_out_wellFormed :
    (∀ (config : Config) (source : String), ∀ s ∈ (parse config source).program.statements,
        s.WellFormed) ∧
      ∀ s : Statement, s.WellFormed → ∃ config source, parse config source = ⟨⟨[s]⟩, []⟩ := by
  constructor
  · exact fun config source s hs ↦ wellFormed_of_mem_statements hs
  · exact fun s hs ↦ ⟨⟨s.expr.need⟩, s.render, hs.parse_render le_rfl⟩

end MonkeyLang
