import MonkeyLang.Proofs.Reading.Program

/-!
# Boundaries between statements

A statement that fails is given up at a boundary: a semicolon, a word that starts a statement, or
the end of the input. No reader passes one. From where a reader begins to where it stands in the end
there is no boundary, and no phrase ends with one (`Reading.StaysClear`), so a statement that fails
has none behind its first token (`Frame.clearTo_of_readStatement_error`). And recovery passes
whatever is no boundary (`ClearTo.toBoundary_eq`).
-/

namespace MonkeyLang

/-- The kinds of token at which a failed statement may be given up: a semicolon, a word that starts
a statement, and the end of the input. -/
def TokenKind.isBoundary : TokenKind → Bool
  | keyword .letWord | keyword .returnWord | punctuation .semicolon | endOfInput => true
  | _ => false

/-! ### Readers pass no boundary -/

/-- From some tokens to the last ones of them, no boundary is passed. -/
def ClearTo (tokens stand : List Token) : Prop :=
  ∃ passed, passed ++ stand = tokens ∧ ∀ t ∈ passed, t.kind.isBoundary = false

namespace ClearTo

theorem refl (tokens : List Token) : ClearTo tokens tokens := ⟨[], rfl, by simp⟩

theorem cons {t : Token} {rest stand : List Token} (h : ClearTo rest stand)
    (ht : t.kind.isBoundary = false) : ClearTo (t :: rest) stand := by
  obtain ⟨passed, rfl, clear⟩ := h
  exact ⟨t :: passed, rfl, List.forall_mem_cons.2 ⟨ht, clear⟩⟩

theorem trans {tokens between stand : List Token} (h : ClearTo tokens between)
    (h' : ClearTo between stand) : ClearTo tokens stand := by
  obtain ⟨passed, rfl, clear⟩ := h
  obtain ⟨passed', rfl, clear'⟩ := h'
  exact ⟨passed ++ passed', List.append_assoc _ _ _, List.forall_mem_append.2 ⟨clear, clear'⟩⟩

/-- What is reached without passing a boundary stands at the end. -/
theorem suffix {tokens stand : List Token} (h : ClearTo tokens stand) : stand <:+ tokens := by
  obtain ⟨passed, rfl, -⟩ := h
  exact List.suffix_append passed stand

end ClearTo

/-- A reading of the tokens that passes no boundary, and of which the phrase does not end with
one. -/
structure Reading.StaysClear {α : Type} (r : Reading α) (tokens : List Token) : Prop where
  clear : ClearTo tokens r.stand
  last : ∀ p, r = .ok p → p.last.kind.isBoundary = false

namespace Reading.StaysClear

variable {α β : Type} {r : Reading α} {tokens : List Token} {t : Token}

/-- A reader that fails where it begins passes nothing. -/
theorem error_here {e : Failure} (h : e.stand = tokens) :
    Reading.StaysClear (.error e : Reading α) tokens :=
  ⟨h ▸ .refl _, by rintro p ⟨⟩⟩

/-- A phrase of one token passes nothing, and ends with that token. -/
theorem ok_here {value : α} {rest : List Token} (ht : t.kind.isBoundary = false) :
    Reading.StaysClear (.ok ⟨value, t, rest⟩ : Reading α) (t :: rest) :=
  ⟨.refl _, by rintro p ⟨⟩; exact ht⟩

theorem map (h : r.StaysClear tokens) (g : α → β) :
    Reading.StaysClear (r.map (.map g)) tokens := by
  refine ⟨by rw [Reading.stand_map]; exact h.clear, fun p hp ↦ ?_⟩
  obtain ⟨x, hx, rfl⟩ := Reading.map_eq_ok_iff.1 hp
  exact h.last x hx

/-- What stays clear does so behind tokens that are clear. -/
theorem of_clearTo {between : List Token} (h : r.StaysClear between)
    (hc : ClearTo tokens between) : r.StaysClear tokens :=
  ⟨hc.trans h.clear, h.last⟩

theorem cons {rest : List Token} (h : r.StaysClear rest) (ht : t.kind.isBoundary = false) :
    r.StaysClear (t :: rest) :=
  h.of_clearTo ((ClearTo.refl rest).cons ht)

end Reading.StaysClear

namespace Frame

variable (f : Frame)

/-- A token of the kind due is found behind the last one, or reading stays on that one. -/
theorem staysClear_expect {kind : TokenKind} (hk : kind.isBoundary = false) {last : Token}
    (hl : last.kind.isBoundary = false) (rest : List Token) :
    (f.expect kind last rest).StaysClear (last :: rest) := by
  have due : kind ≠ .endOfInput := by
    rintro rfl
    cases hk
  rcases h : f.expect kind last rest with e | p
  · refine .error_here ?_
    rw [expect] at h
    split at h
    · cases h
    · obtain rfl := Except.error.inj h
      rfl
  · obtain ⟨t, behind, rfl, rfl, rfl⟩ := (f.expect_eq_ok_iff due).1 h
    exact (Reading.StaysClear.ok_here hk).cons hl

/-- Operands stay clear, if the expressions inside them do. -/
theorem staysClear_readOperand {inner : Precedence → List Token → Reading Expr}
    (hi : ∀ floor tokens, (inner floor tokens).StaysClear tokens) (tokens : List Token) :
    (f.readOperand inner tokens).StaysClear tokens := by
  have of_kind : ∀ {t : Token} {k : TokenKind}, t.kind = k → k.isBoundary = false →
      t.kind.isBoundary = false := by
    rintro t _ rfl hk
    exact hk
  cases tokens with
  | nil => exact .error_here rfl
  | cons t rest =>
    rw [readOperand]
    split
    · rename_i hk
      exact .ok_here (of_kind hk rfl)
    · rename_i hk
      rw [readInteger]
      split
      · exact .ok_here (of_kind hk rfl)
      · exact .error_here rfl
    · rename_i hk
      exact .ok_here (of_kind hk rfl)
    · rename_i hk
      exact .ok_here (of_kind hk rfl)
    · rename_i op hk
      split
      · exact ((hi .unary rest).map _).cons (of_kind hk rfl)
      · exact .error_here rfl
    · rename_i hk
      have inside := (hi .lowest rest).cons (t := t) (of_kind hk rfl)
      split
      · rename_i e he
        rw [he] at inside
        exact ⟨inside.clear, by rintro p ⟨⟩⟩
      · rename_i p hp
        rw [hp] at inside
        have closing := f.staysClear_expect
          (show (TokenKind.punctuation .rparen).isBoundary = false from rfl)
          (inside.last p rfl) p.rest
        exact (closing.map _).of_clearTo inside.clear
    · exact .error_here rfl

/-- **Expressions stay clear**, and so does what extends a phrase that does not end with a
boundary. -/
theorem staysClear_readExpression (levels : Nat) :
    (∀ floor tokens, (f.readExpression levels floor tokens).StaysClear tokens) ∧
      ∀ floor (left : Parsed Expr), left.last.kind.isBoundary = false →
        (f.extend levels floor left).StaysClear left.stand := by
  have unextended : ∀ {left : Parsed Expr}, left.last.kind.isBoundary = false →
      Reading.StaysClear (.ok left : Reading Expr) left.stand :=
    fun hl ↦ ⟨.refl _, by rintro p ⟨⟩; exact hl⟩
  induction levels with
  | zero =>
    constructor
    · intro floor tokens
      rw [readExpression]
      exact .error_here rfl
    · intro floor left hl
      rw [extend]
      split
      · exact unextended hl
      · exact .error_here rfl
  | succ levels ih =>
    obtain ⟨reads, extended⟩ := ih
    constructor
    · intro floor tokens
      have operand := f.staysClear_readOperand reads tokens
      rw [readExpression]
      split
      · rename_i e he
        rwa [he] at operand
      · rename_i left hleft
        rw [hleft] at operand
        exact (extended floor left (operand.last left rfl)).of_clearTo operand.clear
    · intro floor left hl
      rw [extend]
      split
      · exact unextended hl
      · rename_i op rest h
        obtain ⟨t, ht, hk, -⟩ := binaryAt?_eq_some_iff.1 h
        have sign : t.kind.isBoundary = false := by rw [hk]; rfl
        have right : (f.readExpression levels op.rightFloor rest).StaysClear left.stand := by
          rw [Parsed.stand, ht]
          exact ((reads op.rightFloor rest).cons sign).cons hl
        split
        · rename_i e he
          rwa [he] at right
        · rename_i p hp
          rw [hp] at right
          let grown : Parsed Expr := p.map (.binary op left.value)
          exact (extended floor grown (right.last p rfl)).of_clearTo right.clear

/-- A value that fails has passed no boundary. -/
theorem clearTo_of_readValue_error {tokens : List Token} {e : Failure}
    (h : f.readValue tokens = .error e) : ClearTo tokens e.stand := by
  have clear := ((f.staysClear_readExpression f.config.maxDepth).1 .lowest tokens).clear
  rwa [Reading.map_eq_error_iff.1 h] at clear

/-- **A statement that fails has passed no boundary** behind its first token. -/
theorem clearTo_of_readStatement_error {first : Token} {more : List Token} {e : Failure}
    (h : f.readStatement first more = .error e) :
    e.stand = first :: more ∨ ClearTo more e.stand := by
  rw [readStatement] at h
  split at h
  · rw [readLet] at h
    rcases hname : f.expect .identifier first more with e' | name
    · rw [hname] at h
      obtain rfl := Except.error.inj h
      rw [expect] at hname
      split at hname
      · cases hname
      · obtain rfl := Except.error.inj hname
        exact .inl rfl
    obtain ⟨t, behind, rfl, ht, rfl⟩ := (f.expect_eq_ok_iff (by decide)).1 hname
    rw [hname] at h
    simp only at h
    have named : t.kind.isBoundary = false := by rw [ht]; rfl
    have signed := f.staysClear_expect
      (show (TokenKind.operator .assign).isBoundary = false from rfl) named behind
    right
    rcases hsign : f.expect (.operator .assign) t behind with e' | sign
    · rw [hsign] at h signed
      obtain rfl := Except.error.inj h
      exact signed.clear
    obtain ⟨u, value, rfl, hu, rfl⟩ := (f.expect_eq_ok_iff (by decide)).1 hsign
    rw [hsign] at h
    have inside := f.clearTo_of_readValue_error (Reading.map_eq_error_iff.1 h)
    exact (inside.cons (by rw [hu]; rfl)).cons named
  · exact .inr (f.clearTo_of_readValue_error (Reading.map_eq_error_iff.1 h))
  · obtain ⟨passed, tokens_eq, clear⟩ :=
      f.clearTo_of_readValue_error (Reading.map_eq_error_iff.1 h)
    rcases passed with - | ⟨t, passed⟩
    · exact .inl tokens_eq
    · obtain ⟨rfl, behind⟩ := List.cons.inj tokens_eq
      exact .inr ⟨passed, behind, (List.forall_mem_cons.1 clear).2⟩

end Frame

/-! ### Recovery goes on at the first boundary -/

theorem TokenKind.isBoundary_iff {k : TokenKind} : k.isBoundary = true ↔
    k.startsStatement = true ∨ k = punctuation .semicolon ∨ k = endOfInput := by
  have table : ∀ k ∈ all, k.isBoundary = true ↔
      k.startsStatement = true ∨ k = punctuation .semicolon ∨ k = endOfInput := by decide +kernel
  exact table k (mem_all k)

/-- Recovery passes whatever is no boundary. -/
theorem ClearTo.toBoundary_eq {tokens stand : List Token} (h : ClearTo tokens stand) :
    toBoundary tokens = toBoundary stand := by
  obtain ⟨passed, rfl, clear⟩ := h
  induction passed with
  | nil => rfl
  | cons t passed ih =>
    obtain ⟨ht, clear⟩ := List.forall_mem_cons.1 clear
    obtain ⟨hw, hs, -⟩ : ¬ t.kind.startsStatement = true ∧ t.kind ≠ .punctuation .semicolon ∧
        t.kind ≠ .endOfInput := by
      have plain := (not_congr TokenKind.isBoundary_iff).1 (Bool.not_eq_true _ ▸ ht)
      simpa only [not_or] using plain
    rw [List.cons_append, toBoundary, if_neg hw, if_neg hs, ih clear]

/-- Among tokens with the end of the input behind them there is a first boundary. -/
theorem exists_clearTo_boundary (tokens : List Token) :
    ∃ stand, ClearTo tokens stand ∧ ∀ t ∈ stand.head?, t.kind.isBoundary = true := by
  induction tokens with
  | nil => exact ⟨[], .refl _, by simp⟩
  | cons t rest ih =>
    rcases ht : t.kind.isBoundary with - | -
    · obtain ⟨stand, clear, boundary⟩ := ih
      exact ⟨stand, clear.cons ht, boundary⟩
    · exact ⟨t :: rest, .refl _, by rintro u ⟨⟩; exact ht⟩

end MonkeyLang
