import Mathlib.Data.List.Chain
import Mathlib.Data.List.Forall2
import MonkeyLang.Proofs.Lexing.Cut
import MonkeyLang.Proofs.Lexing.MaximalMunch

/-!
# Texts laid out from lexemes

A layout is a list of lexemes with blanks in front of them, between them and behind them, or
without. The text that it makes is read as its lexemes exactly if none of them fuses with the next
one, and the kinds of the tokens are then those that the tables of the vocabulary give to the
lexemes (`Layout.tokenize_text_iff`).

Both directions are one induction along the lexemes. Where the first one is not continued by what
is laid out behind it, it is the first token, and the others are left. Where it is continued, the
first token is another one (`Cursor.exists_pending_of_not_leaves`), so it does not matter how the
text goes on: a layout is misread at the first place where two lexemes fuse.
-/

namespace MonkeyLang

/-- A lexeme of a text, with the blanks behind it. -/
structure Layout.Piece where
  lexeme : Spelling
  blanks : String
  blank : ∀ c ∈ blanks.toList, isBlank c = true

/-- Lexemes that are laid out one behind the other, and the blanks in front of them. -/
structure Layout where
  leading : String
  blank : ∀ c ∈ leading.toList, isBlank c = true
  pieces : List Layout.Piece

namespace Layout

/-- The text that is laid out. -/
def text (l : Layout) : String :=
  l.leading ++ String.join (l.pieces.map fun p ↦ p.lexeme.text ++ p.blanks)

/-- The lexemes of a layout, in order. -/
def lexemes (l : Layout) : List Spelling := l.pieces.map Piece.lexeme

/-- No lexeme fuses with the one behind it, unless blanks stand between them. -/
def StayApart (ps : List Piece) : Prop :=
  ps.IsChain fun p q ↦ p.blanks = "" → ¬ p.lexeme.FusesWith q.lexeme

instance : DecidablePred StayApart := fun ps ↦ inferInstanceAs (Decidable (ps.IsChain _))

/-! ### Characters -/

/-- The characters of lexemes, each with the blanks behind it. -/
def chars (ps : List Piece) : List Char :=
  ps.flatMap fun p ↦ p.lexeme.text.toList ++ p.blanks.toList

@[simp] theorem chars_cons (p : Piece) (ps : List Piece) :
    chars (p :: ps) = p.lexeme.text.toList ++ (p.blanks.toList ++ chars ps) := by
  rw [chars, List.flatMap_cons, List.append_assoc]
  rfl

theorem toList_text (l : Layout) : l.text.toList = l.leading.toList ++ chars l.pieces := by
  rw [text, String.toList_append, String.toList_join, List.flatMap_map]
  simp only [String.toList_append, chars]

/-- What is laid out behind a lexeme continues it exactly if the next one follows at once and the
two fuse. -/
theorem leaves_chars_iff (p : Piece) (ps : List Piece) :
    Leaves p.lexeme.runsOn (p.blanks.toList ++ chars ps) ↔
      ∀ q ∈ ps.head?, p.blanks = "" → ¬ p.lexeme.FusesWith q.lexeme := by
  rcases hb : p.blanks.toList with - | ⟨b, bs⟩
  · have at_once : p.blanks = "" := String.toList_eq_nil_iff.1 hb
    rcases ps with - | ⟨q, qs⟩
    · simp [chars]
    · rw [List.nil_append, chars_cons, Spelling.leaves_runsOn_iff]
      simp [at_once]
  · have between : p.blanks ≠ "" := by
      rw [Ne, ← String.toList_eq_nil_iff, hb]
      exact List.cons_ne_nil b bs
    have blank : isBlank b = true := p.blank b (hb ▸ List.mem_cons_self)
    simp [between, p.lexeme.runsOn_of_isBlank blank]

/-- Lexemes stay apart if the first one is not continued by the others and these stay apart. -/
theorem stayApart_cons {p : Piece} {ps : List Piece} :
    StayApart (p :: ps) ↔
      Leaves p.lexeme.runsOn (p.blanks.toList ++ chars ps) ∧ StayApart ps := by
  rw [leaves_chars_iff]
  exact List.isChain_cons

/-! ### Tokens -/

/-- Where the first lexeme is not continued, it is the first token, and the others are left. -/
theorem pending_chars_cons (here : Nat) {p : Piece} {ps : List Piece}
    (h : Leaves p.lexeme.runsOn (p.blanks.toList ++ chars ps)) :
    ∃ there, (⟨here, chars (p :: ps)⟩ : Cursor).pending =
      Token.spelled p.lexeme.kind here p.lexeme.text.toList ::
        (⟨there, chars ps⟩ : Cursor).pending := by
  rw [chars_cons, Cursor.pending_of_leaves here h, Cursor.pending_blanks _ p.blank]
  exact ⟨_, rfl⟩

/-- **Lexemes are read as they are spelled** exactly if they stay apart. -/
theorem texts_pending_iff (here : Nat) (ps : List Piece) :
    (⟨here, chars ps⟩ : Cursor).pending.map Token.text = ps.map (·.lexeme.text) ↔
      StayApart ps := by
  induction ps generalizing here with
  | nil => simp [chars, StayApart]
  | cons p ps ih =>
    rw [stayApart_cons]
    by_cases h : Leaves p.lexeme.runsOn (p.blanks.toList ++ chars ps)
    · obtain ⟨there, ht⟩ := pending_chars_cons here h
      rw [ht, ← ih there]
      simp [h, Token.spelled]
    · obtain ⟨t, more, ht, other⟩ := Cursor.exists_pending_of_not_leaves here h
      rw [chars_cons, ht]
      simp [h, other]

/-- Lexemes that stay apart are tokens of the kinds that the tables give to them. -/
theorem resolves_pending (here : Nat) {ps : List Piece} (h : StayApart ps) :
    List.Forall₂ (fun x t ↦ x.Resolves t.kind) (ps.map Piece.lexeme)
      (⟨here, chars ps⟩ : Cursor).pending := by
  induction ps generalizing here with
  | nil =>
    rw [chars, List.flatMap_nil, Cursor.pending_nil]
    exact .nil
  | cons p ps ih =>
    obtain ⟨leaves, behind⟩ := stayApart_cons.1 h
    obtain ⟨there, ht⟩ := pending_chars_cons here leaves
    rw [ht]
    exact .cons p.lexeme.resolves_kind (ih there behind)

/-- The tokens of a layout are those of its lexemes, and the end of the input behind them. -/
theorem tokenize_text (l : Layout) :
    ∃ here, tokenize l.text =
      (⟨here, chars l.pieces⟩ : Cursor).pending ++ [Token.endAt l.text.utf8ByteSize] := by
  rw [tokenize, Cursor.tokens, Cursor.stop_start, Cursor.start, toList_text,
    Cursor.pending_blanks _ l.blank]
  exact ⟨_, rfl⟩

/-- **A text that is laid out from lexemes is read as these lexemes** exactly if they stay apart.
The tokens are then of the kinds that the tables of the vocabulary give to the lexemes. -/
theorem tokenize_text_iff (l : Layout) :
    ((∃ tokens, tokenize l.text = tokens ++ [Token.endAt l.text.utf8ByteSize] ∧
        tokens.map Token.text = l.lexemes.map Spelling.text) ↔ StayApart l.pieces) ∧
      (StayApart l.pieces → ∃ tokens,
        tokenize l.text = tokens ++ [Token.endAt l.text.utf8ByteSize] ∧
          tokens.map Token.text = l.lexemes.map Spelling.text ∧
          List.Forall₂ (fun x t ↦ x.Resolves t.kind) l.lexemes tokens) := by
  obtain ⟨here, tokens_eq⟩ := l.tokenize_text
  have texts_iff := texts_pending_iff here l.pieces
  have texts_eq : l.lexemes.map Spelling.text = l.pieces.map (·.lexeme.text) := List.map_map
  rw [tokens_eq, texts_eq]
  refine ⟨⟨?_, fun h ↦ ⟨_, rfl, texts_iff.2 h⟩⟩, fun h ↦ ⟨_, rfl, texts_iff.2 h, ?_⟩⟩
  · rintro ⟨tokens, same, texts⟩
    obtain rfl := List.append_cancel_right same
    exact texts_iff.1 texts
  · exact resolves_pending here h

/-- A sign of assignment and a sign of equality, with spaces between them or without. -/
def assignEquals (spaces : Nat) : Layout where
  leading := ""
  blank := by simp
  pieces :=
    [⟨⟨.sign, "=", show "=" ∈ signs by decide⟩, String.ofList (List.replicate spaces ' '),
        by simp [isBlank]⟩,
      ⟨⟨.sign, "==", show "==" ∈ signs by decide⟩, "", by simp⟩]

/-- A sign of assignment and a sign of equality are read as they are spelled with a space between
them, and with nothing between them they are not. -/
theorem tokenize_text_assignEquals :
    StayApart (assignEquals 1).pieces ∧
      (∃ tokens, tokenize (assignEquals 1).text =
          tokens ++ [Token.endAt (assignEquals 1).text.utf8ByteSize] ∧
        tokens.map Token.text = (assignEquals 1).lexemes.map Spelling.text ∧
        List.Forall₂ (fun x t ↦ x.Resolves t.kind) (assignEquals 1).lexemes tokens) ∧
      ¬ ∃ tokens, tokenize (assignEquals 0).text =
          tokens ++ [Token.endAt (assignEquals 0).text.utf8ByteSize] ∧
        tokens.map Token.text = (assignEquals 0).lexemes.map Spelling.text := by
  have apart : StayApart (assignEquals 1).pieces := by decide +kernel
  have fused : ¬ StayApart (assignEquals 0).pieces := by decide +kernel
  exact ⟨apart, (assignEquals 1).tokenize_text_iff.2 apart,
    fun read ↦ fused ((assignEquals 0).tokenize_text_iff.1.1 read)⟩

end Layout

end MonkeyLang
