import MonkeyLang.Token.Cursor

/-!
# Lexemes in front of a text

What the first lexeme of a text is, said by its spelling and what follows it: a run of letters or
of digits that the rest does not continue (`first_word`, `first_number`), a sign of two
characters (`first_pair`), and else one character, be it a sign or not, unless it makes such a
sign with the next one (`first_single`). These are all the forms that a lexeme has.

The statements on tokens follow. Each takes one lexeme off the front of a text and leaves the
rest as it is, whatever it may be, so texts that are put together from lexemes are read by
rewriting from the left.
-/

namespace MonkeyLang

/-- The text does not go on with a character of the class. -/
def Leaves (p : Char → Bool) (rest : List Char) : Prop := ∀ c ∈ rest.head?, p c = false

@[simp] theorem leaves_nil (p : Char → Bool) : Leaves p [] := by
  simp [Leaves]

@[simp] theorem leaves_cons {p : Char → Bool} {c : Char} {rest : List Char} :
    Leaves p (c :: rest) ↔ p c = false := by
  simp [Leaves]

/-- A text that goes on with the class has a first character, and that is of the class. -/
theorem not_leaves_iff {p : Char → Bool} {rest : List Char} :
    ¬ Leaves p rest ↔ ∃ c cs, rest = c :: cs ∧ p c = true := by
  rcases rest with - | ⟨c, cs⟩
  · simp
  · simp [and_assoc]

/-- Behind the longest run of the class, a text leaves it. -/
theorem leaves_dropWhile (p : Char → Bool) (rest : List Char) : Leaves p (rest.dropWhile p) := by
  intro c hc
  have first := List.head?_dropWhile_not p rest
  rw [Option.mem_def.1 hc] at first
  exact first

/-- What is left behind the blanks does not begin with a blank. -/
theorem isBlank_of_dropWhile {text cs : List Char} {c : Char}
    (h : text.dropWhile isBlank = c :: cs) : isBlank c = false :=
  leaves_cons.1 (h ▸ leaves_dropWhile isBlank text)

/-- A run that the rest does not continue is taken whole, and nothing else is. -/
theorem takeWhile_append_of_leaves {p : Char → Bool} {run rest : List Char}
    (hrun : ∀ c ∈ run, p c = true) (hrest : Leaves p rest) :
    (run ++ rest).takeWhile p = run ∧ (run ++ rest).dropWhile p = rest := by
  rw [List.takeWhile_append_of_pos hrun, List.dropWhile_append_of_pos hrun]
  rcases rest with - | ⟨c, rest⟩
  · simp
  · have hc := leaves_cons.1 hrest
    simp [hc]

/-- A digit is no letter. -/
theorem isLetter_of_isDigit {c : Char} (h : c.isDigit = true) : isLetter c = false := by
  have between : 48 ≤ c.toNat ∧ c.toNat ≤ 57 := Char.isDigit_iff_toNat.1 h
  rw [Bool.eq_false_iff]
  intro hl
  have classes : ((decide (65 ≤ c.toNat ∧ c.toNat ≤ 90) ||
      (decide (97 ≤ c.toNat) && decide (c.toNat ≤ 122))) || c == '_') = true := hl
  simp only [Bool.or_eq_true, Bool.and_eq_true, decide_eq_true_eq, beq_iff_eq] at classes
  rcases classes with (upper | lower) | rfl
  · omega
  · omega
  · exact absurd h (by decide)

/-- A blank is neither a letter nor a digit. -/
theorem not_isBlank {c : Char} (h : isLetter c = true ∨ c.isDigit = true) : isBlank c = false := by
  rw [Bool.eq_false_iff]
  intro hb
  simp only [isBlank, Bool.or_eq_true, beq_iff_eq] at hb
  rcases hb with ((rfl | rfl) | rfl) | rfl <;> exact absurd h (by decide)

/-! ### Signs

The signs are known by their characters, and the vocabulary has tables of their spellings. The two
agree: what is read as a sign of a kind is what the table has for that kind, and the other way
about.
-/

namespace TokenKind

/-- A character is read as the operator that is spelled so, if there is one. -/
theorem ofChar_eq_operator_iff {c : Char} {op : Operator} :
    ofChar c = operator op ↔ Operator.ofSpelling? (String.ofList [c]) = some op := by
  constructor
  · unfold ofChar
    split <;> rintro ⟨⟩ <;> rfl
  · rw [Operator.ofSpelling?_eq_some_iff]
    intro h
    have spelled : op.spelling.toList = [c] := by rw [h, String.toList_ofList]
    cases op <;> simp [Operator.spelling] at spelled <;> rw [← spelled] <;> rfl

/-- A character is read as the punctuation sign that is spelled so, if there is one. -/
theorem ofChar_eq_punctuation_iff {c : Char} {p : Punctuation} :
    ofChar c = punctuation p ↔ Punctuation.ofSpelling? (String.ofList [c]) = some p := by
  constructor
  · unfold ofChar
    split <;> rintro ⟨⟩ <;> rfl
  · rw [Punctuation.ofSpelling?_eq_some_iff]
    intro h
    have spelled : p.spelling.toList = [c] := by rw [h, String.toList_ofList]
    cases p <;> simp [Punctuation.spelling] at spelled <;> rw [← spelled] <;> rfl

/-- Two characters are read as the operator that is spelled so, if there is one. -/
theorem ofPair?_eq_some_iff {c d : Char} {k : TokenKind} :
    ofPair? c d = some k ↔
      ∃ op, Operator.ofSpelling? (String.ofList [c, d]) = some op ∧ operator op = k := by
  constructor
  · unfold ofPair?
    split
    · rintro ⟨⟩
      exact ⟨.eqEq, rfl, rfl⟩
    · rintro ⟨⟩
      exact ⟨.notEq, rfl, rfl⟩
    · rintro ⟨⟩
  · rintro ⟨op, h, rfl⟩
    rw [Operator.ofSpelling?_eq_some_iff] at h
    have spelled : op.spelling.toList = [c, d] := by rw [h, String.toList_ofList]
    cases op <;> simp [Operator.spelling] at spelled <;> rw [← spelled.1, ← spelled.2] <;> rfl

/-- Two characters make a sign only if the second one is a sign of assignment, behind another or
behind a bang. -/
theorem ofPair?_eq_none_iff {c d : Char} :
    ofPair? c d = none ↔ (c = '=' ∨ c = '!' → d ≠ '=') := by
  unfold ofPair?
  split
  · simp
  · simp
  · rename_i no_eqEq no_notEq
    refine iff_of_true rfl ?_
    rintro (rfl | rfl) rfl
    · exact no_eqEq rfl rfl
    · exact no_notEq rfl rfl

/-- Behind these two characters a sign of assignment makes a sign with them. -/
theorem exists_ofPair?_eq_some {c : Char} (h : c = '=' ∨ c = '!') :
    ∃ k, ofPair? c '=' = some k := by
  rcases h with rfl | rfl <;> exact ⟨_, rfl⟩

end TokenKind

/-! ### First lexemes -/

namespace Lexeme

/-- A run of letters is a lexeme where no letter follows. -/
theorem first_word {c : Char} {cs rest : List Char} (hw : ∀ x ∈ c :: cs, isLetter x = true)
    (hr : Leaves isLetter rest) :
    first c (cs ++ rest) = ⟨.ofWord (String.ofList (c :: cs)), c :: cs, rest⟩ := by
  rw [List.forall_mem_cons] at hw
  obtain ⟨htake, hdrop⟩ := takeWhile_append_of_leaves hw.2 hr
  rw [first, if_pos hw.1, run, htake, hdrop]

/-- A run of digits is a lexeme where no digit follows. -/
theorem first_number {c : Char} {cs rest : List Char} (hn : ∀ x ∈ c :: cs, x.isDigit = true)
    (hr : Leaves Char.isDigit rest) : first c (cs ++ rest) = ⟨.integer, c :: cs, rest⟩ := by
  rw [List.forall_mem_cons] at hn
  obtain ⟨htake, hdrop⟩ := takeWhile_append_of_leaves hn.2 hr
  rw [first, isLetter_of_isDigit hn.1, if_neg Bool.false_ne_true, if_pos hn.1, run, htake, hdrop]

/-- A sign of two characters is a lexeme, whatever follows. -/
theorem first_pair {c d : Char} {rest : List Char} {k : TokenKind} (hl : isLetter c = false)
    (hd : c.isDigit = false) (hk : TokenKind.ofPair? c d = some k) :
    first c (d :: rest) = ⟨k, [c, d], rest⟩ := by
  rw [first, hl, hd, if_neg Bool.false_ne_true, if_neg Bool.false_ne_true, sign, hk]

/-- Any other character is a lexeme, where it makes no sign of two with the next one. -/
theorem first_single {c : Char} {rest : List Char} (hl : isLetter c = false)
    (hd : c.isDigit = false) (hr : c = '=' ∨ c = '!' → Leaves (· == '=') rest) :
    first c rest = ⟨.ofChar c, [c], rest⟩ := by
  rw [first, hl, hd, if_neg Bool.false_ne_true, if_neg Bool.false_ne_true]
  rcases rest with - | ⟨d, rest⟩
  · rfl
  · rw [sign, TokenKind.ofPair?_eq_none_iff.2 fun h ↦ by simpa using hr h, single]

end Lexeme

/-! ### Tokens -/

/-- The token of a kind that is spelled at an offset. -/
def Token.spelled (kind : TokenKind) (here : Nat) (text : List Char) : Token :=
  ⟨kind, String.ofList text, ⟨here, here + byteLength text⟩⟩

namespace Cursor

/-- No tokens are left at the end of a text. -/
@[simp] theorem pending_nil (here : Nat) : (⟨here, []⟩ : Cursor).pending = [] := by
  rw [pending_eq]
  rfl

/-- A blank is passed. -/
theorem pending_blank {here : Nat} {b : Char} {rest : List Char} (hb : isBlank b = true) :
    (⟨here, b :: rest⟩ : Cursor).pending = (⟨here + b.utf8Size, rest⟩ : Cursor).pending := by
  have same : (⟨here, b :: rest⟩ : Cursor).skipBlanks =
      (⟨here + b.utf8Size, rest⟩ : Cursor).skipBlanks := by
    simp [skipBlanks, hb, Nat.add_assoc]
  have next : (⟨here, b :: rest⟩ : Cursor).next? = (⟨here + b.utf8Size, rest⟩ : Cursor).next? := by
    rw [next?, same, next?]
  rw [pending_eq, next, ← pending_eq]

/-- The first lexeme of a text is its first token. -/
theorem pending_of_first {here : Nat} {c : Char} {cs rest text : List Char} {k : TokenKind}
    (hb : isBlank c = false) (h : Lexeme.first c cs = ⟨k, text, rest⟩) :
    (⟨here, c :: cs⟩ : Cursor).pending =
      Token.spelled k here text :: (⟨here + byteLength text, rest⟩ : Cursor).pending := by
  have next : (⟨here, c :: cs⟩ : Cursor).next? =
      some (Token.spelled k here text, ⟨here + byteLength text, rest⟩) := by
    have stays : (⟨here, c :: cs⟩ : Cursor).skipBlanks = ⟨here, c :: cs⟩ := by
      simp [skipBlanks, hb]
    rw [next?, stays]
    simp [h, Token.spelled]
  rw [pending_eq, next]

/-- A run of letters is a keyword or an identifier, where no letter follows. -/
theorem pending_word (here : Nat) {word rest : List Char} (hn : word ≠ [])
    (hw : ∀ c ∈ word, isLetter c = true) (hr : Leaves isLetter rest) :
    (⟨here, word ++ rest⟩ : Cursor).pending =
      Token.spelled (.ofWord (String.ofList word)) here word ::
        (⟨here + byteLength word, rest⟩ : Cursor).pending := by
  obtain ⟨c, cs, rfl⟩ := List.exists_cons_of_ne_nil hn
  exact pending_of_first (not_isBlank (.inl (hw c List.mem_cons_self)))
    (Lexeme.first_word hw hr)

/-- A run of digits is an integer, where no digit follows. -/
theorem pending_number (here : Nat) {number rest : List Char} (hn : number ≠ [])
    (hd : ∀ c ∈ number, c.isDigit = true) (hr : Leaves Char.isDigit rest) :
    (⟨here, number ++ rest⟩ : Cursor).pending =
      Token.spelled .integer here number ::
        (⟨here + byteLength number, rest⟩ : Cursor).pending := by
  obtain ⟨c, cs, rfl⟩ := List.exists_cons_of_ne_nil hn
  exact pending_of_first (not_isBlank (.inr (hd c List.mem_cons_self)))
    (Lexeme.first_number hd hr)

/-- A keyword's spelling is that keyword, where no letter follows. -/
theorem pending_keyword (here : Nat) (k : Keyword) {rest : List Char}
    (hr : Leaves isLetter rest) :
    (⟨here, k.spelling.toList ++ rest⟩ : Cursor).pending =
      Token.spelled (.keyword k) here k.spelling.toList ::
        (⟨here + byteLength k.spelling.toList, rest⟩ : Cursor).pending := by
  have nonempty : k.spelling.toList ≠ [] := by
    cases k <;> decide
  have letters : k.spelling.toList.all isLetter = true := by
    cases k <;> decide
  have word := pending_word here nonempty (List.all_eq_true.1 letters) hr
  rwa [String.ofList_toList, TokenKind.ofWord, Keyword.ofSpelling?_eq_some_iff.2 rfl] at word

/-- An operator's spelling is that operator, unless it makes a longer sign with what follows. -/
theorem pending_operator (here : Nat) (op : Operator) {rest : List Char}
    (hr : op = .assign ∨ op = .bang → Leaves (· == '=') rest) :
    (⟨here, op.spelling.toList ++ rest⟩ : Cursor).pending =
      Token.spelled (.operator op) here op.spelling.toList ::
        (⟨here + byteLength op.spelling.toList, rest⟩ : Cursor).pending := by
  cases op with
  | eqEq | notEq => exact pending_of_first rfl (Lexeme.first_pair rfl rfl rfl)
  | assign => exact pending_of_first rfl (Lexeme.first_single rfl rfl fun _ ↦ hr (.inl rfl))
  | bang => exact pending_of_first rfl (Lexeme.first_single rfl rfl fun _ ↦ hr (.inr rfl))
  | _ => exact pending_of_first rfl (Lexeme.first_single rfl rfl fun h ↦ absurd h (by decide))

/-- A punctuation sign's spelling is that sign, whatever follows. -/
theorem pending_punctuation (here : Nat) (p : Punctuation) (rest : List Char) :
    (⟨here, p.spelling.toList ++ rest⟩ : Cursor).pending =
      Token.spelled (.punctuation p) here p.spelling.toList ::
        (⟨here + byteLength p.spelling.toList, rest⟩ : Cursor).pending := by
  cases p <;> exact pending_of_first rfl (Lexeme.first_single rfl rfl fun h ↦ absurd h (by decide))

end Cursor

end MonkeyLang
