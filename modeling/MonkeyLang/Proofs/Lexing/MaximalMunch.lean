import Mathlib.Data.List.TakeWhile
import MonkeyLang.Proofs.Lexing.Place

/-!
# Lexemes are spelled as long as possible

A lexeme is a run of letters, a run of digits, a sign, or one character that the language has no
use for and that is no blank. Of these a text has the longest one in front: what is read first is
a lexeme that the text behind it does not continue (`Lexeme.exists_spelling`), and a lexeme that
the text behind it does not continue is what is read first (`Lexeme.first_of_spelling`).

So a text that is put together from lexemes, with blanks between them or without, is read as these
lexemes exactly if none of them continues the one in front of it (`Layout.tokenize_text_iff`). The
kinds of the tokens are then those that the tables of the vocabulary have for their spellings
(`Spelling.resolves_kind`): the tables know all signs that are listed here and no others
(`mem_signs_iff_exists`), and what they have for a sign is what it is read as.
-/

namespace MonkeyLang

/-! ### Classes of lexemes -/

/-- The signs of the language. -/
def signs : List String :=
  ["=", "==", "!", "!=", "+", "-", "*", "/", "<", ">", ",", ";", "(", ")", "\x7b", "\x7d"]

/-- The classes of lexemes: runs of letters, runs of digits, signs, and characters that the
language has no use for. -/
inductive LexemeClass
  | word
  | number
  | sign
  | stray
  deriving DecidableEq

/-- The texts that are lexemes of a class. -/
def LexemeClass.Contains : LexemeClass → String → Prop
  | word, text => text ≠ "" ∧ ∀ c ∈ text.toList, isLetter c = true
  | number, text => text ≠ "" ∧ ∀ c ∈ text.toList, c.isDigit = true
  | sign, text => text ∈ signs
  | stray, text => ∃ c, text = String.ofList [c] ∧ isLetter c = false ∧ c.isDigit = false ∧
      isBlank c = false ∧ text ∉ signs

/-- A lexeme: a text and the class that it is of. -/
structure Spelling where
  cls : LexemeClass
  text : String
  mem : cls.Contains text

namespace Spelling

/-- The kind that the tables of the vocabulary give to a lexeme: a word is the keyword that is
spelled so, if there is one, and a sign is the operator or the punctuation that is. -/
def Resolves (x : Spelling) (kind : TokenKind) : Prop :=
  match x.cls with
  | .word => (∃ k, Keyword.ofSpelling? x.text = some k ∧ kind = .keyword k) ∨
      Keyword.ofSpelling? x.text = none ∧ kind = .identifier
  | .number => kind = .integer
  | .sign => (∃ op, Operator.ofSpelling? x.text = some op ∧ kind = .operator op) ∨
      ∃ p, Punctuation.ofSpelling? x.text = some p ∧ kind = .punctuation p
  | .stray => kind = .illegal

/-- Two lexemes fuse, with nothing between them, if both are words, if both are numbers, or if a
sign that begins with `=` stands behind `=` or `!`. -/
def FusesWith (x y : Spelling) : Prop :=
  x.cls = .word ∧ y.cls = .word ∨ x.cls = .number ∧ y.cls = .number ∨
    (x.text = "=" ∨ x.text = "!") ∧ (y.text = "=" ∨ y.text = "==")

instance (x y : Spelling) : Decidable (x.FusesWith y) := inferInstanceAs (Decidable (_ ∨ _ ∨ _))

/-- The characters that continue a lexeme. -/
def runsOn (x : Spelling) : Char → Bool :=
  match x.cls with
  | .word => isLetter
  | .number => Char.isDigit
  | .sign | .stray => fun c ↦ (x.text = "=" ∨ x.text = "!") && c == '='

/-- The kind of the token that a lexeme is read as: characters that are no letters and no digits are
read alone or in pairs. -/
def kind (x : Spelling) : TokenKind :=
  match x.cls with
  | .word => .ofWord x.text
  | .number => .integer
  | .sign | .stray =>
    match x.text.toList with
    | [c] => .ofChar c
    | [c, d] => (TokenKind.ofPair? c d).getD .illegal
    | _ => .illegal

end Spelling

/-! ### Signs -/

/-- A sign is one character, or a sign of assignment behind another or behind a bang. -/
theorem eq_of_mem_signs {s : String} (h : s ∈ signs) :
    (∃ c, s = String.ofList [c]) ∨ ∃ c, (c = '=' ∨ c = '!') ∧ s = String.ofList [c, '='] := by
  simp only [signs, List.mem_cons, List.not_mem_nil, or_false] at h
  rcases h with rfl | rfl | rfl | rfl | rfl | rfl | rfl | rfl | rfl | rfl | rfl | rfl | rfl | rfl |
    rfl | rfl
  case inr.inl => exact .inr ⟨'=', .inl rfl, rfl⟩
  case inr.inr.inr.inl => exact .inr ⟨'!', .inr rfl, rfl⟩
  all_goals exact .inl ⟨_, rfl⟩

/-- A sign begins with neither a letter nor a digit nor a blank. -/
theorem exists_first_of_mem_signs {s : String} (h : s ∈ signs) :
    ∃ c cs, s.toList = c :: cs ∧ isLetter c = false ∧ c.isDigit = false ∧ isBlank c = false ∧
      (c = '=' ↔ s = "=" ∨ s = "==") := by
  simp only [signs, List.mem_cons, List.not_mem_nil, or_false] at h
  rcases h with rfl | rfl | rfl | rfl | rfl | rfl | rfl | rfl | rfl | rfl | rfl | rfl | rfl | rfl |
    rfl | rfl <;> exact ⟨_, _, rfl, rfl, rfl, rfl, by decide⟩

/-- The tables of the vocabulary know exactly the signs. -/
theorem mem_signs_iff_exists {s : String} :
    s ∈ signs ↔ (∃ op, Operator.ofSpelling? s = some op) ∨
      ∃ p, Punctuation.ofSpelling? s = some p := by
  constructor
  · have table : ∀ s ∈ signs, (Operator.ofSpelling? s).isSome = true ∨
        (Punctuation.ofSpelling? s).isSome = true := by decide +kernel
    intro h
    simpa only [Option.isSome_iff_exists] using table s h
  · rintro (⟨op, h⟩ | ⟨p, h⟩)
    · rw [← Operator.ofSpelling?_eq_some_iff.1 h]
      cases op <;> decide
    · rw [← Punctuation.ofSpelling?_eq_some_iff.1 h]
      cases p <;> decide

/-- A character has no use exactly if it is no sign. -/
theorem TokenKind.ofChar_eq_illegal_iff {c : Char} :
    ofChar c = illegal ↔ String.ofList [c] ∉ signs := by
  constructor
  · intro hc h
    rcases mem_signs_iff_exists.1 h with ⟨op, hop⟩ | ⟨p, hp⟩
    · cases hc.symm.trans (ofChar_eq_operator_iff.2 hop)
    · cases hc.symm.trans (ofChar_eq_punctuation_iff.2 hp)
  · unfold ofChar
    split
    case h_15 => exact fun _ ↦ rfl
    all_goals exact fun h ↦ absurd (by decide) h

namespace Spelling

/-! ### What a lexeme begins with -/

/-- A lexeme begins with a character that is no blank and that tells its class, but for whether
the language has a use for it. -/
theorem exists_first (x : Spelling) :
    ∃ c cs, x.text.toList = c :: cs ∧ isBlank c = false ∧ (isLetter c = true ↔ x.cls = .word) ∧
      (c.isDigit = true ↔ x.cls = .number) ∧ (c = '=' ↔ x.text = "=" ∨ x.text = "==") := by
  obtain ⟨cls, text, mem⟩ := x
  -- A text that is spelled with signs of assignment begins with one, whatever its class.
  have assigns : ∀ {c cs}, text.toList = c :: cs → text = "=" ∨ text = "==" → c = '=' := by
    rintro c cs h (rfl | rfl) <;> exact (List.cons.inj h).1.symm
  cases cls with
  | word =>
    obtain ⟨c, cs, h⟩ := List.exists_cons_of_ne_nil (String.toList_eq_nil_iff.not.2 mem.1)
    have letter : isLetter c = true := mem.2 c (h ▸ List.mem_cons_self)
    have digit : c.isDigit = false := by
      by_contra hd
      rw [isLetter_of_isDigit (Bool.not_eq_false _ ▸ hd)] at letter
      cases letter
    refine ⟨c, cs, h, not_isBlank (.inl letter), by simp [letter], by simp [digit], ?_, assigns h⟩
    rintro rfl
    cases letter
  | number =>
    obtain ⟨c, cs, h⟩ := List.exists_cons_of_ne_nil (String.toList_eq_nil_iff.not.2 mem.1)
    have digit : c.isDigit = true := mem.2 c (h ▸ List.mem_cons_self)
    refine ⟨c, cs, h, not_isBlank (.inr digit), by simp [isLetter_of_isDigit digit],
      by simp [digit], ?_, assigns h⟩
    rintro rfl
    cases digit
  | sign =>
    obtain ⟨c, cs, h, hl, hd, hb, he⟩ := exists_first_of_mem_signs mem
    exact ⟨c, cs, h, hb, by simp [hl], by simp [hd], he⟩
  | stray =>
    obtain ⟨c, rfl, hl, hd, hb, hs⟩ := mem
    have h : (String.ofList [c]).toList = [c] := String.toList_ofList
    refine ⟨c, [], h, hb, by simp [hl], by simp [hd], ?_, assigns h⟩
    rintro rfl
    exact absurd (by decide) hs

/-- A lexeme is spelled as a sign if and only if it is one. -/
theorem mem_signs_iff (x : Spelling) : x.text ∈ signs ↔ x.cls = .sign := by
  constructor
  · intro h
    obtain ⟨c, cs, hx, -, hw, hn, -⟩ := x.exists_first
    obtain ⟨d, ds, hs, hl, hd, -⟩ := exists_first_of_mem_signs h
    obtain ⟨rfl, rfl⟩ := List.cons.inj (hx.symm.trans hs)
    obtain ⟨cls, text, mem⟩ := x
    replace h : text ∈ signs := h
    cases cls with
    | word => simp [hl] at hw
    | number => simp [hd] at hn
    | sign => rfl
    | stray =>
      obtain ⟨-, -, -, -, -, no_sign⟩ := mem
      exact absurd h no_sign
  · obtain ⟨cls, text, mem⟩ := x
    rintro rfl
    exact mem

/-- A text is a lexeme of one class only. -/
theorem eq_of_text_eq {x y : Spelling} (h : x.text = y.text) : x = y := by
  obtain ⟨c, cs, hx, -, hw, hn, -⟩ := x.exists_first
  obtain ⟨d, ds, hy, -, hw', hn', -⟩ := y.exists_first
  have hs := x.mem_signs_iff
  have hs' := y.mem_signs_iff
  rw [h] at hx hs
  obtain ⟨rfl, rfl⟩ := List.cons.inj (hx.symm.trans hy)
  obtain ⟨cls, text, mem⟩ := x
  obtain ⟨cls', text', mem'⟩ := y
  obtain rfl : text = text' := h
  obtain rfl : cls = cls' := by
    have word := hw.symm.trans hw'
    have number := hn.symm.trans hn'
    have sign := hs.symm.trans hs'
    revert word number sign
    cases cls <;> cases cls' <;> simp
  rfl

/-- No character of a lexeme is a blank. -/
theorem isBlank_eq_false (x : Spelling) {c : Char} (h : c ∈ x.text.toList) : isBlank c = false := by
  obtain ⟨cls, text, mem⟩ := x
  replace h : c ∈ text.toList := h
  cases cls with
  | word => exact not_isBlank (.inl (mem.2 c h))
  | number => exact not_isBlank (.inr (mem.2 c h))
  | sign =>
    obtain ⟨d, ds, hd, -, -, hb, -⟩ := exists_first_of_mem_signs mem
    rcases eq_of_mem_signs mem with ⟨e, rfl⟩ | ⟨e, -, rfl⟩
    · rw [String.toList_ofList] at hd h
      obtain ⟨rfl, -⟩ := List.cons.inj hd
      exact List.mem_singleton.1 h ▸ hb
    · rw [String.toList_ofList] at hd h
      obtain ⟨rfl, -⟩ := List.cons.inj hd
      rcases List.mem_cons.1 h with rfl | h
      · exact hb
      · obtain rfl := List.mem_singleton.1 h
        rfl
  | stray =>
    obtain ⟨d, rfl, -, -, hb, -⟩ := mem
    rw [String.toList_ofList, List.mem_singleton] at h
    exact h ▸ hb

/-- A blank continues no lexeme. -/
theorem runsOn_of_isBlank (x : Spelling) {c : Char} (h : isBlank c = true) : x.runsOn c = false := by
  have no_letter : isLetter c = false := Bool.eq_false_iff.2 fun hl ↦ by
    simp [not_isBlank (.inl hl)] at h
  have no_digit : c.isDigit = false := Bool.eq_false_iff.2 fun hd ↦ by
    simp [not_isBlank (.inr hd)] at h
  have no_assignment : c ≠ '=' := by
    rintro rfl
    cases h
  rw [runsOn]
  cases x.cls <;> simp [no_letter, no_digit, no_assignment]

/-- A lexeme continues the one in front of it exactly if the two fuse. -/
theorem leaves_runsOn_iff {x y : Spelling} (rest : List Char) :
    Leaves x.runsOn (y.text.toList ++ rest) ↔ ¬ x.FusesWith y := by
  obtain ⟨c, cs, h, -, hw, hn, he⟩ := y.exists_first
  have hs := x.mem_signs_iff
  rw [h, List.cons_append, leaves_cons, runsOn, FusesWith, ← hw, ← hn, ← he]
  cases hx : x.cls with
  | word | number =>
    have no_sign : ¬ (x.text = "=" ∨ x.text = "!") := by
      intro assigns
      have member : x.text ∈ signs := by
        rcases assigns with h | h <;> rw [h] <;> decide
      rw [hs.1 member] at hx
      cases hx
    simp [no_sign]
  | sign | stray => simp

/-! ### Kinds -/

/-- A sign of one character is read as that character, and so is a stray character. -/
theorem kind_eq_ofChar {x : Spelling} {c : Char} (h : x.text = String.ofList [c])
    (hx : x.cls = .sign ∨ x.cls = .stray) : x.kind = .ofChar c := by
  rw [kind, h, String.toList_ofList]
  rcases hx with hx | hx <;> rw [hx]

/-- A sign of two characters is read as that pair. -/
theorem kind_eq_of_ofPair? {x : Spelling} {c d : Char} {k : TokenKind}
    (h : x.text = String.ofList [c, d]) (hx : x.cls = .sign)
    (hk : TokenKind.ofPair? c d = some k) : x.kind = k := by
  rw [kind, h, String.toList_ofList, hx]
  simp only [hk, Option.getD_some]

/-- **The kind that a lexeme is read as** is the one that the tables give to it. -/
theorem resolves_kind (x : Spelling) : x.Resolves x.kind := by
  rw [Resolves]
  cases hx : x.cls with
  | word =>
    rw [kind, hx]
    rcases hk : Keyword.ofSpelling? x.text with - | k
    · exact .inr ⟨rfl, by simp [TokenKind.ofWord, hk]⟩
    · exact .inl ⟨k, rfl, by simp [TokenKind.ofWord, hk]⟩
  | number =>
    rw [kind, hx]
  | sign =>
    have mem := x.mem_signs_iff.2 hx
    rcases eq_of_mem_signs mem with ⟨c, hc⟩ | ⟨c, assigns, hc⟩
    · rw [kind_eq_ofChar hc (.inl hx)]
      rw [hc, mem_signs_iff_exists] at mem
      rcases mem with ⟨op, hop⟩ | ⟨p, hp⟩
      · exact .inl ⟨op, hc ▸ hop, TokenKind.ofChar_eq_operator_iff.2 hop⟩
      · exact .inr ⟨p, hc ▸ hp, TokenKind.ofChar_eq_punctuation_iff.2 hp⟩
    · obtain ⟨k, hk⟩ := TokenKind.exists_ofPair?_eq_some assigns
      obtain ⟨op, hop, rfl⟩ := TokenKind.ofPair?_eq_some_iff.1 hk
      exact .inl ⟨op, hc ▸ hop, kind_eq_of_ofPair? hc hx hk⟩
  | stray =>
    have mem : x.cls.Contains x.text := x.mem
    rw [hx] at mem
    obtain ⟨c, hc, -, -, -, no_sign⟩ := mem
    rw [kind_eq_ofChar hc (.inr hx), TokenKind.ofChar_eq_illegal_iff, ← hc]
    exact no_sign

/-- No lexeme is read as the end of the input. -/
theorem Resolves.ne_endOfInput {x : Spelling} {kind : TokenKind} (h : x.Resolves kind) :
    kind ≠ .endOfInput := by
  rw [Resolves] at h
  split at h
  · rcases h with ⟨k, -, rfl⟩ | ⟨-, rfl⟩ <;> exact TokenKind.noConfusion
  · subst h
    exact TokenKind.noConfusion
  · rcases h with ⟨op, -, rfl⟩ | ⟨p, -, rfl⟩ <;> exact TokenKind.noConfusion
  · subst h
    exact TokenKind.noConfusion

end Spelling

/-! ### First lexemes -/

namespace Lexeme

variable {c : Char} {cs rest : List Char}

/-- A character that is no letter, no digit and no blank is a lexeme, which only a sign of
assignment can continue. -/
theorem exists_spelling_of_char (hl : isLetter c = false) (hd : c.isDigit = false)
    (hb : isBlank c = false) :
    ∃ x : Spelling, x.text = String.ofList [c] ∧
      x.kind = .ofChar c ∧
      ∀ rest, Leaves x.runsOn rest ↔ (c = '=' ∨ c = '!' → Leaves (· == '=') rest) := by
  have assigns : decide (String.ofList [c] = "=" ∨ String.ofList [c] = "!") =
      decide (c = '=' ∨ c = '!') := by
    rw [decide_eq_decide, ← String.toList_inj, ← String.toList_inj, String.toList_ofList]
    simp
  have continues : ∀ rest : List Char,
      Leaves (fun d ↦ decide (String.ofList [c] = "=" ∨ String.ofList [c] = "!") && d == '=') rest ↔
        (c = '=' ∨ c = '!' → Leaves (· == '=') rest) := by
    intro rest
    rw [assigns]
    by_cases hc : c = '=' ∨ c = '!'
    · simp only [hc, decide_true, Bool.true_and, true_imp_iff]
    · simp [hc, Leaves]
  by_cases hs : String.ofList [c] ∈ signs
  · exact ⟨⟨.sign, String.ofList [c], hs⟩, rfl, Spelling.kind_eq_ofChar rfl (.inl rfl), continues⟩
  · exact ⟨⟨.stray, String.ofList [c], c, rfl, hl, hd, hb, hs⟩, rfl,
      Spelling.kind_eq_ofChar rfl (.inr rfl), continues⟩

/-- **What the text behind it does not continue is read first.** -/
theorem first_of_spelling {x : Spelling} (h : x.text.toList = c :: cs) (hr : Leaves x.runsOn rest) :
    first c (cs ++ rest) = ⟨x.kind, c :: cs, rest⟩ := by
  have spelled : x.text = String.ofList (c :: cs) := by rw [← h, String.ofList_toList]
  have mem : x.cls.Contains x.text := x.mem
  -- Signs of one character and stray characters are read alike.
  have alone : ∀ d, x.text = String.ofList [d] → isLetter d = false → d.isDigit = false →
      isBlank d = false → first c (cs ++ rest) = ⟨x.kind, c :: cs, rest⟩ := by
    intro d hx hl hd hb
    obtain ⟨y, hy, hk, leaves_iff⟩ := exists_spelling_of_char hl hd hb
    obtain rfl := Spelling.eq_of_text_eq (hx.trans hy.symm)
    rw [hx, String.toList_ofList] at h
    obtain ⟨rfl, rfl⟩ := List.cons.inj h
    rw [List.nil_append, first_single hl hd ((leaves_iff rest).1 hr), hk]
  cases hx : x.cls with
  | word =>
    rw [hx] at mem
    rw [Spelling.runsOn, hx] at hr
    rw [Spelling.kind, hx, spelled]
    exact first_word (h ▸ mem.2) hr
  | number =>
    rw [hx] at mem
    rw [Spelling.runsOn, hx] at hr
    rw [Spelling.kind, hx]
    exact first_number (h ▸ mem.2) hr
  | sign =>
    rw [hx] at mem
    obtain ⟨d, ds, hs, hl, hd, hb, -⟩ := exists_first_of_mem_signs mem
    rcases eq_of_mem_signs mem with ⟨e, he⟩ | ⟨e, assigns, he⟩
    · rw [he, String.toList_ofList] at hs
      obtain ⟨rfl, -⟩ := List.cons.inj hs
      exact alone e he hl hd hb
    · obtain ⟨rfl, rfl⟩ := List.cons.inj (h.symm.trans hs)
      rw [he, String.toList_ofList] at hs
      obtain ⟨rfl, rfl⟩ := List.cons.inj hs
      obtain ⟨k, hk⟩ := TokenKind.exists_ofPair?_eq_some assigns
      rw [Spelling.kind_eq_of_ofPair? he hx hk]
      exact first_pair hl hd hk
  | stray =>
    rw [hx] at mem
    obtain ⟨d, hd, hl, hn, hb, -⟩ := mem
    exact alone d hd hl hn hb

/-- **What is read first is a lexeme** that the text behind it does not continue. -/
theorem exists_spelling (hb : isBlank c = false) :
    ∃ x : Spelling, x.text.toList = (first c cs).text ∧ x.kind = (first c cs).kind ∧
      Leaves x.runsOn (first c cs).rest := by
  have class_run : ∀ {p : Char → Bool}, p c = true →
      ∀ d ∈ (String.ofList (c :: cs.takeWhile p)).toList, p d = true := by
    intro p hc
    rw [String.toList_ofList]
    exact List.forall_mem_cons.2 ⟨hc, fun d ↦ List.mem_takeWhile_imp⟩
  have nonempty : ∀ {ds : List Char}, String.ofList (c :: ds) ≠ "" :=
    String.ofList_eq_empty_iff.not.2 (List.cons_ne_nil _ _)
  by_cases hl : isLetter c = true
  · rw [first, if_pos hl]
    exact ⟨⟨.word, _, nonempty, class_run hl⟩, String.toList_ofList, rfl, leaves_dropWhile _ cs⟩
  by_cases hd : c.isDigit = true
  · rw [first, if_neg hl, if_pos hd]
    exact ⟨⟨.number, _, nonempty, class_run hd⟩, String.toList_ofList, rfl, leaves_dropWhile _ cs⟩
  rw [first, if_neg hl, if_neg hd]
  rw [Bool.not_eq_true] at hl hd
  obtain ⟨x, hx, hk, leaves_iff⟩ := exists_spelling_of_char hl hd hb
  have alone : x.text.toList = [c] := by rw [hx, String.toList_ofList]
  rcases cs with - | ⟨d, cs⟩
  · exact ⟨x, alone, hk, by simp [sign, single]⟩
  rw [sign]
  split
  · rename_i k hpair
    -- A sign of two characters ends with the sign of assignment, which nothing continues.
    have assigns : (c = '=' ∨ c = '!') ∧ d = '=' := by
      by_contra h
      rw [TokenKind.ofPair?_eq_none_iff.2 fun hc hd ↦ h ⟨hc, hd⟩] at hpair
      cases hpair
    obtain ⟨hc, rfl⟩ := assigns
    obtain ⟨op, spelled, -⟩ := TokenKind.ofPair?_eq_some_iff.1 hpair
    have mem : String.ofList [c, '='] ∈ signs := mem_signs_iff_exists.2 (.inl ⟨op, spelled⟩)
    refine ⟨⟨.sign, _, mem⟩, String.toList_ofList, Spelling.kind_eq_of_ofPair? rfl rfl hpair, ?_⟩
    rcases hc with rfl | rfl <;> simp [Spelling.runsOn, Leaves]
  · rename_i no_pair
    refine ⟨x, alone, hk, (leaves_iff _).2 fun hc ↦ ?_⟩
    rw [single, leaves_cons, beq_eq_false_iff_ne]
    rintro rfl
    rcases hc with rfl | rfl <;> cases no_pair

end Lexeme

/-! ### Tokens -/

namespace Cursor

/-- A lexeme that the text behind it does not continue is a token. -/
theorem pending_of_leaves (here : Nat) {x : Spelling} {rest : List Char}
    (hr : Leaves x.runsOn rest) :
    (⟨here, x.text.toList ++ rest⟩ : Cursor).pending =
      Token.spelled x.kind here x.text.toList ::
        (⟨here + byteLength x.text.toList, rest⟩ : Cursor).pending := by
  obtain ⟨c, cs, h, hb, -⟩ := x.exists_first
  rw [h]
  exact pending_of_first hb (Lexeme.first_of_spelling h hr)

/-- A lexeme that the text behind it continues is no token. -/
theorem exists_pending_of_not_leaves (here : Nat) {x : Spelling} {rest : List Char}
    (hr : ¬ Leaves x.runsOn rest) :
    ∃ t more, (⟨here, x.text.toList ++ rest⟩ : Cursor).pending = t :: more ∧ t.text ≠ x.text := by
  obtain ⟨c, cs, h, hb, -⟩ := x.exists_first
  obtain ⟨y, hy, -, leaves⟩ := @Lexeme.exists_spelling c (cs ++ rest) hb
  have whole := Lexeme.text_append_rest c (cs ++ rest)
  rcases hf : Lexeme.first c (cs ++ rest) with ⟨k, text, behind⟩
  simp only [hf] at hy leaves whole
  rw [h]
  refine ⟨_, _, pending_of_first hb hf, fun same ↦ hr ?_⟩
  -- Were it one, it would be the lexeme that is read first, and nothing continues that.
  have spelled : String.ofList text = x.text := same
  obtain rfl : y = x := Spelling.eq_of_text_eq (by rw [← spelled, ← hy, String.ofList_toList])
  rw [← hy, h, List.cons_append, List.cons.injEq] at whole
  rwa [List.append_cancel_left whole.2] at leaves

/-- A text with a token in front is blanks, a lexeme, and a text that does not continue it. -/
theorem exists_spelling_of_next? {c d : Cursor} {t : Token} (h : c.next? = some (t, d)) :
    ∃ (blanks : List Char) (x : Spelling), (∀ b ∈ blanks, isBlank b = true) ∧
      c.rest = blanks ++ (x.text.toList ++ d.rest) ∧ Leaves x.runsOn d.rest ∧
      t = Token.spelled x.kind (c.offset + byteLength blanks) x.text.toList ∧
      d.offset = c.offset + byteLength blanks + byteLength x.text.toList := by
  obtain ⟨ch, cs, hrest, rfl, rfl⟩ := next?_eq_some_iff.1 h
  obtain ⟨x, hx, hk, leaves⟩ := @Lexeme.exists_spelling ch cs (isBlank_of_dropWhile hrest)
  refine ⟨c.rest.takeWhile isBlank, x, fun b ↦ List.mem_takeWhile_imp, ?_, leaves, ?_, ?_⟩
  · rw [hx, Lexeme.text_append_rest, ← hrest, List.takeWhile_append_dropWhile]
  · rw [hx, hk]
  · rw [hx]
    rfl

/-- Every token of a text is a lexeme, of the kind that it is read as. -/
theorem exists_spelling_of_mem_pending {c : Cursor} {t : Token} (h : t ∈ c.pending) :
    ∃ (x : Spelling) (here : Nat), t = Token.spelled x.kind here x.text.toList := by
  induction c using pending_induction with
  | none_left c hc => cases h
  | in_front c d u hc ih =>
    rcases List.mem_cons.1 h with rfl | h
    · obtain ⟨_, x, -, -, -, spelled, -⟩ := exists_spelling_of_next? hc
      exact ⟨x, _, spelled⟩
    · exact ih h

/-- None of them is the end of the input. -/
theorem kind_ne_of_mem_pending {c : Cursor} {t : Token} (h : t ∈ c.pending) :
    t.kind ≠ .endOfInput := by
  obtain ⟨x, here, rfl⟩ := exists_spelling_of_mem_pending h
  exact x.resolves_kind.ne_endOfInput

end Cursor

end MonkeyLang
