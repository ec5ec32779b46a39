import MonkeyLang.Proofs.Lexing.Tiling
import MonkeyLang.Proofs.ReadLoop.TextLines
import MonkeyLang.Proofs.Sequence
import MonkeyLang.ReadLoop.Loop

/-!
# The read loop shows the tokens of its input

The loop cuts its input into lines and takes the tokens of each line by itself. Together these are
the tokens of the whole input (`flatMap_tokenEcho_textLines`): a newline is a blank, which no lexeme
runs over, and so is a carriage return, whether it has been taken off the end of a line or not. What
is shown of a token is its kind and its text and not its place, which a line loses.

With room without end the loop writes every piece, so its transcript is the pieces it says, one
after the other (`transcript_encodeUtf8`); and what it says in the mode of tokens is a line for each
token of the whole input, with a prompt in front of what is said for each line
(`transcript_tokens`).
-/

namespace MonkeyLang.ReadLoop

/-! ### The tokens of lines -/

/-- A text is answered alike wherever it stands. -/
theorem tokenEcho_ofList (here : Nat) (cs : List Char) :
    tokenEcho (String.ofList cs) =
      (⟨here, cs⟩ : Cursor).pending.map fun t ↦ t.render ++ "\n" := by
  have moved : (⟨here, cs⟩ : Cursor) = (Cursor.start (String.ofList cs)).shift here := by
    rw [Cursor.start, Cursor.shift, String.toList_ofList, Nat.zero_add]
  rw [moved, Cursor.pending_shift, List.map_map]
  rfl

/-- Texts with a blank between them are answered one after the other. -/
theorem tokenEcho_append_cons {b : Char} (hb : isBlank b = true) (cs rest : List Char) :
    tokenEcho (String.ofList (cs ++ b :: rest)) =
      tokenEcho (String.ofList cs) ++ tokenEcho (String.ofList rest) := by
  have no_word : ¬ (isLetter b = true ∨ b.isDigit = true) := fun h ↦ by simp [not_isBlank h] at hb
  obtain ⟨no_letter, no_digit⟩ := not_or.1 no_word
  have no_sign : b ≠ '=' := by
    rintro rfl
    exact absurd hb (by decide)
  have apart := apart_cons cs (Bool.eq_false_iff.2 no_letter) (Bool.eq_false_iff.2 no_digit) no_sign
    rest
  rw [tokenEcho_ofList 0, Cursor.pending_append ⟨0, cs⟩ apart, Cursor.pending_blank hb,
    List.map_append, ← tokenEcho_ofList, ← tokenEcho_ofList]

/-- A blank at the end of a line makes no difference. -/
theorem tokenEcho_withoutLast {b : Char} (hb : isBlank b = true) (cs : List Char) :
    tokenEcho (String.ofList (withoutLast b cs)) = tokenEcho (String.ofList cs) := by
  rcases List.eq_nil_or_concat cs with rfl | ⟨front, c, rfl⟩
  · rfl
  · rw [List.concat_eq_append, withoutLast_concat]
    split
    next hc =>
      rw [hc, tokenEcho_append_cons hb, tokenEcho_ofList 0 [], Cursor.pending_nil, List.map_nil,
        List.append_nil]
    next => rfl

/-- **What is shown for the lines of a text**, one after the other, **is what is shown for the
text.** -/
theorem flatMap_tokenEcho_textLines (text : String) :
    (textLines text).flatMap tokenEcho = tokenEcho text := by
  have along : ∀ cs : List Char, (linesOn '\n' '\r' cs).flatMap (tokenEcho ∘ String.ofList) =
      tokenEcho (String.ofList cs) := by
    intro cs
    induction cs using linesOn_induction '\n' with
    | last cs h =>
      rw [linesOn_of_not_mem h]
      split
      next hcs =>
        rw [hcs, tokenEcho_ofList 0 [], Cursor.pending_nil]
        rfl
      next => exact List.flatMap_singleton _ cs
    | line cs rest h ih =>
      rw [linesOn_append_cons h, List.flatMap_cons, ih, tokenEcho_append_cons rfl,
        Function.comp_apply, tokenEcho_withoutLast rfl]
  rw [textLines, List.flatMap_map, ← String.ofList_toList (s := text), String.toList_ofList]
  exact along text.toList

/-- A text is answered with a line for each of its tokens but the end of the input. -/
theorem tokenEcho_eq_map_tokenize (text : String) :
    tokenEcho text =
      ((tokenize text).filter (·.kind ≠ .endOfInput)).map fun t ↦ t.render ++ "\n" := by
  rw [tokenEcho, filter_tokenize]

/-! ### What the loop writes -/

/-- Texts put together in groups. -/
theorem join_flatMap {α : Type} (f : α → List String) (xs : List α) :
    String.join (xs.flatMap f) = String.join (xs.map fun x ↦ String.join (f x)) := by
  induction xs with
  | nil => rfl
  | cons x xs ih => rw [List.flatMap_cons, String.join_append, ih, List.map_cons, String.join_cons]

/-- Write one piece after the other. -/
def sayAll (pieces : List String) : Talk Unit := pieces.forM say

theorem sayAll_cons (piece : String) (pieces : List String) :
    sayAll (piece :: pieces) = (do say piece; sayAll pieces) := rfl

/-- A conversation over no lines is a prompt. -/
theorem converse_nil (mode : Mode) (config : Config) : converse mode config [] = say prompt := by
  rw [converse, turn, bind_assoc]
  exact bind_pure_unit (x := say prompt)

/-- A conversation prompts for its first line, and if that is text it answers it and goes on. -/
theorem converse_cons (mode : Mode) (config : Config) (line : List UInt8)
    (lines : List (List UInt8)) :
    converse mode config (line :: lines) = (do
      say prompt
      match decodeUtf8? line with
      | none => throw .read
      | some text =>
        sayAll (echo mode config text)
        converse mode config lines) := by
  rw [converse, turn, bind_assoc]
  refine congrArg _ (funext fun _ ↦ ?_)
  rw [pure_bind]
  rcases h : decodeUtf8? line with - | text
  · simp only [h]
    rfl
  · simp only [h, bind_assoc, pure_bind]
    rfl

/-- Pieces are said one after the other. -/
theorem sayAll_append (front rest : List String) :
    sayAll (front ++ rest) = (do sayAll front; sayAll rest) := by
  induction front with
  | nil => rfl
  | cons piece front ih =>
    rw [List.cons_append, sayAll_cons, sayAll_cons, ih, bind_assoc]

/-- **A conversation over lines** of which the first ones are text says a prompt and an answer for
each of these, and goes on with the others. -/
theorem converse_append (mode : Mode) (config : Config) (texts : List String)
    (others : List (List UInt8)) :
    converse mode config (texts.map encodeUtf8 ++ others) = (do
      sayAll (texts.flatMap fun line ↦ prompt :: echo mode config line)
      converse mode config others) := by
  induction texts with
  | nil => rfl
  | cons line texts ih =>
    rw [List.map_cons, List.cons_append, List.flatMap_cons, List.cons_append, sayAll_cons,
      sayAll_append, bind_assoc, bind_assoc, ← ih, converse_cons, decodeUtf8?_encodeUtf8]

/-- A conversation over lines of text says a prompt and an answer for each line, and a prompt at the
end. -/
theorem converse_map_encodeUtf8 (mode : Mode) (config : Config) (texts : List String) :
    converse mode config (texts.map encodeUtf8) =
      sayAll (texts.flatMap (fun line ↦ prompt :: echo mode config line) ++ [prompt]) := by
  have whole := converse_append mode config texts []
  rw [List.append_nil] at whole
  rw [whole, sayAll_append, converse_nil]
  exact congrArg _ (funext fun _ ↦ (bind_pure_unit (x := say prompt)).symm)

/-- The bytes of a piece stand in front of those of the pieces behind it. -/
theorem written_append_cons (written : Array UInt8) (piece : String) (pieces : List String) :
    written ++ encodeUtf8 piece ++ pieces.flatMap encodeUtf8 =
      written ++ (piece :: pieces).flatMap encodeUtf8 :=
  Array.ext' (by simp)

/-- With room without end, every piece is written behind what there is. -/
theorem sayAll_of_room_none {w : Writer} (h : w.room = none) (pieces : List String) :
    sayAll pieces w = .ok () ⟨w.written ++ pieces.flatMap encodeUtf8, none⟩ := by
  induction pieces generalizing w with
  | nil =>
    obtain ⟨written, room⟩ := w
    obtain rfl : room = none := h
    rw [List.flatMap_nil, Array.appendList_nil]
    rfl
  | cons piece pieces ih =>
    have said : say piece w = .ok () ⟨w.written ++ encodeUtf8 piece, none⟩ := by
      rw [say, Writer.put_of_room_none h]
    rw [sayAll_cons, bind_of_ok said, ← written_append_cons]
    exact ih rfl

/-- The transcript of a text is the bytes of the prompts and answers, with nothing wrong. -/
theorem transcript_encodeUtf8 (mode : Mode) (config : Config) (text : String) :
    transcript mode config (encodeUtf8 text) none =
      (encodeUtf8 (String.join ((textLines text).map fun line ↦
        prompt ++ String.join (echo mode config line)) ++ prompt), none) := by
  have joined : String.join ((textLines text).map fun line ↦
        prompt ++ String.join (echo mode config line)) ++ prompt =
      String.join ((textLines text).flatMap (fun line ↦ prompt :: echo mode config line) ++
        [prompt]) := by
    rw [String.join_append, join_flatMap]
    simp only [String.join_cons, String.join_nil, String.append_empty]
  rw [transcript, lines_encodeUtf8, converse_map_encodeUtf8, Talk.run, sayAll_of_room_none rfl,
    joined, encodeUtf8_join]
  exact congrArg (·, none) (by simp [Writer.empty])

/-! ### The tokens of the input -/

/-- **Line by line, the loop shows the tokens of the whole input.** If the input is text, the loop
in the mode of tokens ends with nothing wrong, and has written what it shows for each line, with a
prompt in front, and a prompt at the end. What it shows for the lines, one after the other, is a
line for each token of the whole text but the end of the input. -/
theorem transcript_tokens {input : List UInt8} {text : String} (h : decodeUtf8? input = some text)
    (config : Config) :
    transcript .tokens config input none =
        (encodeUtf8 (String.join ((textLines text).map fun line ↦
          prompt ++ String.join (tokenEcho line)) ++ prompt), none) ∧
      String.join ((textLines text).map fun line ↦ String.join (tokenEcho line)) =
        String.join (((tokenize text).filter (·.kind ≠ .endOfInput)).map fun t ↦
          t.render ++ "\n") := by
  obtain rfl := decodeUtf8?_eq_some_iff.1 h
  refine ⟨transcript_encodeUtf8 .tokens config text, ?_⟩
  rw [← tokenEcho_eq_map_tokenize, ← flatMap_tokenEcho_textLines, join_flatMap]

/-- Two signs that would be one, were it not for the end of the line between them. The carriage
return in front of the newline is no part of a line, and the one at the end of the input is. -/
theorem transcript_tokens_returns :
    decodeUtf8? [195, 169, 61, 13, 10, 61, 13] = some "é=\r\n=\r" ∧
      textLines "é=\r\n=\r" = ["é=", "=\r"] ∧
      transcript .tokens ⟨9⟩ [195, 169, 61, 13, 10, 61, 13] none =
        (encodeUtf8 (">> Token \x7b kind: ILLEGAL, literal: \"é\" \x7d\n" ++
          "Token \x7b kind: ASSIGN, literal: \"=\" \x7d\n" ++
          ">> Token \x7b kind: ASSIGN, literal: \"=\" \x7d\n>> "), none) ∧
      String.join ((textLines "é=\r\n=\r").map fun line ↦ String.join (tokenEcho line)) =
        String.join (((tokenize "é=\r\n=\r").filter (·.kind ≠ .endOfInput)).map fun t ↦
          t.render ++ "\n") := by
  have text : decodeUtf8? [195, 169, 61, 13, 10, 61, 13] = some "é=\r\n=\r" :=
    decodeUtf8?_eq_some_iff.2 (by decide +kernel)
  obtain ⟨written, same⟩ := transcript_tokens text ⟨9⟩
  exact ⟨text, by decide +kernel, written.trans (by decide +kernel), same⟩

end MonkeyLang.ReadLoop
