import MonkeyLang.Proofs.ReadLoop.TokenEcho

/-!
# A failure cuts the transcript and changes nothing else

Two things can end the loop early: a line that is not text, and a writer that takes no more. What the
loop would say is settled by its input alone. It is the prompt and the answer for each line in front
of the first one that is not text, and then one more prompt, behind which the loop ends with what the
input has for it (`converse_eq_sayThen`). A writer that has room for so many bytes keeps as many of
these and no others, and the loop ends with a failure to write exactly if there are more of them
(`Talk.run_sayThen_some`). So the two failures do not meet: if the room is used up, the line that
is not text is never read.

Both facts come together in `transcript_cut`, where what is shown for a line is said in full
(`shown`).
-/

namespace MonkeyLang.ReadLoop

/-! ### Room that is used up -/

/-- Pieces that fit are all written, and take their length of the room. -/
theorem sayAll_of_le {w : Writer} {room : Nat} (h : w.room = some room) {pieces : List String}
    (fits : (pieces.flatMap encodeUtf8).length ≤ room) :
    sayAll pieces w = .ok () ⟨w.written ++ pieces.flatMap encodeUtf8,
      some (room - (pieces.flatMap encodeUtf8).length)⟩ := by
  induction pieces generalizing w room with
  | nil =>
    obtain ⟨written, _⟩ := w
    obtain rfl : _ = some room := h
    rw [List.flatMap_nil, Array.appendList_nil]
    rfl
  | cons piece pieces ih =>
    rw [List.flatMap_cons, List.length_append, length_encodeUtf8] at fits
    have said : say piece w =
        .ok () ⟨w.written ++ encodeUtf8 piece, some (room - piece.utf8ByteSize)⟩ := by
      rw [say, Writer.put_of_le h (by omega)]
    rw [sayAll_cons, bind_of_ok said, ← written_append_cons, List.flatMap_cons,
      List.length_append, length_encodeUtf8, ← Nat.sub_sub]
    exact ih rfl (by omega)

/-- Of pieces that do not fit the first bytes are written that do. -/
theorem sayAll_of_lt {w : Writer} {room : Nat} (h : w.room = some room) {pieces : List String}
    (exceeds : room < (pieces.flatMap encodeUtf8).length) :
    sayAll pieces w =
      .error .write ⟨w.written ++ (pieces.flatMap encodeUtf8).take room, some 0⟩ := by
  induction pieces generalizing w room with
  | nil => exact absurd exceeds (Nat.not_lt_zero room)
  | cons piece pieces ih =>
    rw [List.flatMap_cons, List.length_append, length_encodeUtf8] at exceeds
    rw [sayAll_cons]
    rcases Nat.lt_or_ge room piece.utf8ByteSize with cut | fits
    -- The piece itself is cut, and nothing behind it is said.
    · have said : say piece w =
          .error .write ⟨w.written ++ (encodeUtf8 piece).take room, some 0⟩ := by
        rw [say, Writer.put_of_lt h cut]
      have first : ((piece :: pieces).flatMap encodeUtf8).take room =
          (encodeUtf8 piece).take room := by
        rw [List.flatMap_cons, List.take_append_of_le_length]
        rw [length_encodeUtf8]
        exact cut.le
      rw [bind_of_error said, first]
    · have said : say piece w =
          .ok () ⟨w.written ++ encodeUtf8 piece, some (room - piece.utf8ByteSize)⟩ := by
        rw [say, Writer.put_of_le h fits]
      have written : w.written ++ encodeUtf8 piece ++
            (pieces.flatMap encodeUtf8).take (room - piece.utf8ByteSize) =
          w.written ++ ((piece :: pieces).flatMap encodeUtf8).take room := by
        have whole : (encodeUtf8 piece).take room = encodeUtf8 piece :=
          List.take_of_length_le (by rwa [length_encodeUtf8])
        rw [List.flatMap_cons, List.take_append, length_encodeUtf8, whole]
        exact Array.ext' (by simp)
      rw [bind_of_ok said, ← written]
      exact ih rfl (by omega)

/-! ### What is said, and what ends it -/

/-- End with nothing wrong, or with an error. -/
def conclude : Option LoopError → Talk Unit
  | none => pure ()
  | some e => throw e

/-- Say pieces, and then end with nothing wrong or with an error. -/
def sayThen (pieces : List String) (ending? : Option LoopError) : Talk Unit := do
  sayAll pieces
  conclude ending?

/-- What was said and did not fail is concluded as it is to be. -/
theorem Talk.run_sayThen_of_ok {pieces : List String} {room : Option Nat} {w : Writer}
    (said : sayAll pieces (.empty room) = .ok () w) (ending? : Option LoopError) :
    Talk.run (sayThen pieces ending?) room = (w.written.toList, ending?) := by
  have concluded : sayThen pieces ending? (.empty room) = conclude ending? w :=
    bind_of_ok said _
  rw [Talk.run, concluded]
  cases ending? <;> rfl

/-- With room without end, all pieces are written, and what was to end the loop does. -/
theorem Talk.run_sayThen_none (pieces : List String) (ending? : Option LoopError) :
    Talk.run (sayThen pieces ending?) none = (pieces.flatMap encodeUtf8, ending?) := by
  rw [Talk.run_sayThen_of_ok (sayAll_of_room_none rfl pieces)]
  simp [Writer.empty]

/-- **A writer with bounded room keeps the first bytes of all that is said.** If all of it fits, the
loop ends with what was to end it, and else with a failure to write. -/
theorem Talk.run_sayThen_some (pieces : List String) (ending? : Option LoopError) (room : Nat) :
    Talk.run (sayThen pieces ending?) (some room) =
      ((pieces.flatMap encodeUtf8).take room,
        if (pieces.flatMap encodeUtf8).length ≤ room then ending? else some .write) := by
  rcases Nat.lt_or_ge room (pieces.flatMap encodeUtf8).length with exceeds | fits
  · have said := sayAll_of_lt (w := .empty (some room)) rfl exceeds
    have failed : sayThen pieces ending? (.empty (some room)) = .error .write
        ⟨(Writer.empty (some room)).written ++ (pieces.flatMap encodeUtf8).take room, some 0⟩ :=
      bind_of_error said _
    rw [if_neg (Nat.not_le.2 exceeds), Talk.run, failed]
    simp [Writer.empty]
  · rw [if_pos fits, List.take_of_length_le fits, Talk.run_sayThen_of_ok (sayAll_of_le rfl fits)]
    simp [Writer.empty]

/-- Lines are text up to the first one that is not. -/
theorem exists_texts (lines : List (List UInt8)) :
    ∃ (texts : List String) (others : List (List UInt8)),
      lines = texts.map encodeUtf8 ++ others ∧ ∀ line ∈ others.head?, decodeUtf8? line = none := by
  induction lines with
  | nil => exact ⟨[], [], rfl, by simp⟩
  | cons line lines ih =>
    rcases h : decodeUtf8? line with - | text
    · exact ⟨[], line :: lines, rfl, by rintro _ ⟨⟩; exact h⟩
    · obtain ⟨texts, others, rfl, stops⟩ := ih
      refine ⟨text :: texts, others, ?_, stops⟩
      rw [List.map_cons, List.cons_append, decodeUtf8?_eq_some_iff.1 h]

/-- What ends the loop is what stands behind the lines that are text. -/
def endingOf : List (List UInt8) → Option LoopError
  | [] => none
  | _ :: _ => some .read

/-- **A conversation** says a prompt and an answer for each line in front of the first one that is not
text, and a prompt; and that line ends it, if there is one. -/
theorem converse_eq_sayThen (mode : Mode) (config : Config) (texts : List String)
    {others : List (List UInt8)} (h : ∀ line ∈ others.head?, decodeUtf8? line = none) :
    converse mode config (texts.map encodeUtf8 ++ others) =
      sayThen (texts.flatMap (fun line ↦ prompt :: echo mode config line) ++ [prompt])
        (endingOf others) := by
  have last : (do sayAll [prompt]; conclude (endingOf others) : Talk Unit) =
      (do say prompt; conclude (endingOf others)) := by
    rw [sayAll_cons, bind_assoc]
    rfl
  rw [converse_append, sayThen, sayAll_append, bind_assoc, last]
  refine congrArg _ (funext fun _ ↦ ?_)
  rcases others with - | ⟨line, others⟩
  · rw [converse_nil]
    exact (bind_pure_unit (x := say prompt)).symm
  · rw [converse_cons, h line rfl]
    rfl

/-! ### The transcript -/

/-- What is shown for a line: in the mode of tokens, a line for each token but the end of the input;
in the mode of trees, the written form of the program on a line if the line parses, and else a line
for each error, behind a tab. -/
def shown (mode : Mode) (config : Config) (line : String) : String :=
  match mode with
  | .tokens =>
    String.join (((tokenize line).filter (·.kind ≠ .endOfInput)).map fun t ↦ t.render ++ "\n")
  | .tree =>
    let output := parse config line
    if output.errors = [] then output.program.render ++ "\n"
    else String.join (output.errors.map fun e ↦ "\t" ++ e.message ++ "\n")

/-- The pieces of an answer are what is shown. -/
theorem join_echo (mode : Mode) (config : Config) (line : String) :
    String.join (echo mode config line) = shown mode config line := by
  cases mode with
  | tokens => rw [echo, tokenEcho_eq_map_tokenize, shown]
  | tree =>
    rw [echo, treeEcho, shown, ParseOutput.hasErrors]
    rcases (parse config line).errors with - | ⟨e, errors⟩
    · simp
    · simp

/-- The pieces that are said are the prompts with what is shown for the lines, and a prompt. -/
theorem flatMap_encodeUtf8_pieces (mode : Mode) (config : Config) (texts : List String) :
    (texts.flatMap (fun line ↦ prompt :: echo mode config line) ++ [prompt]).flatMap encodeUtf8 =
      encodeUtf8 (String.join (texts.map fun line ↦ prompt ++ shown mode config line) ++
        prompt) := by
  rw [← encodeUtf8_join, String.join_append, join_flatMap]
  simp only [String.join_cons, String.join_nil, String.append_empty, join_echo]

/-- **A failure cuts the transcript and changes nothing else.** Let the lines in front of the first
one that is not text be `texts`. With room without end the loop writes a prompt and what is shown for
each of these, and then a prompt; it ends with a failure to read if there is a line that is not text,
and else with nothing wrong. With room for so many bytes it writes the first bytes of that, as many as
there is room for, and ends in the same way if that is all of it, and else with a failure to write. -/
theorem transcript_cut (mode : Mode) (config : Config) (input : List UInt8) :
    ∃ (texts : List String) (others : List (List UInt8)),
      lines input = texts.map encodeUtf8 ++ others ∧
      (∀ line ∈ others.head?, decodeUtf8? line = none) ∧
      let full := encodeUtf8
        (String.join (texts.map fun line ↦ prompt ++ shown mode config line) ++ prompt)
      transcript mode config input none = (full, endingOf others) ∧
      ∀ room : Nat, transcript mode config input (some room) =
        (full.take room, if full.length ≤ room then endingOf others else some .write) := by
  obtain ⟨texts, others, lines_eq, stops⟩ := exists_texts (lines input)
  refine ⟨texts, others, lines_eq, stops, ?_, fun room ↦ ?_⟩
  · rw [transcript, lines_eq, converse_eq_sayThen mode config texts stops, Talk.run_sayThen_none,
      flatMap_encodeUtf8_pieces]
  · rw [transcript, lines_eq, converse_eq_sayThen mode config texts stops, Talk.run_sayThen_some,
      flatMap_encodeUtf8_pieces]

/-- A writer that takes the first byte of a character and no more fails in front of the line that is
not text; with room for all, the loop reads that line and fails there. -/
example :
    transcript .tokens ⟨9⟩ [195, 169, 10, 255] (some 37) =
        (encodeUtf8 ">> Token \x7b kind: ILLEGAL, literal: \"" ++ [195], some .write) ∧
      transcript .tokens ⟨9⟩ [195, 169, 10, 255] (some 45) =
        (encodeUtf8 ">> Token \x7b kind: ILLEGAL, literal: \"é\" \x7d\n>> ", some .read) := by
  decide +kernel

end MonkeyLang.ReadLoop
