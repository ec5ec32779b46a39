import Mathlib.Data.List.TakeWhile
import MonkeyLang.Proofs.Lexing.Place

/-!
# Texts put together

Two texts that are put together have the tokens of the first and then those of the second, if no
lexeme runs on over the place where they meet (`Cursor.pending_append`). What has to be said of
that place is said by the two characters that meet there, `Apart`: they are not both letters or
both digits, and do not make a sign of two characters. A semicolon and a blank run on with
nothing, so behind either any text may stand.
-/

namespace MonkeyLang

/-- The last character of a text and the first one of the next do not run on in one lexeme. -/
def Apart (front rest : List Char) : Prop :=
  ∀ c ∈ front.getLast?, (isLetter c = true → Leaves isLetter rest) ∧
    (c.isDigit = true → Leaves Char.isDigit rest) ∧ (c = '=' ∨ c = '!' → Leaves (· == '=') rest)

/-- Whether texts run on depends on the end of the first alone. -/
theorem Apart.of_suffix {front front' rest : List Char} (h : Apart front rest)
    (hs : front' <:+ front) : Apart front' rest := by
  obtain ⟨before, rfl⟩ := hs
  intro c hc
  refine h c ?_
  rw [List.getLast?_append, Option.mem_def.1 hc]
  rfl

/-- What ends in a sign that makes no longer one runs on with nothing. -/
theorem apart_of_getLast? {front : List Char} {c : Char} (h : front.getLast? = some c)
    (hl : isLetter c = false) (hd : c.isDigit = false) (he : c ≠ '=') (hb : c ≠ '!')
    (rest : List Char) : Apart front rest := by
  intro x hx
  obtain rfl := Option.some.inj (h.symm.trans hx)
  simp [hl, hd, he, hb]

/-- What starts with neither a letter nor a digit nor a sign of assignment runs on with nothing in
front of it. -/
theorem apart_cons (front : List Char) {c : Char} (hl : isLetter c = false)
    (hd : c.isDigit = false) (he : c ≠ '=') (rest : List Char) : Apart front (c :: rest) := by
  intro x _
  simp [hl, hd, he]

/-- A class of characters that holds all of a text holds its last one. -/
theorem Apart.leaves_of_forall {p : Char → Bool} {front rest : List Char} (hn : front ≠ [])
    (hp : ∀ c ∈ front, p c = true) (h : ∀ c ∈ front.getLast?, p c = true → Leaves p rest) :
    Leaves p rest :=
  h _ (List.getLast?_eq_some_getLast hn) (hp _ (List.getLast_mem hn))

/-- A run stops where it did, if the text behind does not go on with it. -/
theorem takeWhile_append_of_cut {p : Char → Bool} {front rest : List Char}
    (h : (∀ c ∈ front, p c = true) → Leaves p rest) :
    (front ++ rest).takeWhile p = front.takeWhile p ∧
      (front ++ rest).dropWhile p = front.dropWhile p ++ rest := by
  induction front with
  | nil =>
    have hr := h (by simp)
    simpa using @takeWhile_append_of_leaves p [] rest (by simp) hr
  | cons c front ih =>
    by_cases hc : p c = true
    · have inner := ih fun hf ↦ h (List.forall_mem_cons.2 ⟨hc, hf⟩)
      simpa [hc] using inner
    · simp [hc]

namespace Lexeme

variable {c : Char} {cs rest : List Char}

/-- A run of a class is the same in front of a text that does not go on with it. -/
theorem run_append {p : Char → Bool} (kind : List Char → TokenKind) (hc : p c = true)
    (h : ∀ x ∈ (c :: cs).getLast?, p x = true → Leaves p rest) :
    run p kind c (cs ++ rest) =
      ⟨(run p kind c cs).kind, (run p kind c cs).text, (run p kind c cs).rest ++ rest⟩ := by
  have cut := @takeWhile_append_of_cut p cs rest fun hcs ↦
    Apart.leaves_of_forall (List.cons_ne_nil c cs) (List.forall_mem_cons.2 ⟨hc, hcs⟩) h
  rw [run, run, cut.1, cut.2]

/-- **The first lexeme of a text is the same in front of a text that does not run on with it.** -/
theorem first_append (h : Apart (c :: cs) rest) :
    first c (cs ++ rest) =
      ⟨(first c cs).kind, (first c cs).text, (first c cs).rest ++ rest⟩ := by
  by_cases hl : isLetter c = true
  · rw [first, first, if_pos hl, if_pos hl]
    exact run_append _ hl fun x hx ↦ (h x hx).1
  by_cases hd : c.isDigit = true
  · rw [first, first, if_neg hl, if_neg hl, if_pos hd, if_pos hd]
    exact run_append _ hd fun x hx ↦ (h x hx).2.1
  rcases cs with - | ⟨d, cs⟩
  · have alone : c = '=' ∨ c = '!' → Leaves (· == '=') rest := (h c rfl).2.2
    rw [Bool.not_eq_true] at hl hd
    rw [List.nil_append, first_single hl hd alone,
      first_single hl hd fun _ ↦ leaves_nil _, List.nil_append]
  · rw [first, first, if_neg hl, if_neg hl, if_neg hd, if_neg hd, List.cons_append, sign, sign]
    split <;> rfl

end Lexeme

/-- The text behind a line break begins where the line in front of it has ended. -/
theorem utf8ByteSize_append_newline (a : String) :
    (a ++ "\n").utf8ByteSize = a.utf8ByteSize + 1 :=
  String.utf8ByteSize_append

namespace Cursor

/-- Blanks in front of a text are passed. -/
theorem pending_blanks (here : Nat) {blanks : List Char} (hb : ∀ c ∈ blanks, isBlank c = true)
    (rest : List Char) :
    (⟨here, blanks ++ rest⟩ : Cursor).pending =
      (⟨here + byteLength blanks, rest⟩ : Cursor).pending := by
  induction blanks generalizing here with
  | nil => rfl
  | cons b blanks ih =>
    rw [List.forall_mem_cons] at hb
    rw [List.cons_append, pending_blank hb.1, ih _ hb.2, byteLength_cons, Nat.add_assoc]

/-- **Texts put together have the tokens of both**, if no lexeme runs on from one to the other. -/
theorem pending_append (c : Cursor) {rest : List Char} (h : Apart c.rest rest) :
    (⟨c.offset, c.rest ++ rest⟩ : Cursor).pending =
      c.pending ++ (⟨c.stop, rest⟩ : Cursor).pending := by
  induction c using pending_induction with
  | none_left c hc =>
    have blanks : ∀ b ∈ c.rest, isBlank b = true := List.dropWhile_eq_nil_iff.1
      (next?_eq_none_iff.1 hc)
    exact pending_blanks c.offset blanks rest
  | in_front c d t hc ih =>
    have places := places_of_next? hc
    obtain ⟨ch, cs, hrest, rfl, rfl⟩ := next?_eq_some_iff.1 hc
    have whole : c.rest.takeWhile isBlank ++ ch :: cs = c.rest := by
      rw [← hrest, List.takeWhile_append_dropWhile]
    have blanks : ∀ b ∈ c.rest.takeWhile isBlank, isBlank b = true := fun b ↦
      List.mem_takeWhile_imp
    have here : Apart (ch :: cs) rest := h.of_suffix ⟨_, whole⟩
    have split : c.rest ++ rest = c.rest.takeWhile isBlank ++ ch :: (cs ++ rest) := by
      rw [← List.cons_append, ← List.append_assoc, whole]
    have behind := ih (here.of_suffix ⟨_, Lexeme.text_append_rest ch cs⟩)
    rw [places.2.2.2] at behind
    rw [List.cons_append, ← behind, split, pending_blanks _ blanks,
      pending_of_first (isBlank_of_dropWhile hrest) (Lexeme.first_append here)]
    rfl

/-- The tokens of two texts put together are those of the first, and those of the second moved
behind it. -/
theorem pending_start_append {a b : String} (h : Apart a.toList b.toList) :
    (start (a ++ b)).pending =
      (start a).pending ++ ((start b).shift a.utf8ByteSize).pending := by
  have stop_eq : (start a).stop = (start b).offset + a.utf8ByteSize := by
    rw [stop, start, byteLength_toList]
    rfl
  rw [start, String.toList_append, shift, ← stop_eq]
  exact pending_append (start a) h

/-- So are the tokens of two texts on lines of their own, whatever the texts are. -/
theorem pending_start_newline (a b : String) :
    (start (a ++ "\n" ++ b)).pending =
      (start a).pending ++ ((start b).shift (a ++ "\n").utf8ByteSize).pending := by
  have behind : Apart (a ++ "\n").toList b.toList := by
    refine apart_of_getLast? (c := '\n') ?_ rfl rfl (by decide) (by decide) b.toList
    rw [String.toList_append]
    exact List.getLast?_concat
  have in_front : Apart a.toList "\n".toList := apart_cons a.toList rfl rfl (by decide) []
  have blank : (start "\n").pending = [] := by decide +kernel
  rw [pending_start_append behind, pending_start_append in_front, pending_shift, blank,
    List.map_nil, List.append_nil]

theorem stop_start_append (a b : String) :
    (start (a ++ b)).stop = ((start b).shift a.utf8ByteSize).stop := by
  show 0 + byteLength (a ++ b).toList = 0 + a.utf8ByteSize + byteLength b.toList
  rw [String.toList_append, byteLength_append, byteLength_toList, Nat.add_assoc]

end Cursor

end MonkeyLang
