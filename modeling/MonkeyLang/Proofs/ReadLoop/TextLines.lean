import MonkeyLang.Text.Lines
import MonkeyLang.Text.Utf8

/-!
# Lines of bytes and lines of text

What a line is can be said of bytes and of characters alike: input is split at every newline, each
piece but the last loses a carriage return at its end, and the last piece is a line if it is not
empty. `linesOn` says so for any alphabet with two such marks. The lines of input, which are cut
while its bytes are run through, are the lines in this sense (`lines_eq_linesOn`).

In the bytes of a text the two marks stand for themselves alone, since a character of several bytes
has none below 128 (`mem_utf8EncodeChar_iff`). So the lines of the bytes of a text are the bytes of
the lines of the text (`lines_encodeUtf8`), and each of them is text again.
-/

namespace MonkeyLang

/-! ### Lines over an alphabet -/

section Alphabet

variable {α : Type} [DecidableEq α] (newline cr : α)

/-- A line without the mark at its end, if it ends in one. -/
def withoutLast (line : List α) : List α :=
  if line.getLast? = some cr then line.dropLast else line

/-- What a newline ends, each without a carriage return at its end, and what stands behind the last
newline, if anything does. -/
def linesOn (xs : List α) : List (List α) :=
  let pieces := xs.splitOn newline
  pieces.dropLast.map (withoutLast cr) ++ (pieces.getLast?.filter (· ≠ [])).toList

variable {newline cr}

/-- Without a newline all is one line, if there is anything. -/
theorem linesOn_of_not_mem {xs : List α} (h : newline ∉ xs) :
    linesOn newline cr xs = if xs = [] then [] else [xs] := by
  rw [linesOn, List.splitOn_eq_singleton h]
  by_cases hx : xs = [] <;> simp [hx]

/-- What stands in front of the first newline is the first line, and the others are those of what
stands behind. -/
theorem linesOn_append_cons {xs : List α} (h : newline ∉ xs) (rest : List α) :
    linesOn newline cr (xs ++ newline :: rest) =
      withoutLast cr xs :: linesOn newline cr rest := by
  obtain ⟨piece, pieces, split⟩ := List.exists_cons_of_ne_nil (List.splitOn_ne_nil newline rest)
  rw [linesOn, linesOn, List.splitOn_append_cons_self_of_not_mem h, split]
  rfl

/-- **Induction along lines**: there is no newline, or a first one with more behind it. -/
@[elab_as_elim]
theorem linesOn_induction {motive : List α → Prop} (newline : α)
    (last : ∀ xs, newline ∉ xs → motive xs)
    (line : ∀ xs rest, newline ∉ xs → motive rest → motive (xs ++ newline :: rest))
    (xs : List α) : motive xs := by
  induction hn : xs.length using Nat.strongRecOn generalizing xs with
  | _ n ih =>
    subst hn
    by_cases h : newline ∈ xs
    · obtain ⟨front, rest, rfl, hf⟩ := List.eq_append_cons_of_mem h
      exact line front rest hf (ih _ (by simp; omega) rest rfl)
    · exact last xs h

@[simp] theorem withoutLast_concat (xs : List α) (x : α) :
    withoutLast cr (xs ++ [x]) = if x = cr then xs else xs ++ [x] := by
  simp [withoutLast]

end Alphabet

/-! ### Lines of bytes -/

/-- The carriage return that a line in reverse loses is the last byte of the line. -/
theorem reverse_dropReturn (line : List UInt8) :
    (dropReturn line).reverse = withoutLast returnByte line.reverse := by
  rcases line with - | ⟨b, line⟩
  · rfl
  · rw [dropReturn, List.reverse_cons, withoutLast_concat]
    split <;> simp

/-- The lines of input of which some bytes have been seen are those of these and the others. -/
theorem linesFrom_eq_linesOn {line : List UInt8} (h : newlineByte ∉ line) (input : List UInt8) :
    linesFrom line input = linesOn newlineByte returnByte (line.reverse ++ input) := by
  induction input generalizing line with
  | nil =>
    rw [List.append_nil, linesOn_of_not_mem (by simpa using h), linesFrom, lastLine?]
    cases line <;> simp
  | cons b input ih =>
    rw [linesFrom, readByte]
    by_cases newline : b = newlineByte
    · simp only [if_pos newline]
      rw [newline, linesOn_append_cons (by simpa using h), ih List.not_mem_nil, reverse_dropReturn]
      rfl
    · simp only [if_neg newline]
      rw [ih (List.not_mem_cons_of_ne_of_not_mem (Ne.symm newline) h), List.reverse_cons,
        List.append_assoc]
      rfl

/-- **The lines of input are its lines over the alphabet of bytes.** -/
theorem lines_eq_linesOn (input : List UInt8) :
    lines input = linesOn newlineByte returnByte input :=
  linesFrom_eq_linesOn List.not_mem_nil input

/-! ### The bytes of a text -/

/-- The bytes of a text are those of its characters, one after the other. -/
theorem encodeUtf8_eq_flatMap (text : String) :
    encodeUtf8 text = text.toList.flatMap String.utf8EncodeChar := by
  rw [encodeUtf8, String.toUTF8_eq_toByteArray, ← String.utf8Encode_toList, List.utf8Encode,
    List.toList_data_toByteArray]

/-- The bytes of texts put together are those of the texts, one after the other. -/
theorem encodeUtf8_join (texts : List String) :
    encodeUtf8 (String.join texts) = texts.flatMap encodeUtf8 := by
  rw [encodeUtf8_eq_flatMap, String.toList_join, List.flatMap_assoc,
    funext encodeUtf8_eq_flatMap]

/-- A character below 128 has one byte, its number. -/
theorem utf8EncodeChar_of_lt {c : Char} (h : c.toNat < 128) :
    String.utf8EncodeChar c = [UInt8.ofNat c.toNat] :=
  if_pos (Nat.le_of_lt_succ h)

/-- No other character has a byte below 128. -/
theorem le_toNat_of_mem_utf8EncodeChar {c : Char} (h : 128 ≤ c.toNat) :
    ∀ b ∈ String.utf8EncodeChar c, 128 ≤ b.toNat := by
  have high : ∀ {n : Nat}, 128 ≤ n → n < 256 → 128 ≤ (UInt8.ofNat n).toNat := by
    intro n hl hn
    rwa [UInt8.toNat_ofNat_of_lt' hn]
  fun_cases String.utf8EncodeChar c with
  | case1 v one => exact absurd h (Nat.not_le.2 (Nat.lt_succ_of_le one))
  | _ =>
    simp only [List.forall_mem_cons, List.not_mem_nil, false_implies, implies_true, and_true]
    and_intros <;> exact high (by omega) (by omega)

/-- The byte of a character below 128 is in the bytes of this character alone. -/
theorem mem_utf8EncodeChar_iff {c d : Char} (h : c.toNat < 128) :
    UInt8.ofNat c.toNat ∈ String.utf8EncodeChar d ↔ d = c := by
  have number : ∀ {c : Char}, c.toNat < 128 → (UInt8.ofNat c.toNat).toNat = c.toNat := fun hc ↦
    UInt8.toNat_ofNat_of_lt' (Nat.lt_trans hc (by decide))
  constructor
  · intro hd
    rcases Nat.lt_or_ge d.toNat 128 with low | high
    · rw [utf8EncodeChar_of_lt low, List.mem_singleton] at hd
      refine Char.toNat_inj.1 ?_
      rw [← number low, ← hd, number h]
    · have := le_toNat_of_mem_utf8EncodeChar high _ hd
      rw [number h] at this
      omega
  · rintro rfl
    rw [utf8EncodeChar_of_lt h]
    exact List.mem_singleton_self _

/-! ### Lines of text -/

/-- Without bytes there are no characters. -/
theorem flatMap_utf8EncodeChar_eq_nil_iff {cs : List Char} :
    cs.flatMap String.utf8EncodeChar = [] ↔ cs = [] := by
  rcases cs with - | ⟨c, cs⟩
  · exact iff_of_true rfl rfl
  · rw [List.flatMap_cons, List.append_eq_nil_iff]
    exact iff_of_false (fun h ↦ String.utf8EncodeChar_ne_nil h.1) (List.cons_ne_nil c cs)

/-- A line loses a character at its end exactly when the line's bytes lose the character's byte. -/
theorem withoutLast_flatMap {cr : Char} (h : cr.toNat < 128) (cs : List Char) :
    withoutLast (UInt8.ofNat cr.toNat) (cs.flatMap String.utf8EncodeChar) =
      (withoutLast cr cs).flatMap String.utf8EncodeChar := by
  rcases List.eq_nil_or_concat cs with rfl | ⟨front, c, rfl⟩
  · rfl
  · rw [List.concat_eq_append, List.flatMap_append, List.flatMap_singleton, withoutLast_concat]
    split
    next hc =>
      rw [hc, utf8EncodeChar_of_lt h, withoutLast_concat, if_pos rfl]
    next hc =>
      obtain ⟨bytes, b, hb⟩ := (List.eq_nil_or_concat (String.utf8EncodeChar c)).resolve_left
        String.utf8EncodeChar_ne_nil
      have other : b ≠ UInt8.ofNat cr.toNat := by
        rintro rfl
        exact hc ((mem_utf8EncodeChar_iff h).1 (hb ▸ by simp))
      rw [List.flatMap_append, List.flatMap_singleton, hb, List.concat_eq_append,
        ← List.append_assoc, withoutLast_concat, if_neg other]

/-- **Bytes and characters have the same lines.** -/
theorem linesOn_flatMap {newline cr : Char} (hn : newline.toNat < 128) (hc : cr.toNat < 128)
    (cs : List Char) :
    linesOn (UInt8.ofNat newline.toNat) (UInt8.ofNat cr.toNat)
        (cs.flatMap String.utf8EncodeChar) =
      (linesOn newline cr cs).map (List.flatMap String.utf8EncodeChar) := by
  have inside : ∀ {cs : List Char}, newline ∉ cs →
      UInt8.ofNat newline.toNat ∉ cs.flatMap String.utf8EncodeChar := by
    intro cs hcs hmem
    obtain ⟨d, hd, hb⟩ := List.mem_flatMap.1 hmem
    exact hcs ((mem_utf8EncodeChar_iff hn).1 hb ▸ hd)
  induction cs using linesOn_induction newline with
  | last cs h =>
    rw [linesOn_of_not_mem h, linesOn_of_not_mem (inside h)]
    simp only [flatMap_utf8EncodeChar_eq_nil_iff]
    split <;> simp
  | line cs rest h ih =>
    rw [List.flatMap_append, List.flatMap_cons, utf8EncodeChar_of_lt hn, List.singleton_append,
      linesOn_append_cons (inside h), linesOn_append_cons h, ih, List.map_cons,
      withoutLast_flatMap hc]

/-- The lines of a text, without their ends. -/
def textLines (text : String) : List String :=
  (linesOn '\n' '\r' text.toList).map String.ofList

/-- **The lines of the bytes of a text are the bytes of the lines of the text.** -/
theorem lines_encodeUtf8 (text : String) :
    lines (encodeUtf8 text) = (textLines text).map encodeUtf8 := by
  have encoded : ∀ cs, encodeUtf8 (String.ofList cs) = cs.flatMap String.utf8EncodeChar := by
    intro cs
    rw [encodeUtf8_eq_flatMap, String.toList_ofList]
  rw [lines_eq_linesOn, encodeUtf8_eq_flatMap, textLines, List.map_map]
  exact (@linesOn_flatMap '\n' '\r' (by decide) (by decide) text.toList).trans
    (List.map_congr_left fun cs _ ↦ (encoded cs).symm)

end MonkeyLang
