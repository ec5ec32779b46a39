import Mathlib.Data.Prod.Lex
import Mathlib.Order.Bounds.Basic
import MonkeyLang.Proofs.Lexing.Tiling

/-!
# Positions in the order of reading

Positions are in the order of reading: by line, and within a line by column. Every character takes
the position on (`Position.lt_after`), so of two texts of which one begins with the other, the longer
one ends at the later position.

The position of an offset is the position behind the characters that start before it
(`Position.ofOffset_eq_behind`), and all that is said here of offsets is said of these characters
first: they begin the text, they are more for a larger offset, and in front of a boundary they are
the text up to it. So a larger offset never has an earlier position (`Position.monotone_ofOffset`),
two boundaries never have the same one (`Position.strictMonoOn_ofOffset`), and an offset that is no
boundary has the position of the next one (`Position.exists_isLeast_boundary`).
-/

namespace MonkeyLang

/-! ### Boundaries -/

/-- An offset is a boundary of a text if some characters that begin the text take that many bytes. -/
def IsCharBoundary (source : String) (offset : Nat) : Prop :=
  ∃ before : String, (⟨0, offset⟩ : Span).Reads source before

/-- What a text has from its start up to an offset are characters that begin the text and take that
many bytes. -/
theorem Span.reads_zero_iff {source before : String} {offset : Nat} :
    (⟨0, offset⟩ : Span).Reads source before ↔
      before.toList <+: source.toList ∧ offset = byteLength before.toList := by
  constructor
  · rintro ⟨nothing, behind, rfl, hstart, hstop⟩
    have empty : nothing.toList = [] := by
      by_contra h
      have some_bytes := byteLength_pos h
      rw [byteLength_toList] at some_bytes
      exact Nat.ne_of_lt some_bytes hstart
    refine ⟨⟨behind.toList, ?_⟩, ?_⟩
    · rw [String.toList_append, String.toList_append, empty, List.nil_append]
    · rw [byteLength_toList]
      exact hstop.trans (Nat.zero_add _)
  · rintro ⟨⟨behind, h⟩, rfl⟩
    refine ⟨"", String.ofList behind, ?_, rfl, ?_⟩
    · rw [← String.toList_inj, ← h]
      simp
    · rw [byteLength_toList]
      exact (Nat.zero_add _).symm

/-- The boundaries of a text are the numbers of bytes that characters take which begin it. -/
theorem isCharBoundary_iff {source : String} {offset : Nat} :
    IsCharBoundary source offset ↔
      ∃ front, front <+: source.toList ∧ offset = byteLength front := by
  constructor
  · rintro ⟨before, h⟩
    exact ⟨before.toList, Span.reads_zero_iff.1 h⟩
  · rintro ⟨front, h⟩
    refine ⟨String.ofList front, Span.reads_zero_iff.2 ?_⟩
    rwa [String.toList_ofList]

/-! ### Characters that start before an offset -/

/-- The characters that start within the next `n` bytes. -/
def startingWithin (n : Nat) : List Char → List Char
  | [] => []
  | c :: cs => if n = 0 then [] else c :: startingWithin (n - c.utf8Size) cs

@[simp] theorem startingWithin_zero (cs : List Char) : startingWithin 0 cs = [] := by
  cases cs <;> rfl

/-- They begin the text, and they are more for a larger number of bytes. -/
theorem startingWithin_prefix_of_le {m n : Nat} (h : m ≤ n) (cs : List Char) :
    startingWithin m cs <+: startingWithin n cs := by
  induction cs generalizing m n with
  | nil => exact List.prefix_refl _
  | cons c cs ih =>
    rw [startingWithin, startingWithin]
    split
    next => exact List.nil_prefix
    next hm =>
      rw [if_neg (by omega), List.prefix_cons_inj]
      exact ih (Nat.sub_le_sub_right h _)

/-- Characters that take no more than so many bytes all start within them. -/
theorem startingWithin_append {front : List Char} {n : Nat} (h : byteLength front ≤ n)
    (rest : List Char) :
    startingWithin n (front ++ rest) = front ++ startingWithin (n - byteLength front) rest := by
  induction front generalizing n with
  | nil => rfl
  | cons c front ih =>
    rw [byteLength_cons] at h
    have some_bytes := c.utf8Size_pos
    rw [List.cons_append, startingWithin, if_neg (by omega), ih (by omega), byteLength_cons,
      Nat.sub_sub, List.cons_append]

/-- In front of a boundary they are the text up to it. -/
theorem startingWithin_byteLength (front rest : List Char) :
    startingWithin (byteLength front) (front ++ rest) = front := by
  rw [startingWithin_append (Nat.le_refl _), Nat.sub_self, startingWithin_zero, List.append_nil]

/-- In front of what is no boundary they reach up to the next one, or to the end of the text. -/
theorem le_byteLength_startingWithin {n : Nat} {cs : List Char} (h : n ≤ byteLength cs) :
    n ≤ byteLength (startingWithin n cs) := by
  induction cs generalizing n with
  | nil => exact h
  | cons c cs ih =>
    rw [byteLength_cons] at h
    rw [startingWithin]
    split
    next none_left => omega
    next =>
      have behind := ih (n := n - c.utf8Size) (by omega)
      rw [byteLength_cons]
      omega

/-- From the end of the text on they are the text. -/
theorem startingWithin_of_le {n : Nat} {cs : List Char} (h : byteLength cs ≤ n) :
    startingWithin n cs = cs := by
  have whole := startingWithin_append h []
  rwa [List.append_nil, startingWithin, List.append_nil] at whole

/-- They begin the text. -/
theorem startingWithin_prefix_text (n : Nat) (cs : List Char) : startingWithin n cs <+: cs := by
  have larger := startingWithin_prefix_of_le (Nat.le_max_left n (byteLength cs)) cs
  rwa [startingWithin_of_le (Nat.le_max_right _ _)] at larger

namespace Position

/-! ### The order of reading -/

/-- Positions are in the order of reading: by line, and within a line by column. -/
instance : LinearOrder Position :=
  LinearOrder.lift' (fun p ↦ toLex (p.line, p.column)) fun p q h ↦ by
    obtain ⟨line, column⟩ := Prod.mk.inj (toLex.injective h)
    cases p
    cases q
    exact congrArg₂ mk line column

theorem lt_iff {p q : Position} :
    p < q ↔ p.line < q.line ∨ p.line = q.line ∧ p.column < q.column :=
  Prod.Lex.lt_iff

/-- Every character takes the position on. -/
theorem lt_after (p : Position) (c : Char) : p < p.after c := by
  rw [after, lt_iff]
  split
  · exact .inl (Nat.lt_succ_self _)
  · exact .inr ⟨rfl, Nat.lt_succ_self _⟩

/-- The position behind characters, of which the first one stands at `p`. -/
def behind (p : Position) (cs : List Char) : Position := cs.foldl after p

@[simp] theorem behind_nil (p : Position) : p.behind [] = p := rfl

@[simp] theorem behind_cons (p : Position) (c : Char) (cs : List Char) :
    p.behind (c :: cs) = (p.after c).behind cs := rfl

theorem behind_append (p : Position) (cs ds : List Char) :
    p.behind (cs ++ ds) = (p.behind cs).behind ds :=
  List.foldl_append

/-- Characters do not take the position back. -/
theorem le_behind (p : Position) (cs : List Char) : p ≤ p.behind cs := by
  induction cs generalizing p with
  | nil => exact le_refl p
  | cons c cs ih => exact (lt_after p c).le.trans (ih (p.after c))

/-- A text that goes on does not end at an earlier position. -/
theorem behind_le_behind (p : Position) {cs ds : List Char} (h : cs <+: ds) :
    p.behind cs ≤ p.behind ds := by
  obtain ⟨more, rfl⟩ := h
  rw [behind_append]
  exact le_behind _ more

/-- A text that goes on ends at a later position. -/
theorem behind_lt_behind (p : Position) {cs ds : List Char} (h : cs <+: ds) (hne : cs ≠ ds) :
    p.behind cs < p.behind ds := by
  obtain ⟨more, rfl⟩ := h
  rcases more with - | ⟨c, more⟩
  · exact absurd (List.append_nil cs).symm hne
  · rw [behind_append, behind_cons]
    exact (lt_after _ c).trans_le (le_behind _ more)

/-! ### Positions of offsets -/

/-- A walk goes over the characters that start within its bytes. -/
theorem walk_eq_behind (p : Position) (n : Nat) (cs : List Char) :
    walk p n cs = p.behind (startingWithin n cs) := by
  induction cs generalizing p n with
  | nil => rfl
  | cons c cs ih =>
    rw [walk, startingWithin]
    split
    · rfl
    · rw [ih, behind_cons]

/-- **The position of an offset** is the position behind the characters that start before it. -/
theorem ofOffset_eq_behind (source : String) (offset : Nat) :
    ofOffset source offset = first.behind (startingWithin offset source.toList) :=
  walk_eq_behind first offset source.toList

/-- The position of a boundary is the position behind the text up to it. -/
theorem ofOffset_byteLength {source : String} {front : List Char} (h : front <+: source.toList) :
    ofOffset source (byteLength front) = first.behind front := by
  obtain ⟨rest, h⟩ := h
  rw [ofOffset_eq_behind, ← h, startingWithin_byteLength]

/-- **A larger offset has no earlier position.** -/
theorem monotone_ofOffset (source : String) : Monotone (ofOffset source) := by
  intro m n h
  rw [ofOffset_eq_behind, ofOffset_eq_behind]
  exact behind_le_behind first (startingWithin_prefix_of_le h source.toList)

/-- **Of two boundaries the larger one has a later position.** -/
theorem strictMonoOn_ofOffset (source : String) :
    StrictMonoOn (ofOffset source) {offset | IsCharBoundary source offset} := by
  intro m hm n hn h
  obtain ⟨front, hf, rfl⟩ := isCharBoundary_iff.1 hm
  obtain ⟨front', hf', rfl⟩ := isCharBoundary_iff.1 hn
  have shorter : front <+: front' := by
    refine (List.prefix_or_prefix_of_prefix hf hf').resolve_right fun ⟨more, hmore⟩ ↦ ?_
    rw [← hmore, byteLength_append] at h
    omega
  rw [ofOffset_byteLength hf, ofOffset_byteLength hf']
  exact behind_lt_behind first shorter fun heq ↦ absurd h (heq ▸ Nat.lt_irrefl _)

/-- **An offset has the position of the first boundary that is not in front of it**: its own, if it
is a boundary, and the next one, if it is inside a character. -/
theorem exists_isLeast_boundary {source : String} {offset : Nat}
    (h : offset ≤ source.utf8ByteSize) :
    ∃ boundary, IsLeast {b | IsCharBoundary source b ∧ offset ≤ b} boundary ∧
      ofOffset source offset = ofOffset source boundary := by
  let front := startingWithin offset source.toList
  have begins : front <+: source.toList := startingWithin_prefix_text offset source.toList
  refine ⟨byteLength front, ⟨⟨isCharBoundary_iff.2 ⟨front, begins, rfl⟩, ?_⟩, ?_⟩, ?_⟩
  · rw [← byteLength_toList] at h
    exact le_byteLength_startingWithin h
  · rintro b ⟨hb, hle⟩
    obtain ⟨front', ⟨rest, hrest⟩, rfl⟩ := isCharBoundary_iff.1 hb
    have shorter := startingWithin_prefix_of_le hle source.toList
    rw [← hrest, startingWithin_byteLength, hrest] at shorter
    obtain ⟨more, hmore⟩ := shorter
    rw [← hmore, byteLength_append]
    exact Nat.le_add_right _ _
  · rw [ofOffset_byteLength begins, ofOffset_eq_behind]

/-- An offset past the end has the position of the end. -/
theorem ofOffset_of_le {source : String} {offset : Nat} (h : source.utf8ByteSize ≤ offset) :
    ofOffset source offset = ofOffset source source.utf8ByteSize := by
  rw [← byteLength_toList] at h
  rw [ofOffset_eq_behind, startingWithin_of_le h, ← byteLength_toList,
    ofOffset_byteLength (List.prefix_refl _)]

end Position

end MonkeyLang
