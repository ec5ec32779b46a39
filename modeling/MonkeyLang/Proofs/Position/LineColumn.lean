import MonkeyLang.Proofs.Lexing.Requests
import MonkeyLang.Proofs.Position.Order
import MonkeyLang.Proofs.ReadLoop.TextLines

/-!
# Lines and columns name places in a text

A position says how many whole lines of a text stand in front of a place, and how many characters of
the place's own line. At a boundary these lines and characters are what the text has up to it, and no
other position says so (`Position.names_iff`). So the position of a boundary is a name for it.

A position can be found by one walk over the characters that start before the offset. It can also be
found by two passes: one that finds the last line that starts before the offset, and one that cuts
the text where that line starts and counts the characters from there on. The second pass would fail
if the cut were inside a character. It never is, and both ways agree (`Position.inTwoPasses?_eq`):
the first pass remembers the offset behind a newline, which is one byte long.
-/

namespace MonkeyLang

namespace Position

/-! ### Names of places -/

/-- A position names the place behind `before` in a text, if `before` is the lines of the text in
front of the position's line, each with its newline, and the characters of that line in front of the
position's column. -/
def Names (p : Position) (source before : String) : Prop :=
  ∃ lineCount charCount : Nat, p = ⟨lineCount + 1, charCount + 1⟩ ∧
    ∃ line, (source.toList.splitOn '\n')[lineCount]? = some line ∧ charCount ≤ line.length ∧
      before.toList = ((source.toList.splitOn '\n').take lineCount).flatMap (· ++ ['\n']) ++
        line.take charCount

/-- Characters on one line take a column each. -/
theorem behind_of_not_mem (p : Position) {cs : List Char} (h : '\n' ∉ cs) :
    p.behind cs = ⟨p.line, p.column + cs.length⟩ := by
  induction cs generalizing p with
  | nil => rfl
  | cons c cs ih =>
    obtain ⟨hc, hcs⟩ := not_or.1 (List.mem_cons.not.1 h)
    rw [behind_cons, after, if_neg (Ne.symm hc), ih _ hcs, List.length_cons, Nat.add_assoc,
      Nat.add_comm 1]

/-- Behind a line and its newline the next line starts. -/
theorem behind_line (p : Position) {line : List Char} (h : '\n' ∉ line) :
    p.behind (line ++ ['\n']) = ⟨p.line + 1, 1⟩ := by
  rw [behind_append, behind_of_not_mem p h, behind_cons, after, if_pos rfl, behind_nil]

/-- Behind whole lines as many lines have been passed. -/
theorem behind_lines {lines : List (List Char)} (h : ∀ line ∈ lines, '\n' ∉ line) (l : Nat) :
    behind ⟨l, 1⟩ (lines.flatMap (· ++ ['\n'])) = ⟨l + lines.length, 1⟩ := by
  induction lines generalizing l with
  | nil => rfl
  | cons line lines ih =>
    obtain ⟨here, others⟩ := List.forall_mem_cons.1 h
    rw [List.flatMap_cons, behind_append, behind_line _ here, ih others, List.length_cons,
      Nat.add_assoc, Nat.add_comm 1]

/-- The pieces that a text is split into have no newline. -/
theorem not_mem_of_mem_splitOn {cs piece : List Char} (h : piece ∈ cs.splitOn '\n') :
    '\n' ∉ piece := by
  induction cs using linesOn_induction '\n' with
  | last cs hcs =>
    rw [List.splitOn_eq_singleton hcs, List.mem_singleton] at h
    rwa [h]
  | line cs rest hcs ih =>
    rw [List.splitOn_append_cons_self_of_not_mem hcs, List.mem_cons] at h
    rcases h with rfl | h
    · exact hcs
    · exact ih h

/-- The first piece of a text begins with what stands in front of its first newline. -/
theorem exists_head_splitOn_append {cs : List Char} (h : '\n' ∉ cs) (more : List Char) :
    ∃ line, ((cs ++ more).splitOn '\n')[0]? = some (cs ++ line) := by
  by_cases newline : '\n' ∈ more
  · obtain ⟨line, rest, rfl, hline⟩ := List.eq_append_cons_of_mem newline
    refine ⟨line, ?_⟩
    rw [← List.append_assoc, List.splitOn_append_cons_self_of_not_mem]
    · rfl
    · simpa using ⟨h, hline⟩
  · refine ⟨more, ?_⟩
    rw [List.splitOn_eq_singleton]
    · rfl
    · simpa using ⟨h, newline⟩

/-- What begins a text is some lines of it, each with its newline, and characters of the next one. -/
theorem exists_lines_of_append (front rest : List Char) :
    ∃ lineCount line charCount, ((front ++ rest).splitOn '\n')[lineCount]? = some line ∧
      charCount ≤ line.length ∧
      front = (((front ++ rest).splitOn '\n').take lineCount).flatMap (· ++ ['\n']) ++
        line.take charCount := by
  induction front using linesOn_induction '\n' with
  | last front h =>
    obtain ⟨line, hline⟩ := exists_head_splitOn_append h rest
    refine ⟨0, front ++ line, front.length, hline, ?_, ?_⟩
    · rw [List.length_append]
      exact Nat.le_add_right _ _
    · rw [List.take_left]
      rfl
  | line front more h ih =>
    obtain ⟨lineCount, line, charCount, hline, hle, heq⟩ := ih
    rw [List.append_assoc, List.cons_append, List.splitOn_append_cons_self_of_not_mem h]
    refine ⟨lineCount + 1, line, charCount, hline, hle, ?_⟩
    rw [List.take_succ_cons, List.flatMap_cons, List.append_assoc, ← heq]
    simp

/-- **A position names the place of a boundary exactly if it is the boundary's position.** -/
theorem names_iff {source before : String} {offset : Nat}
    (h : (⟨0, offset⟩ : Span).Reads source before) (p : Position) :
    p.Names source before ↔ p = ofOffset source offset := by
  obtain ⟨begins, rfl⟩ := Span.reads_zero_iff.1 h
  rw [ofOffset_byteLength begins]
  have of_names : ∀ {p : Position}, p.Names source before → p = first.behind before.toList := by
    rintro _ ⟨lineCount, charCount, rfl, line, hline, hle, heq⟩
    have whole : ∀ piece ∈ (source.toList.splitOn '\n').take lineCount, '\n' ∉ piece :=
      fun piece hp ↦ not_mem_of_mem_splitOn (List.mem_of_mem_take hp)
    have own : '\n' ∉ line.take charCount := fun hmem ↦
      not_mem_of_mem_splitOn (List.mem_of_getElem? hline) (List.mem_of_mem_take hmem)
    have passed : ((source.toList.splitOn '\n').take lineCount).length = lineCount :=
      List.length_take_of_le (List.getElem?_eq_some_iff.1 hline).1.le
    rw [heq, behind_append, first, behind_lines whole, behind_of_not_mem _ own, passed,
      List.length_take_of_le hle, Nat.add_comm 1, Nat.add_comm 1]
  refine ⟨of_names, ?_⟩
  rintro rfl
  obtain ⟨rest, hrest⟩ := begins
  obtain ⟨lineCount, line, charCount, hline, hle, heq⟩ :=
    exists_lines_of_append before.toList rest
  rw [hrest] at hline heq
  have named : (⟨lineCount + 1, charCount + 1⟩ : Position).Names source before :=
    ⟨lineCount, charCount, rfl, line, hline, hle, heq⟩
  rwa [← of_names named]

/-! ### Two passes -/

/-- The last line that starts before an offset, or on it behind a newline that starts before it, and
the offset at which the line starts. The text `cs` stands at `here`, on the line `line`, which starts
at `start`. -/
def lineFrom (offset here line start : Nat) : List Char → Nat × Nat
  | [] => (line, start)
  | c :: cs =>
    if offset ≤ here then (line, start)
    else if c = '\n' then lineFrom offset (here + c.utf8Size) (line + 1) (here + 1) cs
    else lineFrom offset (here + c.utf8Size) line start cs

/-- The number of characters that start before an offset in a text that stands at `here`. -/
def columnsFrom (offset here : Nat) : List Char → Nat
  | [] => 0
  | c :: cs => if here < offset then columnsFrom offset (here + c.utf8Size) cs + 1 else 0

/-- The text behind its first `n` bytes, if these are characters. -/
def dropBytes? : Nat → List Char → Option (List Char)
  | 0, cs => some cs
  | _ + 1, [] => none
  | n + 1, c :: cs => if c.utf8Size ≤ n + 1 then dropBytes? (n + 1 - c.utf8Size) cs else none

/-- The position of an offset by two passes: the first one finds the line, and the second one counts
the characters of the text that is cut off where the line starts. There is none if the text cannot be
cut there. -/
def inTwoPasses? (source : String) (offset : Nat) : Option Position :=
  let offset := min offset source.utf8ByteSize
  let (line, start) := lineFrom offset 0 1 0 source.toList
  (dropBytes? start source.toList).map fun rest ↦ ⟨line, columnsFrom offset start rest + 1⟩

/-- At the boundary of a character a text can be cut. -/
theorem dropBytes?_byteLength (front rest : List Char) :
    dropBytes? (byteLength front) (front ++ rest) = some rest := by
  induction front with
  | nil => cases rest <;> rfl
  | cons c front ih =>
    have some_bytes := c.utf8Size_pos
    obtain ⟨n, hn⟩ : ∃ n, byteLength (c :: front) = n + 1 :=
      Nat.exists_eq_succ_of_ne_zero (by rw [byteLength_cons]; omega)
    have behind : n + 1 - c.utf8Size = byteLength front := by
      rw [← hn, byteLength_cons, Nat.add_sub_cancel_left]
    rw [hn, List.cons_append, dropBytes?, if_pos, behind, ih]
    rw [← hn, byteLength_cons]
    exact Nat.le_add_right _ _

/-- The second pass counts the characters that start before the offset. -/
theorem columnsFrom_eq_length (offset here : Nat) (cs : List Char) :
    columnsFrom offset here cs = (startingWithin (offset - here) cs).length := by
  induction cs generalizing here with
  | nil => rfl
  | cons c cs ih =>
    rw [columnsFrom, startingWithin]
    split
    next before => rw [if_neg (by omega), ih, Nat.sub_sub, List.length_cons]
    next => rw [if_pos (by omega), List.length_nil]

/-- The characters `seen`, which stand at `start`, all start before an offset. -/
def AllBefore (offset start : Nat) (seen : List Char) : Prop :=
  ∀ more, startingWithin (offset - start) (seen ++ more) =
    seen ++ startingWithin (offset - (start + byteLength seen)) more

theorem AllBefore.nil (offset start : Nat) : AllBefore offset start [] := fun _ ↦ rfl

/-- A character behind them that starts before the offset is one more of them. -/
theorem AllBefore.concat {offset start : Nat} {seen : List Char} (h : AllBefore offset start seen)
    {c : Char} (hc : start + byteLength seen < offset) : AllBefore offset start (seen ++ [c]) := by
  intro more
  rw [List.append_assoc, h, List.singleton_append, startingWithin, if_neg (by omega),
    byteLength_append, byteLength_singleton, Nat.sub_sub, Nat.add_assoc, List.append_assoc,
    List.singleton_append]

/-- From where they stand the second pass counts them and those behind them. -/
theorem AllBefore.columnsFrom_append {offset start : Nat} {seen : List Char}
    (h : AllBefore offset start seen) (more : List Char) :
    columnsFrom offset (start + byteLength []) (seen ++ more) =
      (seen ++ startingWithin (offset - (start + byteLength seen)) more).length := by
  rw [columnsFrom_eq_length]
  exact congrArg List.length (h more)

/-- **The first pass finds a line that starts at the boundary of a character**, and from there the
second pass counts the columns of the position that a walk arrives at. Of the line on which the text
`cs` stands, the characters `seen` have been passed. -/
theorem exists_lineFrom {offset start : Nat} {seen : List Char} (h : AllBefore offset start seen)
    (line : Nat) (cs : List Char) :
    ∃ l front rest, seen ++ cs = front ++ rest ∧
      lineFrom offset (start + byteLength seen) line start cs = (l, start + byteLength front) ∧
      behind ⟨line, seen.length + 1⟩ (startingWithin (offset - (start + byteLength seen)) cs) =
        ⟨l, columnsFrom offset (start + byteLength front) rest + 1⟩ := by
  induction cs generalizing start seen line with
  | nil =>
    refine ⟨line, [], seen ++ [], rfl, rfl, ?_⟩
    rw [h.columnsFrom_append, startingWithin, List.append_nil, behind_nil]
  | cons c cs ih =>
    by_cases passed : offset ≤ start + byteLength seen
    · refine ⟨line, [], seen ++ c :: cs, rfl, ?_, ?_⟩
      · rw [lineFrom, if_pos passed]
        rfl
      · rw [h.columnsFrom_append, Nat.sub_eq_zero_of_le passed, startingWithin_zero,
          List.append_nil, behind_nil]
    · have starts : startingWithin (offset - (start + byteLength seen)) (c :: cs) =
          c :: startingWithin (offset - (start + byteLength seen + c.utf8Size)) cs := by
        rw [startingWithin, if_neg (by omega), Nat.sub_sub]
      rw [lineFrom, if_neg passed, starts, behind_cons, after]
      split
      next newline =>
        subst newline
        obtain ⟨l, front, rest, heq, hfirst, hsecond⟩ :=
          ih (AllBefore.nil offset (start + byteLength seen + 1)) (line + 1)
        have start_eq : start + byteLength (seen ++ '\n' :: front) =
            start + byteLength seen + 1 + byteLength front := by
          rw [byteLength_append, byteLength_cons, ← Nat.add_assoc, ← Nat.add_assoc]
          rfl
        refine ⟨l, seen ++ '\n' :: front, rest, ?_, ?_, ?_⟩
        · rw [List.append_assoc, List.cons_append, ← heq, List.nil_append]
        · rw [start_eq]
          exact hfirst
        · rw [start_eq]
          exact hsecond
      next other =>
        obtain ⟨l, front, rest, heq, hfirst, hsecond⟩ :=
          ih (h.concat (c := c) (by omega)) line
        rw [byteLength_append, byteLength_singleton, ← Nat.add_assoc] at hfirst hsecond
        refine ⟨l, front, rest, ?_, hfirst, ?_⟩
        · rw [← heq, List.append_assoc, List.singleton_append]
        · rw [← hsecond, List.length_append, List.length_singleton]

/-- **Two passes find the position that a walk does.** In particular the text can be cut where the
line starts, for every offset. -/
theorem inTwoPasses?_eq (source : String) (offset : Nat) :
    inTwoPasses? source offset = some (ofOffset source offset) := by
  have clamped : ofOffset source (min offset source.utf8ByteSize) = ofOffset source offset := by
    rcases Nat.le_total offset source.utf8ByteSize with inside | past
    · rw [Nat.min_eq_left inside]
    · rw [Nat.min_eq_right past, ofOffset_of_le past]
  obtain ⟨line, front, rest, heq, hfirst, hsecond⟩ :=
    exists_lineFrom (AllBefore.nil (min offset source.utf8ByteSize) 0) 1 source.toList
  have found : lineFrom (min offset source.utf8ByteSize) 0 1 0 source.toList =
      (line, byteLength front) := by
    rw [← Nat.zero_add (byteLength front)]
    exact hfirst
  have counted : ofOffset source (min offset source.utf8ByteSize) =
      ⟨line, columnsFrom (min offset source.utf8ByteSize) (byteLength front) rest + 1⟩ := by
    rw [ofOffset_eq_behind, ← Nat.zero_add (byteLength front)]
    exact hsecond
  have cut : dropBytes? (byteLength front) source.toList = some rest := by
    rw [show source.toList = front ++ rest from heq, dropBytes?_byteLength]
  rw [← clamped, counted, inTwoPasses?, found]
  simp only [cut, Option.map_some]

/-! ### Positions of tokens -/

/-- A token begins at a boundary. -/
theorem isCharBoundary_start {source : String} {t : Token} (h : t ∈ tokenize source) :
    IsCharBoundary source t.span.start := by
  obtain ⟨before, rest, hs, hstart, -⟩ := reads_of_mem_tokenize h
  exact ⟨before, "", t.text ++ rest, by simp [hs, String.append_assoc], rfl, by simp [hstart]⟩

/-- **Tokens stand at later and later positions**, the end of the input at the last one. -/
theorem pairwise_ofOffset_tokenize (source : String) :
    (tokenize source).Pairwise fun t u ↦
      ofOffset source t.span.start < ofOffset source u.span.start := by
  refine (Cursor.pairwise_tokens (.start source)).imp_of_mem fun ht hu h ↦ ?_
  exact strictMonoOn_ofOffset source (isCharBoundary_start ht) (isCharBoundary_start hu) h

/-- **The position of an offset names it.** At a boundary it is the one line and column such that the
lines in front and the characters in front are what the source has up to the offset. Inside a
character it is the position of the next boundary, and past the end that of the end; and every offset
has a position, also if the text has to be cut where the line starts. So a larger offset never has an
earlier position, and a larger boundary has a later one; and the positions that are shown for the
tokens of a source, the end of the input last, come one after the other. -/
theorem ofOffset_names (source : String) :
    (∀ (offset : Nat) (before : String), (⟨0, offset⟩ : Span).Reads source before →
      ∀ p : Position, p.Names source before ↔ p = ofOffset source offset) ∧
    (∀ offset ≤ source.utf8ByteSize,
      ∃ boundary, IsLeast {b | IsCharBoundary source b ∧ offset ≤ b} boundary ∧
        ofOffset source offset = ofOffset source boundary) ∧
    (∀ offset, source.utf8ByteSize ≤ offset →
      ofOffset source offset = ofOffset source source.utf8ByteSize) ∧
    (∀ offset, inTwoPasses? source offset = some (ofOffset source offset)) ∧
    Monotone (ofOffset source) ∧
    StrictMonoOn (ofOffset source) {offset | IsCharBoundary source offset} ∧
    ∃ positions : List Position,
      (tokenize source).map (Token.renderIn source) =
        List.zipWith (fun p t ↦ p.render ++ "\t" ++ t.render) positions (tokenize source) ∧
      positions.Pairwise (· < ·) := by
  refine ⟨fun offset before h ↦ names_iff h, fun offset h ↦ exists_isLeast_boundary h,
    fun offset h ↦ ofOffset_of_le h, inTwoPasses?_eq source, monotone_ofOffset source,
    strictMonoOn_ofOffset source, (tokenize source).map fun t ↦ ofOffset source t.span.start, ?_, ?_⟩
  · rw [List.zipWith_map_left, List.zipWith_self]
    rfl
  · exact List.pairwise_map.2 (pairwise_ofOffset_tokenize source)

/-- The offset inside the first character has the position behind it, and one past the end has the
position of the end, which is on the line behind the newline. -/
example : [0, 1, 2, 3, 4, 9].map (ofOffset "é\nb") =
    [⟨1, 1⟩, ⟨1, 2⟩, ⟨1, 2⟩, ⟨2, 1⟩, ⟨2, 2⟩, ⟨2, 2⟩] := by
  decide +kernel

end Position

end MonkeyLang
