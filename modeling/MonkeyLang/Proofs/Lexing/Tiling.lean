import Mathlib.Data.List.Chain
import MonkeyLang.Proofs.Lexing.Cut
import MonkeyLang.Proofs.Lexing.MaximalMunch

/-!
# Tokens tile the source

The text of a token is what the source has at the token's span, and between two tokens, in front
of the first and behind the last, the source has blanks alone (`tokenize_tiles`). So no character
of the source is lost, and none is read twice: with the blanks left out, the source is the texts
of its tokens.

What a source has at a span is said by `Span.Reads`, which cuts the source into three texts and so
asks that both ends of the span are boundaries of characters. A span reads one text at most
(`Span.Reads.unique`).
-/

namespace MonkeyLang

/-! ### What a span reads -/

/-- Texts that are equal and have been cut at the same offset are cut alike. -/
theorem append_inj_of_byteLength {before before' rest rest' : List Char}
    (h : before ++ rest = before' ++ rest') (hl : byteLength before = byteLength before') :
    before = before' ∧ rest = rest' := by
  have nothing : ∀ {cs ds : List Char}, byteLength cs = byteLength (cs ++ ds) → ds = [] := by
    intro cs ds h
    rw [byteLength_append] at h
    by_contra hn
    have := byteLength_pos hn
    omega
  rcases List.append_eq_append_iff.1 h with ⟨more, rfl, rfl⟩ | ⟨more, rfl, rfl⟩
  · obtain rfl := nothing hl
    simp
  · obtain rfl := nothing hl.symm
    simp

/-- A span reads a text in a source if that text stands there: in the source it follows as many
bytes as the span starts at, and it takes as many bytes as the span. -/
def Span.Reads (s : Span) (source text : String) : Prop :=
  ∃ before behind : String, source = before ++ text ++ behind ∧
    s.start = before.utf8ByteSize ∧ s.stop = s.start + text.utf8ByteSize

/-- A span reads one text at most. -/
theorem Span.Reads.unique {s : Span} {source text text' : String} (h : s.Reads source text)
    (h' : s.Reads source text') : text = text' := by
  obtain ⟨before, behind, hs, hstart, hstop⟩ := h
  obtain ⟨before', behind', hs', hstart', hstop'⟩ := h'
  have whole : before.toList ++ (text.toList ++ behind.toList) =
      before'.toList ++ (text'.toList ++ behind'.toList) := by
    simpa only [String.toList_append, List.append_assoc] using
      congrArg String.toList (hs.symm.trans hs')
  obtain ⟨-, behind_eq⟩ := append_inj_of_byteLength whole (by
    rw [byteLength_toList, byteLength_toList, ← hstart, hstart'])
  refine String.toList_inj.1 (append_inj_of_byteLength behind_eq ?_).1
  rw [byteLength_toList, byteLength_toList]
  omega

/-! ### Places in a source -/

/-- A cursor stands in a source if the source goes on with the cursor's text at its offset. -/
def Cursor.StandsIn (c : Cursor) (source : String) : Prop :=
  ∃ before : List Char, source.toList = before ++ c.rest ∧ c.offset = byteLength before

namespace Cursor

theorem standsIn_start (source : String) : (start source).StandsIn source := ⟨[], rfl, rfl⟩

namespace StandsIn

variable {c : Cursor} {source : String} (h : c.StandsIn source)

include h

/-- A cursor in a source stops where the source does. -/
theorem stop_eq : c.stop = source.utf8ByteSize := by
  obtain ⟨before, hs, ho⟩ := h
  rw [stop, ho, ← byteLength_append, ← hs, byteLength_toList]

variable {text rest : List Char} (hr : c.rest = text ++ rest)

include hr

/-- What a cursor's text begins with is read from the cursor on. -/
theorem reads : (⟨c.offset, c.offset + byteLength text⟩ : Span).Reads source (String.ofList text) := by
  obtain ⟨before, hs, ho⟩ := h
  refine ⟨String.ofList before, String.ofList rest, ?_, ho, rfl⟩
  rw [← String.toList_inj, hs, hr]
  simp

/-- Behind it the cursor stands in the source too. -/
theorem advance : (⟨c.offset + byteLength text, rest⟩ : Cursor).StandsIn source := by
  obtain ⟨before, hs, ho⟩ := h
  exact ⟨before ++ text, by rw [hs, hr, List.append_assoc], by rw [ho, byteLength_append]⟩

end StandsIn

end Cursor

/-! ### Tiling -/

/-- A span stands behind another one in a source, with nothing but blanks between them. -/
def Span.BlankUpTo (source : String) (s s' : Span) : Prop :=
  s.stop ≤ s'.start ∧ ∃ gap : String, (⟨s.stop, s'.start⟩ : Span).Reads source gap ∧
    ∀ c ∈ gap.toList, isBlank c = true

namespace Cursor.StandsIn

variable {c : Cursor} {source : String}

/-- The blanks that a cursor's text begins with stand between what is in front of the cursor and
what is behind the blanks. -/
theorem blankUpTo (h : c.StandsIn source) {blanks rest : List Char} (hr : c.rest = blanks ++ rest)
    (hb : ∀ b ∈ blanks, isBlank b = true) {s s' : Span} (hs : s.stop = c.offset)
    (hs' : s'.start = c.offset + byteLength blanks) : s.BlankUpTo source s' := by
  refine ⟨by omega, String.ofList blanks, ?_, ?_⟩
  · rw [hs, hs']
    exact h.reads hr
  · rwa [String.toList_ofList]

/-- The token in front of a cursor is read at its span, which some bytes belong to, and the cursor
behind it stands in the source where the span ends. -/
theorem reads_of_next? (h : c.StandsIn source) {d : Cursor} {t : Token}
    (ht : c.next? = some (t, d)) :
    t.span.Reads source t.text ∧ d.StandsIn source := by
  obtain ⟨blanks, x, -, hrest, -, rfl, hd⟩ := exists_spelling_of_next? ht
  have behind := h.advance hrest
  have there : d = ⟨c.offset + byteLength blanks + byteLength x.text.toList, d.rest⟩ := by
    rw [← hd]
  refine ⟨behind.reads rfl, ?_⟩
  rw [there]
  exact behind.advance rfl

/-- The tokens from a cursor on are read at their spans. -/
theorem reads_of_mem_pending (h : c.StandsIn source) {t : Token} (ht : t ∈ c.pending) :
    t.span.start < t.span.stop ∧ t.span.Reads source t.text := by
  induction c using pending_induction with
  | none_left c hc => cases ht
  | in_front c d u hc ih =>
    obtain ⟨reads, behind⟩ := h.reads_of_next? hc
    rcases List.mem_cons.1 ht with rfl | ht
    · exact ⟨(places_of_next? hc).2.1, reads⟩
    · exact ih behind ht

/-- Between the tokens from a cursor on, and behind the last one, blanks alone are left out. -/
theorem isChain_spans (h : c.StandsIn source) {s : Span} (hs : s.stop = c.offset) :
    (s :: c.tokens.map Token.span).IsChain (Span.BlankUpTo source) := by
  rw [tokens]
  induction c using pending_induction generalizing s with
  | none_left c hc =>
    have blanks := List.dropWhile_eq_nil_iff.1 (next?_eq_none_iff.1 hc)
    exact .cons_cons (h.blankUpTo (List.append_nil _).symm blanks hs rfl) (.singleton _)
  | in_front c d t hc ih =>
    have stop_eq := (places_of_next? hc).2.2.2
    have behind := ih (h.reads_of_next? hc).2 (places_of_next? hc).2.2.1.symm
    obtain ⟨blanks, x, hb, hrest, -, rfl, -⟩ := exists_spelling_of_next? hc
    rw [← stop_eq]
    exact .cons_cons (h.blankUpTo hrest hb hs rfl) behind

end Cursor.StandsIn

/-! ### Pieces of a source -/

/-- What leaves a class leaves it with less behind it. -/
theorem Leaves.of_append {p : Char → Bool} {text rest : List Char} (h : Leaves p (text ++ rest)) :
    Leaves p text := by
  cases text with
  | nil => exact leaves_nil p
  | cons c text => exact leaves_cons.2 (leaves_cons.1 h)

namespace Cursor

/-- The first tokens of a text are all the tokens of the text that ends where the last of them
does. -/
theorem exists_pending_eq {c : Cursor} {segment more : List Token}
    (h : c.pending = segment ++ more) {u : Token} (hu : segment.getLast? = some u) :
    ∃ text rest : List Char, c.rest = text ++ rest ∧
      (⟨c.offset, text⟩ : Cursor).pending = segment ∧ u.span.stop = c.offset + byteLength text := by
  induction segment generalizing c with
  | nil => cases hu
  | cons t segment ih =>
    obtain ⟨d, hc, behind⟩ := exists_next?_of_pending h
    obtain ⟨blanks, x, hb, hrest, leaves, ht, hd⟩ := exists_spelling_of_next? hc
    -- The tokens behind the first one, if there are any, are those of the first part of its rest.
    obtain ⟨text, rest, hsplit, hpending, hstop⟩ : ∃ text rest : List Char, d.rest = text ++ rest ∧
        (⟨d.offset, text⟩ : Cursor).pending = segment ∧ u.span.stop = d.offset + byteLength text := by
      rcases segment with - | ⟨v, segment⟩
      · obtain rfl : t = u := by simpa using hu
        exact ⟨[], d.rest, rfl, pending_nil _, (places_of_next? hc).2.2.1.symm⟩
      · exact ih behind (by simpa using hu)
    rw [hsplit] at hrest leaves
    refine ⟨blanks ++ (x.text.toList ++ text), rest, ?_, ?_, ?_⟩
    · rw [hrest]
      simp only [List.append_assoc]
    · rw [pending_blanks _ hb, pending_of_leaves _ leaves.of_append, ← ht, ← hd, hpending]
    · rw [hstop, hd, byteLength_append, byteLength_append]
      omega

/-- A token and those behind it are the tokens from a place on at which the token begins. -/
theorem StandsIn.exists_pending_eq {c : Cursor} {source : String} (h : c.StandsIn source)
    {front more : List Token} {t : Token} (hp : c.pending = front ++ t :: more) :
    ∃ d : Cursor, d.StandsIn source ∧ d.offset = t.span.start ∧ d.pending = t :: more := by
  induction front generalizing c with
  | nil =>
    obtain ⟨d, hc, -⟩ := exists_next?_of_pending hp
    obtain ⟨blanks, x, hb, hrest, -, ht, -⟩ := exists_spelling_of_next? hc
    refine ⟨_, h.advance hrest, ?_, ?_⟩
    · rw [ht]
      rfl
    · rw [← pending_blanks c.offset hb, ← hrest]
      exact hp
  | cons u front ih =>
    obtain ⟨d, hc, behind⟩ := exists_next?_of_pending hp
    exact ih (h.reads_of_next? hc).2 behind

/-- **A segment of the tokens of a source is all the tokens of a text**, which the source has from
the start of the first token of the segment to the end of the last one. -/
theorem exists_reads_of_segment {source : String} {front segment more : List Token} {t u : Token}
    (hp : (start source).pending = front ++ (segment ++ more)) (ht : segment.head? = some t)
    (hu : segment.getLast? = some u) :
    ∃ text : String, (⟨t.span.start, u.span.stop⟩ : Span).Reads source text ∧
      ((start text).shift t.span.start).pending = segment := by
  obtain ⟨segment', rfl⟩ := List.head?_eq_some_iff.1 ht
  rw [List.cons_append] at hp
  obtain ⟨d, hd, hoffset, hpending⟩ := (standsIn_start source).exists_pending_eq hp
  rw [← List.cons_append] at hpending
  obtain ⟨text, rest, hrest, hsegment, hstop⟩ := exists_pending_eq hpending hu
  refine ⟨String.ofList text, ?_, ?_⟩
  · rw [hstop, ← hoffset]
    exact hd.reads hrest
  · rw [shift, start, String.toList_ofList, ← hoffset, Nat.zero_add]
    exact hsegment

end Cursor

/-! ### The whole source -/

/-- The texts of the tokens of a text are that text without its blanks. -/
theorem Cursor.flatMap_text_pending (c : Cursor) :
    c.pending.flatMap (·.text.toList) = c.rest.filter (!isBlank ·) := by
  induction c using pending_induction with
  | none_left c hc =>
    have blanks := List.dropWhile_eq_nil_iff.1 (next?_eq_none_iff.1 hc)
    symm
    simpa [List.filter_eq_nil_iff] using blanks
  | in_front c d t hc ih =>
    obtain ⟨blanks, x, hb, hrest, -, rfl, -⟩ := exists_spelling_of_next? hc
    have left_out : blanks.filter (!isBlank ·) = [] := by
      simpa [List.filter_eq_nil_iff] using hb
    have kept : x.text.toList.filter (!isBlank ·) = x.text.toList :=
      List.filter_eq_self.2 fun c hc ↦ by rw [x.isBlank_eq_false hc]; rfl
    rw [hrest, List.filter_append, List.filter_append, left_out, kept, List.flatMap_cons, ih]
    simp [Token.spelled]

/-- The tokens of a source but the end of the input are those that its start has in front. -/
theorem filter_tokenize (source : String) :
    (tokenize source).filter (·.kind ≠ .endOfInput) = (Cursor.start source).pending := by
  have kept : (Cursor.start source).pending.filter (·.kind ≠ .endOfInput) =
      (Cursor.start source).pending := by
    exact List.filter_eq_self.2 fun t ht ↦ decide_eq_true (Cursor.kind_ne_of_mem_pending ht)
  rw [tokenize, Cursor.tokens, List.filter_append, kept]
  simp [Token.endAt]

/-- **Tokens tile the source.** Behind them stands the end of the input, once, at the length of the
source. Every other token takes some bytes and has the text that the source has there. Nothing but
blanks stands in front of the first token and between any two. So the texts of the tokens are the
source without its blanks. -/
theorem tokenize_tiles (source : String) :
    ∃ tokens : List Token,
      tokenize source =
        tokens ++ [⟨.endOfInput, "", ⟨source.utf8ByteSize, source.utf8ByteSize⟩⟩] ∧
      (∀ t ∈ tokens, t.kind ≠ .endOfInput ∧ t.span.start < t.span.stop ∧
        ∀ text, t.span.Reads source text ↔ text = t.text) ∧
      ((⟨0, 0⟩ :: (tokenize source).map Token.span).IsChain (Span.BlankUpTo source)) ∧
      String.join (tokens.map Token.text) = String.ofList (source.toList.filter (!isBlank ·)) := by
  have whole := Cursor.standsIn_start source
  refine ⟨(Cursor.start source).pending, ?_, fun t ht ↦ ?_, whole.isChain_spans rfl, ?_⟩
  · rw [tokenize, Cursor.tokens, whole.stop_eq]
    rfl
  · obtain ⟨some_bytes, reads⟩ := whole.reads_of_mem_pending ht
    exact ⟨Cursor.kind_ne_of_mem_pending ht, some_bytes,
      fun text ↦ ⟨fun h ↦ h.unique reads, fun h ↦ h ▸ reads⟩⟩
  · rw [← String.toList_inj, String.toList_join, List.flatMap_map, String.toList_ofList]
    exact (Cursor.start source).flatMap_text_pending

end MonkeyLang
