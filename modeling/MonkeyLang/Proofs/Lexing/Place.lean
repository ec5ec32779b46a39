import MonkeyLang.Proofs.Lexing.Lexeme

/-!
# The places of tokens

Tokens stand in a text one behind the other: each begins where the one before it has ended or
later, takes at least one byte, and ends where the text ends or earlier. So their offsets grow
strictly, and the end of the input stands behind all of them (`Cursor.pairwise_tokens`).

Where a text stands is no matter to what its tokens are: moved to the right by some bytes, a text
has the same tokens moved as far (`Cursor.pending_shift`).

Facts on all tokens of a text are proved along `Cursor.pending_induction`: a text either has no
token in front, or has one and goes on behind it.
-/

namespace MonkeyLang

/-- A text of at least one character takes at least one byte. -/
theorem byteLength_pos {cs : List Char} (h : cs ≠ []) : 0 < byteLength cs :=
  Nat.lt_of_lt_of_le (List.length_pos_iff.2 h) (length_le_byteLength cs)

/-- A token whose span is changed. -/
def Token.mapSpan (g : Span → Span) (t : Token) : Token := { t with span := g t.span }

/-- The token moved to the right by `n` bytes. -/
abbrev Token.shift (n : Nat) : Token → Token := Token.mapSpan (Span.shift n)

namespace Token

@[simp] theorem kind_mapSpan (g : Span → Span) (t : Token) : (t.mapSpan g).kind = t.kind := rfl

@[simp] theorem text_mapSpan (g : Span → Span) (t : Token) : (t.mapSpan g).text = t.text := rfl

@[simp] theorem span_mapSpan (g : Span → Span) (t : Token) : (t.mapSpan g).span = g t.span := rfl

@[simp] theorem mapSpan_id : Token.mapSpan id = id := rfl

theorem shift_spelled (n : Nat) (k : TokenKind) (here : Nat) (text : List Char) :
    (spelled k here text).shift n = spelled k (here + n) text := by
  simp only [spelled, shift, mapSpan, Span.shift]
  rw [Nat.add_right_comm]

end Token

namespace Cursor

/-- The place of the same text `n` bytes further to the right. -/
def shift (n : Nat) (c : Cursor) : Cursor := ⟨c.offset + n, c.rest⟩

@[simp] theorem stop_shift (n : Nat) (c : Cursor) : (c.shift n).stop = c.stop + n :=
  Nat.add_right_comm c.offset n (byteLength c.rest)

/-- A text ends at the offset that is its length in bytes. -/
theorem stop_start (source : String) : (start source).stop = source.utf8ByteSize := by
  rw [stop, start, byteLength_toList, Nat.zero_add]

/-! ### Going from token to token -/

/-- A text with a token in front is blanks, the token, and the text behind it. -/
theorem next?_eq_some_iff {c d : Cursor} {t : Token} :
    c.next? = some (t, d) ↔ ∃ ch cs, c.rest.dropWhile isBlank = ch :: cs ∧
      t = Token.spelled (Lexeme.first ch cs).kind
        (c.offset + byteLength (c.rest.takeWhile isBlank)) (Lexeme.first ch cs).text ∧
      d = ⟨t.span.stop, (Lexeme.first ch cs).rest⟩ := by
  rw [next?, skipBlanks]
  rcases c.rest.dropWhile isBlank with - | ⟨ch, cs⟩
  · simp
  · simp only [Option.some.injEq, Prod.mk.injEq, List.cons.injEq]
    constructor
    · rintro ⟨rfl, rfl⟩
      exact ⟨ch, cs, ⟨rfl, rfl⟩, rfl, rfl⟩
    · rintro ⟨_, _, ⟨rfl, rfl⟩, rfl, rfl⟩
      exact ⟨rfl, rfl⟩

/-- A text without a token in front is blank. -/
theorem next?_eq_none_iff {c : Cursor} : c.next? = none ↔ c.rest.dropWhile isBlank = [] := by
  rw [next?, skipBlanks]
  rcases c.rest.dropWhile isBlank with - | ⟨ch, cs⟩ <;> simp

/-- The first token from a place on is the one in front of it, and the others are those behind. -/
theorem exists_next?_of_pending {c : Cursor} {t : Token} {more : List Token}
    (h : c.pending = t :: more) : ∃ d, c.next? = some (t, d) ∧ d.pending = more := by
  rw [pending_eq] at h
  rcases hc : c.next? with - | ⟨u, d⟩
  · rw [hc] at h
    cases h
  · rw [hc] at h
    obtain ⟨rfl, behind⟩ := List.cons.inj h
    exact ⟨d, rfl, behind⟩

/-- The first token of a text, if it has any, comes first among its tokens and their end. -/
theorem mem_head?_tokens {c : Cursor} {t : Token} (h : t ∈ c.pending.head?) :
    t ∈ c.tokens.head? := by
  obtain ⟨more, pending_eq⟩ := List.head?_eq_some_iff.1 h
  rw [tokens, pending_eq]
  rfl

/-- What comes first there, if it is not the end, is the first token of the text. -/
theorem exists_pending_of_mem_head? {c : Cursor} {t : Token} (h : t ∈ c.tokens.head?)
    (hk : t.kind ≠ .endOfInput) : ∃ more, c.pending = t :: more := by
  rw [tokens] at h
  rcases hp : c.pending with - | ⟨u, more⟩
  · rw [hp] at h
    obtain rfl := Option.some.inj h
    exact absurd rfl hk
  · rw [hp] at h
    obtain rfl := Option.some.inj h
    exact ⟨more, rfl⟩

/-- **Induction along the tokens of a text**: none are left, or there is one in front and the
others are those behind it. -/
@[elab_as_elim]
theorem pending_induction {motive : Cursor → List Token → Prop}
    (none_left : ∀ c : Cursor, c.next? = none → motive c [])
    (in_front : ∀ (c d : Cursor) (t : Token), c.next? = some (t, d) → motive d d.pending →
      motive c (t :: d.pending)) (c : Cursor) : motive c c.pending := by
  induction hn : c.rest.length using Nat.strongRecOn generalizing c with
  | _ n ih =>
    subst hn
    rw [pending_eq]
    cases h : c.next? with
    | none => exact none_left c h
    | some taken =>
      obtain ⟨t, d⟩ := taken
      exact in_front c d t h (ih _ (length_rest_next? h) d rfl)

/-! ### Tokens stand in order -/

/-- A token begins behind the place where it is looked for, takes some bytes, and the text goes on
where it ends. -/
theorem places_of_next? {c d : Cursor} {t : Token} (h : c.next? = some (t, d)) :
    c.offset ≤ t.span.start ∧ t.span.start < t.span.stop ∧ d.offset = t.span.stop ∧
      d.stop = c.stop := by
  obtain ⟨ch, cs, hc, rfl, rfl⟩ := next?_eq_some_iff.1 h
  have taken := byteLength_pos (Lexeme.text_ne_nil ch cs)
  have whole : byteLength c.rest = byteLength (c.rest.takeWhile isBlank) +
      (byteLength (Lexeme.first ch cs).text + byteLength (Lexeme.first ch cs).rest) := by
    rw [← byteLength_append, Lexeme.text_append_rest, ← hc, ← byteLength_append,
      List.takeWhile_append_dropWhile]
  refine ⟨Nat.le_add_right _ _, Nat.lt_add_of_pos_right taken, rfl, ?_⟩
  rw [stop, stop, whole, Token.spelled]
  simp only [Nat.add_assoc]

/-- The tokens of a text stand inside it. -/
theorem places_of_mem_pending {c : Cursor} {t : Token} (h : t ∈ c.pending) :
    c.offset ≤ t.span.start ∧ t.span.start < c.stop := by
  induction c using pending_induction with
  | none_left c hc => cases h
  | in_front c d u hc ih =>
    have places := places_of_next? hc
    have behind : d.offset ≤ d.stop := Nat.le_add_right _ _
    rcases List.mem_cons.1 h with rfl | h
    · omega
    · have := ih h
      omega

/-- **The offsets of the tokens of a text grow strictly**, the end of the input last. -/
theorem pairwise_tokens (c : Cursor) :
    c.tokens.Pairwise fun t u ↦ t.span.start < u.span.start := by
  rw [tokens, List.pairwise_append]
  refine ⟨?_, List.pairwise_singleton _ _, ?_⟩
  · induction c using pending_induction with
    | none_left c hc => exact .nil
    | in_front c d t hc ih =>
      refine .cons (fun u hu ↦ ?_) ih
      have places := places_of_next? hc
      have behind := places_of_mem_pending hu
      omega
  · intro t ht u hu
    obtain rfl := List.mem_singleton.1 hu
    exact (places_of_mem_pending ht).2

/-! ### Tokens of a text that is moved -/

/-- The token in front of a text moves with it. -/
theorem next?_shift (n : Nat) (c : Cursor) :
    (c.shift n).next? = c.next?.map fun taken ↦ (taken.1.shift n, taken.2.shift n) := by
  rcases h : c.next? with - | ⟨t, d⟩
  · have blank := next?_eq_none_iff.1 h
    exact next?_eq_none_iff.2 blank
  · obtain ⟨ch, cs, hc, rfl, rfl⟩ := next?_eq_some_iff.1 h
    refine next?_eq_some_iff.2 ⟨ch, cs, hc, ?_, rfl⟩
    rw [Token.shift_spelled, shift, Nat.add_right_comm]

/-- **The tokens of a text move with it.** -/
theorem pending_shift (n : Nat) (c : Cursor) :
    (c.shift n).pending = c.pending.map (Token.shift n) := by
  induction c using pending_induction with
  | none_left c hc =>
    rw [pending_eq, next?_shift, hc]
    rfl
  | in_front c d t hc ih =>
    rw [pending_eq, next?_shift, hc]
    exact congrArg (t.shift n :: ·) ih

end Cursor

end MonkeyLang
