import MonkeyLang.Proofs.Lexing.Tiling
import MonkeyLang.Proofs.Recovery.Boundary

/-!
# What an attempt at a statement takes with it

A statement that fails takes the tokens from its first one up to the next boundary, and no more: it
has passed no boundary when it fails, and parsing goes on behind the semicolon on which reading
stood, or at the next word that starts a statement, or behind the next semicolon, whichever comes
first. A statement that is read has such a word at most as its first token and a semicolon at most
as its last one (`attempts_keep_to_regions`).

Readers and recovery work on lists of tokens that are left. Here a text is said to go on with such a
list at the index of the list's first token, with the end of the input as the last token of all.
What holds of lists is moved to indices by one lemma for readers (`ClearTo.isBoundary_kindAt?`) and
one for recovery (`goesOn_resume`).
-/

namespace MonkeyLang

/-! ### Tokens by their indices -/

/-- The index in a source text of the token with which its last tokens `tail` begin. The end of the
input, which stands behind them, is not counted to these. -/
def tokenIndex (source : String) (tail : List Token) : Nat :=
  (tokenize source).length - (tail.length + 1)

/-- The kind of the token at an index, if there is such a token. -/
def kindAt? (source : String) (k : Nat) : Option TokenKind :=
  ((tokenize source)[k]?).map Token.kind

/-- The index of the first token of the next statement, if parsing goes on at index `k`: there is
none at the end of the input. -/
def attemptAt? (source : String) (k : Nat) : Option Nat :=
  if kindAt? source k = some .endOfInput then none else some k

/-- The same, if parsing goes on from a boundary at index `k`: behind it, if it is a semicolon. -/
def attemptFrom? (source : String) (k : Nat) : Option Nat :=
  if kindAt? source k = some (.punctuation .semicolon) then attemptAt? source (k + 1)
  else attemptAt? source k

section Index

variable {source : String} {tail passed stand : List Token}

/-- The tokens from the index of the last ones of a text on are these, and the end of the input. -/
theorem drop_tokenIndex (h : tail <:+ (Cursor.start source).pending) :
    (tokenize source).drop (tokenIndex source tail) =
      tail ++ [Token.endAt source.utf8ByteSize] := by
  obtain ⟨front, pending_eq⟩ := h
  have whole : tokenize source = front ++ (tail ++ [Token.endAt source.utf8ByteSize]) := by
    rw [tokenize, Cursor.tokens, Cursor.stop_start, ← pending_eq, List.append_assoc]
  have index_eq : tokenIndex source tail = front.length := by
    rw [tokenIndex, whole, List.length_append, List.length_append, List.length_singleton,
      Nat.add_sub_cancel]
  rw [index_eq, whole, List.drop_left]

/-- All tokens of a text are left at the index of its first one. -/
theorem tokenIndex_pending (source : String) :
    tokenIndex source (Cursor.start source).pending = 0 := by
  rw [tokenIndex, tokenize, Cursor.tokens, List.length_append, List.length_singleton, Nat.sub_self]

/-- The fewer tokens are left, the higher is the index. -/
theorem tokenIndex_le (source : String) {tokens : List Token} (h : stand <:+ tokens) :
    tokenIndex source tokens ≤ tokenIndex source stand :=
  Nat.sub_le_sub_left (Nat.succ_le_succ h.length_le) _

/-- Behind some of the tokens, the index has grown by their number. -/
theorem tokenIndex_append (h : passed ++ stand <:+ (Cursor.start source).pending) :
    tokenIndex source stand = tokenIndex source (passed ++ stand) + passed.length := by
  have inside := h.length_le
  have total : (tokenize source).length = (Cursor.start source).pending.length + 1 := by
    rw [tokenize, Cursor.tokens, List.length_append, List.length_singleton]
  rw [List.length_append] at inside
  rw [tokenIndex, tokenIndex, total, List.length_append]
  omega

theorem tokenIndex_cons {t : Token} {rest : List Token}
    (h : t :: rest <:+ (Cursor.start source).pending) :
    tokenIndex source rest = tokenIndex source (t :: rest) + 1 :=
  tokenIndex_append (show [t] ++ rest <:+ _ from h)

/-- The kinds of the tokens that are passed stand in front of the index that is reached. -/
theorem kindAt?_add (h : passed ++ stand <:+ (Cursor.start source).pending) {n : Nat}
    (hn : n < passed.length) :
    kindAt? source (tokenIndex source (passed ++ stand) + n) = some (passed[n]).kind := by
  rw [kindAt?, ← List.getElem?_drop, drop_tokenIndex h, List.append_assoc,
    List.getElem?_append_left hn, List.getElem?_eq_getElem hn]
  rfl

theorem kindAt?_tokenIndex_cons {t : Token} {rest : List Token}
    (h : t :: rest <:+ (Cursor.start source).pending) :
    kindAt? source (tokenIndex source (t :: rest)) = some t.kind :=
  kindAt?_add (show [t] ++ rest <:+ _ from h) Nat.one_pos

/-- Behind all tokens stands the end of the input. -/
theorem kindAt?_tokenIndex_nil (source : String) :
    kindAt? source (tokenIndex source []) = some .endOfInput := by
  have last := drop_tokenIndex (List.nil_suffix (l := (Cursor.start source).pending))
  rw [kindAt?, ← List.head?_drop, last]
  rfl

/-- In front of the end stands no other one. -/
theorem kind_ne_endOfInput {t : Token} {rest : List Token}
    (h : t :: rest <:+ (Cursor.start source).pending) : t.kind ≠ .endOfInput :=
  Cursor.kind_ne_of_mem_pending (h.subset List.mem_cons_self)

/-- An index is reached without passing a boundary if no boundary stands in front of it. -/
theorem ClearTo.isBoundary_kindAt? {tokens : List Token} (h : ClearTo tokens stand)
    (inside : tokens <:+ (Cursor.start source).pending) {k : Nat}
    (hk : tokenIndex source tokens ≤ k) (hs : k < tokenIndex source stand) :
    ∀ kind ∈ kindAt? source k, kind.isBoundary = false := by
  obtain ⟨passed, rfl, clear⟩ := h
  obtain ⟨n, rfl⟩ := Nat.exists_eq_add_of_le hk
  rw [tokenIndex_append inside] at hs
  have hn : n < passed.length := by omega
  rw [kindAt?_add inside hn]
  rintro _ ⟨⟩
  exact clear _ (List.getElem_mem hn)

/-- The first boundary from the index `start` on is the token at index `k`. -/
structure FirstBoundary (source : String) (start k : Nat) : Prop where
  le : start ≤ k
  boundary : ∃ kind ∈ kindAt? source k, kind.isBoundary = true
  clear : ∀ m, start ≤ m → m < k → ∀ kind ∈ kindAt? source m, kind.isBoundary = false

theorem ClearTo.firstBoundary {tokens : List Token} (h : ClearTo tokens stand)
    (inside : tokens <:+ (Cursor.start source).pending)
    (hb : ∀ t ∈ stand.head?, t.kind.isBoundary = true) :
    FirstBoundary source (tokenIndex source tokens) (tokenIndex source stand) where
  le := tokenIndex_le source h.suffix
  boundary := by
    rcases stand with - | ⟨t, rest⟩
    · exact ⟨_, kindAt?_tokenIndex_nil source, rfl⟩
    · exact ⟨_, kindAt?_tokenIndex_cons (h.suffix.trans inside), hb t rfl⟩
  clear _ hm hk := h.isBoundary_kindAt? inside hm hk

/-- The next statement begins at the first token that is left, if one is left. -/
theorem attemptAt?_tokenIndex (f : Frame) (h : tail <:+ (Cursor.start source).pending) :
    attemptAt? source (tokenIndex source tail) =
      ((f.attempts tail)[0]?).map fun a ↦ tokenIndex source a.start := by
  rcases tail with - | ⟨t, rest⟩
  · rw [attemptAt?, kindAt?_tokenIndex_nil, if_pos rfl, Frame.attempts_nil]
    rfl
  · have kind_ne := kind_ne_endOfInput h
    rw [attemptAt?, kindAt?_tokenIndex_cons h, if_neg (by simpa using kind_ne),
      Frame.attempts_cons]
    rfl

/-- Recovery that has found a boundary goes on from it. -/
theorem attemptFrom?_tokenIndex (h : stand <:+ (Cursor.start source).pending)
    (hb : ∀ t ∈ stand.head?, t.kind.isBoundary = true) :
    attemptFrom? source (tokenIndex source stand) =
      attemptAt? source (tokenIndex source (toBoundary stand)) := by
  rcases stand with - | ⟨t, rest⟩
  · rw [attemptFrom?, kindAt?_tokenIndex_nil, if_neg (by decide), toBoundary]
  · rw [attemptFrom?, kindAt?_tokenIndex_cons h, toBoundary]
    rcases TokenKind.isBoundary_iff.1 (hb t rfl) with hw | hs | he
    · have no_semicolon : t.kind ≠ .punctuation .semicolon := by
        intro hs
        rw [hs] at hw
        cases hw
      rw [if_neg (by simpa using no_semicolon), if_pos hw]
    · rw [hs, if_pos rfl, if_neg (by decide), if_pos rfl, tokenIndex_cons h]
    · exact absurd he (kind_ne_endOfInput h)

/-- After a failure at the index `j`, parsing goes on at `next?`, or ends if there is none: behind a
semicolon on which reading stood, nowhere from the end of the input, and else from the first boundary
behind. -/
structure GoesOn (source : String) (j : Nat) (next? : Option Nat) : Prop where
  on_semicolon : kindAt? source j = some (.punctuation .semicolon) →
    next? = attemptAt? source (j + 1)
  at_end : kindAt? source j = some .endOfInput → next? = none
  sought : kindAt? source j ≠ some (.punctuation .semicolon) →
    kindAt? source j ≠ some .endOfInput →
      ∃ k, FirstBoundary source (j + 1) k ∧ next? = attemptFrom? source k

/-- **Recovery goes on from the first boundary behind** the token on which reading stood, if that is
no semicolon. -/
theorem goesOn_resume (h : stand <:+ (Cursor.start source).pending) :
    GoesOn source (tokenIndex source stand)
      (attemptAt? source (tokenIndex source (resume stand))) := by
  rcases stand with - | ⟨t, rest⟩
  · have ended := kindAt?_tokenIndex_nil source
    refine ⟨fun hk ↦ ?_, fun _ ↦ if_pos ended, fun _ he ↦ absurd ended he⟩
    rw [ended] at hk
    cases hk
  · have here := kindAt?_tokenIndex_cons h
    refine ⟨fun hk ↦ ?_, fun hk ↦ ?_, fun hk _ ↦ ?_⟩
    · rw [here] at hk
      rw [resume, if_pos (Option.some.inj hk), tokenIndex_cons h]
    · rw [here] at hk
      exact absurd (Option.some.inj hk) (kind_ne_endOfInput h)
    · rw [here] at hk
      have behind := (List.suffix_cons t rest).trans h
      obtain ⟨found, clear, boundary⟩ := exists_clearTo_boundary rest
      refine ⟨tokenIndex source found, ?_, ?_⟩
      · rw [← tokenIndex_cons h]
        exact clear.firstBoundary behind boundary
      · rw [attemptFrom?_tokenIndex (clear.suffix.trans behind) boundary, resume,
          if_neg (by simpa using hk), clear.toBoundary_eq]

end Index

/-! ### Attempts keep to their regions -/

/-- A statement begins at the index `i` and fails while reading stands at the index `j`, and the
next one begins at `next?`, if there is a next one. -/
structure Discards (source : String) (i j : Nat) (next? : Option Nat) : Prop
    extends GoesOn source j next? where
  le : i ≤ j
  clear : ∀ k, i < k → k < j → ∀ kind ∈ kindAt? source k, kind.isBoundary = false

/-- A statement that is read begins at the index `i` and ends in front of the index `stop`, and
the next one begins at `next?`, if there is a next one. -/
structure Occupies (source : String) (i stop : Nat) (next? : Option Nat) : Prop where
  lt : i < stop
  no_word : ∀ k, i < k → k < stop → ∀ kind ∈ kindAt? source k, kind.startsStatement = false
  no_semicolon : ∀ k, i ≤ k → k + 1 < stop → kindAt? source k ≠ some (.punctuation .semicolon)
  next_eq : next? = attemptAt? source stop

/-- No opening has a semicolon. -/
theorem Opening.IsDerived.ne_semicolon {o : Opening} (ho : o.IsDerived) :
    ∀ t ∈ o.tokens, t.kind ≠ .punctuation .semicolon := by
  cases o with
  | binding word name sign =>
    obtain ⟨hw, hn, hs⟩ := ho
    simp [tokens, hw, hn, hs]
  | result word =>
    have hw : word.kind = .keyword .returnWord := ho
    simp [tokens, hw]
  | bare => simp [tokens]

namespace Clause.IsDerived

variable {c : Clause} (hc : c.IsDerived)

include hc

/-- Only the first token of a statement may be a word that starts one. -/
theorem startsStatement_tail : ∀ t ∈ c.tokens.tail, t.kind.startsStatement = false := by
  have behind : ∀ t ∈ c.value.tokens ++ c.semicolon?.toList, t.kind.startsStatement = false := by
    refine List.forall_mem_append.2 ⟨fun t ht ↦ ?_, fun t ht ↦ ?_⟩
    · exact ((Nonterminal.expression_derives_iff.1 hc.value).no_boundary t ht).1
    · rw [hc.semicolon t (Option.mem_toList.1 ht)]
      rfl
  rw [tokens]
  rcases ho : c.opening with ⟨word, name, sign⟩ | word | -
  · obtain ⟨-, hn, hs⟩ : Opening.IsDerived (.binding word name sign) := ho ▸ hc.opening
    refine List.forall_mem_cons.2 ⟨by rw [hn]; rfl, List.forall_mem_cons.2 ⟨by rw [hs]; rfl, ?_⟩⟩
    exact behind
  · exact behind
  · exact fun t ht ↦ behind t (List.mem_of_mem_tail ht)

/-- Only the last token of a statement may be a semicolon. -/
theorem ne_semicolon_dropLast :
    ∀ t ∈ c.tokens.dropLast, t.kind ≠ .punctuation .semicolon := by
  have front : ∀ t ∈ c.opening.tokens ++ c.value.tokens, t.kind ≠ .punctuation .semicolon := by
    refine List.forall_mem_append.2 ⟨hc.opening.ne_semicolon, fun t ht ↦ ?_⟩
    exact ((Nonterminal.expression_derives_iff.1 hc.value).no_boundary t ht).2
  intro t ht
  rw [tokens, ← List.append_assoc] at ht
  rcases hs : c.semicolon? with - | u
  · rw [hs, Option.toList_none, List.append_nil] at ht
    exact front t (List.dropLast_subset _ ht)
  · rw [hs, Option.toList_some, List.dropLast_concat] at ht
    exact front t ht

end Clause.IsDerived

namespace Frame

variable {f : Frame} {source : String} {first : Token} {more : List Token}

/-- A statement that fails discards its region. -/
theorem discards_of_readStatement (inside : first :: more <:+ (Cursor.start source).pending)
    {e : Failure} (h : f.readStatement first more = .error e) :
    Discards source (tokenIndex source (first :: more)) (tokenIndex source e.stand)
      (attemptAt? source (tokenIndex source (resume e.stand))) := by
  have stands : e.stand <:+ first :: more := by
    have := f.stand_readStatement_suffix first more
    rwa [h] at this
  refine ⟨goesOn_resume (stands.trans inside), ?_, fun k hk hj ↦ ?_⟩
  · exact tokenIndex_le source stands
  · rcases f.clearTo_of_readStatement_error h with here | clear
    · rw [here] at hj
      omega
    · refine clear.isBoundary_kindAt? ((List.suffix_cons _ _).trans inside) ?_ hj
      rw [tokenIndex_cons inside]
      exact hk

/-- A statement that is read keeps to its region. -/
theorem occupies_of_readStatement (inside : first :: more <:+ (Cursor.start source).pending)
    {p : Parsed Statement} (h : f.readStatement first more = .ok p) :
    Occupies source (tokenIndex source (first :: more)) (tokenIndex source p.rest)
      (attemptAt? source (tokenIndex source p.rest)) := by
  obtain ⟨c, hc⟩ := f.exists_clause_of_readStatement h
  obtain ⟨t, ts, tokens_eq, -⟩ := hc.derived.exists_first
  have words := hc.derived.startsStatement_tail
  have semicolons := hc.derived.ne_semicolon_dropLast
  have inside' := inside
  rw [← hc.tokens_eq] at inside' ⊢
  have stop_eq := tokenIndex_append inside'
  refine ⟨?_, fun k hk hs ↦ ?_, fun k hk hs ↦ ?_, rfl⟩
  · rw [stop_eq, tokens_eq]
    exact Nat.lt_add_of_pos_right (Nat.succ_pos _)
  · obtain ⟨n, rfl⟩ := Nat.exists_eq_add_of_lt hk
    have hn : n + 1 < c.tokens.length := by omega
    rw [Nat.add_assoc, kindAt?_add inside' hn]
    rintro _ ⟨⟩
    refine words _ (List.mem_of_getElem? (i := n) ?_)
    rw [List.getElem?_tail, List.getElem?_eq_getElem hn]
  · obtain ⟨n, rfl⟩ := Nat.exists_eq_add_of_le hk
    have hn : n < c.tokens.dropLast.length := by
      rw [List.length_dropLast]
      omega
    rw [kindAt?_add inside' (by omega), ← List.getElem_dropLast hn]
    exact fun hsemi ↦ semicolons _ (List.getElem_mem hn) (Option.some.inj hsemi)

end Frame

/-- **Attempts keep to their regions.** A parse is the attempts at its statements, of which the first
one begins with the first token. An attempt that fails discards the tokens from its first one up to
the boundary at which the next attempt begins. An attempt that succeeds has no word that starts a
statement behind its first token and no semicolon in front of its last one, and the next attempt
begins right behind it. -/
theorem attempts_keep_to_regions (config : Config) (source : String) :
    let attempts := (sourceFrame config source).attempts (Cursor.start source).pending
    let start? (n : Nat) : Option Nat := (attempts[n]?).map fun a ↦ tokenIndex source a.start
    parse config source =
        ⟨⟨attempts.filterMap Attempt.statement?⟩, attempts.filterMap Attempt.error?⟩ ∧
      start? 0 = attemptAt? source 0 ∧
      ∀ (n : Nat) (a : Attempt), attempts[n]? = some a →
        (tokenize source).drop (tokenIndex source a.start) =
            a.start ++ [Token.endAt source.utf8ByteSize] ∧
          (∀ e, a.outcome = .error e →
            (tokenize source).drop (tokenIndex source e.stand) =
                e.stand ++ [Token.endAt source.utf8ByteSize] ∧
              Discards source (tokenIndex source a.start) (tokenIndex source e.stand)
                (start? (n + 1))) ∧
          ∀ p, a.outcome = .ok p →
            (tokenize source).drop (tokenIndex source p.rest) =
                p.rest ++ [Token.endAt source.utf8ByteSize] ∧
              Occupies source (tokenIndex source a.start) (tokenIndex source p.rest)
                (start? (n + 1)) := by
  intro attempts start?
  let f := sourceFrame config source
  refine ⟨rfl, ?_, fun n a h ↦ ?_⟩
  · have first := attemptAt?_tokenIndex f (List.suffix_refl (Cursor.start source).pending)
    rw [tokenIndex_pending] at first
    exact first.symm
  obtain ⟨first, more, inside, rfl, next⟩ := f.exists_make_of_getElem?_attempts h
  have left := (Attempt.rest_make_suffix_cons f first more).trans inside
  have next_eq : start? (n + 1) =
      attemptAt? source (tokenIndex source (Attempt.make f first more).rest) := by
    rw [attemptAt?_tokenIndex f left]
    exact congrArg (Option.map _) next
  rw [next_eq]
  refine ⟨drop_tokenIndex inside, fun e he ↦ ?_, fun p hp ↦ ?_⟩
  · have stands := f.stand_readStatement_suffix first more
    have he : f.readStatement first more = .error e := he
    rw [he] at stands
    rw [Attempt.rest_make_of_error he]
    exact ⟨drop_tokenIndex (stands.trans inside), Frame.discards_of_readStatement inside he⟩
  · have hp : f.readStatement first more = .ok p := hp
    rw [Attempt.rest_make_of_ok hp] at left ⊢
    exact ⟨drop_tokenIndex left, Frame.occupies_of_readStatement inside hp⟩

/-- A parenthesis that is not closed fails on the token in front of the next statement, and
discards no more than that. -/
theorem attempts_keep_to_regions_unclosed :
    ∃ a, ((sourceFrame ⟨256⟩ "(a let b = 3").attempts
        (Cursor.start "(a let b = 3").pending)[0]? = some a ∧
      tokenIndex "(a let b = 3" a.start = 0 ∧ (∃ e, a.outcome = .error e) ∧
      Discards "(a let b = 3" 0 1 (some 2) := by
  let f := sourceFrame ⟨256⟩ "(a let b = 3"
  let opening : Token := ⟨.punctuation .lparen, "(", ⟨0, 1⟩⟩
  let name : Token := ⟨.identifier, "a", ⟨1, 2⟩⟩
  let word : Token := ⟨.keyword .letWord, "let", ⟨3, 6⟩⟩
  let behind : List Token := [⟨.identifier, "b", ⟨7, 8⟩⟩, ⟨.operator .assign, "=", ⟨9, 10⟩⟩,
    ⟨.integer, "3", ⟨11, 12⟩⟩]
  have pending_eq : (Cursor.start "(a let b = 3").pending = opening :: name :: word :: behind := by
    decide +kernel
  have fails : (Attempt.make f opening (name :: word :: behind)).outcome =
      .error ⟨⟨.unexpectedToken (.punctuation .rparen) (.keyword .letWord), ⟨3, 6⟩⟩,
        name :: word :: behind⟩ := rfl
  have attempts : f.attempts (Cursor.start "(a let b = 3").pending =
      .make f opening (name :: word :: behind) :: .make f word behind ::
        f.attempts (Attempt.make f word behind).rest := by
    rw [pending_eq, Frame.attempts_cons, Attempt.rest_of_error fails, ← Frame.attempts_cons]
    rfl
  have first : (f.attempts (Cursor.start "(a let b = 3").pending)[0]? =
      some (.make f opening (name :: word :: behind)) := by
    rw [attempts]
    rfl
  have region := (((attempts_keep_to_regions ⟨256⟩ "(a let b = 3").2.2 0 _ first).2.1 _ fails).2
  have at_zero : tokenIndex "(a let b = 3" (opening :: name :: word :: behind) = 0 := by
    decide +kernel
  have at_one : tokenIndex "(a let b = 3" (name :: word :: behind) = 1 := by decide +kernel
  have at_two : tokenIndex "(a let b = 3" (word :: behind) = 2 := by decide +kernel
  refine ⟨_, first, at_zero, ⟨_, fails⟩, ?_⟩
  simpa only [f, attempts, Attempt.make, at_zero, at_one, at_two, List.getElem?_cons_succ,
    List.getElem?_cons_zero, Option.map_some] using region

end MonkeyLang
