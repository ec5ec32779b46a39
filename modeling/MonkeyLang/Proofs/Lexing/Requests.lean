import MonkeyLang.Proofs.Lexing.Tiling
import MonkeyLang.Token.Lexer

/-!
# A lexer is a bookmark in the list of tokens

What a lexer answers, to any requests in any order, is what one reads off the list of all tokens of
its text with a bookmark: the number of tokens that have been passed, and the mark of a finished
iteration (`Lexer.serveAll_eq_bookmark`). The bookmark moves on by one token at a time and stays on
the last one, the end of the input.

The lexer itself has no list. It holds an offset and the text from there on, and these two have to
go together: `Lexer.At` says that the text is what the source has at that offset, so the offset is
the boundary of a character, and that the tokens which are still to come are those from the bookmark
on. Each request keeps this (`Lexer.At.serve`).

Draining is what asking for items comes to, and is defined without doing so;
`Lexer.serveAll_replicate_item` says that both give the same tokens and leave the same lexer.
-/

namespace MonkeyLang

namespace Lexer

/-! ### Requests and their answers -/

/-- What a lexer may be asked for: the next token outright, the next item of an iteration, the
items that remain, or to start over. -/
inductive Request
  | token
  | item
  | items
  | reset
  deriving DecidableEq

/-- What a lexer answers. -/
inductive Answer
  | token (t : Token)
  | item (t? : Option Token)
  | items (ts : List Token)
  | ready
  deriving DecidableEq

/-- The tokens in an answer. -/
def Answer.tokens : Answer → List Token
  | token t => [t]
  | item t? => t?.toList
  | items ts => ts
  | ready => []

/-- The answer to a request, and the lexer behind it. -/
def serve (l : Lexer) : Request → Answer × Lexer
  | .token => (.token l.nextToken.1, l.nextToken.2)
  | .item => (.item l.next?.1, l.next?.2)
  | .items => (.items l.drain.1, l.drain.2)
  | .reset => (.ready, l.reset)

/-- The answers to requests made one after the other, and the lexer behind them. -/
def serveAll (l : Lexer) : List Request → List Answer × Lexer
  | [] => ([], l)
  | r :: rs => ((l.serve r).1 :: ((l.serve r).2.serveAll rs).1, ((l.serve r).2.serveAll rs).2)

end Lexer

/-- A place in a list of tokens: how many of them have been passed, and whether an iteration over
them has come to its end. -/
structure Bookmark where
  index : Nat
  done : Bool
  deriving DecidableEq

namespace Bookmark

open Lexer (Request Answer)

variable (ts : List Token)

/-- The place one token further on, or the same one on the last token. -/
def next (index : Nat) : Nat := min (index + 1) (ts.length - 1)

/-- The answer to a request that is read off a list of tokens, if there is a token at the bookmark.
Asking for a token looks at no mark and leaves it; asking for an item does both. -/
def serve (b : Bookmark) : Request → Option (Answer × Bookmark)
  | .token => ts[b.index]?.map fun t ↦ (.token t, ⟨next ts b.index, b.done⟩)
  | .item =>
    if b.done then some (.item none, b)
    else ts[b.index]?.map fun t ↦
      (.item (some t), ⟨next ts b.index, decide (t.kind = .endOfInput)⟩)
  | .items =>
    if b.done then some (.items [], b)
    else some (.items (ts.drop b.index), ⟨ts.length - 1, true⟩)
  | .reset => some (.ready, ⟨0, false⟩)

/-- The answers to requests made one after the other, if no token is missing. -/
def serveAll (b : Bookmark) : List Request → Option (List Answer × Bookmark)
  | [] => some ([], b)
  | r :: rs => do
    let (a, b) ← b.serve ts r
    let (as, b) ← b.serveAll rs
    some (a :: as, b)

variable {ts}

/-- Answers hold tokens of the list alone. -/
theorem tokens_subset_of_serve {b b' : Bookmark} {r : Request} {a : Answer}
    (h : b.serve ts r = some (a, b')) : a.tokens ⊆ ts := by
  have at_place : ∀ {t}, ts[b.index]? = some t → [t] ⊆ ts := fun ht ↦
    List.cons_subset.2 ⟨List.mem_of_getElem? ht, List.nil_subset ts⟩
  cases r with
  | token =>
    obtain ⟨t, ht, heq⟩ := Option.map_eq_some_iff.1 h
    obtain ⟨rfl, -⟩ := Prod.mk.inj heq
    exact at_place ht
  | item =>
    rw [serve] at h
    split at h
    · obtain ⟨rfl, -⟩ := Prod.mk.inj (Option.some.inj h)
      exact List.nil_subset ts
    · obtain ⟨t, ht, heq⟩ := Option.map_eq_some_iff.1 h
      obtain ⟨rfl, -⟩ := Prod.mk.inj heq
      exact at_place ht
  | items =>
    rw [serve] at h
    split at h
    · obtain ⟨rfl, -⟩ := Prod.mk.inj (Option.some.inj h)
      exact List.nil_subset ts
    · obtain ⟨rfl, -⟩ := Prod.mk.inj (Option.some.inj h)
      exact List.drop_subset b.index ts
  | reset =>
    obtain ⟨rfl, -⟩ := Prod.mk.inj (Option.some.inj h)
    exact List.nil_subset ts

/-- On the last token the place stays. -/
theorem next_of_drop_eq_singleton {i : Nat} {t : Token} (h : ts.drop i = [t]) : next ts i = i := by
  have := congrArg List.length h
  rw [List.length_drop, List.length_singleton] at this
  rw [next]
  omega

/-- In front of another token the place moves on by one. -/
theorem next_of_drop_eq_cons {i : Nat} {t : Token} {more : List Token} (h : ts.drop i = t :: more)
    (hm : more ≠ []) : next ts i = i + 1 := by
  have := congrArg List.length h
  have := List.length_pos_iff.2 hm
  rw [List.length_drop, List.length_cons] at *
  rw [next]
  omega

end Bookmark

namespace Cursor

/-! ### Taking tokens off a text -/

/-- A text with a token in front has that token and those behind it. -/
theorem tokens_of_next? {c d : Cursor} {t : Token} (h : c.next? = some (t, d)) :
    c.tokens = t :: d.tokens := by
  rw [tokens, pending_eq, h, tokens, (places_of_next? h).2.2.2]
  rfl

/-- A text without a token in front has the end of the input alone. -/
theorem tokens_of_next?_eq_none {c : Cursor} (h : c.next? = none) :
    c.tokens = [Token.endAt c.stop] := by
  rw [tokens, pending_eq, h, List.nil_append]

/-- So has the end of a text. -/
theorem tokens_end (here : Nat) : (⟨here, []⟩ : Cursor).tokens = [Token.endAt here] := by
  rw [tokens, pending_nil, List.nil_append]
  rfl

/-- The end of a text stands in the source. -/
theorem StandsIn.end {c : Cursor} {source : String} (h : c.StandsIn source) :
    (⟨c.stop, []⟩ : Cursor).StandsIn source :=
  h.advance (List.append_nil c.rest).symm

end Cursor

/-- Every token of a source, the end of the input too, is read at its span. -/
theorem reads_of_mem_tokenize {source : String} {t : Token} (h : t ∈ tokenize source) :
    t.span.Reads source t.text := by
  have whole := Cursor.standsIn_start source
  rw [tokenize, Cursor.tokens, List.mem_append, List.mem_singleton] at h
  rcases h with h | rfl
  · exact (whole.reads_of_mem_pending h).2
  · rw [whole.stop_eq]
    exact ⟨source, "", by simp [Token.endAt], rfl, rfl⟩

namespace Lexer

/-! ### The lexer and its bookmark -/

/-- A lexer of a source is at a bookmark in the tokens of the source. -/
structure At (l : Lexer) (source : String) (b : Bookmark) : Prop where
  source_eq : l.source = source
  /-- The lexer's text is what the source has at the lexer's offset. -/
  standsIn : l.cursor.StandsIn source
  /-- The tokens to come are those from the bookmark on. -/
  tokens_eq : l.cursor.tokens = (tokenize source).drop b.index
  done_eq : l.done = b.done

/-- A new lexer is at the first token. -/
theorem at_ofSource (source : String) : (ofSource source).At source ⟨0, false⟩ :=
  ⟨rfl, Cursor.standsIn_start source, rfl, rfl⟩

variable {l : Lexer} {source : String} {b : Bookmark}

/-- The next token is the one at the bookmark, and the lexer moves on with the bookmark. -/
theorem At.next (h : l.At source b) (done : Bool) :
    (tokenize source)[b.index]? = some l.cursor.next.1 ∧
      (⟨l.source, l.cursor.next.2, done⟩ : Lexer).At source
        ⟨Bookmark.next (tokenize source) b.index, done⟩ := by
  obtain ⟨source_eq, standsIn, tokens_eq, -⟩ := h
  have here : ∀ {t more}, (tokenize source).drop b.index = t :: more →
      (tokenize source)[b.index]? = some t := by
    intro t more ht
    rw [← List.head?_drop, ht, List.head?_cons]
  rcases hc : l.cursor.next? with - | ⟨t, d⟩
  · have last := tokens_eq.symm.trans (Cursor.tokens_of_next?_eq_none hc)
    rw [Cursor.next, hc]
    refine ⟨here last, source_eq, standsIn.end, ?_, rfl⟩
    rw [Bookmark.next_of_drop_eq_singleton last, last]
    exact Cursor.tokens_end l.cursor.stop
  · have front := tokens_eq.symm.trans (Cursor.tokens_of_next? hc)
    have more : d.tokens ≠ [] := List.append_ne_nil_of_right_ne_nil _ (List.cons_ne_nil _ _)
    rw [Cursor.next, hc]
    refine ⟨here front, source_eq, (standsIn.reads_of_next? hc).2, ?_, rfl⟩
    rw [Bookmark.next_of_drop_eq_cons front more, ← List.drop_drop, front, List.drop_one,
      List.tail_cons]

/-- **Each request is answered as the bookmark says**, and leaves the lexer where the bookmark
is. -/
theorem At.serve (h : l.At source b) (r : Request) :
    ∃ b', b.serve (tokenize source) r = some ((l.serve r).1, b') ∧ (l.serve r).2.At source b' := by
  cases r with
  | token =>
    obtain ⟨here, moved⟩ := h.next l.done
    rw [Bookmark.serve, here, ← h.done_eq]
    exact ⟨_, rfl, moved⟩
  | item =>
    rw [Bookmark.serve, Lexer.serve, next?, ← h.done_eq]
    rcases hd : l.done with - | -
    · obtain ⟨here, moved⟩ := h.next (decide (l.cursor.next.1.kind = .endOfInput))
      rw [here]
      exact ⟨_, rfl, moved⟩
    · exact ⟨b, rfl, h⟩
  | items =>
    rw [Bookmark.serve, Lexer.serve, drain, ← h.done_eq]
    rcases hd : l.done with - | -
    · refine ⟨⟨(tokenize source).length - 1, true⟩, ?_, h.source_eq, h.standsIn.end, ?_, rfl⟩
      · rw [← h.tokens_eq]
        rfl
      · have whole := Cursor.standsIn_start source
        have stops : l.cursor.stop = (Cursor.start source).stop :=
          h.standsIn.stop_eq.trans whole.stop_eq.symm
        show (⟨l.cursor.stop, []⟩ : Cursor).tokens = _
        rw [Cursor.tokens_end, stops, tokenize, Cursor.tokens, List.length_append,
          List.length_singleton, Nat.add_sub_cancel, List.drop_left]
    · exact ⟨b, rfl, h⟩
  | reset => exact ⟨⟨0, false⟩, rfl, h.source_eq ▸ at_ofSource l.source⟩

/-- So are requests made one after the other, and the answers hold tokens of the source alone. -/
theorem At.serveAll (h : l.At source b) (rs : List Request) :
    (∃ b', b.serveAll (tokenize source) rs = some ((l.serveAll rs).1, b') ∧
        (l.serveAll rs).2.At source b') ∧
      ∀ a ∈ (l.serveAll rs).1, a.tokens ⊆ tokenize source := by
  induction rs generalizing l b with
  | nil => exact ⟨⟨b, rfl, h⟩, fun a ha ↦ absurd ha (List.not_mem_nil)⟩
  | cons r rs ih =>
    obtain ⟨b', served, here⟩ := h.serve r
    obtain ⟨⟨b'', served_all, there⟩, inside⟩ := ih here
    refine ⟨⟨b'', ?_, there⟩,
      List.forall_mem_cons.2 ⟨Bookmark.tokens_subset_of_serve served, inside⟩⟩
    rw [Bookmark.serveAll, served]
    simp only [Option.bind_eq_bind, Option.bind_some, served_all]
    rfl

/-! ### Draining -/

/-- **Draining gives what asking for items gives** until there are none, and leaves the same
lexer. -/
theorem serveAll_replicate_item (l : Lexer) :
    l.serveAll (List.replicate (l.drain.1.length + 1) .item) =
      (l.drain.1.map (fun t ↦ .item (some t)) ++ [.item none], l.drain.2) := by
  obtain ⟨source, cursor, done⟩ := l
  rcases done with - | -
  · show (⟨source, cursor, false⟩ : Lexer).serveAll
        (List.replicate (cursor.tokens.length + 1) .item) =
      (cursor.tokens.map (fun t ↦ .item (some t)) ++ [.item none],
        ⟨source, ⟨cursor.stop, []⟩, true⟩)
    induction cursor using Cursor.pending_induction with
    | none_left c hc =>
      -- The end of the input is the one item, and sets the mark.
      have item : (⟨source, c, false⟩ : Lexer).serve .item =
          (.item (some (Token.endAt c.stop)), ⟨source, ⟨c.stop, []⟩, true⟩) := by
        simp only [serve, next?, Cursor.next, hc]
        rfl
      rw [Cursor.tokens_of_next?_eq_none hc, List.length_singleton, List.replicate_succ, serveAll,
        item]
      rfl
    | in_front c d t hc ih =>
      have inner : t.kind ≠ .endOfInput := by
        obtain ⟨-, x, -, -, -, rfl, -⟩ := Cursor.exists_spelling_of_next? hc
        exact x.resolves_kind.ne_endOfInput
      have item : (⟨source, c, false⟩ : Lexer).serve .item =
          (.item (some t), ⟨source, d, false⟩) := by
        simp only [serve, next?, Cursor.next, hc, decide_eq_false inner]
        rfl
      rw [Cursor.tokens_of_next? hc, List.length_cons, List.replicate_succ, serveAll, item, ih,
        (Cursor.places_of_next? hc).2.2.2]
      rfl
  · rfl

/-! ### Any requests in any order -/

/-- **A lexer is a bookmark in the tokens of its source.** To any requests, one after the other, a
new lexer gives the answers that are read off the tokens of the source with a bookmark, and is left
where the bookmark is: its offset is the boundary of a character and its text is what the source has
from there on. No token is missing, and each token in an answer is one of the source, which has the
token's text at the token's span. What the lexer then drains is what asking for items would give up
to the first time that there is none. -/
theorem serveAll_eq_bookmark (source : String) (requests : List Request) :
    let served := (ofSource source).serveAll requests
    (∃ b : Bookmark,
      (⟨0, false⟩ : Bookmark).serveAll (tokenize source) requests = some (served.1, b) ∧
        served.2.At source b) ∧
      (∀ a ∈ served.1, ∀ t ∈ a.tokens, t ∈ tokenize source ∧ t.span.Reads source t.text) ∧
      served.2.serveAll (List.replicate (served.2.drain.1.length + 1) .item) =
        (served.2.drain.1.map (fun t ↦ .item (some t)) ++ [.item none], served.2.drain.2) := by
  obtain ⟨as_bookmark, inside⟩ := (at_ofSource source).serveAll requests
  refine ⟨as_bookmark, fun a ha t ht ↦ ?_, serveAll_replicate_item _⟩
  have mem := inside a ha ht
  exact ⟨mem, reads_of_mem_tokenize mem⟩

/-- An iteration has its end still to come after the end has been taken outright, and the other way
about. -/
example : ((ofSource "").serveAll [.token, .item, .item, .token]).1 =
    [.token (Token.endAt 0), .item (some (Token.endAt 0)), .item none, .token (Token.endAt 0)] := by
  decide +kernel

end Lexer

end MonkeyLang
