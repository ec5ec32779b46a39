import Mathlib.Data.List.Forall2
import MonkeyLang.Proofs.Lexing.Tiling
import MonkeyLang.Proofs.Reading.Front

/-!
# Where the statements of a program come from

Every statement of a parsed program, whatever else fails in the text, is what a range of the tokens
means: the text from the first token of the range to the last one is, alone, parsed to that
statement and to nothing else, without an error. The ranges of the statements stand one behind the
other, in the order of the statements (`exists_ranges_of_parse`).

Reading a statement takes the tokens of a clause (`Frame.exists_clause_of_readStatement`), and a
clause is parsed to its tree wherever it stands and whatever stands behind it, as long as that
cannot belong to it. Nothing at all stands behind the text of the range, so the tokens that stood
there, and the failures in front, have no part in what the statement is.
-/

namespace MonkeyLang

/-- The tokens from one index on and before another one. -/
structure TokenRange where
  start : Nat
  stop : Nat

namespace TokenRange

/-- A range reads a segment of tokens if the segment stands there. -/
def Reads (r : TokenRange) (tokens segment : List Token) : Prop :=
  ∃ front more, tokens = front ++ (segment ++ more) ∧ r.start = front.length ∧
    r.stop = r.start + segment.length

/-- The range moved behind `n` further tokens. -/
def shift (n : Nat) (r : TokenRange) : TokenRange := ⟨r.start + n, r.stop + n⟩

theorem Reads.shift {r : TokenRange} {tokens segment : List Token} (h : r.Reads tokens segment)
    (skipped : List Token) : (r.shift skipped.length).Reads (skipped ++ tokens) segment := by
  obtain ⟨front, more, rfl, hstart, hstop⟩ := h
  refine ⟨skipped ++ front, more, by rw [List.append_assoc], ?_, ?_⟩
  · rw [List.length_append, Nat.add_comm, ← hstart]
    rfl
  · show r.stop + skipped.length = r.start + skipped.length + segment.length
    omega

/-- A statement is read at a range of the tokens if they are those of a clause that stands for it
and costs no more than the limit allows. -/
def Holds (limit : Nat) (tokens : List Token) (r : TokenRange) (s : Statement) : Prop :=
  ∃ c : Clause, c.IsDerived ∧ c.value.cost ≤ limit ∧ c.tree = s ∧ r.Reads tokens c.tokens

theorem Holds.shift {r : TokenRange} {limit : Nat} {tokens : List Token} {s : Statement}
    (h : Holds limit tokens r s) (skipped : List Token) :
    Holds limit (skipped ++ tokens) (r.shift skipped.length) s := by
  obtain ⟨c, hc, hl, hs, reads⟩ := h
  exact ⟨c, hc, hl, hs, reads.shift skipped⟩

/-- Ranges stand one behind the other. -/
def Ascending (ranges : List TokenRange) : Prop := ranges.Pairwise fun r r' ↦ r.stop ≤ r'.start

theorem Ascending.shift {ranges : List TokenRange} (h : Ascending ranges) (n : Nat) :
    Ascending (ranges.map (.shift n)) :=
  List.pairwise_map.2 (h.imp fun le ↦ Nat.add_le_add_right le n)

end TokenRange

open TokenRange

/-! ### Clauses in their places -/

/-- Statements that are read at ranges of some tokens are read, with tokens in front, at the same
ranges behind these. -/
theorem forall₂_holds_shift {limit : Nat} {tokens : List Token} {ranges : List TokenRange}
    {ss : List Statement} (h : List.Forall₂ (Holds limit tokens) ranges ss)
    (skipped : List Token) :
    List.Forall₂ (Holds limit (skipped ++ tokens)) (ranges.map (.shift skipped.length)) ss :=
  List.forall₂_map_left_iff.2 (h.imp fun _ _ holds ↦ holds.shift skipped)

/-- **The statements of a program are read at ranges of its tokens** that stand one behind the
other, whatever else fails. -/
theorem Frame.exists_ranges (f : Frame) (tokens : List Token) :
    ∃ ranges, Ascending ranges ∧
      List.Forall₂ (Holds f.config.maxDepth tokens) ranges (f.statements tokens) := by
  induction tokens using program_induction f with
  | none_left =>
    rw [statements_nil]
    exact ⟨[], .nil, .nil⟩
  | failed first more e hread ih =>
    obtain ⟨ranges, ascending, holds⟩ := ih
    obtain ⟨skipped, hs⟩ := (resume_suffix_of_readStatement hread).trans (List.suffix_cons first _)
    rw [statements_cons_of_error hread, ← hs]
    exact ⟨_, ascending.shift _, forall₂_holds_shift holds skipped⟩
  | read first more p hread ih =>
    obtain ⟨ranges, ascending, holds⟩ := ih
    obtain ⟨c, hc⟩ := f.exists_clause_of_readStatement hread
    have here : Holds f.config.maxDepth (first :: more) ⟨0, c.tokens.length⟩ p.value :=
      ⟨c, hc.derived, hc.cost_le, congrArg Parsed.value hc.parsed_eq, [], p.rest,
        hc.tokens_eq.symm, rfl, (Nat.zero_add _).symm⟩
    have behind := forall₂_holds_shift holds c.tokens
    rw [hc.tokens_eq] at behind
    rw [statements_cons_of_ok hread]
    refine ⟨_, .cons ?_ (ascending.shift c.tokens.length), .cons here behind⟩
    intro r hr
    obtain ⟨r', -, rfl⟩ := List.mem_map.1 hr
    exact Nat.le_add_left _ _

/-! ### Statements in their places -/

/-- A text whose tokens, wherever it stands, are a clause that costs no more than the limit allows
is parsed to the clause's tree. -/
theorem parse_of_clause {config : Config} {text : String} {n : Nat} {c : Clause}
    (h : ((Cursor.start text).shift n).pending = c.tokens) (hc : c.IsDerived)
    (hl : c.value.cost ≤ config.maxDepth) : parse config text = ⟨⟨[c.tree]⟩, []⟩ := by
  obtain ⟨trees, clean⟩ := Frame.statements_flatMap_tokens
    (f := ⟨config, ((Cursor.start text).shift n).stop⟩) (List.forall_mem_singleton.2 hc)
    (.singleton c) (List.forall_mem_singleton.2 hl)
  rw [List.flatMap_singleton, ← h] at trees clean
  have moved := Cursor.parse_shift config n (Cursor.start text)
  rw [Cursor.parse_eq, trees, clean] at moved
  obtain ⟨program, errors⟩ := ParseOutput.mk.inj moved
  have none_met : (parse config text).errors = [] := List.map_eq_nil_iff.1 errors.symm
  exact congrArg₂ ParseOutput.mk program.symm none_met

/-- A statement is what a range of the tokens of a source means: the range has tokens, and the text
from the first one of them to the last one is, alone, parsed to this statement without an error. -/
def TokenRange.Means (config : Config) (source : String) (r : TokenRange) (s : Statement) : Prop :=
  ∃ (segment : List Token) (first last : Token) (text : String),
    r.Reads (tokenize source).dropLast segment ∧ segment.head? = some first ∧
      segment.getLast? = some last ∧
      (⟨first.span.start, last.span.stop⟩ : Span).Reads source text ∧
      parse config text = ⟨⟨[s]⟩, []⟩

/-- What is read at a range of the tokens is what the range means. -/
theorem TokenRange.Holds.means {r : TokenRange} {config : Config} {source : String} {s : Statement}
    (h : Holds config.maxDepth (Cursor.start source).pending r s) : Means config source r s := by
  obtain ⟨c, hc, hl, rfl, reads⟩ := h
  obtain ⟨t, more, ht, -⟩ := hc.exists_first
  have nonempty : c.tokens ≠ [] := by
    rw [ht]
    exact List.cons_ne_nil t more
  have first : c.tokens.head? = some t := by rw [ht, List.head?_cons]
  have last := List.getLast?_eq_some_getLast nonempty
  obtain ⟨front, behind, pending_eq, -⟩ := id reads
  obtain ⟨text, hspan, htext⟩ := Cursor.exists_reads_of_segment pending_eq first last
  exact ⟨c.tokens, t, _, text, by rwa [dropLast_tokenize], first, last, hspan,
    parse_of_clause htext hc hl⟩

/-- **Every statement of a parsed program has a place of its own in the text**, whether or not the
text has errors: the statements are, in order, what ranges of the tokens mean that stand one behind
the other. -/
theorem exists_ranges_of_parse (config : Config) (source : String) :
    ∃ ranges, Ascending ranges ∧
      List.Forall₂ (Means config source) ranges (parse config source).program.statements := by
  obtain ⟨ranges, ascending, holds⟩ :=
    (sourceFrame config source).exists_ranges (Cursor.start source).pending
  exact ⟨ranges, ascending, holds.imp fun _ _ ↦ Holds.means⟩

end MonkeyLang
