import Mathlib.Algebra.GroupWithZero.Nat
import MonkeyLang.Proofs.Grammar.Strength

/-!
# Tokens that leave a trace

Parentheses and semicolons are not seen in the tree; every other token is, each at a place of its
own. So a tree tells how many such tokens its derivation spans (`traces_tokens`), however many
parentheses and semicolons stand among them. Two derivations of one tree that share their first
tokens therefore cannot differ in an operator: the count would.
-/

namespace MonkeyLang

/-- Every kind of token leaves a trace in the tree but parentheses and semicolons. -/
def TokenKind.leavesTrace : TokenKind → Bool
  | punctuation .lparen | punctuation .rparen | punctuation .semicolon => false
  | _ => true

/-- The number of tokens that leave a trace. -/
def traces (tokens : List Token) : Nat := tokens.countP fun t ↦ t.kind.leavesTrace

@[simp] theorem traces_nil : traces [] = 0 := rfl

@[simp] theorem traces_append (ts us : List Token) : traces (ts ++ us) = traces ts + traces us :=
  List.countP_append

theorem traces_cons (t : Token) (ts : List Token) :
    traces (t :: ts) = traces ts + if t.kind.leavesTrace = true then 1 else 0 :=
  List.countP_cons

/-- The number of leaves and operators of an expression. -/
def Expr.size : Expr → Nat
  | unary _ operand => operand.size + 1
  | binary _ left right => left.size + right.size + 1
  | _ => 1

/-- The number of tokens that a statement is bound to have. -/
def Statement.size : Statement → Nat
  | letStatement _ value => value.size + 3
  | returnStatement value => value.size + 1
  | expressionStatement expression => expression.size

/-- A tree tells how many tokens of its phrase leave a trace. -/
theorem Phrase.TighterThan.traces_tokens {p : Phrase} {floor : Precedence}
    (h : p.TighterThan floor) : traces p.tokens = p.tree.size := by
  induction p generalizing floor with
  | identifier t =>
    have hk : t.kind = .identifier := h
    rw [tokens, traces_cons, hk]
    rfl
  | integer t =>
    rw [tokens, traces_cons, h.1]
    rfl
  | boolean value t =>
    have hk : t.kind = .keyword (if value then .trueWord else .falseWord) := h
    rw [tokens, traces_cons, hk]
    cases value <;> rfl
  | unary op sign operand ih =>
    rw [tokens, traces_cons, h.1, ih h.2.2]
    rfl
  | binary op left sign right ihl ihr =>
    obtain ⟨⟨hs, -⟩, -, hl, hr⟩ := h
    rw [tokens, traces_append, traces_cons, hs, ihl hl, ihr hr]
    rfl
  | parens opening inner closing ih =>
    obtain ⟨ho, hx, hc⟩ := h
    rw [tokens, traces_cons, traces_append, traces_cons, ho, hc, ih hx]
    rfl

/-- A tree tells how many tokens of its clause leave a trace. -/
theorem Clause.IsDerived.traces_tokens {c : Clause} (hc : c.IsDerived) :
    traces c.tokens = c.tree.size := by
  obtain ⟨o, p, s⟩ := c
  obtain ⟨ho, hp, hs⟩ := hc
  have value := (Nonterminal.expression_derives_iff.1 hp).traces_tokens
  have silent : traces s.toList = 0 := by
    rcases s with - | t
    · rfl
    · rw [Option.toList_some, traces_cons, hs t rfl]
      rfl
  rw [tokens, traces_append, traces_append, value, silent]
  rcases o with ⟨word, name, sign⟩ | word | -
  · obtain ⟨hw, hn, hs⟩ := ho
    rw [Opening.tokens, traces_cons, traces_cons, traces_cons, hw, hn, hs]
    exact Nat.add_comm _ _
  · have hw : word.kind = .keyword .returnWord := ho
    rw [Opening.tokens, traces_cons, hw]
    exact Nat.add_comm _ _
  · exact Nat.zero_add _

/-- The trees of a program tell how many of its tokens leave a trace. -/
theorem DerivesProgram.traces_eq {tokens : List Token} {cs : List Clause}
    (h : DerivesProgram tokens cs) :
    traces tokens = ((cs.map Clause.tree).map Statement.size).sum := by
  obtain ⟨hcs, rfl⟩ := h
  induction cs with
  | nil => rfl
  | cons c cs ih =>
    rw [List.forall_mem_cons] at hcs
    rw [List.flatMap_cons, traces_append, hcs.1.traces_tokens, ih hcs.2]
    rfl

end MonkeyLang
