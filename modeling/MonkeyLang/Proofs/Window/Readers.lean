import Mathlib.Logic.Function.Iterate
import MonkeyLang.Parse.Program
import MonkeyLang.Proofs.Lexing.MaximalMunch
import MonkeyLang.Proofs.Sequence
import MonkeyLang.Token.Lexer

/-!
# Reading with two tokens in sight

The readers of phrases are given the tokens that are left, as a list. Off a lexer they are read with
two of them in sight: the current token and the upcoming one. A step moves both on by one and pulls
a token from the lexer, which gives the end of the input as often as it is asked. Over such a window
the readers are programs that look, take steps, and give a value or fail; a failure leaves the
window where it is.

The loop that reads a program, and the loop inside it that gives up a failed statement, have no
argument that gets smaller. What does is the number of tokens in sight or to come that are not the
end of the input (`Window.size`): a step takes one off, unless the current token is the end. A
reader moves the window by steps alone (`Walk.IsOnward`), and each pass takes one step more than its
reader, so each pass leaves fewer tokens, whether its statement was read or failed at once.
-/

namespace MonkeyLang

/-! ### Taking the next token, or the end of the input -/

namespace Cursor

/-- What is taken is the first of the tokens to come, or the end of the input. The others are still
to come, and the text ends where it did. -/
theorem next_eq (c : Cursor) :
    c.next.1 = Token.head c.stop c.pending ∧ c.next.2.pending = c.pending.tail ∧
      c.next.2.stop = c.stop := by
  rcases h : c.next? with - | ⟨t, d⟩
  · have taken : c.next = (Token.endAt c.stop, ⟨c.stop, []⟩) := by rw [next, h]
    have none_left : c.pending = [] := by rw [pending_eq, h]
    rw [taken, none_left, pending_nil]
    exact ⟨rfl, rfl, rfl⟩
  · have taken : c.next = (t, d) := by rw [next, h]
    have more : c.pending = t :: d.pending := by rw [pending_eq, h]
    rw [taken, more]
    exact ⟨rfl, rfl, (places_of_next? h).2.2.2⟩

end Cursor

/-- What a token counts for: one, unless it is the end of the input. -/
def Token.weight (t : Token) : Nat := if t.kind = .endOfInput then 0 else 1

/-- Taking a token takes one off those to come, unless it is the end of the input. -/
theorem Cursor.weight_next (c : Cursor) :
    c.next.1.weight + c.next.2.pending.length = c.pending.length := by
  obtain ⟨taken, others, -⟩ := c.next_eq
  rw [taken, others]
  rcases h : c.pending with - | ⟨t, more⟩
  · rfl
  · have inside : t ∈ c.pending := h ▸ List.mem_cons_self
    rw [Token.head_cons, Token.weight, if_neg (kind_ne_of_mem_pending inside), List.tail_cons,
      List.length_cons, Nat.add_comm]

/-! ### The window -/

/-- Two tokens in sight over a lexer. -/
structure Window where
  current : Token
  upcoming : Token
  lexer : Lexer

namespace Window

/-- The first two tokens of a lexer are in sight. -/
def ofLexer (l : Lexer) : Window :=
  let (current, l) := l.nextToken
  let (upcoming, l) := l.nextToken
  ⟨current, upcoming, l⟩

/-- The window one token further on. -/
def advance (w : Window) : Window :=
  let (pulled, l) := w.lexer.nextToken
  ⟨w.upcoming, pulled, l⟩

/-- The number of tokens, in sight or to come, that are not the end of the input. -/
def size (w : Window) : Nat :=
  w.current.weight + w.upcoming.weight + w.lexer.cursor.pending.length

/-- A step takes the current token off, unless that is the end of the input. -/
theorem size_advance (w : Window) : w.current.weight + w.advance.size = w.size := by
  have pulled := w.lexer.cursor.weight_next
  show w.current.weight + (w.upcoming.weight + w.lexer.cursor.next.1.weight +
    w.lexer.cursor.next.2.pending.length) = w.current.weight + w.upcoming.weight +
      w.lexer.cursor.pending.length
  omega

/-- Steps never make a window larger. -/
theorem size_iterate_le (n : Nat) (w : Window) : (advance^[n] w).size ≤ w.size := by
  induction n generalizing w with
  | zero => exact Nat.le_refl _
  | succ n ih =>
    have one := w.size_advance
    exact (ih w.advance).trans (by omega)

/-- With one step more than any number of them, a window gets smaller that is not at the end. -/
theorem size_advance_iterate_lt {w : Window} (h : w.current.kind ≠ .endOfInput) (n : Nat) :
    (advance^[n] w).advance.size < w.size := by
  have one := w.size_advance
  have others := size_iterate_le n w.advance
  rw [Token.weight, if_neg h] at one
  rw [← Function.iterate_succ_apply' advance n w, Function.iterate_succ_apply]
  omega

end Window

/-! ### Readers -/

/-- A reader over a window. It gives a value or fails, and leaves the window where it stands. -/
abbrev Walk := EStateM ParseError Window

namespace Walk

/-- One token on. -/
def step : Walk Unit := modify Window.advance

theorem step_bind {α : Type} (next : Unit → Walk α) (w : Window) :
    (step >>= next) w = next () w.advance :=
  rfl

/-- Move on to a token of the kind due. Where another kind comes up, reading fails. -/
def expect (kind : TokenKind) : Walk Token := do
  let found := (← get).upcoming
  if found.kind = kind then
    step
    return found
  else throw ⟨.unexpectedToken kind found.kind, found.span⟩

/-- Reading fails because no expression starts with the current token. -/
def noOperand : Walk Expr := do
  let t := (← get).current
  match t.kind with
  | .illegal => throw ⟨.illegalCharacter t.text, t.span⟩
  | kind => throw ⟨.noOperand kind, t.span⟩

/-- The current token denotes a value, if that is not too large. -/
def readInteger : Walk Expr := do
  let t := (← get).current
  let value := decimalValue t.text.toList
  if value ≤ maxInteger then return .integer value t.text
  else throw ⟨.integerTooLarge t.text, t.span⟩

/-- An operand that begins with the current token. The expressions inside are read by `inner`. -/
def readOperand (inner : Precedence → Walk Expr) : Walk Expr := do
  let t := (← get).current
  match t.kind with
  | .identifier => return .identifier t.text
  | .integer => readInteger
  | .keyword .trueWord => return .boolean true t.text
  | .keyword .falseWord => return .boolean false t.text
  | .operator op =>
    if op.isUnary then
      step
      return .unary op (← inner .unary)
    else noOperand
  | .punctuation .lparen =>
    step
    let e ← inner .lowest
    let _ ← expect (.punctuation .rparen)
    return e
  | _ => noOperand

/-- The binary operator that comes up, if one does that binds tighter than `floor`. -/
def binaryAhead? (floor : Precedence) (w : Window) : Option Operator :=
  match w.upcoming.kind with
  | .operator op =>
    match op.binaryPrecedence? with
    | some strength => if floor < strength then some op else none
    | none => none
  | _ => none

mutual

/-- An expression whose operators bind tighter than `floor`, nested at most `levels` deep. -/
def readExpression (limit : Nat) : Nat → Precedence → Walk Expr
  | 0, _ => do throw ⟨.nestingTooDeep limit, (← get).current.span⟩
  | levels + 1, floor => do
    let left ← readOperand (readExpression limit levels)
    extend limit levels floor left

/-- Extend what was read by the binary operators that come up and bind tighter than `floor`. -/
def extend (limit : Nat) : Nat → Precedence → Expr → Walk Expr
  | 0, floor, left => do
    let w ← get
    match binaryAhead? floor w with
    | none => return left
    | some _ => throw ⟨.nestingTooDeep limit, w.upcoming.span⟩
  | levels + 1, floor, left => do
    match binaryAhead? floor (← get) with
    | none => return left
    | some op =>
      step
      step
      let right ← readExpression limit levels op.rightFloor
      extend limit levels floor (.binary op left right)

end

/-- Move on to a semicolon, if one comes up. -/
def skipSemicolon : Walk Unit := do
  if (← get).upcoming.kind = .punctuation .semicolon then step

/-- An expression with all levels left, and the semicolon behind it. -/
def readValue (config : Config) : Walk Expr := do
  let e ← readExpression config.maxDepth config.maxDepth .lowest
  skipSemicolon
  return e

/-- A binding, of which the current token is the first. -/
def readLet (config : Config) : Walk Statement := do
  let name ← expect .identifier
  let _ ← expect (.operator .assign)
  step
  return .letStatement name.text (← readValue config)

/-- The statement that begins with the current token. -/
def readStatement (config : Config) : Walk Statement := do
  match (← get).current.kind with
  | .keyword .letWord => readLet config
  | .keyword .returnWord =>
    step
    return .returnStatement (← readValue config)
  | _ => return .expressionStatement (← readValue config)

/-! ### Readers move by steps alone -/

section Onward

variable {α β : Type}

/-- The window that a reader leaves. -/
def windowOf : EStateM.Result ParseError Window α → Window
  | .ok _ w => w
  | .error _ w => w

/-- A reader leaves its window some steps further on. -/
def IsOnward (x : Walk α) : Prop :=
  ∀ w, ∃ n, windowOf (x w) = Window.advance^[n] w

theorem isOnward_pure (a : α) : IsOnward (pure a : Walk α) := fun _ ↦ ⟨0, rfl⟩

theorem isOnward_throw (e : ParseError) : IsOnward (throw e : Walk α) := fun _ ↦ ⟨0, rfl⟩

theorem isOnward_get : IsOnward (get : Walk Window) := fun _ ↦ ⟨0, rfl⟩

theorem isOnward_step : IsOnward step := fun _ ↦ ⟨1, rfl⟩

/-- One reader behind another moves by the steps of both. -/
theorem IsOnward.bind {x : Walk α} {k : α → Walk β} (hx : IsOnward x)
    (hk : ∀ a, IsOnward (k a)) : IsOnward (x >>= k) := by
  intro w
  obtain ⟨n, hn⟩ := hx w
  rcases h : x w with ⟨a, w'⟩ | ⟨e, w'⟩
  · obtain ⟨n', hn'⟩ := hk a w'
    rw [h] at hn
    obtain rfl : w' = _ := hn
    refine ⟨n' + n, ?_⟩
    rw [bind_of_ok h, hn', Function.iterate_add_apply]
  · rw [h] at hn
    exact ⟨n, by rw [bind_of_error h]; exact hn⟩

end Onward

theorem isOnward_expect (kind : TokenKind) : IsOnward (expect kind) := by
  refine isOnward_get.bind fun w ↦ ?_
  dsimp only
  split
  · exact isOnward_step.bind fun _ ↦ isOnward_pure _
  · exact isOnward_throw _

theorem isOnward_noOperand : IsOnward noOperand := by
  refine isOnward_get.bind fun w ↦ ?_
  dsimp only
  split <;> exact isOnward_throw _

theorem isOnward_readInteger : IsOnward readInteger := by
  refine isOnward_get.bind fun w ↦ ?_
  dsimp only
  split
  · exact isOnward_pure _
  · exact isOnward_throw _

theorem isOnward_readOperand {inner : Precedence → Walk Expr}
    (h : ∀ floor, IsOnward (inner floor)) : IsOnward (readOperand inner) := by
  refine isOnward_get.bind fun w ↦ ?_
  dsimp only
  split
  · exact isOnward_pure _
  · exact isOnward_readInteger
  · exact isOnward_pure _
  · exact isOnward_pure _
  · split
    · exact isOnward_step.bind fun _ ↦ (h .unary).bind fun _ ↦ isOnward_pure _
    · exact isOnward_noOperand
  · exact isOnward_step.bind fun _ ↦ (h .lowest).bind fun _ ↦
      (isOnward_expect _).bind fun _ ↦ isOnward_pure _
  · exact isOnward_noOperand

/-- An expression is read by steps, and so is what extends it. -/
theorem isOnward_readExpression (limit levels : Nat) :
    (∀ floor, IsOnward (readExpression limit levels floor)) ∧
      ∀ floor left, IsOnward (extend limit levels floor left) := by
  induction levels with
  | zero =>
    constructor
    · intro floor
      rw [readExpression]
      exact isOnward_get.bind fun _ ↦ isOnward_throw _
    · intro floor left
      rw [extend]
      refine isOnward_get.bind fun w ↦ ?_
      split
      · exact isOnward_pure _
      · exact isOnward_throw _
  | succ levels ih =>
    obtain ⟨reads, extends_⟩ := ih
    constructor
    · intro floor
      rw [readExpression]
      exact (isOnward_readOperand reads).bind fun left ↦ extends_ floor left
    · intro floor left
      rw [extend]
      refine isOnward_get.bind fun w ↦ ?_
      split
      · exact isOnward_pure _
      · exact isOnward_step.bind fun _ ↦ isOnward_step.bind fun _ ↦ (reads _).bind fun _ ↦
          extends_ floor _

theorem isOnward_readValue (config : Config) : IsOnward (readValue config) := by
  have skips : IsOnward skipSemicolon := by
    refine isOnward_get.bind fun w ↦ ?_
    split
    · exact isOnward_step
    · exact isOnward_pure _
  exact ((isOnward_readExpression _ _).1 _).bind fun _ ↦ skips.bind fun _ ↦ isOnward_pure _

/-- A statement is read by steps, or given up after some. -/
theorem isOnward_readStatement (config : Config) : IsOnward (readStatement config) := by
  refine isOnward_get.bind fun w ↦ ?_
  split
  · exact (isOnward_expect _).bind fun _ ↦ (isOnward_expect _).bind fun _ ↦
      isOnward_step.bind fun _ ↦ (isOnward_readValue config).bind fun _ ↦ isOnward_pure _
  · exact isOnward_step.bind fun _ ↦ (isOnward_readValue config).bind fun _ ↦ isOnward_pure _
  · exact (isOnward_readValue config).bind fun _ ↦ isOnward_pure _

end Walk

/-! ### Programs -/

namespace Window

/-- Give up a statement: move on to the semicolon that ends it or to the end of the input, or up to
the token in front of one that starts a statement. -/
def synchronize (w : Window) : Window :=
  if h : w.current.kind = .punctuation .semicolon ∨ w.current.kind = .endOfInput then w
  else if w.upcoming.kind.startsStatement then w
  else
    have : w.advance.size < w.size := size_advance_iterate_lt (not_or.1 h).2 0
    w.advance.synchronize
termination_by w.size

/-- Statements are given up by steps. -/
theorem exists_synchronize_eq (w : Window) : ∃ n, w.synchronize = advance^[n] w := by
  induction w using synchronize.induct with
  | case1 w h => exact ⟨0, by rw [synchronize, dif_pos h]; rfl⟩
  | case2 w h hs => exact ⟨0, by rw [synchronize, dif_neg h, if_pos hs]; rfl⟩
  | case3 w h hs _ ih =>
    obtain ⟨n, hn⟩ := ih
    exact ⟨n + 1, by rw [synchronize, dif_neg h, if_neg hs, hn]; rfl⟩

/-- A pass over a statement that was read leaves fewer tokens. -/
theorem size_lt_of_ok {config : Config} {w w' : Window} {s : Statement}
    (h : w.current.kind ≠ .endOfInput) (hr : Walk.readStatement config w = .ok s w') :
    w'.advance.size < w.size := by
  obtain ⟨n, hn⟩ := Walk.isOnward_readStatement config w
  rw [hr] at hn
  obtain rfl : w' = _ := hn
  exact size_advance_iterate_lt h n

/-- So does a pass over a statement that failed. -/
theorem size_lt_of_error {config : Config} {w w' : Window} {e : ParseError}
    (h : w.current.kind ≠ .endOfInput) (hr : Walk.readStatement config w = .error e w') :
    w'.synchronize.advance.size < w.size := by
  obtain ⟨n, hn⟩ := Walk.isOnward_readStatement config w
  obtain ⟨n', hn'⟩ := w'.exists_synchronize_eq
  rw [hr] at hn
  obtain rfl : w' = _ := hn
  rw [hn', ← Function.iterate_add_apply]
  exact size_advance_iterate_lt h (n' + n)

/-- Read statements up to the end of the input, behind the statements and the errors so far. -/
def readProgram (config : Config) (statements : List Statement) (errors : List ParseError)
    (w : Window) : List Statement × List ParseError × Window :=
  if h : w.current.kind = .endOfInput then (statements, errors, w)
  else
    match hr : Walk.readStatement config w with
    | .ok s w' =>
      have := size_lt_of_ok h hr
      w'.advance.readProgram config (statements ++ [s]) errors
    | .error e w' =>
      have := size_lt_of_error h hr
      w'.synchronize.advance.readProgram config statements (errors ++ [e])
termination_by w.size

/-- Parse the text from the place of a lexer on. -/
def parse (config : Config) (l : Lexer) : ParseOutput :=
  let (statements, errors, _) := (ofLexer l).readProgram config [] []
  ⟨⟨statements⟩, errors⟩

end Window

end MonkeyLang
