import Mathlib.Computability.StateTransition
import MonkeyLang.Proofs.Reading.Program

/-!
# Reading with one counter

The readers of expressions are handed the levels that they may use. Said as a machine, reading
keeps one counter instead, a word of some width. It goes up by one when a call opens and with
each operator that extends a phrase, and before that it is held against the limit. It comes down
in two ways: a call that is over gives back one level, and a call whose loop ends sets the counter
to what it was in front of the loop. The calls that wait for an inner one are on a stack, each with
what it needs to go on. A counter that would leave its word stops the machine.

The machine reads what the readers read. A call at counter `d` comes back with what
`readExpression` gives for `limit - d` levels, and leaves the counter and the stack as they were
(`Machine.runs_call`). The induction is on the levels, along the two readers, with one run for each
equation of theirs.
-/

namespace MonkeyLang

open Relation StateTransition

/-! ### How an operand begins -/

/-- What stands around the inner expression of an operand: a unary operator in front of it, or
parentheses. -/
inductive Wrapping
  | unary (op : Operator)
  | parens

/-- The floor at which the inner expression is read. -/
def Wrapping.floor : Wrapping → Precedence
  | unary _ => .unary
  | parens => .lowest

/-- What stands around the inner expression of the operand at the front of the tokens, if it has
one, and the tokens of that expression. -/
def wrappingAt? : List Token → Option (Wrapping × List Token)
  | [] => none
  | t :: rest =>
    match t.kind with
    | .operator op => if op.isUnary then some (.unary op, rest) else none
    | .punctuation .lparen => some (.parens, rest)
    | _ => none

namespace Frame

variable (f : Frame)

/-- The operand that comes of its inner expression. -/
def wrap : Wrapping → Reading Expr → Reading Expr
  | .unary op, r => r.map (.map (.unary op))
  | .parens, .error e => .error e
  | .parens, .ok e => (f.expect (.punctuation .rparen) e.last e.rest).map (.map fun _ ↦ e.value)

/-- An operand without an inner expression. -/
def readLeaf (tokens : List Token) : Reading Expr :=
  f.readOperand (fun _ inner ↦ .error (f.noOperand inner)) tokens

variable {f} {inner : Precedence → List Token → Reading Expr} {tokens : List Token}

/-- An operand with an inner expression is what comes of that. -/
theorem readOperand_of_wrappingAt?_eq_some {w : Wrapping} {rest : List Token}
    (h : wrappingAt? tokens = some (w, rest)) :
    f.readOperand inner tokens = f.wrap w (inner w.floor rest) := by
  rcases tokens with - | ⟨t, more⟩
  · cases h
  rw [wrappingAt?] at h
  split at h
  · rename_i op hk
    split at h
    · rename_i hop
      obtain ⟨rfl, rfl⟩ := Prod.mk.inj (Option.some.inj h)
      simp only [readOperand, hk, hop, if_true]
      rfl
    · cases h
  · rename_i hk
    obtain ⟨rfl, rfl⟩ := Prod.mk.inj (Option.some.inj h)
    simp only [readOperand, hk]
    show _ = f.wrap .parens (inner .lowest more)
    cases inner .lowest more <;> rfl
  · cases h

/-- An operand without an inner expression is read alike, whatever the reader for that would be. -/
theorem readOperand_of_wrappingAt?_eq_none (h : wrappingAt? tokens = none) :
    f.readOperand inner tokens = f.readLeaf tokens := by
  rcases tokens with - | ⟨t, more⟩
  · rfl
  rw [wrappingAt?] at h
  rw [readLeaf, readOperand, readOperand]
  split
  case h_5 op hk =>
    have hop : ¬ op.isUnary = true := fun hop ↦ by simp [hk, hop] at h
    rw [if_neg hop, if_neg hop]
  case h_6 hk => simp [hk] at h
  all_goals rfl

end Frame

/-! ### The state while an expression is read -/

/-- A call that waits for an inner one. -/
inductive Caller (width : Nat)
  /-- It waits for the inner expression of its operand. -/
  | operand (floor : Precedence) (w : Wrapping)
  /-- It waits for the right operand of an operator that its loop has passed. Behind the loop the
  counter goes back to `entry`. -/
  | right (floor : Precedence) (entry : BitVec width) (left : Parsed Expr) (op : Operator)

/-- What is done next. -/
inductive Task (width : Nat)
  /-- An expression is called for, and the limit is not asked yet. -/
  | call (floor : Precedence) (tokens : List Token)
  /-- The call is open, and its operand is due. -/
  | operand (floor : Precedence) (tokens : List Token)
  /-- The call is open, and its loop decides whether an operator extends what was read. -/
  | extend (floor : Precedence) (entry : BitVec width) (left : Parsed Expr)
  /-- The call is still open, and its outcome is known. -/
  | leave (outcome : Reading Expr)
  /-- The call is over, and its outcome goes to the one that waits. -/
  | returned (outcome : Reading Expr)
  /-- The counter would have become more than a word holds. -/
  | overflow
  /-- The counter would have become less than zero. -/
  | underflow

namespace Task

variable {width : Nat}

/-- A call goes on behind its operand into its loop, at whose end the counter is to be what it is
now. Without an operand it is at its end. -/
def afterOperand (floor : Precedence) (depth : BitVec width) : Reading Expr → Task width
  | .ok left => .extend floor depth left
  | .error e => .leave (.error e)

/-- The number of calls that are open in the task itself. -/
def openCalls : Task width → Nat
  | operand .. | extend .. | leave _ => 1
  | _ => 0

/-- Whether an outcome has come back. -/
def isReturned : Task width → Bool
  | returned _ => true
  | _ => false

/-- Whether the counter has failed. -/
def isFault : Task width → Bool
  | overflow | underflow => true
  | _ => false

end Task

/-- The state while an expression is read: the counter, the calls that wait, the innermost one
first, and the task. -/
structure CallState (width : Nat) where
  depth : BitVec width
  callers : List (Caller width)
  task : Task width

namespace CallState

variable {width : Nat}

/-- The number of calls that have passed the limit and are not over. A call passes and takes its
level in one step, and gives it back in the step that ends it. -/
def openCalls (s : CallState width) : Nat := s.callers.length + s.task.openCalls

/-- The call for which `callers` wait is over. -/
def HasReturned (callers : List (Caller width)) (s : CallState width) : Prop :=
  s.callers = callers ∧ ∃ outcome, s.task = .returned outcome

/-- The counter goes up by one. -/
def raise (depth : BitVec width) (callers : List (Caller width)) (task : Task width) :
    CallState width :=
  if depth.uaddOverflow 1 then ⟨depth, callers, .overflow⟩
  else ⟨depth + 1, callers, task⟩

/-- The counter goes down by one. -/
def lower (depth : BitVec width) (callers : List (Caller width)) (task : Task width) :
    CallState width :=
  if depth.usubOverflow 1 then ⟨depth, callers, .underflow⟩
  else ⟨depth - 1, callers, task⟩

variable {depth limit : BitVec width} {callers : List (Caller width)} {task : Task width}

/-- Below a limit there is room for one more. -/
theorem toNat_add_one_of_lt (h : depth < limit) :
    ¬ depth.uaddOverflow 1 ∧ (depth + 1).toNat = depth.toNat + 1 := by
  have room : depth.toNat + 1 < 2 ^ width :=
    (Nat.succ_le_of_lt (BitVec.lt_def.1 h)).trans_lt limit.isLt
  have one : (1 : BitVec width).toNat = 1 :=
    Nat.mod_eq_of_lt (show 1 < 2 ^ width by omega)
  have fits : ¬ depth.uaddOverflow 1 := by
    simp only [BitVec.uaddOverflow, one, decide_eq_true_eq]
    omega
  exact ⟨fits, by rw [BitVec.toNat_add_of_not_uaddOverflow fits, one]⟩

/-- Below a limit, one more is within it. -/
theorem add_one_le_of_lt (h : depth < limit) : depth + 1 ≤ limit := by
  rw [BitVec.le_def, (toNat_add_one_of_lt h).2]
  exact BitVec.lt_def.1 h

/-- What is no more than a counter below a limit is less than the next one. -/
theorem lt_add_one_of_le {entry : BitVec width} (he : entry ≤ depth) (h : depth < limit) :
    entry < depth + 1 := by
  rw [BitVec.lt_def, (toNat_add_one_of_lt h).2]
  exact Nat.lt_succ_of_le (BitVec.le_def.1 he)

/-- Below a limit the counter goes up without an overflow. -/
theorem raise_of_lt (h : depth < limit) :
    raise depth callers task = ⟨depth + 1, callers, task⟩ :=
  if_neg (toNat_add_one_of_lt h).1

/-- Without a level left, the counter is at the limit. -/
theorem not_lt_of_no_level (h : depth.toNat + 0 = limit.toNat) : ¬ depth < limit := fun room ↦
  (BitVec.lt_def.1 room).ne h

/-- With a level left, the counter is below the limit, and when it has gone up there is one level
less. -/
theorem lt_of_level {levels : Nat} (h : depth.toNat + (levels + 1) = limit.toNat) :
    depth < limit ∧ (depth + 1).toNat + levels = limit.toNat := by
  have room : depth < limit := BitVec.lt_def.2 (by omega)
  rw [(toNat_add_one_of_lt room).2]
  exact ⟨room, by omega⟩

/-- What was added below a limit is taken off again without an underflow. -/
theorem lower_add_one_of_lt (h : depth < limit) :
    lower (depth + 1) callers task = ⟨depth, callers, task⟩ := by
  have enough : ¬ (depth + 1).usubOverflow 1 := by
    have one : (1 : BitVec width).toNat ≤ 1 := Nat.mod_le 1 (2 ^ width)
    simp only [BitVec.usubOverflow, (toNat_add_one_of_lt h).2, decide_eq_true_eq]
    omega
  rw [lower, if_neg enough, BitVec.add_sub_cancel]

end CallState

/-! ### The steps of the machine -/

/-- What stays fixed while the machine runs: the limit on nesting, which is a word, and the offset
at which the text ends. -/
structure Machine (width : Nat) where
  limit : BitVec width
  stop : Nat

namespace Machine

variable {width : Nat} (m : Machine width)

/-- What stays fixed, as the readers are given it. -/
def frame : Frame := ⟨⟨m.limit.toNat⟩, m.stop⟩

/-- One step of reading an expression. The machine stops when no call waits for what came back. -/
def step : CallState width → Option (CallState width)
  | ⟨depth, callers, .call floor tokens⟩ =>
    if depth < m.limit then some (.raise depth callers (.operand floor tokens))
    else some ⟨depth, callers, .returned (.error (m.frame.tooDeep tokens tokens))⟩
  | ⟨depth, callers, .operand floor tokens⟩ =>
    match wrappingAt? tokens with
    | some (w, rest) => some ⟨depth, .operand floor w :: callers, .call w.floor rest⟩
    | none => some ⟨depth, callers, .afterOperand floor depth (m.frame.readLeaf tokens)⟩
  | ⟨depth, callers, .extend floor entry left⟩ =>
    match binaryAt? floor left.rest with
    | some (op, rest) =>
      if depth < m.limit then
        some (.raise depth (.right floor entry left op :: callers) (.call op.rightFloor rest))
      else some ⟨entry, callers, .leave (.error (m.frame.tooDeep left.rest left.stand))⟩
    | none => some ⟨entry, callers, .leave (.ok left)⟩
  | ⟨depth, callers, .leave outcome⟩ => some (.lower depth callers (.returned outcome))
  | ⟨depth, .operand floor w :: callers, .returned outcome⟩ =>
    some ⟨depth, callers, .afterOperand floor depth (m.frame.wrap w outcome)⟩
  | ⟨depth, .right floor entry left op :: callers, .returned (.ok right)⟩ =>
    some ⟨depth, callers, .extend floor entry (right.map (.binary op left.value))⟩
  | ⟨_, .right _ entry _ _ :: callers, .returned (.error e)⟩ =>
    some ⟨entry, callers, .leave (.error e)⟩
  | ⟨_, [], .returned _⟩ => none
  | ⟨_, _, .overflow⟩ => none
  | ⟨_, _, .underflow⟩ => none

section Step

variable {m} {depth : BitVec width} {callers : List (Caller width)} {floor : Precedence}
  {tokens rest : List Token}

/-- Below the limit a call opens and takes a level. -/
theorem step_call_of_lt (h : depth < m.limit) :
    m.step ⟨depth, callers, .call floor tokens⟩ =
      some ⟨depth + 1, callers, .operand floor tokens⟩ := by
  rw [step, if_pos h, CallState.raise_of_lt h]

/-- At the limit a call is refused. -/
theorem step_call_of_not_lt (h : ¬ depth < m.limit) :
    m.step ⟨depth, callers, .call floor tokens⟩ =
      some ⟨depth, callers, .returned (.error (m.frame.tooDeep tokens tokens))⟩ := by
  rw [step, if_neg h]

/-- An operand with an inner expression calls for that. -/
theorem step_operand_of_eq_some {w : Wrapping} (h : wrappingAt? tokens = some (w, rest)) :
    m.step ⟨depth, callers, .operand floor tokens⟩ =
      some ⟨depth, .operand floor w :: callers, .call w.floor rest⟩ := by
  rw [step, h]

/-- An operand without an inner expression is read at once. -/
theorem step_operand_of_eq_none (h : wrappingAt? tokens = none) :
    m.step ⟨depth, callers, .operand floor tokens⟩ =
      some ⟨depth, callers, .afterOperand floor depth (m.frame.readLeaf tokens)⟩ := by
  rw [step, h]

variable {entry : BitVec width} {left : Parsed Expr} {op : Operator}

/-- Below the limit an operator extends a phrase and takes a level. -/
theorem step_extend_of_lt (h : binaryAt? floor left.rest = some (op, rest))
    (hd : depth < m.limit) :
    m.step ⟨depth, callers, .extend floor entry left⟩ =
      some ⟨depth + 1, .right floor entry left op :: callers,
        .call op.rightFloor rest⟩ := by
  simp only [step, h, if_pos hd, CallState.raise_of_lt hd]

/-- At the limit an operator is refused. -/
theorem step_extend_of_not_lt (h : binaryAt? floor left.rest = some (op, rest))
    (hd : ¬ depth < m.limit) :
    m.step ⟨depth, callers, .extend floor entry left⟩ =
      some ⟨entry, callers, .leave (.error (m.frame.tooDeep left.rest left.stand))⟩ := by
  simp only [step, h, if_neg hd]

/-- Without an operator the loop ends. -/
theorem step_extend_of_eq_none (h : binaryAt? floor left.rest = none) :
    m.step ⟨depth, callers, .extend floor entry left⟩ =
      some ⟨entry, callers, .leave (.ok left)⟩ := by
  simp only [step, h]

/-- A call that is over gives back the level that it took. -/
theorem step_leave (h : depth < m.limit) (outcome : Reading Expr) :
    m.step ⟨depth + 1, callers, .leave outcome⟩ =
      some ⟨depth, callers, .returned outcome⟩ := by
  rw [step, CallState.lower_add_one_of_lt h]

end Step

/-! ### Runs above the calls that wait -/

/-- A step that is taken while `callers` wait for a call that is not over. -/
structure StepAbove (callers : List (Caller width)) (s t : CallState width) : Prop where
  step_eq : m.step s = some t
  callers_suffix : callers <:+ s.callers
  not_returned : ¬ s.HasReturned callers

/-- Some such steps, one after the other. -/
def Runs (callers : List (Caller width)) : CallState width → CallState width → Prop :=
  ReflTransGen (m.StepAbove callers)

/-- The call that is due in `s` is over in `t`, and in no state before. -/
def Returns (s t : CallState width) : Prop :=
  m.Runs s.callers s t ∧ t.HasReturned s.callers

variable {m} {callers : List (Caller width)} {s t : CallState width}

/-- A step with no more calls waiting is taken above them, unless their call is over. -/
theorem stepAbove_here {depth : BitVec width} {task : Task width}
    (h : m.step ⟨depth, callers, task⟩ = some t) (ht : task.isReturned = false) :
    m.StepAbove callers ⟨depth, callers, task⟩ t := by
  refine ⟨h, List.suffix_refl _, ?_⟩
  rintro ⟨-, outcome, rfl⟩
  cases ht

/-- With another call waiting, every step is taken above the first ones. -/
theorem stepAbove_cons {depth : BitVec width} {c : Caller width} {task : Task width}
    (h : m.step ⟨depth, c :: callers, task⟩ = some t) :
    m.StepAbove callers ⟨depth, c :: callers, task⟩ t :=
  ⟨h, List.suffix_cons c callers, fun returned ↦ List.cons_ne_self c callers returned.1⟩

/-- What runs above another call runs above those below that. -/
theorem Runs.of_cons {c : Caller width} (h : m.Runs (c :: callers) s t) : m.Runs callers s t := by
  refine ReflTransGen.mono (fun u v above ↦ ⟨above.step_eq, ?_, fun returned ↦ ?_⟩) _ _ h
  · exact (List.suffix_cons c callers).trans above.callers_suffix
  · have shorter := above.callers_suffix.length_le
    rw [returned.1, List.length_cons] at shorter
    omega

/-- What runs above some calls is reached. -/
theorem Runs.reaches (h : m.Runs callers s t) : Reaches m.step s t :=
  ReflTransGen.mono (fun _ _ above ↦ above.step_eq) _ _ h

/-- A call is over in one state only. -/
theorem Returns.unique {u : CallState width} (ht : m.Returns s t) (hu : m.Returns s u) : t = u := by
  have forward : ∀ {v w}, m.Runs s.callers v w → v.HasReturned s.callers → w = v := by
    intro v w run returned
    rcases ReflTransGen.cases_head run with rfl | ⟨x, above, -⟩
    · rfl
    · exact absurd returned above.not_returned
  have one_way : Relator.RightUnique (m.StepAbove s.callers) := fun _ _ _ h h' ↦
    Option.some.inj (h.step_eq.symm.trans h'.step_eq)
  rcases ReflTransGen.total_of_right_unique one_way ht.1 hu.1 with run | run
  · exact (forward run ht.2).symm
  · exact forward run hu.2

/-! ### The machine reads what the readers read -/

section Simulation

open CallState

variable (m) {depth : BitVec width} {levels : Nat}

/-- An operand is read as the readers read it, if the call for its inner expression is. -/
theorem runs_operand (reads : ∀ callers floor tokens,
      m.Runs callers ⟨depth, callers, .call floor tokens⟩
        ⟨depth, callers, .returned (m.frame.readExpression levels floor tokens)⟩)
    (callers : List (Caller width)) (floor : Precedence) (tokens : List Token) :
    m.Runs callers ⟨depth, callers, .operand floor tokens⟩
      ⟨depth, callers, .afterOperand floor depth
        (m.frame.readOperand (m.frame.readExpression levels) tokens)⟩ := by
  rcases h : wrappingAt? tokens with - | ⟨w, rest⟩
  · rw [Frame.readOperand_of_wrappingAt?_eq_none h]
    exact .single (stepAbove_here (step_operand_of_eq_none h) rfl)
  · rw [Frame.readOperand_of_wrappingAt?_eq_some h]
    have called : m.StepAbove callers ⟨depth, callers, .operand floor tokens⟩
        ⟨depth, .operand floor w :: callers, .call w.floor rest⟩ :=
      stepAbove_here (step_operand_of_eq_some h) rfl
    have inside := (reads (.operand floor w :: callers) w.floor rest).of_cons
    exact (ReflTransGen.head called inside).tail (stepAbove_cons rfl)

/-- **A call reads what `readExpression` reads** with the levels between the counter and the limit,
and its loop what `extend` reads. The call leaves the counter as it was, and the loop sets it to
what it was in front of the first operator. -/
theorem runs_call (levels : Nat) :
    (∀ (depth : BitVec width) callers floor tokens, depth.toNat + levels = m.limit.toNat →
      m.Runs callers ⟨depth, callers, .call floor tokens⟩
        ⟨depth, callers, .returned (m.frame.readExpression levels floor tokens)⟩) ∧
    ∀ (depth entry : BitVec width) callers floor left, depth.toNat + levels = m.limit.toNat →
      m.Runs callers ⟨depth, callers, .extend floor entry left⟩
        ⟨entry, callers, .leave (m.frame.extend levels floor left)⟩ := by
  induction levels with
  | zero =>
    constructor
    · intro depth callers floor tokens hd
      have full := not_lt_of_no_level hd
      rw [Frame.readExpression]
      exact .single (stepAbove_here (step_call_of_not_lt full) rfl)
    · intro depth entry callers floor left hd
      rcases hop : binaryAt? floor left.rest with - | ⟨op, rest⟩
      · rw [Frame.extend_of_binaryAt?_eq_none _ hop]
        exact .single (stepAbove_here (step_extend_of_eq_none hop) rfl)
      · have full := not_lt_of_no_level hd
        rw [Frame.extend, hop]
        exact .single (stepAbove_here (step_extend_of_not_lt hop full) rfl)
  | succ levels ih =>
    obtain ⟨calls, loops⟩ := ih
    constructor
    · intro depth callers floor tokens hd
      obtain ⟨room, spent⟩ := lt_of_level hd
      have opened : m.StepAbove callers ⟨depth, callers, .call floor tokens⟩
          ⟨depth + 1, callers, .operand floor tokens⟩ :=
        stepAbove_here (step_call_of_lt room) rfl
      have operand := m.runs_operand (fun callers floor tokens ↦ calls _ callers floor tokens spent)
        callers floor tokens
      have closed : ∀ outcome, m.StepAbove callers ⟨depth + 1, callers, .leave outcome⟩
          ⟨depth, callers, .returned outcome⟩ :=
        fun outcome ↦ stepAbove_here (step_leave room outcome) rfl
      refine .head opened (operand.trans ?_)
      rw [Frame.readExpression]
      rcases m.frame.readOperand (m.frame.readExpression levels) tokens with e | left
      · exact .single (closed _)
      · exact (loops _ _ callers floor left spent).tail (closed _)
    · intro depth entry callers floor left hd
      rcases hop : binaryAt? floor left.rest with - | ⟨op, rest⟩
      · rw [Frame.extend_of_binaryAt?_eq_none _ hop]
        exact .single (stepAbove_here (step_extend_of_eq_none hop) rfl)
      obtain ⟨room, spent⟩ := lt_of_level hd
      have passed : m.StepAbove callers ⟨depth, callers, .extend floor entry left⟩
          ⟨depth + 1, .right floor entry left op :: callers, .call op.rightFloor rest⟩ :=
        stepAbove_here (step_extend_of_lt hop room) rfl
      have operand := calls _ (.right floor entry left op :: callers) op.rightFloor rest spent
      refine .head passed (operand.of_cons.trans ?_)
      -- The counter comes back one above what it was here, and the loop goes on from there.
      simp only [Frame.extend, hop]
      rcases m.frame.readExpression levels op.rightFloor rest with e | right
      · exact .single (stepAbove_cons rfl)
      · exact .head (stepAbove_cons rfl) (loops _ _ callers floor _ spent)

/-- A call that is made below the limit returns what `readExpression` reads with the levels that
are left, and nothing else, and the counter and the calls that wait are as they were. -/
theorem returns_call_iff (h : depth ≤ m.limit) (callers : List (Caller width))
    (floor : Precedence) (tokens : List Token) (t : CallState width) :
    m.Returns ⟨depth, callers, .call floor tokens⟩ t ↔
      t = ⟨depth, callers, .returned
        (m.frame.readExpression (m.limit.toNat - depth.toNat) floor tokens)⟩ := by
  have run := (m.runs_call (m.limit.toNat - depth.toNat)).1 depth callers floor tokens
    (Nat.add_sub_cancel' (BitVec.le_def.1 h))
  constructor
  · exact fun ht ↦ ht.unique ⟨run, rfl, _, rfl⟩
  · rintro rfl
    exact ⟨run, rfl, _, rfl⟩

end Simulation

end Machine

end MonkeyLang
