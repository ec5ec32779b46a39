import MonkeyLang.Proofs.Nesting.Run

/-!
# The counter of open calls

What the counter of the machine tells in each state. Between two statements it is zero. Where a
call is due, it is what the calls that wait account for: one level for each of them, and further
levels for the operators that their loops have passed. So it is at least the number of open calls,
and since it goes up only below the limit it never exceeds that, and never leaves its word.

`CallState.Balanced` says this of a state. A step keeps it (`CallState.Balanced.of_step`), whether
it opens a call, passes an operator, comes back with an expression or with an error, or ends a
loop; so it holds wherever a run comes (`RunState.balanced_of_reaches`). That a call leaves the
counter as it found it is known from its run (`Machine.returns_call_iff`), for which the state only
has to tell that the counter is within the limit.

`parse_keeps_count` puts this together for texts.
-/

namespace MonkeyLang

open Relation StateTransition

/-! ### What the counter tells -/

section Account

variable {width : Nat} {limit depth entry : BitVec width} {callers : List (Caller width)}

/-- The counter is one above a counter below the limit of which something holds. -/
def OneAbove (limit : BitVec width) (holds : BitVec width → Prop) (depth : BitVec width) : Prop :=
  ∃ before, holds before ∧ before < limit ∧ depth = before + 1

/-- Such a counter is within the limit. -/
theorem OneAbove.le {holds : BitVec width → Prop} (h : OneAbove limit holds depth) :
    depth ≤ limit := by
  obtain ⟨before, -, room, rfl⟩ := h
  exact CallState.add_one_le_of_lt room

/-- Such a counter is one more than the other one. -/
theorem OneAbove.exists_toNat_eq {holds : BitVec width → Prop} (h : OneAbove limit holds depth) :
    ∃ before, holds before ∧ depth.toNat = before.toNat + 1 := by
  obtain ⟨before, hb, room, rfl⟩ := h
  exact ⟨before, hb, (CallState.toNat_add_one_of_lt room).2⟩

/-- The calls that wait account for the counter at which the next call is due. One that waits for
the inside of its operand has taken the last level; the loop of one that waits for a right operand
has taken some more since the counter was at `entry`. -/
def Accounts (limit : BitVec width) : List (Caller width) → BitVec width → Prop
  | [], depth => depth = 0
  | .operand _ _ :: callers, depth => OneAbove limit (Accounts limit callers) depth
  | .right _ entry _ _ :: callers, depth =>
    OneAbove limit (Accounts limit callers) entry ∧ entry < depth ∧ depth ≤ limit

/-- A call opened below the limit, and has taken a level on top of those that the calls that wait
account for. -/
def Opened (limit : BitVec width) (callers : List (Caller width)) (depth : BitVec width) : Prop :=
  OneAbove limit (Accounts limit callers) depth

/-- The counter at which a call is due is within the limit, and is at least the number of calls
that wait. -/
theorem Accounts.bounds (h : Accounts limit callers depth) :
    depth ≤ limit ∧ callers.length ≤ depth.toNat := by
  induction callers generalizing depth with
  | nil =>
    obtain rfl : depth = 0 := h
    exact ⟨BitVec.le_def.2 (by simp), Nat.zero_le _⟩
  | cons c callers ih =>
    -- The call at the front has taken a level, and the others account for what was there before.
    have taken : ∀ {d}, Opened limit callers d → callers.length + 1 ≤ d.toNat := by
      intro d opened
      obtain ⟨before, others, up⟩ := opened.exists_toNat_eq
      exact up ▸ Nat.succ_le_succ (ih others).2
    cases c with
    | operand floor w => exact ⟨OneAbove.le h, taken h⟩
    | right floor entry left op =>
      obtain ⟨opened, above, within_limit⟩ := h
      exact ⟨within_limit, (taken opened).trans (BitVec.lt_def.1 above).le⟩

/-- With an open call the counter is at least one more than the number of calls that wait. -/
theorem Opened.length_lt (h : Opened limit callers depth) : callers.length < depth.toNat := by
  obtain ⟨before, others, up⟩ := OneAbove.exists_toNat_eq h
  exact up ▸ Nat.lt_succ_of_le others.bounds.2

namespace CallState

/-- The counter is accounted for. Where a call is due or over, the calls that wait account for it.
An open call has taken a level on top of that, and so many more in its loop that the counter is
still within the limit. -/
def Balanced (limit : BitVec width) : CallState width → Prop
  | ⟨depth, callers, .call _ _⟩ | ⟨depth, callers, .returned _⟩ => Accounts limit callers depth
  | ⟨depth, callers, .operand _ _⟩ | ⟨depth, callers, .leave _⟩ => Opened limit callers depth
  | ⟨depth, callers, .extend _ entry _⟩ =>
    Opened limit callers entry ∧ entry ≤ depth ∧ depth ≤ limit
  | ⟨_, _, .overflow⟩ | ⟨_, _, .underflow⟩ => False

variable {s t : CallState width}

/-- Behind its operand an open call stays accounted for. -/
theorem balanced_afterOperand (h : Opened limit callers depth) (floor : Precedence)
    (r : Reading Expr) : Balanced limit ⟨depth, callers, .afterOperand floor depth r⟩ := by
  rcases r with e | left
  · exact h
  · exact ⟨h, BitVec.le_refl depth, OneAbove.le h⟩

/-- **A step keeps the account**, whether it opens a call or refuses it, passes an operator or
refuses that, ends a loop or a call, or comes back with an expression or an error. -/
theorem Balanced.of_step {m : Machine width} (h : s.Balanced m.limit) (hs : m.step s = some t) :
    t.Balanced m.limit := by
  -- There is one next state, so it is enough to account for the counter of that.
  have of_next : ∀ {u}, m.step s = some u → u.Balanced m.limit → t.Balanced m.limit :=
    fun hu balanced ↦ Option.some.inj (hu.symm.trans hs) ▸ balanced
  obtain ⟨depth, callers, task⟩ := s
  cases task with
  | call floor tokens =>
    by_cases room : depth < m.limit
    · exact of_next (Machine.step_call_of_lt room) ⟨depth, h, room, rfl⟩
    · exact of_next (Machine.step_call_of_not_lt room) h
  | operand floor tokens =>
    rcases hw : wrappingAt? tokens with - | ⟨w, rest⟩
    · exact of_next (Machine.step_operand_of_eq_none hw) (balanced_afterOperand h floor _)
    · exact of_next (Machine.step_operand_of_eq_some hw) h
  | extend floor entry left =>
    obtain ⟨opened, above, within_limit⟩ := h
    rcases hop : binaryAt? floor left.rest with - | ⟨op, rest⟩
    · exact of_next (Machine.step_extend_of_eq_none hop) opened
    by_cases room : depth < m.limit
    · refine of_next (Machine.step_extend_of_lt hop room) ⟨opened, ?_, add_one_le_of_lt room⟩
      exact lt_add_one_of_le above room
    · exact of_next (Machine.step_extend_of_not_lt hop room) opened
  | leave outcome =>
    obtain ⟨before, others, room, rfl⟩ := h
    exact of_next (Machine.step_leave room outcome) others
  | returned outcome =>
    rcases callers with - | ⟨⟨floor, w⟩ | ⟨floor, entry, left, op⟩, callers⟩
    · cases hs
    · exact of_next rfl (balanced_afterOperand h floor _)
    · obtain ⟨opened, above, within_limit⟩ := h
      rcases outcome with e | right
      · exact of_next rfl opened
      · exact of_next rfl ⟨opened, BitVec.le_of_lt above, within_limit⟩
  | overflow => cases h
  | underflow => cases h

/-- Where the counter is accounted for, it is within the limit, is at least the number of open
calls, and has not failed. -/
theorem Balanced.bounds (h : s.Balanced limit) :
    s.depth ≤ limit ∧ s.openCalls ≤ s.depth.toNat ∧ s.task.isFault = false := by
  obtain ⟨depth, callers, task⟩ := s
  cases task with
  | call floor tokens => exact ⟨h.bounds.1, h.bounds.2, rfl⟩
  | returned outcome => exact ⟨h.bounds.1, h.bounds.2, rfl⟩
  | operand floor tokens => exact ⟨OneAbove.le h, Opened.length_lt h, rfl⟩
  | leave outcome => exact ⟨OneAbove.le h, Opened.length_lt h, rfl⟩
  | extend floor entry left =>
    obtain ⟨opened, above, within_limit⟩ := h
    exact ⟨within_limit, opened.length_lt.trans_le (BitVec.le_def.1 above), rfl⟩
  | overflow => cases h
  | underflow => cases h

end CallState

namespace RunState

/-- Between statements the counter is zero, and within one it is accounted for. -/
def Balanced (limit : BitVec width) : RunState width → Prop
  | between depth _ _ => depth = 0
  | within _ _ calls => calls.Balanced limit

variable {s t : RunState width}

/-- Behind a statement that was begun at zero the counter is zero, whether or not it failed. -/
theorem balanced_afterStatement (h : depth = 0) (output : ParseOutput)
    (r : Reading Statement) : (afterStatement depth output r).Balanced limit := by
  rcases r with e | p <;> exact h

/-- **A step of a program keeps the account.** -/
theorem Balanced.of_advance {m : Machine width} (h : s.Balanced m.limit)
    (hs : m.advance s = some t) : t.Balanced m.limit := by
  rcases s with ⟨depth, output, - | ⟨first, more⟩⟩ | ⟨output, o, calls⟩
  · cases hs
  · rw [Machine.advance] at hs
    rcases hread : m.frame.readOpening first more with e | ⟨o, tokens⟩
    · rw [hread] at hs
      obtain rfl := Option.some.inj hs
      exact balanced_afterStatement h output _
    · rw [hread] at hs
      obtain rfl := Option.some.inj hs
      exact h
  · by_cases returned : calls.HasReturned []
    · obtain ⟨depth, callers, task⟩ := calls
      obtain ⟨rfl, outcome, rfl⟩ := returned
      obtain rfl := Option.some.inj hs
      exact balanced_afterStatement h output _
    · rw [Machine.advance_within returned] at hs
      obtain ⟨calls', hstep, rfl⟩ := Option.map_eq_some_iff.1 hs
      exact CallState.Balanced.of_step h hstep

/-- **A run keeps the account.** -/
theorem balanced_of_reaches {m : Machine width} (h : s.Balanced m.limit)
    (run : Reaches m.advance s t) : t.Balanced m.limit := by
  induction run with
  | refl => exact h
  | tail _ hs ih => exact ih.of_advance hs

/-- Where the counter is accounted for, it is within the limit, is at least the number of open
calls, and has not failed. -/
theorem Balanced.bounds (h : s.Balanced limit) :
    s.depth ≤ limit ∧ s.openCalls ≤ s.depth.toNat ∧ s.isFault = false := by
  rcases s with ⟨depth, output, tokens⟩ | ⟨output, o, calls⟩
  · have nothing_open : Accounts limit [] depth := h
    exact ⟨nothing_open.bounds.1, Nat.zero_le _, rfl⟩
  · exact CallState.Balanced.bounds h

end RunState

end Account

namespace Machine

variable {width : Nat} (m : Machine width)

/-- The state after some steps, or the last one if the machine stops before. -/
def after : Nat → RunState width → RunState width
  | 0, s => s
  | n + 1, s =>
    match m.advance s with
    | some t => after n t
    | none => s

/-- What is there after some steps is reached. -/
theorem reaches_after (n : Nat) (s : RunState width) : Reaches m.advance s (m.after n s) := by
  induction n generalizing s with
  | zero => exact .refl
  | succ n ih =>
    rw [after]
    rcases h : m.advance s with - | t
    · exact .refl
    · exact .head h (ih t)

/-- The counter is in order in a state: it and the number of open calls are within the limit, it is
no less than that number, it has not failed, it is zero between statements, and a call that is due
is over in exactly one state, with an expression or with an error, in which the counter is what it
is now. -/
structure KeepsCount (s : RunState width) : Prop where
  depth_le : s.depth ≤ m.limit
  openCalls_le : s.openCalls ≤ m.limit.toNat
  openCalls_le_depth : s.openCalls ≤ s.depth.toNat
  no_fault : s.isFault = false
  between : ∀ depth output tokens, s = .between depth output tokens → depth = 0
  returns : ∀ output o depth callers floor tokens,
    s = .within output o ⟨depth, callers, .call floor tokens⟩ →
      ∀ t, m.Returns ⟨depth, callers, .call floor tokens⟩ t ↔
        t = ⟨depth, callers, .returned
          (m.frame.readExpression (m.limit.toNat - depth.toNat) floor tokens)⟩

variable {m}

/-- Where the counter is accounted for, it is in order. -/
theorem keepsCount_of_balanced {s : RunState width} (h : s.Balanced m.limit) : m.KeepsCount s := by
  obtain ⟨within_limit, enough, sound⟩ := h.bounds
  refine ⟨within_limit, enough.trans (BitVec.le_def.1 within_limit), enough, sound, ?_, ?_⟩
  · rintro depth output tokens rfl
    exact h
  · rintro output o depth callers floor tokens rfl t
    exact m.returns_call_iff within_limit callers floor tokens t

end Machine

/-! ### Texts -/

/-- **Reading keeps count of its levels in a word.** For every source text and every limit that the
word holds, the machine parses the text to its end, and in every state that it comes to the counter
is in order. -/
theorem parse_keeps_count {width : Nat} (limit : BitVec width) (source : String) :
    Reaches (Machine.ofSource limit source).advance (RunState.start width source)
        (.between 0 (parse ⟨limit.toNat⟩ source) []) ∧
      ∀ s, Reaches (Machine.ofSource limit source).advance (RunState.start width source) s →
        (Machine.ofSource limit source).KeepsCount s := by
  constructor
  · exact (Machine.ofSource limit source).reaches_end (Cursor.start source).pending ⟨⟨[]⟩, []⟩
  · intro s run
    have begun : (RunState.start width source).Balanced limit := rfl
    exact Machine.keepsCount_of_balanced (RunState.balanced_of_reaches begun run)

/-- Where a call is refused at a limit of three, behind an operator and a minus sign, two calls are
open and the counter is at the limit. -/
theorem parse_keeps_count_refused :
    ∃ s, Reaches (Machine.ofSource 3#64 "a + -b; c").advance (RunState.start 64 "a + -b; c") s ∧
      s.depth = 3#64 ∧ s.openCalls = 2 ∧ (Machine.ofSource 3#64 "a + -b; c").KeepsCount s := by
  have reached := (Machine.ofSource 3#64 "a + -b; c").reaches_after 6
    (RunState.start 64 "a + -b; c")
  exact ⟨_, reached, by decide +kernel, by decide +kernel,
    (parse_keeps_count 3#64 "a + -b; c").2 _ reached⟩

/-- The counter and the number of open calls from there on: the call for `b` is refused, what was
taken is given back, and the next statement begins at zero. -/
example :
    ((List.range 8).map fun n ↦
      let s := (Machine.ofSource 3#64 "a + -b; c").after (6 + n) (RunState.start 64 "a + -b; c")
      (s.depth.toNat, s.openCalls)) =
    [(3, 2), (3, 2), (3, 2), (2, 1), (1, 1), (0, 0), (0, 0), (0, 0)] := by
  decide +kernel

end MonkeyLang
