import CodeReview.Failure
/-!
# Time budgets

A deadline is a budget of seconds, a clock, and the time at which the budget is spent: the clock's first
reading and the budget. A clock is the sequence of its readings, which need not increase; each look takes
the next one. Long computations look at the clock at every `pollInterval`-th step only.
-/
namespace CodeReview.Syntax

open Number (Quantity)

/-- How many steps a computation takes between two looks at the clock. -/
def pollInterval : Nat := 512

/-- A time budget that has begun. -/
structure Deadline where
  budget : Quantity
  expiresAt : Quantity
  clock : Nat → Quantity
  /-- How many readings have been taken. -/
  looks : Nat

/-- The failure of a time budget that is spent; a budget that is no double cannot be told. -/
def spentFailure (budget : Quantity) : Failure :=
  match budget.toFloat? with
  | some _ => .timeout budget
  | none => .hugeInteger

namespace Deadline

/-- Begins a time budget with the first reading of a clock; the two must have a sum. -/
def start (budget : Quantity) (clock : Nat → Quantity) : Except Failure Deadline :=
  match (clock 0).add budget with
  | some expiresAt => .ok ⟨budget, expiresAt, clock, 1⟩
  | none => .error .hugeInteger

/-- Takes the next reading: whether the budget is spent. -/
def look (d : Deadline) : Bool × Deadline :=
  (d.expiresAt.atMost (d.clock d.looks), { d with looks := d.looks + 1 })

def check (d : Deadline) : Option Failure × Deadline :=
  let (spent, d) := d.look
  (if spent then some (spentFailure d.budget) else none, d)

/-- What happens after the given number of steps: a look at the clock, if the number is a multiple of
the interval and there is a budget. -/
def poll (steps : Nat) : Option Deadline → Option Failure × Option Deadline
  | none => (none, none)
  | some d =>
    if steps % pollInterval == 0 then
      let (failure, d) := d.check
      (failure, some d)
    else (none, some d)

/-- A clock that shows the readings of a list, and the last one from then on. -/
def clockOf (readings : List Quantity) (i : Nat) : Quantity :=
  readings.getD i (readings.getLast?.getD (.decimal 0.0))

end Deadline
end CodeReview.Syntax
