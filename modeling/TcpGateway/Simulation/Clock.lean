/-!
# Simulated time

Parts that run side by side under one clock.  The clock stands still while any part can take a
step, and then moves to the earliest time that a part is waiting for.  Nothing that is due at one
time is left over for a later one.
-/

namespace TcpGateway

/-- Parts that run side by side, seen as one system. -/
structure Timed (σ : Type) where
  /-- A step that some part can take at a time. -/
  step : Nat → σ → Option σ
  /-- The times that parts are waiting for. -/
  alarms : σ → List Nat
  /-- The most steps to take at one time, generously more than there are. -/
  work : σ → Nat

namespace Timed

variable {σ : Type}

/-- Takes steps at time `now` until none is possible, but at most `bound`. -/
def run (m : Timed σ) (now : Nat) : Nat → σ → σ
  | 0, s => s
  | bound + 1, s =>
    match m.step now s with
    | none => s
    | some s => m.run now bound s

/-- Lets everything happen that is due at time `now`. -/
def settle (m : Timed σ) (now : Nat) (s : σ) : σ := m.run now (m.work s) s

/-- The earliest alarm after `now`, or `limit` if there is none before. -/
def nextAlarm (now limit : Nat) (alarms : List Nat) : Nat :=
  alarms.foldl (fun earliest t => if now < t then min earliest t else earliest) limit

theorem lt_nextAlarm {now limit : Nat} (alarms : List Nat) (h : now < limit) :
    now < nextAlarm now limit alarms := by
  induction alarms generalizing limit with
  | nil => exact h
  | cons t rest ih =>
    simp only [nextAlarm, List.foldl_cons]
    apply ih
    split <;> omega

/-- Lets the clock run from `now` to `limit`. -/
def advance (m : Timed σ) (now limit : Nat) (s : σ) : σ :=
  let s := m.settle now s
  if now < limit then m.advance (nextAlarm now limit (m.alarms s)) limit s else s
termination_by limit - now
decreasing_by exact Nat.sub_lt_sub_left ‹now < limit› (lt_nextAlarm _ ‹now < limit›)

end Timed

end TcpGateway
