/-!
# Broadcast of a current value

A stream holds a current value until it is closed.  Watchers start with the current value and
then see later ones; a watcher that falls behind skips to the latest.  Once the stream is closed
the value is final, and every watcher ends after it has seen it.

## Main definitions

- `ValueStream`: the value, the number of values set before it, and whether the stream is closed
- `Watcher`: what one reader has seen
- `Watcher.next`: one look at the stream: a value, the end, or nothing new yet
-/

namespace Fleet

/-- A current value that can be followed until the stream is closed. -/
structure ValueStream (α : Type) where
  value : α
  version : Nat := 0
  closed : Bool := false
deriving Repr, Inhabited

/-- A reader of a stream. -/
inductive Watcher where
  /-- it has seen the given version, or nothing yet -/
  | following (seen : Option Nat)
  /-- it has seen the final value -/
  | finishing
  /-- it has ended -/
  | ended
deriving DecidableEq, Repr, Inhabited

/-- The outcome of a look at a stream. -/
inductive Look (α : Type) where
  | value (a : α)
  | finished
  | blocked
deriving DecidableEq, Repr

namespace ValueStream

variable {α : Type}

/-- Replace the current value; a closed stream refuses. -/
def set? (s : ValueStream α) (value : α) : Option (ValueStream α) :=
  if s.closed then none else some { s with value := value, version := s.version + 1 }

/-- Make the current value final. -/
def close (s : ValueStream α) : ValueStream α :=
  { s with closed := true }

@[simp] theorem close_value (s : ValueStream α) : s.close.value = s.value := rfl
@[simp] theorem close_version (s : ValueStream α) : s.close.version = s.version := rfl
@[simp] theorem close_closed (s : ValueStream α) : s.close.closed = true := rfl

theorem close_close (s : ValueStream α) : s.close.close = s.close := rfl

theorem set?_of_closed {s : ValueStream α} (h : s.closed = true) (value : α) :
    s.set? value = none := by
  simp [set?, h]

theorem set?_of_open {s : ValueStream α} (h : s.closed = false) (value : α) :
    s.set? value = some { s with value := value, version := s.version + 1 } := by
  simp [set?, h]

end ValueStream

namespace Watcher

variable {α : Type}

/-- A reader that has not looked yet. -/
def start : Watcher := .following none

/-- One look: the current value if it is new, the end if nothing new can come, else nothing yet.
-/
def next (w : Watcher) (s : ValueStream α) : Look α × Watcher :=
  match w with
  | .following seen =>
    if seen == some s.version then
      if s.closed then (.finished, .ended) else (.blocked, w)
    else (.value s.value, if s.closed then .finishing else .following (some s.version))
  | .finishing => (.finished, .ended)
  | .ended => (.finished, .ended)

/-- The values that a new watcher of a closed stream sees. -/
def drain (s : ValueStream α) : List α :=
  match start.next s with
  | (.value a, _) => [a]
  | _ => []

theorem next_ended (s : ValueStream α) : next .ended s = (.finished, .ended) := rfl

/-- A look waits exactly when the stream is open and its current version has been seen. -/
theorem next_blocked_iff {w : Watcher} {s : ValueStream α} :
    (w.next s).1 = .blocked ↔ s.closed = false ∧ w = .following (some s.version) := by
  cases w with
  | following seen =>
    by_cases h : seen = some s.version <;> by_cases hc : s.closed <;> simp [next, h, hc]
  | finishing => simp [next]
  | ended => simp [next]

end Watcher

end Fleet
