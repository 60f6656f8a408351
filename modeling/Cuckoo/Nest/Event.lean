import Cuckoo.Table.Basic

/-!
# Events

What a table's owner may want to log: how many evictions an insertion took, that an insertion was
given up, and that a merge stopped half-way. An insertion that finds an empty cell at once is not
worth an event.
-/

set_option autoImplicit false

namespace Cuckoo

/-- Something worth logging. -/
inductive Event where
  /-- The `attempt`-th eviction of an insertion was the last one needed. -/
  | relocated (attempt : Nat)
  /-- All evictions that an insertion may make were in vain and have been undone. -/
  | exhausted (attempts : Nat) (load : Load)
  /-- A merge met a fingerprint that has no place. -/
  | mergeStopped (merged remaining : Nat) (load : Load)
  deriving Repr, DecidableEq

namespace Event

/-- How much attention an event deserves. -/
inductive Level where
  | trace
  | debug
  deriving Repr, DecidableEq

def level : Event → Level
  | relocated _ => .trace
  | exhausted _ _ => .debug
  | mergeStopped _ _ _ => .debug

def message : Event → String
  | relocated _ => "relocation succeeded"
  | exhausted _ _ => "relocation exhausted, evictions rolled back"
  | mergeStopped _ _ _ => "merge stopped on a full table"

end Event

def Event.Level.name : Event.Level → String
  | .trace => "TRACE"
  | .debug => "DEBUG"

/-- How an operation that may run out of room ended: whether it did what was asked, what there is
afterwards, and what happened on the way. -/
structure Outcome (α : Type) where
  done : Bool
  state : α
  events : List Event
  deriving Repr

/-- The same outcome, with the state seen differently. -/
def Outcome.map {α β : Type} (f : α → β) (o : Outcome α) : Outcome β :=
  ⟨o.done, f o.state, o.events⟩

end Cuckoo
