import Cuckoo.Filter.Blueprint
import Cuckoo.Filter.Format

/-!
# Filters with names

A pool holds filters under names, and a session with it is a sequence of commands, each with a reply.
Two names are two filters even while their contents are the same, so a filter can be told from its
copy: **a filter cannot be merged into itself**, only into another one.
-/

set_option autoImplicit false

namespace Cuckoo

open Hash

structure Pool where
  filters : List (String × Filter)

namespace Pool

/-- What can be asked of a pool. The first name is that of the filter that a command is about. -/
inductive Command where
  | build (name : String) (blueprint : Blueprint)
  | copy (name source : String)
  /-- Reads a filter from bytes; without a seed, for the usual one. -/
  | decode (name : String) (bytes : List UInt8) (seed : Option UInt64)
  /-- Reads a filter from the bytes of another one. -/
  | reload (name source : String) (seed : Option UInt64)
  | same (name other : String)
  | compatible (name other : String)
  | absorb (name other : String)
  | insert (name : String) (x : Item)
  | contains (name : String) (x : Item)
  | erase (name : String) (x : Item)
  | insertEach (name : String) (xs : List Item)
  | containsEach (name : String) (xs : List Item)
  | eraseEach (name : String) (xs : List Item)
  | insertAll (name : String) (xs : List Item)
  | containsAll (name : String) (xs : List Item)
  | eraseAll (name : String) (xs : List Item)
  | clear (name : String)
  | inspect (name : String)
  | encode (name : String)

/-- What a command answers. -/
inductive Answer where
  | nothing
  | flag (b : Bool)
  | flags (bs : List Bool)
  /-- The filter itself, for its measures. -/
  | filter (f : Filter)
  | bytes (bs : List UInt8)
  | failure (cause : Failure)
  /-- There is no filter of that name. -/
  | unknown (name : String)

/-- An answer, with what was worth logging. -/
structure Reply where
  answer : Answer
  events : List Event

/-- The pool without filters. -/
def empty : Pool := ⟨[]⟩

def get? (p : Pool) (name : String) : Option Filter := p.filters.lookup name

/-- Gives a name to a filter, in place of the one that had it. -/
def set (p : Pool) (name : String) (f : Filter) : Pool :=
  ⟨(name, f) :: p.filters.filter fun entry => entry.1 != name⟩

/-- Can the filter of one name be merged into that of the other? They have to be two filters. -/
def compatible (name other : String) (f g : Filter) : Bool := name != other && f.agrees g

def answer (p : Pool) (a : Answer) : Checked (Reply × Pool) := pure (⟨a, []⟩, p)

/-- Runs a step on the filter of a name. -/
def withFilter (p : Pool) (name : String) (step : Filter → Checked (Reply × Pool)) :
    Checked (Reply × Pool) :=
  match p.get? name with
  | some f => step f
  | none => p.answer (.unknown name)

/-- Gives a name to a filter that was made, and shows it. -/
def store (p : Pool) (name : String) : Except Failure Filter → Checked (Reply × Pool)
  | .ok f => (p.set name f).answer (.filter f)
  | .error cause => p.answer (.failure cause)

/-- Gives a name to the state of an outcome and answers whether it was done. -/
def settle (p : Pool) (name : String) (o : Outcome Filter) : Checked (Reply × Pool) :=
  pure (⟨.flag o.done, o.events⟩, p.set name o.state)

/-- Carries out a command. A failed command changes nothing. -/
def step (p : Pool) : Command → Checked (Reply × Pool)
  | .build name blueprint => p.store name blueprint.build
  | .copy name source => p.withFilter source fun f => p.store name (.ok f)
  | .decode name bytes seed => p.store name (Filter.decode bytes (seed.getD defaultSeed))
  | .reload name source seed => p.withFilter source fun f =>
    p.store name (Filter.decode f.encode (seed.getD defaultSeed))
  | .same name other => p.withFilter name fun f => p.withFilter other fun g =>
    p.answer (.flag (f == g))
  | .compatible name other => p.withFilter name fun f => p.withFilter other fun g =>
    p.answer (.flag (compatible name other f g))
  | .absorb name other => p.withFilter name fun f => p.withFilter other fun g => do
    if name = other then p.answer (.failure (.incompatible f.describe g.describe))
    else
      match ← f.absorb g with
      | .ok outcome => p.settle name outcome
      | .error cause => p.answer (.failure cause)
  | .insert name x => p.withFilter name fun f => do p.settle name (← f.insert x)
  | .contains name x => p.withFilter name fun f => do p.answer (.flag (← f.contains x))
  | .erase name x => p.withFilter name fun f => do
    let (found, f) ← f.erase x
    (p.set name f).answer (.flag found)
  | .insertEach name xs => p.withFilter name fun f => do
    let (flags, outcome) ← f.insertEach xs
    pure (⟨.flags flags, outcome.events⟩, p.set name outcome.state)
  | .containsEach name xs => p.withFilter name fun f => do p.answer (.flags (← f.containsEach xs))
  | .eraseEach name xs => p.withFilter name fun f => do
    let (flags, f) ← f.eraseEach xs
    (p.set name f).answer (.flags flags)
  | .insertAll name xs => p.withFilter name fun f => do p.settle name (← f.insertAll xs)
  | .containsAll name xs => p.withFilter name fun f => do p.answer (.flag (← f.containsAll xs))
  | .eraseAll name xs => p.withFilter name fun f => do
    let (found, f) ← f.eraseAll xs
    (p.set name f).answer (.flag found)
  | .clear name => p.withFilter name fun f => (p.set name f.clear).answer .nothing
  | .inspect name => p.withFilter name fun f => p.answer (.filter f)
  | .encode name => p.withFilter name fun f => p.answer (.bytes f.encode)

def run (p : Pool) : List Command → Checked (List Reply × Pool)
  | [] => pure ([], p)
  | command :: commands => do
    let (reply, p) ← p.step command
    let (replies, p) ← p.run commands
    pure (reply :: replies, p)

end Pool

end Cuckoo
