import Cuckoo.Placement.ParityOffset
import Cuckoo.Placement.Xor

/-!
# The named placement rules

The rules that a filter can be built with. The ordinal of a scheme is part of the byte format of a
filter, so the order of the schemes is fixed and new ones go to the end.
-/

set_option autoImplicit false

namespace Cuckoo

/-- A placement rule that has a name and an ordinal. -/
inductive Scheme where
  /-- By an odd offset: tables stay close to the wanted size. -/
  | parityOffset
  /-- By exclusive or: the bucket count is a power of two. -/
  | xor
  deriving Repr, DecidableEq

namespace Scheme

def all : List Scheme := [.parityOffset, .xor]

/-- The scheme that is used unless another one is chosen. -/
def standard : Scheme := .parityOffset

def name : Scheme → String
  | .parityOffset => "ParityOffset"
  | .xor => "Xor"

/-- The number by which the byte format names a scheme. -/
def ordinal : Scheme → Int32
  | .parityOffset => 0
  | .xor => 1

def ofOrdinal (ordinal : Int32) : Except Failure Scheme :=
  match all.find? (·.ordinal == ordinal) with
  | some scheme => pure scheme
  | none => throw (.unknownOrdinal ordinal)

def placement : Scheme → Placement
  | .parityOffset => Placement.parityOffset
  | .xor => Placement.xor

end Scheme

end Cuckoo
