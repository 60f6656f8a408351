/-!
# Broken preconditions

An operation that is defined on part of its inputs only, such as reading slot `s` of bucket `b`,
refuses the others with a `Refusal`. **A refusal is not a failure**: a failure (`Failure`) reports
bad data or bad arguments to a caller who is expected to handle it, a refusal reports a caller who
broke the rules of the operation. Every operation that can refuse says so in its type, `Checked`,
so "this run never refuses" is a statement about values.
-/

set_option autoImplicit false

namespace Cuckoo

/-- A precondition that a caller broke, with the offending values. -/
inductive Refusal where
  /-- Fingerprints are between 1 and 32 bits wide. -/
  | fingerprintWidth (width : Nat)
  /-- Load factors are known for buckets of 2, 4 and 8 slots. -/
  | bucketSize (slots : Nat)
  /-- A bit span is between 1 and 64 bits long. -/
  | spanLength
  /-- A bit span ends past the last word. -/
  | spanOutside
  | noBucket (bucket buckets : Nat)
  | noSlot (slot slots : Nat)
  | emptyRange
  deriving Repr, DecidableEq

def Refusal.message : Refusal → String
  | .fingerprintWidth width => s!"fingerprint width must be in 1..=32, got {width}"
  | .bucketSize slots => s!"entries_per_bucket must be 2, 4, or 8, got {slots}"
  | .spanLength => "length must be in 1..=64"
  | .spanOutside => "index out of bounds"
  | .noBucket bucket buckets => s!"bucket {bucket} out of range for {buckets} buckets"
  | .noSlot slot slots => s!"slot {slot} out of range for {slots} slots per bucket"
  | .emptyRange => "cannot sample empty range"

/-- The answer of an operation that refuses some of its inputs. -/
abbrev Checked (α : Type) : Type := Except Refusal α

end Cuckoo
