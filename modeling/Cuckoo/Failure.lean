import Cuckoo.Decimal.Layout
import Cuckoo.Report

/-!
# Causes of failure

Everything that can go wrong with arguments and with bytes that are read back, as causes with the
values that matter; `Failure.report` is the one place where they get their words.

Bytes are checked with the same rules as arguments. A rule broken by bytes is the cause
`Failure.inData`: it keeps the words, drops the values, and counts as malformed data.
-/

set_option autoImplicit false

namespace Cuckoo

/-- Least false positive rate that a filter can be built for. -/
def minRate : Float := 8.673617379884035e-19

/-- The number fields in front of the words of a filter's byte format, in order. -/
inductive HeaderField where
  | ordinal
  | buckets
  | slots
  | bits
  | count
  | words
  deriving Repr, DecidableEq

def HeaderField.name : HeaderField → String
  | .ordinal => "strategy_ordinal"
  | .buckets => "num_buckets"
  | .slots => "slots_per_bucket"
  | .bits => "bits_per_entry"
  | .count => "count"
  | .words => "word_count"

/-- Why something could not be done. -/
inductive Failure where
  | noInsertions
  | rateOutOfRange (rate : Float)
  /-- The false positive rate is below the least supported one. -/
  | rateTooSmall (rate : Float)
  /-- The wanted accuracy needs wider fingerprints than a slot can hold. -/
  | fingerprintTooWide (bits : Nat) (rate : Float) (slots : Nat)
  | noBuckets
  | tooFewSlots (slots : Nat)
  | badEntryWidth (bits : Nat)
  /-- The table has more bits than can be addressed. -/
  | tooLarge (buckets slots bits : Nat)
  | notPowerOfTwo (buckets : UInt64)
  | notPositiveEven (buckets : UInt64)
  /-- No power of two that is large enough is acceptable. -/
  | noPowerOfTwo (buckets : UInt64)
  | noEvenCount (buckets : UInt64)
  | bucketOutOfRange (bucket buckets : UInt64)
  /-- The filters differ in one of the described settings. -/
  | incompatible (self other : String)
  | unknownOrdinal (ordinal : Int32)
  /-- The bytes end before the field does. -/
  | truncated (field : HeaderField)
  | truncatedWords (expected left : Nat)
  | negative (field : HeaderField) (value : Int)
  | wordCount (expected actual : Nat)
  | entryCount (expected actual : Nat)
  /-- A rule for arguments is broken by bytes. -/
  | inData (cause : Failure)

namespace Failure

open Decimal

/-- The report of an argument out of range. -/
def argument (message : String) (context : List (String × String)) : Report :=
  ⟨.invalidArgument, message, context⟩

/-- The report of malformed bytes. -/
def data (message : String) (context : List (String × String)) : Report :=
  ⟨.invalidData, message, context⟩

def report : Failure → Report
  | noInsertions => argument "expected_insertions must be greater than 0" []
  | rateOutOfRange rate =>
    argument s!"fpp must be between 0.0 and 1.0 (exclusive), got {positional rate}" []
  | rateTooSmall rate =>
    argument s!"cannot create a cuckoo filter with fpp {scientific rate} < MIN_FPP {scientific minRate}"
      []
  | fingerprintTooWide bits rate slots =>
    argument s!"fingerprints would need {bits} bits, more than 64"
      [("fpp", positional rate), ("entries_per_bucket", s!"{slots}")]
  | noBuckets => argument "num_buckets must be at least 1" []
  | tooFewSlots slots => argument s!"slots_per_bucket must be at least 2, got {slots}" []
  | badEntryWidth bits => argument s!"bits_per_entry must be in 1..=64, got {bits}" []
  | tooLarge buckets slots bits =>
    argument "table dimensions are too large to address"
      [("num_buckets", s!"{buckets}"), ("slots_per_bucket", s!"{slots}"),
        ("bits_per_entry", s!"{bits}")]
  | notPowerOfTwo buckets =>
    argument s!"xor indexing needs a power-of-two bucket count, got {buckets}" []
  | notPositiveEven buckets =>
    argument s!"parity-offset indexing needs a positive even bucket count, got {buckets}" []
  | noPowerOfTwo buckets =>
    argument s!"{buckets} buckets cannot be rounded to a power of two" []
  | noEvenCount buckets => argument s!"{buckets} buckets cannot be rounded to an even count" []
  | bucketOutOfRange bucket buckets =>
    argument s!"index {bucket} is out of range for {buckets} buckets" []
  | incompatible self other =>
    argument "cuckoo filters are not compatible" [("self", self), ("other", other)]
  | unknownOrdinal ordinal =>
    data s!"unknown cuckoo strategy ordinal: {ordinal}" [("ordinal", s!"{ordinal}")]
  | truncated field => data s!"insufficient data: {field.name}" []
  | truncatedWords expected left =>
    data s!"insufficient data: words: expected {expected}, only {left} bytes left" []
  | negative field value =>
    data s!"{field.name} must not be negative, got {value}" [("field", field.name)]
  | wordCount expected actual =>
    data "word count does not match table dimensions"
      [("expected", s!"{expected}"), ("actual", s!"{actual}")]
  | entryCount expected actual =>
    data "entry count does not match table contents"
      [("expected", s!"{expected}"), ("actual", s!"{actual}")]
  | inData cause => data cause.report.message []

end Failure

end Cuckoo
