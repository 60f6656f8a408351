import Cuckoo.Text.Escape

/-!
# Reports

A report tells a caller what went wrong: of which kind it is, in which words, and with which values.
There are three layouts of a report: one line for people, several lines for a log, and a nested one
that quotes every text.
-/

set_option autoImplicit false

namespace Cuckoo

/-- What a report is about. -/
inductive Report.Kind where
  /-- An argument is out of its range, or two filters cannot be combined. -/
  | invalidArgument
  /-- The bytes of a filter are malformed. -/
  | invalidData
  deriving Repr, DecidableEq

def Report.Kind.name : Report.Kind → String
  | .invalidArgument => "InvalidArgument"
  | .invalidData => "InvalidData"

/-- What went wrong, in words. -/
structure Report where
  kind : Report.Kind
  message : String
  /-- Named values, in the order in which they were added. -/
  context : List (String × String)
  deriving Repr, DecidableEq

namespace Report

/-- One line: the kind, the context if there is any, the message if there is one. -/
def display (r : Report) : String :=
  let values := r.context.map fun (key, value) => s!"{key}: {value}"
  let context :=
    if r.context.isEmpty then "" else ", context: \x7b " ++ ", ".intercalate values ++ " \x7d"
  let message := if r.message.isEmpty then "" else " => " ++ r.message
  r.kind.name ++ context ++ message

/-- Several lines: the kind with the message, then each value on a line of its own. -/
def lines (r : Report) : String :=
  let message := if r.message.isEmpty then "" else " => " ++ r.message
  let values := r.context.map fun (key, value) => s!"   {key}: {value}\n"
  let context := if r.context.isEmpty then "" else "\nContext:\n" ++ String.join values
  r.kind.name ++ message ++ "\n" ++ context

/-- A nested layout with every text quoted. -/
def nested (r : Report) : String :=
  let pair := fun (key, value) =>
    s!"        (\n            {Text.quote key},\n            {Text.quote value},\n        ),\n"
  let context :=
    if r.context.isEmpty then "[]" else "[\n" ++ String.join (r.context.map pair) ++ "    ]"
  "Error \x7b\n" ++ s!"    kind: {r.kind.name},\n    message: {Text.quote r.message},\n" ++
    s!"    context: {context},\n" ++ "\x7d"

end Report

end Cuckoo
