import TypstLint.Delivery.Record
import TypstLint.Log.Record
import TypstLint.Webhook.Event

set_option autoImplicit false

/-! # Notices about deliveries

Each step of a delivery is put on record, so that it can be followed from receipt to its end. A `Notice`
has what all of them tell, and `toRecord` makes a log record of it. -/

namespace TypstLint.Delivery

/-- A notice about a delivery. -/
structure Notice where
  request : CheckRequest
  state : State
  message : String
  package : Option String := none
  checkRun : Option Int := none
  conclusion : Option String := none
  reason : Option String := none
  error : Option String := none
  deriving DecidableEq, Repr

namespace Notice

/-- The level of a notice. -/
def level (n : Notice) : Log.Level :=
  match n.state with
  | .failed => .warning
  | _ => .info

/-- The fields of a notice; those without a value are left out, except for the delivery's number. -/
def fields (n : Notice) : List (String × Json.Value) :=
  let text (name : String) (value : Option String) : List (String × Json.Value) :=
    (value.map fun s => (name, .str s)).toList
  [("event", .str n.request.event), ("delivery", .ofText? n.request.delivery),
    ("repository", .str n.request.repository.fullName), ("sha", .str n.request.headSha),
    ("state", .str n.state.name)]
    ++ text "package" n.package
    ++ (n.checkRun.map fun run => ("check_run", .int run)).toList
    ++ text "conclusion" n.conclusion ++ text "reason" n.reason ++ text "error" n.error

/-- A notice as a log record. -/
def toRecord (n : Notice) : Log.Record := ⟨Log.deliveryLogger, n.level, n.message, n.fields⟩

end Notice

end TypstLint.Delivery
