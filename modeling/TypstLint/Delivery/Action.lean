import TypstLint.Config
import TypstLint.Delivery.Handle

set_option autoImplicit false

/-! # The action

The action handles one delivery, for the commit that its environment names. -/

namespace TypstLint.Delivery

/-- What the action works with. -/
def Service.ofAction (config : ActionConfig) (registry : Registry)
    (sign : GitHub.Claims → Except String String) : Service :=
  { registry, credentials := ⟨config.app, sign⟩ }

/-- What the action does. -/
def action (config : ActionConfig) (registry : Registry)
    (sign : GitHub.Claims → Except String String) : Attempt State :=
  handle (.ofAction config registry sign) config.request

/-- The exit code of the action. -/
def exitCode : Except GitHub.Failure State → Nat
  | .ok .done => 0
  | _ => 1

end TypstLint.Delivery
