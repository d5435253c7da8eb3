import TypstLint.Assoc
import TypstLint.Delivery.Record
import TypstLint.GitHub.Token

set_option autoImplicit false

/-! # Tokens at hand

The tokens of installations are kept until shortly before they expire (`isFresh`, with `margin`). One
lock guards all `Tokens`, so that deliveries for the same installation share one exchange. A token that
turned out to be no longer good is dropped, whatever its end (`drop`). -/

namespace TypstLint.Delivery

open GitHub (InstallationToken)

/-- The tokens of installations. -/
structure Tokens where
  entries : List (Int × InstallationToken) := []
  lock : Lock := {}
  deriving Repr

namespace Tokens

/-- How long before its end a token is no longer used, in microseconds. -/
def margin : Int := 5 * Text.Timestamp.minute

/-- Whether a token is good for use at a time. -/
def isFresh (now : Int) (t : InstallationToken) : Bool := decide (margin < t.expires.toUtc - now)

/-- The token of an installation, if it is good for use. -/
def fresh? (ts : Tokens) (now installation : Int) : Option InstallationToken :=
  (ts.entries.lookup installation).filter (isFresh now)

/-- Keeps the token of an installation. -/
def store (ts : Tokens) (installation : Int) (t : InstallationToken) : Tokens :=
  { ts with entries := Assoc.set ts.entries installation t }

/-- Drops the token of an installation, or all of them. -/
def drop (ts : Tokens) : Option Int → Tokens
  | some installation => { ts with entries := Assoc.erase ts.entries installation }
  | none => { ts with entries := [] }

end Tokens

end TypstLint.Delivery
