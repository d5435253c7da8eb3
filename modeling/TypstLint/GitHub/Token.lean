import TypstLint.Json.Decode
import TypstLint.Text.Timestamp

set_option autoImplicit false

/-! # Access tokens

An app proves who it is by `Claims` that it signs with its key, and gets for them an `InstallationToken`
for one of its installations. How a claim is signed is part of the `Credentials`, so nothing here depends
on the form of keys. A token itself is never shown (`InstallationToken.masked`). -/

namespace TypstLint.GitHub

/-- A token for an installation. -/
structure InstallationToken where
  token : String
  expires : Text.Timestamp
  deriving DecidableEq, Repr

/-- Decodes a time stamp. -/
def decodeTimestamp : Json.Decoder Text.Timestamp := fun v =>
  let found := match v with
    | .str s => Text.Timestamp.read? s
    | .int n => Text.Timestamp.ofInt? n
    | .real x => Text.Timestamp.ofReal? x
    | _ => none
  match found with
  | some t => .valid t
  | none => .mistake

/-- Decodes a token. -/
def InstallationToken.decoder : Json.Decoder InstallationToken :=
  Json.object fun ms =>
    InstallationToken.mk <$> ms.required "token" Json.text <*> ms.required "expires_at" decodeTimestamp

/-- What is shown of a token: whether it is empty. -/
def InstallationToken.masked (t : InstallationToken) : String :=
  if t.token.isEmpty then "" else "**********"

/-- A token as a value, with what is shown of it. -/
def InstallationToken.toValue (t : InstallationToken) : Json.Value :=
  .obj [("token", .str t.token), ("shown", .str t.masked), ("expires_at", .str t.expires.render)]

/-! ## Identity of the app -/

/-- The claim of an app to be itself: since when and until when it holds, in seconds, and who makes
it. -/
structure Claims where
  issuedAt : Int
  expires : Int
  issuer : String
  deriving DecidableEq, Repr

/-- The claim that is made at a time. It is dated back by a minute, and holds for nine minutes. -/
def Claims.make (app now : Int) : Claims := ⟨now - 60, now + 540, toString app⟩

/-- A claim as it is written. -/
def Claims.toValue (c : Claims) : Json.Value :=
  .obj [("iat", .int c.issuedAt), ("exp", .int c.expires), ("iss", .str c.issuer)]

/-- How claims are signed, as it is written. -/
def signingHeader : Json.Value := .obj [("alg", .str "RS256"), ("typ", .str "JWT")]

/-- An app, and its way of signing a claim, which fails if the key cannot be used. -/
structure Credentials where
  app : Int
  sign : Claims → Except String String

/-- The message about a key that cannot be used. -/
def signingMessage (reason : String) : String := s!"Could not sign the GitHub App JWT: {reason}"

end TypstLint.GitHub
