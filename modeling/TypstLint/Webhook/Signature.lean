import TypstLint.Digest.Hmac
import TypstLint.Text.Blank
import TypstLint.Text.Case

set_option autoImplicit false

/-! # Signatures of webhook deliveries

A delivery is signed with the keyed digest of its body (`signatureOf`). The signature is in a header of
its own, or in an older one, which counts only where the newer one is missing (`signatureHeaders`).
`verify` refuses a delivery with a `SignatureError`. -/

namespace TypstLint.Webhook

/-- Why a delivery is refused. -/
inductive SignatureError where
  | noSecret
  | malformed (header : String)
  | mismatch
  | unsigned
  /-- The signature has characters outside ASCII, which cannot be compared. -/
  | notAscii
  deriving DecidableEq, Repr

/-- The wording of an error. -/
def SignatureError.message : SignatureError → String
  | noSecret => "No webhook secret is configured"
  | malformed header => s!"Malformed {header} header"
  | mismatch => "Webhook signature does not match"
  | unsigned => "Webhook delivery is not signed"
  | notAscii => ""

/-- The headers that can hold a signature, the preferred one first. -/
def signatureHeaders : List (String × Digest.Algorithm) :=
  [("x-hub-signature-256", .sha256), ("x-hub-signature", .sha1)]

/-- The value of a header, whose name may be written in any letter case; of several the last one
counts. -/
def header? (headers : List (String × String)) (name : String) : Option String :=
  (headers.reverse.find? fun (n, _) => String.ofList (Text.toLower n.toList) == name).map Prod.snd

/-- The signature of a body, in hexadecimal digits. -/
def signatureOf (alg : Digest.Algorithm) (secret body : ByteArray) : String :=
  Digest.toHex (Digest.hmac alg secret body)

/-- Checks the value of a signature header. -/
def checkSignature (secret body : ByteArray) (header : String) (alg : Digest.Algorithm)
    (value : String) : Except SignatureError Unit :=
  match Text.cut '=' (Text.trim value.toList) with
  | (name, some signature) =>
    if String.ofList name != alg.name || signature.isEmpty then .error (.malformed header)
    else
      let lowered := Text.toLower signature
      if lowered.any (127 < ·.toNat) then .error .notAscii
      else if String.ofList lowered == signatureOf alg secret body then .ok ()
      else .error .mismatch
  | (_, none) => .error (.malformed header)

/-- Checks that a delivery is signed with the secret. -/
def verify (secret body : ByteArray) (headers : List (String × String)) :
    Except SignatureError Unit :=
  if secret.isEmpty then .error .noSecret
  else
    let found := signatureHeaders.findSome? fun (name, alg) =>
      (header? headers name).map fun value => (name, alg, value)
    match found with
    | some (name, alg, value) => checkSignature secret body name alg value
    | none => .error .unsigned

end TypstLint.Webhook
