import TypstLint.Json.Value
import TypstLint.Text.Encoding
import TypstLint.Text.Numeral
import TypstLint.Text.Percent

set_option autoImplicit false

/-! # The wire

Requests go out one after another, and for each of them an `Outcome` comes back: a response, or the news
that the connection failed. What is still to come back is known to the `Wire` alone, which also keeps
what was sent and the pauses between, so that a run over it tells everything that happened.

The address of a request is brought into the form in which it is sent (`sentUrl`), and the text of a
response is read with the charset that it names (`Response.text`). -/

namespace TypstLint.GitHub

/-- A request. -/
structure Request where
  method : String
  url : String
  headers : List (String × String)
  body : Option Json.Value
  deriving Repr

/-- A response. Its body is what is left when it is decoded in the way that its headers tell. -/
structure Response where
  status : Int
  headers : List (String × String) := []
  body : ByteArray := .empty

/-- What comes back for a request. -/
inductive Outcome where
  | response (r : Response)
  /-- The connection failed. -/
  | broken (message : String)
  /-- A response came whose body cannot be decoded in the way that its headers tell. -/
  | garbled (message : String)

/-- The wire: what is still to come back, what was sent, and the pauses between, in milliseconds. What
was sent and the pauses have the last one first. -/
structure Wire where
  pending : List Outcome
  sent : List Request := []
  pauses : List Nat := []

namespace Wire

/-- Sends a request. Nothing comes back any more when nothing is pending. -/
def send (r : Request) (w : Wire) : Outcome × Wire :=
  match w.pending with
  | [] => (.broken "no more responses", { w with sent := r :: w.sent })
  | next :: rest => (next, { w with pending := rest, sent := r :: w.sent })

/-- Waits for some milliseconds. -/
def pause (delay : Nat) (w : Wire) : Wire := { w with pauses := delay :: w.pauses }

end Wire

/-! ## Responses -/

namespace Response

/-- The value of a header, whose name is given in small letters; several are joined. -/
def header? (r : Response) (name : String) : Option String :=
  let lowered (s : String) : String := String.ofList (s.toList.map Char.toLower)
  match r.headers.filter fun (n, _) => lowered n == name with
  | [] => none
  | found => some (", ".intercalate (found.map Prod.snd))

/-- Whether a response tells of success. -/
def isSuccess (r : Response) : Bool := 200 ≤ r.status && r.status < 300

/-- Whether a response tells that too many requests were made. -/
def isRateLimit (r : Response) : Bool :=
  r.status == 429 || (r.status == 403 && r.header? "x-ratelimit-remaining" == some "0")

/-- For how many seconds a response asks to wait, if it names a number in digits. Digits that have no
place in a decimal numeral make no number: the text in which they stand is at fault. -/
def retryAfter (r : Response) : Except String (Option Nat) :=
  match r.header? "retry-after" with
  | none => .ok none
  | some value =>
    if value.isEmpty || !value.toList.all Text.isDigit then .ok none
    else if value.toList.all fun c => (Text.decimalDigit? c).isSome then
      .ok (some (Text.digitsValue (Text.asciiNumeral value.toList)))
    else .error value

/-- The charset that a response names in its content type, in small letters. -/
def charset? (r : Response) : Option String := do
  let params := (Text.splitOn ';' (← r.header? "content-type").toList).drop 1
  let values := params.filterMap fun param =>
    match Text.cut '=' ((Text.trim param).map Char.toLower) with
    | (name, some value) => if name == "charset".toList then some value else none
    | _ => none
  return String.ofList ((← values.head?).filter (· != '\x22'))

/-- The names of charsets in which each byte is a character: those with 256 characters, and those
with 128. -/
def byteCharsets : List (String × Nat) :=
  [("iso-8859-1", 256), ("iso8859-1", 256), ("latin-1", 256), ("latin1", 256), ("ascii", 128),
   ("us-ascii", 128)]

/-- The text of a response. What cannot be read is replaced. -/
def text (r : Response) : List Char :=
  match r.charset?.bind fun name => byteCharsets.lookup name with
  | some size => r.body.toList.map fun b => if b.toNat < size then Char.ofNat b.toNat else '\ufffd'
  | none => Text.Utf8.decodeLossy r.body

end Response

/-! ## Addresses -/

/-- Adds a component of an address to those before it, last first. -/
def pushSegment (before : List (List Char)) (segment : List Char) : List (List Char) :=
  if segment == ['.'] then before
  else if segment == ['.', '.'] then
    match before with
    | [] | [[]] => before
    | _ :: rest => rest
  else segment :: before

/-- The path of an address without its `.` and `..` components. -/
def plainPath (path : List Char) : List Char :=
  Text.joinWith ['/'] ((Text.splitOn '/' path).foldl pushSegment []).reverse

/-- Splits an address into the name of the host, with what precedes it, and the path. -/
def splitHost (url : List Char) : List Char × List Char :=
  match Text.splitOn '/' url with
  | scheme :: [] :: host :: rest =>
    (Text.joinWith ['/'] [scheme, [], host], rest.flatMap fun s => '/' :: s)
  | _ => ([], url)

/-- The port that is meant by the scheme of a host, as it stands behind the name. -/
def impliedPort (host : List Char) : List Char :=
  if "https:".toList.isPrefixOf host then ":443".toList
  else if "http:".toList.isPrefixOf host then ":80".toList
  else []

/-- The name of a host as it is sent: in small letters, and without the port that its scheme means. -/
def sentHost (host : List Char) : List Char :=
  let host := host.map Char.toLower
  let port := impliedPort host
  if port.isSuffixOf host then host.take (host.length - port.length) else host

/-- Whether `c` stands for itself in every part of an address. -/
def isPlainInUrl (c : Char) : Bool :=
  0x20 < c.toNat && c.toNat < 0x7F && !(['\x22', '<', '>'].contains c)

/-- A part of an address in which some characters do not stand for themselves. -/
def encodePart (special : List Char) (part : List Char) : List Char :=
  (Text.Percent.encodeWith (fun c => isPlainInUrl c && !special.contains c)
    (String.ofList part)).toList

/-- A part of an address behind its mark, if there is such a part. -/
def markedPart (mark : Char) (special : List Char) : Option (List Char) → List Char
  | some part => mark :: encodePart special part
  | none => []

/-- An address as it is sent: its path is made plain, and what may not stand in it is encoded. A query
that is given takes the place of the one in the address. -/
def sentUrl (url : String) (query : Option (List Char)) : String :=
  let (host, rest) := splitHost url.toList
  let (rest, fragment) := Text.cut '#' rest
  let (path, ownQuery) := Text.cut '?' rest
  String.ofList <|
    sentHost host ++ encodePart ['\x60', '\x7b', '\x7d'] (plainPath path)
      ++ markedPart '?' [] (query.or ownQuery) ++ markedPart '#' ['\x60'] fragment

/-- The query of an address, if there are parameters. -/
def queryOf (params : List (String × String)) : Option (List Char) :=
  if params.isEmpty then none
  else
    let parts := params.map fun (name, value) => name ++ "=" ++ Text.Percent.encodeQuery value
    some ("&".intercalate parts).toList

/-- The greatest length of an address. -/
def maxUrlLength : Nat := 65536

/-- Whether a text can be an address: it is not too long, and has no control characters. -/
def isAddress (cs : List Char) : Bool :=
  cs.length ≤ maxUrlLength && cs.all fun c => 0x20 ≤ c.toNat && c.toNat != 0x7F

end TypstLint.GitHub
