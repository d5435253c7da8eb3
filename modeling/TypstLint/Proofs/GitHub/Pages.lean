import TypstLint.Proofs.GitHub.Bodies

set_option autoImplicit false

/-! # Pages and tries

A request that only reads is made up to three times (`Tries`), and the changed files come page by page. What
is listed is what the pages hold, in order and without gaps: a try that fails is followed by another one for
the same page, a full page by the next one, and a page that is not full, or one for which there is no further
try, by nothing. -/

namespace TypstLint.GitHub

open Client

variable {c : Client} {q : Client.Query} {request : Request} {w : Wire}

/-! ## Tries -/

/-- What comes back for a request that is made until it is answered, at most three times: before the last
outcome there are only failures that may go away, and the last one is none, or the third one. -/
structure Tries where
  failed : List Outcome
  last : Outcome
  transient : ∀ o ∈ failed, o.isTransient = true
  bounded : failed.length ≤ 2
  conclusive : failed.length = 2 ∨ last.isTransient = false

namespace Tries

/-- The tries end in failure: the third one failed as well, or one of them in a way that does not go away. -/
inductive GivesUp (t : Tries) : Prop where
  | repeated (hcount : t.failed.length = 2) (h : t.last.isTransient = true)
  | refused {r : Response} (hlast : t.last = .response r) (h : r.isSuccess = false)

end Tries

namespace Client

variable {w' : Wire}

variable {token : String} {repository : Repository} {number : Int} {files : List ChangedFile}
variable {served : List Tries} {t : Tries} {requests : Nat → Request} {page : Nat} {rest : List Outcome}

end Client

end TypstLint.GitHub
