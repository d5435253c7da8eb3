import TypstLint.Markup.Cursor
import TypstLint.Markup.Region

set_option autoImplicit false

/-! # Groups in parentheses

A group ends at the parenthesis that closes its first one; parentheses in comments and in string literals
do not count (`findClose`). Other brackets are not looked at, and the text of a `Group` is left as it is:
those who read a group split it themselves. -/

namespace TypstLint.Markup

/-- Looks for the end of a group. `pos` is the position of the rest, of which `skip` characters
belong to a region that was read before; `depth` parentheses are open. Returns the position of the
closing parenthesis, and the issues met on the way. -/
def findClose (pos skip depth : Nat) : List Char → Except Fault (Option Nat × List Issue)
  | [] => .ok (none, [])
  | c :: rest =>
    match skip with
    | skip + 1 => findClose (pos + 1) skip depth rest
    | 0 =>
      match (RegionKind.at? (c :: rest)).filter (· != .raw) with
      | some kind =>
        match Region.read kind (c :: rest) with
        | .error fault => .error fault
        | .ok region =>
          if region.fault.isSome then .ok (none, region.issues pos)
          else findClose (pos + 1) (region.length - 1) depth rest
      | none =>
        if c == '(' then findClose (pos + 1) 0 (depth + 1) rest
        else if c == ')' then
          if depth ≤ 1 then .ok (some pos, []) else findClose (pos + 1) 0 (depth - 1) rest
        else findClose (pos + 1) 0 depth rest

/-- The group at a cursor, which stands before a parenthesis. -/
structure Group where
  /-- The text between the parentheses, up to the end of the text if the group is not closed. -/
  body : List Char
  closed : Bool
  issues : List Issue
  /-- The place behind the group. -/
  behind : Cursor

/-- Reads the group that starts at a cursor. -/
def Group.read (cur : Cursor) : Except Fault Group :=
  (findClose cur.pos 0 0 cur.rest).map fun (close?, issues) =>
    match close? with
    | some close =>
      { body := (cur.rest.take (close - cur.pos)).drop 1
        closed := true
        issues
        behind := Cursor.advance (close - cur.pos + 1) cur }
    | none =>
      { body := cur.rest.drop 1
        closed := false
        issues := issues ++ [.unclosedAt '(' cur.pos]
        behind := cur.atEnd }

end TypstLint.Markup
