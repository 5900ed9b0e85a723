import SqlDump.ReadError
import SqlDump.Syntax.Identifier

/-!
The DEFINER clause of views, routines and triggers: the account that they run as. A dump is read
with one configured account put into its clauses.
-/

namespace SqlDump

/-- The account that statements are given to. With an empty user or host there is none. -/
structure Account where
  user : Text := []
  host : Text := []
  deriving DecidableEq, Repr

namespace Definer

/-- One side of an account: quoted by backquotes or single quotes, or made of the characters of
`bare`. -/
def side? (bare : Char → Bool) : Text → Option Text
  | [] => none
  | c :: s =>
    if c = '\x60' || c = '\x27' then
      match s.dropWhile (· ≠ c) with
      | _ :: r => some r
      | [] => none
    else (Text.run? bare (c :: s)).map (·.2)

/-- What stands after a DEFINER clause at the front. The keyword is written in capitals. -/
def clause? (s : Text) : Option Text := do
  let r ← Text.after? "DEFINER" s
  let r ← Text.after? "=" (Text.trimLeft r)
  let r ← side? isNameChar (Text.trimLeft r)
  let r ← Text.after? "@" r
  side? (fun c => isNameChar c || c = '.' || c = '%' || c = '-') r

/-- The clause for an account, as a template. -/
def template (account : Account) : Text :=
  "DEFINER=`" ++ account.user ++ "`@`" ++ account.host ++ "`"

/-- The query with the account put into its first DEFINER clause. The template is read in any
case, so a bad one is reported without a clause too. -/
def assign (account : Account) (query : Text) : Except ReadError Text :=
  if account.user.isEmpty || account.host.isEmpty then .ok query
  else
    match Template.parts (template account) with
    | .error e => .error (.template e)
    | .ok parts =>
      match Text.find (fun _ => clause?) query with
      | none => .ok query
      | some (before, r) =>
        let clause := (query.drop before.length).take (query.length - before.length - r.length)
        .ok (before ++ Template.fill clause parts ++ r)

end Definer

end SqlDump
