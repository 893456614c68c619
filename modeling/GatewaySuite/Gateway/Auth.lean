import GatewaySuite.Python.Text

/-! Bearer token to principal. The token table and the digest are parameters: the gateway
knows a principal by the digest of its token. -/
namespace GatewaySuite.Gateway
open Python

structure Principal where
  subject : Str
  role : Str
  tenant : Str
deriving DecidableEq

structure AuthError where
  message : Str
  reason : String

/-- `s.split(None, 1)` -/
def splitOnce (u : Unicode) (s : Str) : List Str :=
  let s := s.dropWhile u.isspace
  let first := s.takeWhile (fun c => !u.isspace c)
  let rest := (s.dropWhile (fun c => !u.isspace c)).dropWhile u.isspace
  if first = [] then [] else if rest = [] then [first] else [first,rest]

def extractBearerToken (u : Unicode) (header : Option Str) : Except AuthError Str :=
  match header with
  | none => .error ⟨lit "Missing Authorization header","missing_header"⟩
  | some [] => .error ⟨lit "Missing Authorization header","missing_header"⟩
  | some header =>
    match splitOnce u header with
    | [scheme,credential] =>
      if u.lower scheme ≠ lit "bearer" then
        .error ⟨lit "Unsupported authorization scheme: " ++ scheme,"bad_scheme"⟩
      else
        let credential := u.strip credential
        if credential = [] then .error ⟨lit "Empty bearer token","empty_token"⟩
        else .ok credential
    | _ => .error ⟨lit "Malformed Authorization header","malformed_header"⟩

def resolvePrincipal (u : Unicode) (digest : Str → Str) (table : List (Str × Principal))
    (header : Option Str) : Except AuthError Principal := do
  let token ← extractBearerToken u header
  match table.lookup (digest token) with
  | some principal => return principal
  | none => throw ⟨lit "Invalid or expired bearer token","unknown_token"⟩

end GatewaySuite.Gateway
