import GatewaySuite.Gateway.Auth
import GatewaySuite.Lib.Regex

/-! The tool policy: the character sets of method and tool names, the folding both are
compared under, and the first matching prefix rule. -/
namespace GatewaySuite.Gateway
open Lib Python

/-- `[A-Za-z0-9_.\-]` -/
def toolChar (c : CodePoint) : Bool := asciiAlnum c || oneOf "_.-" c

/-- The tool characters and the slash of a method path. -/
def methodChar (c : CodePoint) : Bool := asciiAlnum c || oneOf "_./-" c

/-- `^[…]{1,128}\Z` -/
def nameRegex (admits : CodePoint → Bool) : Regex CodePoint :=
  .seq .bos (.seq (.rep (.chars admits) 1 127) .eos)

def TOOL_NAME_RE : Regex CodePoint := nameRegex toolChar
def METHOD_NAME_RE : Regex CodePoint := nameRegex methodChar

/-- `pattern.match(s) is not None` -/
def reMatch (pattern : Regex CodePoint) (s : Str) : Bool := !(pattern.ends s 0).isEmpty

def isWellformedToolName (name : Str) : Bool := reMatch TOOL_NAME_RE name
def isWellformedMethod (method : Str) : Bool := reMatch METHOD_NAME_RE method

def normalizeMethod (u : Unicode) (method : Str) : Str := u.casefold (u.strip (u.nfkc method))
def normalizeToolName (u : Unicode) (name : Str) : Str := u.casefold (u.strip (u.nfkc name))

/-- The rule that decided; the reason text is only logged and left out. -/
structure Decision where
  allowed : Bool
  rule : Str
deriving DecidableEq

structure ToolPolicy where
  prefixRoles : List (Str × List Str)
  defaultAllow : Bool

namespace ToolPolicy

def firstRule (self : ToolPolicy) (normalized : Str) : Option (Str × List Str) :=
  self.prefixRoles.find? fun rule => rule.1.isPrefixOf normalized

def evaluate (u : Unicode) (self : ToolPolicy) (toolName : Str) (principal : Principal) : Decision :=
  match self.firstRule (normalizeToolName u toolName) with
  | some (start,allowedRoles) => ⟨allowedRoles.contains principal.role,lit "prefix:" ++ start⟩
  | none =>
    if self.defaultAllow then ⟨true,lit "default_allow"⟩ else ⟨false,lit "default_deny"⟩

def visibleTo (u : Unicode) (self : ToolPolicy) (toolName : Str) (principal : Principal) : Bool :=
  (self.evaluate u toolName principal).allowed

end ToolPolicy

private theorem steps_chars {t : Str} {admits : CodePoint → Bool} {n p q : Nat}
    (steps : Regex.Steps ((Regex.chars admits).Matches t) n p q) :
    q = p+n ∧ ∀ i, p ≤ i → i < q → Regex.holds t admits i = true := by
  induction n generalizing p with
  | zero =>
    have same : q = p := steps
    subst q
    exact ⟨rfl,fun i low high => by omega⟩
  | succ n ih =>
    obtain ⟨m,⟨rfl,here⟩,rest⟩ := steps
    obtain ⟨stop,held⟩ := ih rest
    refine ⟨by omega,fun i low high => ?_⟩
    by_cases first : i = p
    · exact first ▸ here
    · exact held i (by omega) high

theorem nameRegex_matches {admits : CodePoint → Bool} {s : Str}
    (matched : reMatch (nameRegex admits) s = true) :
    1 ≤ s.length ∧ s.length ≤ 128 ∧ ∀ c ∈ s, admits c = true := by
  obtain ⟨q,found⟩ : ∃ q, q ∈ (nameRegex admits).ends s 0 := by
    apply List.exists_mem_of_ne_nil
    simpa [reMatch] using matched
  obtain ⟨_,⟨rfl,_⟩,m,⟨n,least,most,steps⟩,rfl,full⟩ := (Regex.mem_ends s _ 0 q).mp found
  obtain ⟨stop,held⟩ := steps_chars steps
  refine ⟨by omega,by omega,fun c member => ?_⟩
  obtain ⟨i,inside,here⟩ := List.mem_iff_getElem.mp member
  have good := held i (Nat.zero_le i) (by omega)
  simpa [Regex.holds,List.getElem?_eq_getElem inside,here] using good

theorem firstRule_evaluate (u : Unicode) (policy : ToolPolicy) {name start : Str} {roles : List Str}
    {principal : Principal} (rule : policy.firstRule (normalizeToolName u name) = some (start,roles))
    (allowed : (policy.evaluate u name principal).allowed = true) : principal.role ∈ roles := by
  simpa [ToolPolicy.evaluate,rule] using allowed

end GatewaySuite.Gateway
