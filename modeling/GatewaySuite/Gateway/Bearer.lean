import GatewaySuite.Gateway.Mediation
import GatewaySuite.Router.App

/-! The grammar of the `Authorization` header, which both gateways read: who is let in, and with
what credential a message goes on to the downstream server. -/
namespace GatewaySuite.Gateway
open Python

section
variable {α : Type} {p : α → Bool}

theorem span_append {front rest : List α} (runs : ∀ c ∈ front, p c = true)
    (stops : ∀ c ∈ rest.head?, p c = false) :
    (front ++ rest).takeWhile p = front ∧ (front ++ rest).dropWhile p = rest := by
  rw [List.takeWhile_append_of_pos runs,List.dropWhile_append_of_pos runs]
  cases rest with
  | nil => exact ⟨List.append_nil front,rfl⟩
  | cons c rest =>
    have stop : ¬p c = true := by simp [stops c rfl]
    rw [List.takeWhile_cons_of_neg stop,List.dropWhile_cons_of_neg stop,List.append_nil]
    exact ⟨rfl,rfl⟩

theorem dropWhile_stops (l : List α) : ∀ c ∈ (l.dropWhile p).head?, p c = false := by
  intro c first
  have stops := List.head?_dropWhile_not p l
  rw [Option.mem_def.mp first] at stops
  simpa using stops

theorem rdropWhile_append {front back : List α} (runs : ∀ c ∈ back, p c = true)
    (stops : ∀ c ∈ front.getLast?, p c = false) : (front ++ back).rdropWhile p = front := by
  have first : ∀ c ∈ front.reverse.head?, p c = false := by rwa [List.head?_reverse]
  have turned : ∀ c ∈ back.reverse, p c = true := by simpa using runs
  rw [List.rdropWhile,List.reverse_append,(span_append turned first).2,List.reverse_reverse]

theorem rdropWhile_last (l : List α) : ∀ c ∈ (l.rdropWhile p).getLast?, p c = false := by
  rw [List.rdropWhile,List.getLast?_reverse]
  exact dropWhile_stops l.reverse

end

section
variable (u : Unicode)

/-- `header = blanks scheme blanks token blanks`, where the token begins and ends solid. -/
structure Bearer (header token : Str) : Prop where
  parts : ∃ front scheme gap back, header = front ++ (scheme ++ (gap ++ (token ++ back))) ∧
    (∀ c ∈ front, u.isspace c = true) ∧ scheme ≠ [] ∧ (∀ c ∈ scheme, u.isspace c = false) ∧
    u.lower scheme = lit "bearer" ∧ gap ≠ [] ∧ (∀ c ∈ gap, u.isspace c = true) ∧
    ∀ c ∈ back, u.isspace c = true
  solid : token ≠ []
  starts : ∀ c ∈ token.head?, u.isspace c = false
  ends : ∀ c ∈ token.getLast?, u.isspace c = false

theorem splitOnce_iff {s first rest : Str} :
    splitOnce u s = [first,rest] ↔ ∃ front gap, s = front ++ (first ++ (gap ++ rest)) ∧
      (∀ c ∈ front, u.isspace c = true) ∧ first ≠ [] ∧ (∀ c ∈ first, u.isspace c = false) ∧
      gap ≠ [] ∧ (∀ c ∈ gap, u.isspace c = true) ∧ rest ≠ [] ∧
      ∀ c ∈ rest.head?, u.isspace c = false := by
  constructor
  · intro split
    simp only [splitOnce] at split
    split_ifs at split with empty alone
    · cases split
    · cases split
      let tail := (s.dropWhile u.isspace).dropWhile fun c => !u.isspace c
      refine ⟨s.takeWhile u.isspace,tail.takeWhile u.isspace,?_,?_,empty,?_,?_,?_,alone,
        dropWhile_stops _⟩
      · rw [List.takeWhile_append_dropWhile,List.takeWhile_append_dropWhile,
          List.takeWhile_append_dropWhile]
      · exact fun c => List.mem_takeWhile_imp
      · intro c member
        simpa using List.mem_takeWhile_imp member
      · -- the first word ends at a blank
        intro none
        have whole : tail.dropWhile u.isspace = tail := by
          have both := List.takeWhile_append_dropWhile (p := u.isspace) (l := tail)
          rwa [none,List.nil_append] at both
        cases same : tail with
        | nil => exact alone (whole.trans same)
        | cons c rest =>
          have space := dropWhile_stops (p := fun c => !u.isspace c) (s.dropWhile u.isspace) c
            (by rw [show List.dropWhile _ _ = tail from rfl,same]; rfl)
          have solid := dropWhile_stops (p := u.isspace) tail c (by rw [whole,same]; rfl)
          simp [solid] at space
      · exact fun c => List.mem_takeWhile_imp
  · rintro ⟨front,gap,rfl,blank,word,solid,some,blank',left,stops⟩
    have head : ∀ c ∈ (first ++ (gap ++ rest)).head?, u.isspace c = false := by
      cases first with
      | nil => exact absurd rfl word
      | cons c first => simpa using solid c List.mem_cons_self
    have next : ∀ c ∈ (gap ++ rest).head?, (!u.isspace c) = false := by
      cases gap with
      | nil => exact absurd rfl some
      | cons c gap => simpa using blank' c List.mem_cons_self
    have solid' : ∀ c ∈ first, (!u.isspace c) = true := fun c member => by simp [solid c member]
    simp only [splitOnce,(span_append blank head).2,(span_append solid' next).1,
      (span_append solid' next).2,(span_append blank' stops).2,word,left,if_false]

theorem strip_iff {s token : Str} (solid : s ≠ []) (starts : ∀ c ∈ s.head?, u.isspace c = false) :
    u.strip s = token ↔ ∃ back, s = token ++ back ∧ (∀ c ∈ back, u.isspace c = true) ∧
      ∀ c ∈ token.getLast?, u.isspace c = false := by
  have front : s.dropWhile u.isspace = s := by
    cases s with
    | nil => rfl
    | cons c rest => exact List.dropWhile_cons_of_neg (by simp [starts c rfl])
  rw [Unicode.strip,front]
  constructor
  · rintro rfl
    exact ⟨s.rtakeWhile u.isspace,List.rdropWhile_append_rtakeWhile.symm,
      fun c => List.mem_rtakeWhile_imp,rdropWhile_last s⟩
  · rintro ⟨back,rfl,blank,ends⟩
    exact rdropWhile_append blank ends

/-- The branch for an empty credential is never taken: the second part begins with a solid
character. -/
theorem extractBearerToken_iff {header : Option Str} {token : Str} :
    extractBearerToken u header = .ok token ↔ ∃ value, header = some value ∧ Bearer u value token := by
  constructor
  · intro extracted
    unfold extractBearerToken at extracted
    split at extracted
    · cases extracted
    · cases extracted
    · rename_i value _
      split at extracted
      · rename_i scheme credential split
        dsimp only at extracted
        split_ifs at extracted with other empty
        cases extracted
        obtain ⟨front,gap,rfl,blank,word,solid,some,blank',left,starts⟩ := (splitOnce_iff u).mp split
        obtain ⟨back,whole,blank'',ends⟩ := (strip_iff u left starts).mp rfl
        refine ⟨_,rfl,⟨front,scheme,gap,back,?_,blank,word,solid,not_not.mp other,some,blank',
          blank''⟩,empty,?_,ends⟩
        · rw [← whole]
        · rw [whole,List.head?_append_of_ne_nil _ empty] at starts
          exact starts
      · cases extracted
  · rintro ⟨_,rfl,⟨front,scheme,gap,back,rfl,blank,word,solid,named,some,blank',blank''⟩,full,starts,
      ends⟩
    have starts' : ∀ c ∈ (token ++ back).head?, u.isspace c = false := by
      rwa [List.head?_append_of_ne_nil _ full]
    have left : token ++ back ≠ [] := by simp [full]
    have split : splitOnce u (front ++ (scheme ++ (gap ++ (token ++ back)))) =
        [scheme,token ++ back] :=
      (splitOnce_iff u).mpr ⟨front,gap,rfl,blank,word,solid,some,blank',left,starts'⟩
    have stripped : u.strip (token ++ back) = token :=
      (strip_iff u left starts').mpr ⟨back,rfl,blank'',ends⟩
    unfold extractBearerToken
    split
    · rename_i none
      cases none
    · rename_i none
      simp [word] at none
    · rename_i value _ same
      cases same
      simp [split,named,stripped,full]

theorem apiKey_extractBearerToken (request : Router.Request) (key : Str) :
    Router.apiKey u request = .ok key ↔
      extractBearerToken u request.authorization = .ok key := by
  unfold Router.apiKey extractBearerToken
  cases request.authorization with
  | none => simp [splitOnce]
  | some header =>
    cases header with
    | nil => simp [splitOnce]
    | cons c rest =>
      simp only [Option.getD_some]
      generalize splitOnce u (c::rest) = parts
      rcases parts with _ | ⟨scheme,_ | ⟨credential,_ | ⟨_,_⟩⟩⟩
      · simp
      · simp
      · by_cases other : u.lower scheme = lit "bearer"
        · by_cases empty : u.strip credential = [] <;> simp [other,empty]
        · simp [other]
      · simp

theorem resolvePrincipal_iff (digest : Str → Str) (table : List (Str × Principal)) {header : Option Str}
    {principal : Principal} : resolvePrincipal u digest table header = .ok principal ↔
      ∃ value token, header = some value ∧ Bearer u value token ∧
        table.lookup (digest token) = some principal := by
  constructor
  · intro resolved
    unfold resolvePrincipal at resolved
    cases extracted : extractBearerToken u header with
    | error refused => simp [extracted,bind,Except.bind] at resolved
    | ok token =>
      obtain ⟨value,given,bearer⟩ := (extractBearerToken_iff u).mp extracted
      refine ⟨value,token,given,bearer,?_⟩
      simp only [extracted,bind,Except.bind] at resolved
      split at resolved
      · rename_i known found
        cases resolved
        exact found
      · cases resolved
  · rintro ⟨value,token,given,bearer,found⟩
    have extracted := (extractBearerToken_iff u).mpr ⟨value,given,bearer⟩
    simp [resolvePrincipal,extracted,bind,Except.bind,found,pure,Except.pure]

/-- Both gateways let in exactly the headers of one grammar, and take the same credential from
them; it names a caller of the first by its digest, and is the key of the second. -/
theorem bearer_grammar (digest : Str → Str) (table : List (Str × Principal)) :
    (∀ header principal, resolvePrincipal u digest table header = .ok principal ↔
      ∃ value token, header = some value ∧ Bearer u value token ∧
        table.lookup (digest token) = some principal) ∧
    ∀ request key, Router.apiKey u request = .ok key ↔
      ∃ value, request.authorization = some value ∧ Bearer u value key := by
  constructor
  · exact fun header principal => resolvePrincipal_iff u digest table
  · intro request key
    rw [apiKey_extractBearerToken,extractBearerToken_iff]

theorem bearer_header {token : Str} (full : token ≠ []) (starts : ∀ c ∈ token.head?, u.isspace c = false)
    (ends : ∀ c ∈ token.getLast?, u.isspace c = false) : Bearer u (lit "Bearer " ++ token) token := by
  have plain : (lit "Bearer ").all isAscii = true := by decide
  have space (c : CodePoint) (member : c ∈ lit "Bearer ") : u.isspace c = asciiSpace c :=
    u.isspace_ascii c (List.all_eq_true.mp plain c member)
  have whole : lit "Bearer " = lit "Bearer" ++ lit " " := by decide
  refine ⟨⟨[],lit "Bearer",lit " ",[],?_,by simp,by decide,?_,?_,by decide,?_,by simp⟩,full,starts,ends⟩
  · rw [whole]
    simp
  · have solid : (lit "Bearer").all (fun c => !asciiSpace c) = true := by decide
    intro c member
    rw [space c (whole ▸ List.mem_append_left _ member)]
    simpa using List.all_eq_true.mp solid c member
  · rw [u.lower_ascii _ (by decide)]
    decide
  · have blank : (lit " ").all asciiSpace = true := by decide
    intro c member
    rw [space c (whole ▸ List.mem_append_right _ member)]
    exact List.all_eq_true.mp blank c member

/-- In every run of the gateway: a message goes downstream with the service's own credential, and
with nothing else of its caller than who the table says that is and the id of the request. -/
theorem identity_forwarded (config : Config) (digest : Str → Str) (table : List (Str × Principal))
    (loads : List UInt8 → Except LoadsError Json) (exchanges : List Exchange)
    (full : config.downstreamToken ≠ [])
    (starts : ∀ c ∈ config.downstreamToken.head?, u.isspace c = false)
    (ends : ∀ c ∈ config.downstreamToken.getLast?, u.isspace c = false) :
    ∀ post ∈ posted u config (resolvePrincipal u digest table) loads exchanges,
      extractBearerToken u (post.headers.lookup (lit "Authorization")) =
        .ok config.downstreamToken ∧
      ∃ exchange ∈ exchanges, ∃ value token principal,
        exchange.request.authorization = some value ∧ Bearer u value token ∧
        table.lookup (digest token) = some principal ∧
        post.headers = downstreamHeaders config principal exchange.request.requestId := by
  intro post member
  obtain ⟨exchange,inside,sent⟩ := List.mem_flatMap.mp member
  obtain ⟨principal,parsed,who,_,_,headers,_⟩ := proxy_judged u config _ loads _ _ post sent
  constructor
  · have named : post.headers.lookup (lit "Authorization") =
        some (lit "Bearer " ++ config.downstreamToken) := by
      rw [headers]
      rfl
    rw [named,extractBearerToken_iff]
    exact ⟨_,rfl,bearer_header u full starts ends⟩
  · obtain ⟨value,token,given,bearer,found⟩ :=
      (resolvePrincipal_iff u digest table).mp who
    exact ⟨exchange,inside,value,token,principal,given,bearer,found,headers⟩

end

def pingCall : Json :=
  .obj [(lit "jsonrpc",.str (lit "2.0")),(lit "id",.int 1),(lit "method",.str (lit "ping"))]

theorem identity_forwarded_ping :
    let resolve := resolvePrincipal asciiUnicode id [(lit "viewer-token-def456",viewer)]
    let exchanges : List Exchange :=
      [⟨⟨some (lit "Bearer viewer-token-def456"),lit "r1",[]⟩,fun _ => .timeout⟩]
    let posts := posted asciiUnicode defaultConfig resolve (fun _ => .ok pingCall) exchanges
    posts.length = 1 ∧ ∀ post ∈ posts,
      extractBearerToken asciiUnicode (post.headers.lookup (lit "Authorization")) =
        .ok (lit "gateway-service-token") := by
  intro resolve exchanges posts
  have solid : defaultConfig.downstreamToken.all (fun c => !asciiSpace c) = true := by decide
  have space (c : CodePoint) (member : c ∈ defaultConfig.downstreamToken) :
      asciiUnicode.isspace c = false :=
    (Bool.not_eq_true' _).mp (List.all_eq_true.mp solid c member)
  refine ⟨by decide +kernel,fun post member => ?_⟩
  exact (identity_forwarded asciiUnicode defaultConfig id [(lit "viewer-token-def456",viewer)]
    (fun _ => .ok pingCall) exchanges (by decide) (fun c first => space c (List.mem_of_mem_head? first))
    (fun c last => space c (List.mem_of_getLast? last)) post member).1

end GatewaySuite.Gateway
