import Cpex.Infra.Except
import Cpex.Host.Legacy
import Cpex.Host.Ppe

/-!
# An engine of plain data

A `Ppe` whose types are strings, lists and JSON values. It meets what the engine documents, so the
results that assume it are not empty, and it can be run.

* `plain_documented`, `plain_roundTrips` — the plain engine is one the results apply to
-/

namespace Cpex.Host.Plain

open Cpex.Infra Cpex.Infra.Serde

structure Security where
  labels : List String
  authMethod : Option String
  deriving DecidableEq

abbrev types : Types where
  Slot _ := Json
  SecretHeaders := List String
  Security := Security
  SecurityFields := Option String
  Hop := String
  Delegation := List String
  Subject := Json
  TokenSource := String
  DelegationSubject := DelegationMode
  TargetType := String
  AuthEnforcedBy := String
  Attenuation := Legacy.AttenuationConfig
  ActorRole := String
  Time := Nat
  IdentityOutputs := Unit
  DelegationOutputs := Unit
  Role := String
  Channel := String
  ResourceType := String
  Media := Json
  Foreign := Unit

/-! ## Serializers -/

/-- The value a reader found, or an error that names the type. -/
def orError {α : Type} (expected : String) : Option α → Except String α
  | some a => .ok a
  | none => .error ("expected " ++ expected)

def httpToValue (h : HttpExtension types) : Json :=
  Json.ofFields ([("request_headers", stringMap h.requestHeaders),
    ("secret_headers", strings h.secretHeaders),
    ("response_headers", stringMap h.responseHeaders)] ++
    optionalField "status" (fun n => unsigned n.toNat) h.status ++
    optionalField "method" .string h.method ++ optionalField "path" .string h.path ++
    optionalField "host" .string h.host ++ optionalField "scheme" .string h.scheme)

def httpFromValue (v : Json) : Option (HttpExtension types) := do
  let field ← structFields ["request_headers", "secret_headers", "response_headers", "status",
    "method", "path", "host", "scheme"] v
  let requestHeaders ← defaulted HashMap.empty (readMap readString) (field "request_headers")
  let secretHeaders ← defaulted [] readStrings (field "secret_headers")
  let responseHeaders ← defaulted HashMap.empty (readMap readString) (field "response_headers")
  let status ← optional readU16 (field "status")
  let method ← optional readString (field "method")
  let path ← optional readString (field "path")
  let host ← optional readString (field "host")
  let scheme ← optional readString (field "scheme")
  return ⟨requestHeaders, secretHeaders, responseHeaders, status, method, path, host, scheme⟩

def securityToValue (s : Security) : Json :=
  Json.ofFields ([("labels", strings s.labels)] ++
    optionalField "auth_method" .string s.authMethod)

def securityFromValue (v : Json) : Option Security := do
  let field ← structFields ["labels", "auth_method"] v
  let labels ← defaulted [] readStrings (field "labels")
  let authMethod ← optional readString (field "auth_method")
  return { labels, authMethod }

def delegationToValue (chain : List String) : Json := Json.ofFields [("chain", strings chain)]

def delegationFromValue (v : Json) : Option (List String) := do
  let field ← structFields ["chain"] v
  defaulted [] readStrings (field "chain")

/-- A message of text parts. -/
def messageToValue : MessagePayload types → Except String Json
  | ⟨.mk schemaVersion role content _⟩ => do
    let parts ← content.mapM fun part =>
      match part with
      | .text text =>
        .ok (Json.ofFields [("content_type", .string "text"), ("text", .string text)])
      | _ => .error "not a text part"
    return Json.ofFields [("message", Json.ofFields [("schema_version", .string schemaVersion),
      ("role", .string role), ("content", .array parts)])]

def textFromValue (v : Json) : Option (ContentPart types) := do
  let field ← structFields ["content_type", "text"] v
  let text ← required readString (field "text")
  return .text text

def messageFromValue (v : Json) : Option (MessagePayload types) := do
  let field ← structFields ["message"] v
  let message ← field "message"
  let field ← structFields ["schema_version", "role", "content"] message
  let schemaVersion ← required readString (field "schema_version")
  let role ← required readString (field "role")
  let parts ← (field "content").bind Json.asArray
  let content ← parts.mapM textFromValue
  return ⟨.mk schemaVersion role content none⟩

/-! ## The engine -/

/-- The longest duration of `chrono` in seconds. -/
def longest : Int := 9223372036854775

def addLabel (label : String) (s : Security) : Security :=
  if label ∈ s.labels then s else { s with labels := s.labels ++ [label] }

def engine : Ppe types where
  slotToValue _ v := .ok v
  httpToValue h := .ok (httpToValue h)
  httpFromValue v := orError "an http extension" (httpFromValue v)
  noSecretHeaders := []
  securityToValue s := .ok (securityToValue s)
  securityFromValue v := orError "a security extension" (securityFromValue v)
  defaultSecurity := ⟨[], none⟩
  labels := Security.labels
  securityFields := Security.authMethod
  addLabel := addLabel
  delegationToValue d := .ok (delegationToValue d)
  delegationFromValue v := orError "a delegation extension" (delegationFromValue v)
  chain d := d
  depth := List.length
  originSubjectId := List.head?
  actorSubjectId := List.getLast?
  delegated d := !d.isEmpty
  chainExtends := List.isPrefixOf
  cowCopy e := ⟨e.slot, e.http, e.security, e.delegation, e.custom⟩
  subjectToValue v := .ok v
  subjectFromValue v := orError "a subject" (v.asObject.map Json.object)
  tokenSourceToValue s := .ok (.string s)
  isSpiffeJwtSvid s := s == "spiffe_jwt_svid"
  targetTypeToValue t := .ok (.string t)
  authEnforcedByToValue t := .ok (.string t)
  attenuationToValue a := .ok a.toValue
  isUser s := s == .onBehalfOfUser
  defaultMode s := s
  addSeconds t secs := if secs.toInt ≤ longest then some (t + secs.toInt.toNat) else none
  messageToValue := messageToValue
  messageFromValue v := orError "a message payload" (messageFromValue v)
  roleToValue r := .string r
  roleFromValue v := orError "a role" v.asStr
  textMessage role text := .mk "2.0" role [.text text] none
  isEmbedded r := r.content.isSome || r.blob.isSome
  serdeError expected _ := "expected " ++ expected

theorem mem_addLabel (l x : String) (s : Security) :
    l ∈ (addLabel x s).labels ↔ l = x ∨ l ∈ s.labels := by
  unfold addLabel
  split
  · next hx =>
    constructor
    · exact .inr
    · rintro (rfl | hl)
      · exact hx
      · exact hl
  · rw [List.mem_append, List.mem_singleton, or_comm]

theorem authMethod_addLabel (x : String) (s : Security) :
    (addLabel x s).authMethod = s.authMethod := by
  unfold addLabel
  split
  · rfl
  · rfl

theorem plain_documented : engine.Documented where
  cowCopy_slot _ _ := rfl
  cowCopy_http _ := rfl
  cowCopy_security _ := rfl
  cowCopy_delegation _ := rfl
  cowCopy_custom _ := rfl
  labels_default := rfl
  mem_labels_addLabel l x s := mem_addLabel l x s
  addLabel_of_mem _ _ h := if_pos h
  securityFields_addLabel := authMethod_addLabel
  chainExtends_iff _ _ := List.isPrefixOf_iff_prefix

/-! ## Round trips -/

theorem readStrings_strings (items : List String) : readStrings (strings items) = some items := by
  show (items.map Json.string).mapM readString = some items
  induction items with
  | nil => rfl
  | cons item rest ih =>
    rw [List.map_cons, List.mapM_cons, ih]
    rfl

theorem readU16_unsigned (n : UInt16) : readU16 (unsigned n.toNat) = some n := by
  have hlt : n.toNat < UInt16.size := n.toNat_lt
  have hwide : n.toNat < 2 ^ 64 := Nat.lt_trans hlt (by decide)
  have hnat : (UInt64.ofNat n.toNat).toNat = n.toNat := by
    rw [UInt64.toNat_ofNat', Nat.mod_eq_of_lt hwide]
  unfold readU16 unsigned
  simp only [Json.asU64, Option.bind_some, hnat, hlt, ↓reduceIte, Option.some.injEq]
  apply UInt16.toNat_inj.mp
  rw [UInt64.toNat_toUInt16, hnat, Nat.mod_eq_of_lt hlt]

theorem unsigned_ne_null (n : Nat) : unsigned n ≠ .null := by simp [unsigned]

theorem readMap_stringMap_empty : readMap readString (stringMap HashMap.empty) =
    some HashMap.empty := rfl

theorem httpFromValue_httpToValue {h : HttpExtension types}
    (hreq : h.requestHeaders = HashMap.empty) (hresp : h.responseHeaders = HashMap.empty) :
    httpFromValue (httpToValue h) = some h := by
  unfold httpFromValue httpToValue
  rw [structFields_ofFields]
  simp only [List.reverse_append, Assoc.get?_append, get?_optionalField, Option.bind_eq_bind,
    Option.bind_some]
  cases h
  simp only at hreq hresp
  subst hreq hresp
  simp [Assoc.get?_cons, optional_map readString_string string_ne_null,
    optional_map readU16_unsigned fun n => unsigned_ne_null n.toNat, defaulted,
    readMap_stringMap_empty, readStrings_strings]

theorem securityFromValue_securityToValue (s : Security) :
    securityFromValue (securityToValue s) = some s := by
  unfold securityFromValue securityToValue
  rw [structFields_ofFields]
  simp only [List.reverse_append, Assoc.get?_append, get?_optionalField, Option.bind_eq_bind,
    Option.bind_some]
  simp [Assoc.get?_cons, optional_map readString_string string_ne_null, defaulted,
    readStrings_strings]

theorem delegationFromValue_delegationToValue (chain : List String) :
    delegationFromValue (delegationToValue chain) = some chain := by
  unfold delegationFromValue delegationToValue
  rw [structFields_ofFields]
  simp [defaulted, readStrings_strings]

theorem plain_roundTrips : engine.RoundTrips where
  http h v hreq hresp hv := by
    obtain rfl : httpToValue h = v := Except.ok.inj hv
    refine ⟨by simp [httpToValue, Json.ofFields], h, ?_, hreq, hresp⟩
    show orError _ (httpFromValue (httpToValue h)) = .ok h
    rw [httpFromValue_httpToValue hreq hresp]
    rfl
  security s v hv := by
    obtain rfl : securityToValue s = v := Except.ok.inj hv
    refine ⟨s, ?_, fun _ => Iff.rfl⟩
    show orError _ (securityFromValue (securityToValue s)) = .ok s
    rw [securityFromValue_securityToValue]
    rfl
  delegation d v hv := by
    obtain rfl : delegationToValue d = v := Except.ok.inj hv
    show orError _ (delegationFromValue (delegationToValue d)) = .ok d
    rw [delegationFromValue_delegationToValue]
    rfl

theorem plain_rolesRoundTrip : engine.RolesRoundTrip := fun _ => rfl

theorem plain_addsSeconds : engine.AddsSeconds fun t : Nat => (t : Int) := by
  intro t secs t' hpos h
  change (if secs.toInt ≤ longest then some (t + secs.toInt.toNat) else none) = some t' at h
  split at h
  · obtain rfl := Option.some.inj h
    show ((t + secs.toInt.toNat : Nat) : Int) = (t : Int) + secs.toInt
    omega
  · cases h

theorem plain_roleForms : engine.RoleForms := by
  intro v role h
  cases v with
  | string s =>
    obtain rfl := Except.ok.inj h
    exact .inl rfl
  | null | bool _ | number _ | array _ | object _ => cases h

/-! ## Sample values -/

/-- A view with no slot and no token. -/
def emptyView : Extensions types :=
  ⟨fun _ => none, none, none, none, none, none, false, false, false⟩

/-- An identity payload whose token is in its `Authorization` header. -/
def identity (token : String) : IdentityPayload types where
  rawToken := ""
  source := "bearer"
  sourceHeader := none
  headers := HashMap.ofList [("Authorization", "Bearer " ++ token)]
  clientHost := some "10.0.0.7"
  clientPort := none
  subject := none
  delegation := none
  rawClaims := HashMap.empty
  outputs := ()

/-- A delegation to a tool of no audience of its own. -/
def delegation : DelegationPayload types where
  bearerToken := "user-token"
  actorToken := ""
  actorRole := none
  subject := .onBehalfOfUser
  targetName := "billing"
  targetType := "tool"
  targetAudience := none
  requiredPermissions := ["invoices.read"]
  trustDomain := none
  authEnforcedBy := "caller"
  routeAttenuation := none
  delegatedToken := none
  delegationMode := none
  mintedAt := none
  delegationUpdate := none
  outputs := ()

/-- A message that calls a tool. -/
def toolCall (name : String) : MessagePayload types :=
  ⟨.mk "2.0" "assistant" [.thinking "", .toolCall ⟨"call-1", name,
    HashMap.ofList [("q", .string "rust")], none⟩] none⟩

/-- A plugin's answer that renames a tool and drops its arguments. -/
def renamed : Json := .object [("name", .string "safe_search")]

/-- A message that holds the result of a tool call, not flagged as an error. -/
def toolResult (content : Json) : MessagePayload types :=
  ⟨.mk "2.0" "tool" [.toolResult ⟨"call-1", "search", content, false⟩] none⟩

end Cpex.Host.Plain
