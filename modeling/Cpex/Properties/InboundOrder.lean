import Cpex.Infra.Except
import Cpex.Host.Credentials
import Cpex.Properties.PlainPpe

/-!
# Which inbound credential a plugin receives

A header is looked up without regard to case in a map whose keys may differ only in case, and a
token in no preferred role is taken as the first value of its map. Both follow the enumeration order
of the map when there is a choice.

* `headerEntry_eq_some_iff`, `exists_order_of_header` — the lookup finds the one header of the name,
  or any of several
* `IdentityOrder`, `RawOrder` — the credential does not depend on the order of the maps
* `inbound_order_iff` — exactly when the maps offer no choice
-/

namespace Cpex.Host

open Cpex.Infra Cpex.Infra.Serde

variable {T : Types} {P : Ppe T} {hook : String}

/-! ## Header lookup -/

/-- No two keys are this name in another case. -/
def OneHeader (headers : HashMap String String) (name : String) : Prop :=
  ∀ e ∈ headers.entries, ∀ e' ∈ headers.entries, Text.eqIgnoreAsciiCase e.1 name →
    Text.eqIgnoreAsciiCase e'.1 name → e.1 = e'.1

variable {headers headers' : HashMap String String} {name : String} {e : String × String}

/-- Entries of one map with one key are one entry. -/
theorem entry_unique {e e' : String × String} (he : e ∈ headers.entries)
    (he' : e' ∈ headers.entries) (hkey : e.1 = e'.1) : e = e' := by
  obtain ⟨key, v⟩ := e
  obtain ⟨key', v'⟩ := e'
  obtain rfl : key = key' := hkey
  have hv := HashMap.get?_eq_some_iff.mpr he
  rw [HashMap.get?_eq_some_iff.mpr he', Option.some.injEq] at hv
  rw [hv]

/-- What is found is a header of the name. -/
theorem mem_of_headerEntry (h : headerEntry headers name = some e) :
    e ∈ headers.entries ∧ Text.eqIgnoreAsciiCase e.1 name = true :=
  ⟨List.mem_of_find?_eq_some h,
    List.find?_some (p := fun e : String × String => Text.eqIgnoreAsciiCase e.1 name) h⟩

theorem headerEntry_eq_some_iff (h : OneHeader headers name) :
    headerEntry headers name = some e ↔
      e ∈ headers.entries ∧ Text.eqIgnoreAsciiCase e.1 name = true := by
  constructor
  · exact mem_of_headerEntry
  · rintro ⟨hmem, hname⟩
    cases hfind : headerEntry headers name with
    | none =>
      have hnone := List.find?_eq_none.mp hfind e hmem
      exact absurd hname hnone
    | some e' =>
      obtain ⟨hmem', hname'⟩ := mem_of_headerEntry hfind
      rw [entry_unique hmem hmem' (h e hmem e' hmem' hname hname')]

theorem OneHeader.same (h : OneHeader headers name) (hsame : HashMap.Same headers' headers) :
    OneHeader headers' name := fun e he e' he' =>
  h e (hsame.mem_iff.mp he) e' (hsame.mem_iff.mp he')

/-- One header of the name is found whatever the order. -/
theorem headerEntry_same (h : OneHeader headers name) (hsame : HashMap.Same headers' headers) :
    headerEntry headers' name = headerEntry headers name := by
  refine Option.ext fun e => ?_
  rw [headerEntry_eq_some_iff (h.same hsame), headerEntry_eq_some_iff h, hsame.mem_iff]

/-- Any header of the name is found under some order. -/
theorem exists_order_of_header (he : e ∈ headers.entries)
    (hname : Text.eqIgnoreAsciiCase e.1 name = true) :
    ∃ headers', HashMap.Same headers' headers ∧ headerEntry headers' name = some e := by
  obtain ⟨headers', rest, hsame, hentries⟩ := HashMap.exists_first he
  refine ⟨headers', hsame, ?_⟩
  rw [headerEntry, hentries, List.find?_cons, hname]

/-! ## From an identity payload -/

/-- A payload whose header map is this one. -/
def withHeaders (p : IdentityPayload T) (headers : HashMap String String) : IdentityPayload T :=
  { p with headers := headers }

@[simp] theorem sourceHeaderName_withHeaders (p : IdentityPayload T) :
    (withHeaders p headers).sourceHeaderName = p.sourceHeaderName := rfl

/-- The object a task carries. -/
def inboundObject (result : Except HostError InboundCredential) : Except HostError Json :=
  result.map InboundCredential.toValue

/-- Every order of the header map gives one token, one header name and one object. -/
def IdentityOrder (P : Ppe T) (p : IdentityPayload T) (hook : String) : Prop :=
  ∀ h₁ h₂, HashMap.Same h₁ p.headers → HashMap.Same h₂ p.headers →
    (withHeaders p h₁).inboundToken = (withHeaders p h₂).inboundToken ∧
      (withHeaders p h₁).credentialHeaderName = (withHeaders p h₂).credentialHeaderName ∧
      inboundObject (inboundFromIdentity P (withHeaders p h₁) hook) =
        inboundObject (inboundFromIdentity P (withHeaders p h₂) hook)

/-- The object depends on the map through the token and the header name only. -/
theorem inboundObject_eq {p p' : IdentityPayload T} (htoken : p.inboundToken = p'.inboundToken)
    (hname : p.credentialHeaderName = p'.credentialHeaderName) (hsource : p.source = p'.source)
    (hsame : HashMap.Same p.headers p'.headers) :
    inboundObject (inboundFromIdentity P p hook) =
      inboundObject (inboundFromIdentity P p' hook) := by
  unfold inboundFromIdentity
  rw [htoken, hname, hsource]
  cases p'.inboundToken with
  | none => rfl
  | some token =>
    have hheaders : ∀ a b : HashMap String String, HashMap.Same a b → ∀ kind,
        InboundCredential.toValue ⟨token, p'.credentialHeaderName, kind, some a⟩ =
          InboundCredential.toValue ⟨token, p'.credentialHeaderName, kind, some b⟩ := by
      intro a b hab kind
      simp only [InboundCredential.toValue, optionalField, stringMap_eq hab]
    dsimp only [inboundObject, Except.map]
    rw [hsame.any_entries]
    split
    · rw [hheaders _ _ hsame]
    · rw [hheaders _ _ (hsame.insert _ _)]

theorem identityOrder_iff (P : Ppe T) (p : IdentityPayload T) (hook : String) :
    IdentityOrder P p hook ↔ OneHeader p.headers p.sourceHeaderName := by
  constructor
  · intro horder e he e' he' hname hname'
    obtain ⟨h₁, hsame₁, hfind₁⟩ := exists_order_of_header he hname
    obtain ⟨h₂, hsame₂, hfind₂⟩ := exists_order_of_header he' hname'
    have heq := (horder h₁ h₂ hsame₁ hsame₂).2.1
    have hkey : ∀ (h : HashMap String String) (e : String × String),
        headerEntry h p.sourceHeaderName = some e →
          (withHeaders p h).credentialHeaderName = e.1 := by
      intro h e hfind
      rw [IdentityPayload.credentialHeaderName, sourceHeaderName_withHeaders]
      dsimp only [withHeaders]
      rw [hfind]
    rwa [hkey h₁ e hfind₁, hkey h₂ e' hfind₂] at heq
  · intro hone h₁ h₂ hsame₁ hsame₂
    have hfind : headerEntry h₁ p.sourceHeaderName = headerEntry h₂ p.sourceHeaderName :=
      (headerEntry_same hone hsame₁).trans (headerEntry_same hone hsame₂).symm
    have htoken : (withHeaders p h₁).inboundToken = (withHeaders p h₂).inboundToken := by
      rw [IdentityPayload.inboundToken, IdentityPayload.inboundToken, sourceHeaderName_withHeaders,
        sourceHeaderName_withHeaders]
      dsimp only [withHeaders]
      rw [hfind]
      rfl
    have hname : (withHeaders p h₁).credentialHeaderName =
        (withHeaders p h₂).credentialHeaderName := by
      rw [IdentityPayload.credentialHeaderName, IdentityPayload.credentialHeaderName,
        sourceHeaderName_withHeaders, sourceHeaderName_withHeaders]
      dsimp only [withHeaders]
      rw [hfind]
    have hsame : HashMap.Same h₁ h₂ := fun key => (hsame₁ key).trans (hsame₂ key).symm
    exact ⟨htoken, hname, inboundObject_eq htoken hname rfl hsame⟩

/-! ## From the extensions view -/

/-- A request whose map of inbound tokens is this one. -/
def withInbound (ext : Extensions T) (m : HashMap TokenRole RawInboundToken)
    (delegated : HashMap DelegationKey (RawDelegatedToken T)) : Extensions T :=
  { ext with rawCredentials := some ⟨m, delegated⟩ }

/-- Every order of the map of inbound tokens gives one object. -/
def RawOrder (ext : Extensions T) (m : HashMap TokenRole RawInboundToken)
    (delegated : HashMap DelegationKey (RawDelegatedToken T)) (hook : String) : Prop :=
  ∀ m₁ m₂, HashMap.Same m₁ m → HashMap.Same m₂ m →
    inboundObject (buildInbound (withInbound ext m₁ delegated) hook) =
      inboundObject (buildInbound (withInbound ext m₂ delegated) hook)

/-- Two tokens that both go out as one object, or are both refused. -/
def SameInbound (t t' : RawInboundToken) : Prop :=
  (Text.isBlank t.token ∧ Text.isBlank t'.token) ∨
    (t.token = t'.token ∧ t.sourceHeader = t'.sourceHeader ∧
      tokenKindWireName t.kind = tokenKindWireName t'.kind)

/-- The object of one token. -/
def tokenObject (t : RawInboundToken) : Json :=
  InboundCredential.toValue ⟨t.token, t.sourceHeader, tokenKindWireName t.kind,
    some (HashMap.ofList [(t.sourceHeader, t.token)])⟩

/-- The object spells out the token, its header and its kind. -/
theorem tokenObject_eq_iff {t t' : RawInboundToken} :
    tokenObject t = tokenObject t' ↔ t.token = t'.token ∧ t.sourceHeader = t'.sourceHeader ∧
      tokenKindWireName t.kind = tokenKindWireName t'.kind := by
  constructor
  · intro h
    have hfields : ∀ t : RawInboundToken,
        (tokenObject t).get? "token" = some (.string t.token) ∧
          (tokenObject t).get? "source_header" = some (.string t.sourceHeader) ∧
          (tokenObject t).get? "kind" = some (.string (tokenKindWireName t.kind)) := by
      intro t
      unfold tokenObject InboundCredential.toValue
      refine ⟨?_, ?_, ?_⟩ <;> rw [Json.get?_ofFields] <;> rfl
    obtain ⟨htoken, hheader, hkind⟩ := hfields t
    obtain ⟨htoken', hheader', hkind'⟩ := hfields t'
    rw [h, htoken', Option.some.injEq, Json.string.injEq] at htoken
    rw [h, hheader', Option.some.injEq, Json.string.injEq] at hheader
    rw [h, hkind', Option.some.injEq, Json.string.injEq] at hkind
    exact ⟨htoken.symm, hheader.symm, hkind.symm⟩
  · rintro ⟨htoken, hheader, hkind⟩
    rw [tokenObject, tokenObject, htoken, hheader, hkind]

/-- Two tokens are sent alike exactly when they are one inbound credential. -/
theorem inboundObject_eq_iff {t t' : RawInboundToken} {hook : String} :
    inboundObject (inboundFromToken t hook) = inboundObject (inboundFromToken t' hook) ↔
      SameInbound t t' := by
  unfold inboundObject inboundFromToken
  rw [apply_ite (Except.map InboundCredential.toValue),
    apply_ite (Except.map InboundCredential.toValue)]
  show (if _ then Except.error _ else .ok (tokenObject t)) =
    (if _ then Except.error _ else .ok (tokenObject t')) ↔ _
  rw [ite_error_eq_iff, tokenObject_eq_iff]
  · rfl
  · intro h
    rw [(tokenObject_eq_iff.mp h).1]

variable {m m' : HashMap TokenRole RawInboundToken}

/-- The token of the first preferred role the map has. -/
def preferredToken (m : HashMap TokenRole RawInboundToken) : Option RawInboundToken :=
  [TokenRole.user, .client, .callerWorkload].findSome? m.get?

theorem preferredToken_same (h : HashMap.Same m' m) : preferredToken m' = preferredToken m := by
  rw [preferredToken, preferredToken, funext h]

/-- A token of a preferred role is there, or all tokens are one inbound credential. -/
def FallbackAgrees (m : HashMap TokenRole RawInboundToken) : Prop :=
  preferredToken m = none →
    ∀ e ∈ m.entries, ∀ e' ∈ m.entries, SameInbound e.2 e'.2

variable {ext : Extensions T} {delegated : HashMap DelegationKey (RawDelegatedToken T)}

/-- The token of a preferred role is taken, and else the first of the map. -/
theorem buildInbound_of_picked {t : RawInboundToken}
    (h : (preferredToken m).or (m.entries.head?.map Prod.snd) = some t) :
    buildInbound (withInbound ext m delegated) hook = inboundFromToken t hook := by
  unfold preferredToken at h
  simp only [buildInbound, withInbound, h]

theorem buildInbound_preferred {t : RawInboundToken} (h : preferredToken m = some t) :
    buildInbound (withInbound ext m delegated) hook = inboundFromToken t hook :=
  buildInbound_of_picked (by rw [h, Option.some_or])

/-- With no preferred role the first value of the map is taken. -/
theorem buildInbound_first {e : TokenRole × RawInboundToken} {rest}
    (h : preferredToken m = none) (hentries : m.entries = e :: rest) :
    buildInbound (withInbound ext m delegated) hook = inboundFromToken e.2 hook :=
  buildInbound_of_picked (by simp [h, hentries])

theorem rawOrder_iff (ext : Extensions T) (m : HashMap TokenRole RawInboundToken)
    (delegated : HashMap DelegationKey (RawDelegatedToken T)) (hook : String) :
    RawOrder ext m delegated hook ↔ FallbackAgrees m := by
  constructor
  · intro horder hnone e he e' he'
    obtain ⟨m₁, rest₁, hsame₁, hentries₁⟩ := HashMap.exists_first he
    obtain ⟨m₂, rest₂, hsame₂, hentries₂⟩ := HashMap.exists_first he'
    have heq := horder m₁ m₂ hsame₁ hsame₂
    rw [buildInbound_first ((preferredToken_same hsame₁).trans hnone) hentries₁,
      buildInbound_first ((preferredToken_same hsame₂).trans hnone) hentries₂] at heq
    exact inboundObject_eq_iff.mp heq
  · intro hagrees m₁ m₂ hsame₁ hsame₂
    cases hpreferred : preferredToken m with
    | some t =>
      rw [buildInbound_preferred ((preferredToken_same hsame₁).trans hpreferred),
        buildInbound_preferred ((preferredToken_same hsame₂).trans hpreferred)]
    | none =>
      have hnone₁ := (preferredToken_same hsame₁).trans hpreferred
      have hnone₂ := (preferredToken_same hsame₂).trans hpreferred
      have hsame : HashMap.Same m₁ m₂ := fun key => (hsame₁ key).trans (hsame₂ key).symm
      cases hentries₁ : m₁.entries with
      | nil =>
        have hentries₂ : m₂.entries = [] := by
          refine List.eq_nil_iff_forall_not_mem.mpr fun e he => ?_
          have hmem : e ∈ m₁.entries := hsame.mem_iff.mpr he
          rw [hentries₁] at hmem
          cases hmem
        unfold buildInbound withInbound
        dsimp only
        rw [hentries₁, hentries₂, funext hsame]
      | cons e₁ rest₁ =>
        have hmem₁ : e₁ ∈ m₁.entries := by
          rw [hentries₁]
          exact List.mem_cons_self
        cases hentries₂ : m₂.entries with
        | nil =>
          have hmem : e₁ ∈ m₂.entries := hsame.mem_iff.mp hmem₁
          rw [hentries₂] at hmem
          cases hmem
        | cons e₂ rest₂ =>
          have hmem₂ : e₂ ∈ m₂.entries := by
            rw [hentries₂]
            exact List.mem_cons_self
          rw [buildInbound_first hnone₁ hentries₁, buildInbound_first hnone₂ hentries₂]
          exact inboundObject_eq_iff.mpr
            (hagrees hpreferred e₁ (hsame₁.mem_iff.mp hmem₁) e₂ (hsame₂.mem_iff.mp hmem₂))

/-! ## Exactly when the order of the maps does not matter -/

/--
**The inbound credential does not depend on the order of the maps exactly when they offer no
choice.** For every identity payload and every map of inbound tokens: all enumeration orders give
one token, one source header name and one object, if and only if the payload has at most one header
of the name looked up, and the map has a token of a preferred role or tokens that all go out as one
credential.
-/
theorem inbound_order_iff (P : Ppe T) (p : IdentityPayload T) (ext : Extensions T)
    (m : HashMap TokenRole RawInboundToken)
    (delegated : HashMap DelegationKey (RawDelegatedToken T)) (hook : String) :
    (IdentityOrder P p hook ∧ RawOrder ext m delegated hook) ↔
      OneHeader p.headers p.sourceHeaderName ∧ FallbackAgrees m :=
  and_congr (identityOrder_iff P p hook) (rawOrder_iff ext m delegated hook)

/-! ## A payload with two spellings of one header -/

def upperFirst : HashMap String String :=
  ⟨[("Authorization", "Bearer a"), ("authorization", "Bearer b")], by decide⟩

def lowerFirst : HashMap String String :=
  ⟨[("authorization", "Bearer b"), ("Authorization", "Bearer a")], by decide⟩

/-- The order of the header map picks the token. -/
theorem header_order_picks_token :
    HashMap.Same lowerFirst upperFirst ∧
      (withHeaders (Plain.identity "a") upperFirst).inboundToken = some "a" ∧
      (withHeaders (Plain.identity "a") lowerFirst).inboundToken = some "b" :=
  ⟨HashMap.same_of_perm (List.Perm.swap _ _ _), rfl, rfl⟩

end Cpex.Host
