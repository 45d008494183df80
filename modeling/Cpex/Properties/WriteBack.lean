import Cpex.Properties.Deny

/-!
# Writing credentials back

What a worker may make of an identity or a delegation by returning JSON. The payload that was
dispatched stays what it is on its input side, and a minted token is for the target and the
permissions the host asked for.

* `identityFromWorker_inputs`, `delegationFromWorker_inputs` — an echoed payload changes nothing
* `identity_kept`, `delegation_written` — what a result may write
* `write_back_sound` — both hooks, for every original and every answer
-/

namespace Cpex.Host

open Cpex.Infra Cpex.Infra.Serde

variable {T : Types} {P : Ppe T} {timestamp : T.Time → Int}

/-! ## Unknown fields -/

theorem firstUnknown_eq_none_iff {known : List String} : ∀ {fields : List (String × Json)},
    firstUnknown known fields = none ↔
      ∀ f ∈ fields, f.1 ∈ known ∨ isEmptyValue f.2 = true := by
  intro fields
  induction fields with
  | nil => simp [firstUnknown]
  | cons f rest ih =>
    obtain ⟨key, value⟩ := f
    rw [firstUnknown]
    split
    · next h => simp_all
    · next h =>
      rw [ih, List.forall_mem_cons]
      refine (and_iff_right ?_).symm
      by_contra hnot
      simp_all

/-- A top-level field that carries something and that the hook does not know. -/
def CarriesUnknown (known : List String) (modified : Json) : Prop :=
  ∃ fields, modified = .object fields ∧
    ∃ f ∈ fields, f.1 ∉ known ∧ isEmptyValue f.2 = false

theorem refuseUnknown_of_carries {hook : String} {known : List String}
    {fields : List (String × Json)} (h : CarriesUnknown known (.object fields)) {u : Unit} :
    refuseUnknown hook known fields ≠ .ok u := by
  obtain ⟨fields', heq, f, hmem, hknown, hset⟩ := h
  obtain rfl := Json.object.inj heq
  intro hok
  rcases firstUnknown_eq_none_iff.mp (refuseUnknown_eq_ok_iff.mp hok) f hmem with hin | hempty
  · exact hknown hin
  · rw [hset] at hempty
    cases hempty

/-- Input fields are known. -/
theorem refuseUnknown_inputs {hook : String} {results inputs : List String}
    {fields : List (String × Json)} (h : ∀ f ∈ fields, f.1 ∈ inputs) :
    refuseUnknown hook (results ++ inputs) fields = .ok () :=
  refuseUnknown_eq_ok_iff.mpr (firstUnknown_eq_none_iff.mpr fun f hf =>
    .inl (List.mem_append_right _ (h f hf)))

/-- A payload of input fields returns no result field. -/
theorem get?_of_inputs {inputs : List String} {fields : List (String × Json)}
    (h : ∀ f ∈ fields, f.1 ∈ inputs) {key : String} (hkey : key ∉ inputs) :
    Assoc.get? key fields = none :=
  Assoc.get?_eq_none_iff.mpr fun v hmem => hkey (h (key, v) hmem)

theorem present_of_inputs {inputs : List String} {fields : List (String × Json)}
    (h : ∀ f ∈ fields, f.1 ∈ inputs) {key : String} (hkey : key ∉ inputs) :
    present fields key = none := by
  rw [present, get?_of_inputs h hkey]
  rfl

/-! ## Identities -/

/-- The fields an identity plugin is given. -/
structure IdentityKept (original p : IdentityPayload T) : Prop where
  rawToken : p.rawToken = original.rawToken
  source : p.source = original.source
  sourceHeader : p.sourceHeader = original.sourceHeader
  headers : p.headers = original.headers
  clientHost : p.clientHost = original.clientHost
  clientPort : p.clientPort = original.clientPort

/-- An answer of input fields alone changes nothing. -/
theorem identityFromWorker_inputs {original : IdentityPayload T} {fields : List (String × Json)}
    (h : ∀ f ∈ fields, f.1 ∈ identityInputFields) :
    identityFromWorker P original (.object fields) = .ok (.resolved original) := by
  unfold identityFromWorker
  rw [asFields, ok_bind, refuseUnknown_inputs h, ok_bind, get?_of_inputs h (by decide),
    get?_of_inputs h (by decide), present_of_inputs h (by decide), present_of_inputs h (by decide)]
  rfl

theorem identityToWorker_fields {original : IdentityPayload T} {sent : Json}
    (h : identityToWorker P original = .ok sent) :
    ∃ fields, sent = .object fields ∧ ∀ f ∈ fields, f.1 ∈ identityInputFields := by
  unfold identityToWorker at h
  split at h
  · cases h
  · obtain rfl := Except.ok.inj h
    refine ⟨_, rfl, fun f hf => ?_⟩
    have hmem := Json.mem_of_mem_ofFields hf
    simp only [List.mem_append, List.mem_cons, List.not_mem_nil, or_false] at hmem
    rcases hmem with ((rfl | rfl | rfl) | hhost) | hport
    · decide
    · exact show "source" ∈ identityInputFields by decide
    · exact show "headers" ∈ identityInputFields by decide
    · rw [key_of_mem_optionalField hhost]
      decide
    · rw [key_of_mem_optionalField hport]
      decide

/-- An unknown field that carries something is refused. -/
theorem identityFromWorker_of_unknown {original : IdentityPayload T} {modified : Json}
    (h : CarriesUnknown (identityResultFields ++ identityInputFields) modified) :
    ∃ e, identityFromWorker P original modified = .error e := by
  cases hresult : identityFromWorker P original modified with
  | error e => exact ⟨e, rfl⟩
  | ok outcome =>
    obtain ⟨fields, rfl, hf⟩ := h
    obtain ⟨_, hfields, hresult⟩ := bind_eq_ok.mp hresult
    obtain rfl := Except.ok.inj hfields
    obtain ⟨_, hknown, -⟩ := bind_eq_ok.mp hresult
    exact absurd hknown (refuseUnknown_of_carries ⟨fields, rfl, hf⟩)

/-- A resolved identity is not rejected, and is a copy of the original but for its outputs. -/
theorem identity_kept {original p : IdentityPayload T} {modified : Json}
    (h : identityFromWorker P original modified = .ok (.resolved p)) :
    modified.get? "rejected" ≠ some (.bool true) ∧ IdentityKept original p := by
  obtain ⟨fields, hfields, h⟩ := bind_eq_ok.mp h
  obtain ⟨_, -, h⟩ := bind_eq_ok.mp h
  cases modified with
  | object fields' =>
    obtain rfl := Except.ok.inj hfields
    constructor
    · intro hrejected
      rw [Json.get?_object] at hrejected
      rw [hrejected] at h
      obtain ⟨violation, -, h⟩ := bind_eq_ok.mp h
      cases h
    · split at h
      · obtain ⟨violation, -, h⟩ := bind_eq_ok.mp h
        cases h
      -- absent, `null` and `false` all go on to the outputs
      iterate 3
        · obtain ⟨subject, -, h⟩ := bind_eq_ok.mp h
          obtain ⟨delegation, -, h⟩ := bind_eq_ok.mp h
          obtain ⟨rawClaims, -, h⟩ := bind_eq_ok.mp h
          obtain rfl := IdentityOutcome.resolved.inj (Except.ok.inj h)
          exact ⟨rfl, rfl, rfl, rfl, rfl, rfl⟩
      · cases h
  | null | bool _ | number _ | string _ | array _ => cases hfields

/-! ## Delegations -/

/-- The fields a delegation plugin is given. -/
structure DelegationKept (original p : DelegationPayload T) : Prop where
  bearerToken : p.bearerToken = original.bearerToken
  actorToken : p.actorToken = original.actorToken
  actorRole : p.actorRole = original.actorRole
  subject : p.subject = original.subject
  targetName : p.targetName = original.targetName
  targetType : p.targetType = original.targetType
  targetAudience : p.targetAudience = original.targetAudience
  requiredPermissions : p.requiredPermissions = original.requiredPermissions
  trustDomain : p.trustDomain = original.trustDomain
  authEnforcedBy : p.authEnforcedBy = original.authEnforcedBy
  routeAttenuation : p.routeAttenuation = original.routeAttenuation

/-- The header a minted token goes out in: the default one, or the one returned header, which
carries the token bare or as a bearer. -/
inductive OutboundHeader (token : String) : List (String × Json) → String → Prop
  | default : OutboundHeader token [] defaultOutboundHeader
  | forwarded (name value : String) (carries : value = token ∨ stripBearer value = token) :
      OutboundHeader token [(name, .string value)] name

/-- The token `minted` was written at `now`, from the answer's own token. -/
structure Minted (P : Ppe T) (timestamp : T.Time → Int) (now : T.Time)
    (original p : DelegationPayload T) (modified : Json) (minted : RawDelegatedToken T) :
    Prop where
  returned : modified.get? "delegated_token" = some (.string minted.token)
  notBlank : Text.isBlank minted.token = false
  audience : minted.audience = original.targetAudience.getD original.targetName
  scopes : minted.scopes = original.requiredPermissions
  mintedAt : p.mintedAt = some now
  /-- The expiry was added without overflow, for the lifetime that was returned. -/
  expiry : ∃ ttl, returnedTtl (modified.get? "cache_ttl") = .ok ttl ∧ 0 < ttl.toInt ∧
    P.addSeconds now ttl = some minted.expiresAt
  later : timestamp now < timestamp minted.expiresAt
  header : ∃ forwarded, returnedForwarded (modified.get? "forwarded_headers") = .ok forwarded ∧
    OutboundHeader minted.token forwarded minted.outboundHeader

/-- The token of the payload is the original's if the answer has none, and one that was minted now
if it has one. -/
inductive TokenWritten (P : Ppe T) (timestamp : T.Time → Int) (now : T.Time)
    (original p : DelegationPayload T) (modified : Json) : Prop
  | kept (absent : modified.get? "delegated_token" = none ∨
        modified.get? "delegated_token" = some .null)
      (token : p.delegatedToken = original.delegatedToken)
      (mintedAt : p.mintedAt = original.mintedAt)
      (mode : p.delegationMode = original.delegationMode)
  | minted (minted : RawDelegatedToken T) (token : p.delegatedToken = some minted)
      (written : Minted P timestamp now original p modified minted)

theorem outboundHeader_eq_ok {token : String} {forwarded : List (String × Json)} {name : String}
    (h : outboundHeader token forwarded = .ok name) : OutboundHeader token forwarded name := by
  cases forwarded with
  | nil =>
    obtain rfl := Except.ok.inj h
    exact .default
  | cons e rest =>
    obtain ⟨key, value⟩ := e
    unfold outboundHeader at h
    dsimp only at h
    split at h
    · cases h
    · next hcarries =>
      obtain rfl := Except.ok.inj h
      simp only [Bool.or_eq_true, Bool.not_eq_true', not_or, Bool.not_eq_false] at hcarries
      obtain ⟨hrest, htoken⟩ := hcarries
      obtain rfl := List.isEmpty_iff.mp hrest
      obtain ⟨v, hv, hvalue⟩ := (Option.any_eq_true _ _).mp htoken
      obtain rfl := Json.asStr_eq_some.mp hv
      exact .forwarded key v (by simpa using hvalue)

theorem returnedToken_eq_none {field : Option Json} (h : returnedToken field = .ok none) :
    field = none ∨ field = some .null := by
  unfold returnedToken at h
  split at h
  · exact .inl rfl
  · exact .inr rfl
  · split at h
    · cases h
    · cases h
  · cases h

theorem returnedToken_eq_some {field : Option Json} {token : String}
    (h : returnedToken field = .ok (some token)) :
    field = some (.string token) ∧ Text.isBlank token = false := by
  unfold returnedToken at h
  split at h
  · cases h
  · cases h
  · split at h
    · cases h
    · next hblank =>
      obtain rfl := Option.some.inj (Except.ok.inj h)
      exact ⟨rfl, by simpa using hblank⟩
  · cases h

theorem returnedTtl_pos {field : Option Json} {ttl : Int64} (h : returnedTtl field = .ok ttl) :
    0 < ttl.toInt := by
  unfold returnedTtl at h
  split at h
  · obtain rfl := Except.ok.inj h
    decide
  · obtain rfl := Except.ok.inj h
    decide
  · split at h
    · next hfilter =>
      obtain rfl := Except.ok.inj h
      simpa using (Option.filter_eq_some_iff.mp hfilter).2
    · cases h

/-- What a minted token is made of. -/
theorem withMintedToken_written (hadds : P.AddsSeconds timestamp) {now : T.Time}
    {original p : DelegationPayload T} {fields forwarded : List (String × Json)}
    {token : Option String}
    (htoken : returnedToken (Assoc.get? "delegated_token" fields) = .ok token)
    (hforwarded : returnedForwarded (Assoc.get? "forwarded_headers" fields) = .ok forwarded)
    (h : withMintedToken P now original forwarded (Assoc.get? "cache_ttl" fields) token = .ok p) :
    DelegationKept original p ∧ TokenWritten P timestamp now original p (.object fields) := by
  cases token with
  | none =>
    unfold withMintedToken at h
    dsimp only at h
    split at h
    · obtain rfl := Except.ok.inj h
      exact ⟨⟨rfl, rfl, rfl, rfl, rfl, rfl, rfl, rfl, rfl, rfl, rfl⟩,
        .kept (returnedToken_eq_none htoken) rfl rfl rfl⟩
    · cases h
  | some token =>
    obtain ⟨header, hheader, h⟩ := bind_eq_ok.mp h
    obtain ⟨ttl, httl, h⟩ := bind_eq_ok.mp h
    split at h
    · cases h
    · next expiresAt hexpires =>
      obtain rfl := Except.ok.inj h
      obtain ⟨hreturned, hblank⟩ := returnedToken_eq_some htoken
      have hpos := returnedTtl_pos httl
      refine ⟨⟨rfl, rfl, rfl, rfl, rfl, rfl, rfl, rfl, rfl, rfl, rfl⟩, .minted _ rfl {
        returned := hreturned
        notBlank := hblank
        audience := rfl
        scopes := rfl
        mintedAt := rfl
        expiry := ⟨ttl, httl, hpos, hexpires⟩
        later := ?_
        header := ⟨forwarded, hforwarded, outboundHeader_eq_ok hheader⟩ }⟩
      have hstamp : timestamp expiresAt = timestamp now + ttl.toInt :=
        hadds now ttl expiresAt hpos hexpires
      show timestamp now < timestamp expiresAt
      omega

/-- A delegation update leaves the inputs and the token alone. -/
theorem delegation_written (hadds : P.AddsSeconds timestamp) {now : T.Time}
    {original p : DelegationPayload T} {modified : Json}
    (h : delegationFromWorker P now original modified = .ok p) :
    DelegationKept original p ∧ TokenWritten P timestamp now original p modified := by
  obtain ⟨fields, hfields, h⟩ := bind_eq_ok.mp h
  obtain ⟨_, -, h⟩ := bind_eq_ok.mp h
  obtain ⟨token, htoken, h⟩ := bind_eq_ok.mp h
  obtain ⟨forwarded, hforwarded, h⟩ := bind_eq_ok.mp h
  obtain ⟨resolved, hresolved, h⟩ := bind_eq_ok.mp h
  cases modified with
  | object fields' =>
    obtain rfl := Except.ok.inj hfields
    have hwritten := withMintedToken_written hadds htoken hforwarded hresolved
    split at h
    · obtain rfl := Except.ok.inj h
      exact hwritten
    · obtain ⟨update, -, h⟩ := bind_eq_ok.mp h
      obtain rfl := Except.ok.inj h
      split
      · exact hwritten
      · obtain ⟨⟨h₁, h₂, h₃, h₄, h₅, h₆, h₇, h₈, h₉, h₁₀, h₁₁⟩, htoken⟩ := hwritten
        refine ⟨⟨h₁, h₂, h₃, h₄, h₅, h₆, h₇, h₈, h₉, h₁₀, h₁₁⟩, ?_⟩
        cases htoken with
        | kept habsent htoken hat hmode => exact .kept habsent htoken hat hmode
        | minted minted hminted hm =>
          exact .minted minted hminted ⟨hm.returned, hm.notBlank, hm.audience, hm.scopes,
            hm.mintedAt, hm.expiry, hm.later, hm.header⟩
  | null | bool _ | number _ | string _ | array _ => cases hfields

/-- A returned token whose expiry overflows is refused, and not left out. -/
theorem delegationFromWorker_of_overflow (hadds : P.AddsSeconds timestamp) {now : T.Time}
    {original : DelegationPayload T} {modified : Json} {token : String} {ttl : Int64}
    (htoken : modified.get? "delegated_token" = some (.string token))
    (httl : returnedTtl (modified.get? "cache_ttl") = .ok ttl)
    (hoverflow : P.addSeconds now ttl = none) :
    ∃ e, delegationFromWorker P now original modified = .error e := by
  cases hresult : delegationFromWorker P now original modified with
  | error e => exact ⟨e, rfl⟩
  | ok p =>
    cases (delegation_written hadds hresult).2 with
    | kept habsent =>
      rw [htoken] at habsent
      rcases habsent with h | h
      · cases h
      · cases h
    | minted minted _ hm =>
      obtain ⟨ttl', httl', -, hexpires⟩ := hm.expiry
      rw [httl] at httl'
      obtain rfl := Except.ok.inj httl'
      rw [hoverflow] at hexpires
      cases hexpires

theorem delegationFromWorker_of_unknown {now : T.Time} {original : DelegationPayload T}
    {modified : Json}
    (h : CarriesUnknown (delegationResultFields ++ delegationInputFields) modified) :
    ∃ e, delegationFromWorker P now original modified = .error e := by
  cases hresult : delegationFromWorker P now original modified with
  | error e => exact ⟨e, rfl⟩
  | ok outcome =>
    obtain ⟨fields, rfl, hf⟩ := h
    obtain ⟨_, hfields, hresult⟩ := bind_eq_ok.mp hresult
    obtain rfl := Except.ok.inj hfields
    obtain ⟨_, hknown, -⟩ := bind_eq_ok.mp hresult
    exact absurd hknown (refuseUnknown_of_carries ⟨fields, rfl, hf⟩)

/-- An answer of input fields alone changes nothing. -/
theorem delegationFromWorker_inputs {now : T.Time} {original : DelegationPayload T}
    {fields : List (String × Json)} (h : ∀ f ∈ fields, f.1 ∈ delegationInputFields) :
    delegationFromWorker P now original (.object fields) = .ok original := by
  unfold delegationFromWorker
  rw [asFields, ok_bind, refuseUnknown_inputs h, ok_bind, get?_of_inputs h (by decide),
    get?_of_inputs h (by decide), get?_of_inputs h (by decide), present_of_inputs h (by decide)]
  rfl

theorem delegationToWorker_fields {original : DelegationPayload T} {sent : Json}
    (h : delegationToWorker P original = .ok sent) :
    ∃ fields, sent = .object fields ∧ ∀ f ∈ fields, f.1 ∈ delegationInputFields := by
  unfold delegationToWorker at h
  dsimp only at h
  split at h
  · obtain ⟨_, herror, -⟩ := bind_eq_ok.mp h
    cases herror
  · split at h
    · obtain ⟨_, herror, -⟩ := bind_eq_ok.mp h
      cases herror
    · obtain ⟨targetType, -, h⟩ := bind_eq_ok.mp h
      obtain ⟨authEnforcedBy, -, h⟩ := bind_eq_ok.mp h
      obtain ⟨attenuation, -, h⟩ := bind_eq_ok.mp h
      obtain rfl := Except.ok.inj h
      refine ⟨_, rfl, fun f hf => ?_⟩
      have hmem := Json.mem_of_mem_ofFields hf
      simp only [List.mem_append, List.mem_cons, List.not_mem_nil, or_false] at hmem
      rcases hmem with (((rfl | rfl | rfl | rfl) | haudience) | hdomain) | hattenuation
      · exact show "target_name" ∈ delegationInputFields by decide
      · exact show "target_type" ∈ delegationInputFields by decide
      · exact show "required_permissions" ∈ delegationInputFields by decide
      · exact show "auth_enforced_by" ∈ delegationInputFields by decide
      · rw [key_of_mem_optionalField haudience]
        decide
      · rw [key_of_mem_optionalField hdomain]
        decide
      · rw [key_of_mem_optionalField hattenuation]
        decide

/-! ## Both hooks -/

/-- What holds of the write-back of an identity, whatever the worker answers. -/
structure IdentitySound (P : Ppe T) (original : IdentityPayload T) : Prop where
  echo : ∀ sent, identityToWorker P original = .ok sent →
    identityFromWorker P original sent = .ok (.resolved original)
  kept : ∀ modified p, identityFromWorker P original modified = .ok (.resolved p) →
    IdentityKept original p
  unknown : ∀ modified, CarriesUnknown (identityResultFields ++ identityInputFields) modified →
    ∃ e, identityFromWorker P original modified = .error e
  rejected : ∀ modified p, modified.get? "rejected" = some (.bool true) →
    identityFromWorker P original modified ≠ .ok (.resolved p)

/-- What holds of the write-back of a delegation, whatever the worker answers and when. -/
structure DelegationSound (P : Ppe T) (timestamp : T.Time → Int)
    (original : DelegationPayload T) : Prop where
  echo : ∀ now sent, delegationToWorker P original = .ok sent →
    delegationFromWorker P now original sent = .ok original
  kept : ∀ now modified p, delegationFromWorker P now original modified = .ok p →
    DelegationKept original p
  unknown : ∀ now modified,
    CarriesUnknown (delegationResultFields ++ delegationInputFields) modified →
    ∃ e, delegationFromWorker P now original modified = .error e
  token : ∀ now modified p, delegationFromWorker P now original modified = .ok p →
    TokenWritten P timestamp now original p modified
  /-- A token is not minted, and not silently left out, where its expiry would overflow. -/
  overflow : ∀ now modified token ttl, modified.get? "delegated_token" = some (.string token) →
    returnedTtl (modified.get? "cache_ttl") = .ok ttl → P.addSeconds now ttl = none →
    ∃ e, delegationFromWorker P now original modified = .error e

/-- **No answer changes what was asked, and none widens what is minted.** -/
theorem write_back_sound (hadds : P.AddsSeconds timestamp) :
    (∀ original, IdentitySound P original) ∧
      ∀ original, DelegationSound P timestamp original := by
  refine ⟨fun original => ?_, fun original => ?_⟩
  · exact {
      echo := fun sent hsent => by
        obtain ⟨fields, rfl, hinputs⟩ := identityToWorker_fields hsent
        exact identityFromWorker_inputs hinputs
      kept := fun modified p h => (identity_kept h).2
      unknown := fun modified h => identityFromWorker_of_unknown h
      rejected := fun modified p hrejected h => (identity_kept h).1 hrejected }
  · exact {
      echo := fun now sent hsent => by
        obtain ⟨fields, rfl, hinputs⟩ := delegationToWorker_fields hsent
        exact delegationFromWorker_inputs hinputs
      kept := fun now modified p h => (delegation_written hadds h).1
      unknown := fun now modified h => delegationFromWorker_of_unknown h
      token := fun now modified p h => (delegation_written hadds h).2
      overflow := fun now modified token ttl htoken httl hoverflow =>
        delegationFromWorker_of_overflow hadds htoken httl hoverflow }

/-- An answer that mints a token for an hour and names its header. -/
def minting : Json := .object [("cache_ttl", .number (.posInt 3600)),
  ("delegated_token", .string "minted"),
  ("forwarded_headers", .object [("X-Billing-Token", .string "Bearer minted")])]

/-- The same for longer than a duration can be. -/
def overflowing : Json := .object [("cache_ttl", .number (.posInt 9223372036854775807)),
  ("delegated_token", .string "minted")]

theorem write_back_sound_minting :
    (∃ p, delegationFromWorker Plain.engine 1000 Plain.delegation minting = .ok p ∧
      TokenWritten Plain.engine (fun t : Nat => (t : Int)) 1000 Plain.delegation p minting) ∧
    ∃ e, delegationFromWorker Plain.engine 1000 Plain.delegation overflowing = .error e :=
  ⟨⟨_, rfl,
      ((write_back_sound Plain.plain_addsSeconds).2 Plain.delegation).token 1000 minting _ rfl⟩,
    ((write_back_sound Plain.plain_addsSeconds).2 Plain.delegation).overflow 1000 overflowing
      "minted" Int64.maxValue rfl rfl rfl⟩

end Cpex.Host
