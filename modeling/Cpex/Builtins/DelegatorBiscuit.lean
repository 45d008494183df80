import Cpex.Infra.Text
import Cpex.Host.Ppe

/-!
# The biscuit delegator

`builtins/plugins/delegator-biscuit/src/delegator.rs`. The plugin verifies the caller's biscuit,
appends a block that narrows it to one target, audience and list of operations for a time, and
mints the result as a delegated token. The biscuit library and `chrono` are not part of the
repository.

* `Chrono`, `DateTime` — clock readings, and the ranges outside of which `chrono` panics
* `BiscuitAuth` — the functions of the library
* `blockSource` — the Datalog of the block
* `BiscuitDelegator.handle` — one delegation
-/

namespace Cpex.Builtins

open Cpex.Infra Cpex.Host

/-! ## Time -/

/-- The ranges of `chrono`: of a duration in seconds, and of a date in nanoseconds since 1970. -/
structure Chrono where
  maxSeconds : Int
  earliest : Int
  latest : Int

def nanosPerSecond : Int := 1000000000

/-- A `DateTime<Utc>`. -/
structure DateTime (chrono : Chrono) where
  nanos : Int
  earliest_le : chrono.earliest ≤ nanos
  le_latest : nanos ≤ chrono.latest

variable {chrono : Chrono}

/-- `Duration::seconds`, in nanoseconds. It panics outside its range. -/
def Chrono.seconds (chrono : Chrono) (secs : Int64) : Option Int :=
  if -chrono.maxSeconds ≤ secs.toInt ∧ secs.toInt ≤ chrono.maxSeconds then
    some (secs.toInt * nanosPerSecond)
  else none

/-- `DateTime + Duration`. It panics past the representable dates. -/
def DateTime.add (t : DateTime chrono) (duration : Int) : Option (DateTime chrono) :=
  if h : chrono.earliest ≤ t.nanos + duration ∧ t.nanos + duration ≤ chrono.latest then
    some ⟨t.nanos + duration, h.1, h.2⟩
  else none

/-- `DateTime::timestamp`: whole seconds since 1970, rounded down. -/
def DateTime.timestamp (t : DateTime chrono) : Int := t.nanos / nanosPerSecond

/-- `now + Duration::seconds(ttl_secs as i64)`. -/
def expiry (now : DateTime chrono) (ttlSecs : UInt64) : Option (DateTime chrono) :=
  (chrono.seconds ttlSecs.toInt64).bind now.add

/-! ## The engine's and the library's types -/

/-- The route's narrowing constraints. -/
structure AttenuationConfig where
  capabilities : List String
  resourceTemplate : Option String
  actions : List String
  ttlSeconds : Option UInt64

/-- The outputs of a delegation, of which the plugin writes the metadata. -/
structure Outputs (T : Types) where
  metadata : HashMap String Json
  others : T.DelegationOutputs

/-- The engine's types, with those this plugin looks into. -/
abbrev types (T : Types) (chrono : Chrono) : Types :=
  { T with
    Attenuation := AttenuationConfig
    Time := DateTime chrono
    DelegationOutputs := Outputs T }

/-- What the plugin uses of `biscuit_auth`. Errors are their texts. -/
structure BiscuitAuth where
  Biscuit : Type
  BlockBuilder : Type
  PublicKey : Type
  fromBase64 : String → PublicKey → Except String Biscuit
  /-- `BlockBuilder::new().code(..)`. -/
  code : String → Except String BlockBuilder
  append : Biscuit → BlockBuilder → Except String Biscuit
  toBase64 : Biscuit → Except String String

/-- The part of `PluginResult` the plugin builds. -/
inductive PluginResult (T : Types) where
  | deny (violation : PluginViolation)
  | modifyPayload (payload : DelegationPayload T)

/-- What one call does: the source of the block it builds, if it gets there, and its result. A
call that panics has none. -/
structure Handled (T : Types) where
  source : Option String
  result : Option (PluginResult T)

/-! ## The block -/

/-- Escapes backslashes, then quotes. -/
def escapeDatalogString (s : String) : String :=
  Text.replaceChar '"' "\\\"" (Text.replaceChar '\\' "\\\\" s)

/-- The Datalog of the delegation block. -/
def blockSource (targetName audience : String) (requiredPermissions : List String)
    (expiresAtUnix : Int) : String :=
  "delegated_to(\"" ++ escapeDatalogString targetName ++ "\");" ++
    ("audience(\"" ++ escapeDatalogString audience ++ "\");") ++
    String.join (requiredPermissions.map fun perm =>
      "check if operation(\"" ++ escapeDatalogString perm ++ "\");") ++
    ("check if time($t), $t <= " ++ toString expiresAtUnix ++ ";")

/-! ## The plugin -/

/-- The plugin, built from its configuration. -/
structure BiscuitDelegator (lib : BiscuitAuth) where
  rootPublicKey : lib.PublicKey
  defaultOutboundHeader : String
  defaultTtlSeconds : UInt64

variable {T : Types} {lib : BiscuitAuth}

/-- The hint of the route if it is shorter than the configured default. -/
def BiscuitDelegator.effectiveTtlSeconds (self : BiscuitDelegator lib)
    (payload : DelegationPayload (types T chrono)) : UInt64 :=
  match payload.routeAttenuation.bind AttenuationConfig.ttlSeconds with
  | some hint => min hint self.defaultTtlSeconds
  | none => self.defaultTtlSeconds

/-- The required permissions, then the capabilities of the route that are not among them. -/
def delegatedScopes (payload : DelegationPayload (types T chrono)) : List String :=
  match payload.routeAttenuation with
  | some att => att.capabilities.foldl (fun s cap => if s.contains cap then s else s ++ [cap])
      payload.requiredPermissions
  | none => payload.requiredPermissions

/-- The payload with the minted token. -/
def minted (payload : DelegationPayload (types T chrono))
    (token : RawDelegatedToken (types T chrono)) (now : DateTime chrono) :
    DelegationPayload (types T chrono) :=
  { payload with
    delegatedToken := some token
    delegationMode := some .onBehalfOfUser
    mintedAt := some now
    outputs := { payload.outputs with
      metadata := payload.outputs.metadata.insert "delegator" (.string "biscuit") } }

/-- A denied call. -/
def denied (source : Option String) (code reason : String) : Handled T :=
  ⟨source, some (.deny (.new code reason))⟩

/-- Steps 3 to 5: appends the block, serializes and records the token. `clock` gives the readings
that are left. -/
def BiscuitDelegator.mint (self : BiscuitDelegator lib) (biscuit : lib.Biscuit)
    (payload : DelegationPayload (types T chrono)) (audience source : String) (ttlSecs : UInt64)
    (clock : Nat → DateTime chrono) : Handled (types T chrono) :=
  match lib.code source with
  | .error e => denied (some source) "delegation.attenuation_failed"
      ("delegation block Datalog parse failed: " ++ e)
  | .ok builder =>
    match lib.append biscuit builder with
    | .error e => denied (some source) "delegation.attenuation_failed"
        ("biscuit append failed: " ++ e)
    | .ok attenuated =>
      match lib.toBase64 attenuated with
      | .error e => denied (some source) "delegation.attenuation_failed"
          ("could not serialize attenuated biscuit: " ++ e)
      | .ok newBytes =>
        match expiry (clock 0) ttlSecs with
        | none => ⟨some source, none⟩
        | some expiresAt =>
          let token := {
            token := newBytes
            outboundHeader := self.defaultOutboundHeader
            audience
            scopes := delegatedScopes payload
            expiresAt }
          ⟨some source, some (.modifyPayload (minted payload token (clock 1)))⟩

/-- `handle`. `clock` gives the successive readings of the clock. -/
def BiscuitDelegator.handle (self : BiscuitDelegator lib)
    (payload : DelegationPayload (types T chrono)) (clock : Nat → DateTime chrono) :
    Handled (types T chrono) :=
  if payload.bearerToken = "" then
    denied none "delegation.bad_request" "DelegationPayload carried an empty bearer_token"
  else
    let audience := payload.targetAudience.getD ""
    if audience = "" then
      denied none "delegation.bad_request" ("target_audience missing — biscuit attenuation " ++
        "requires an audience to scope the delegation block")
    else
      match lib.fromBase64 payload.bearerToken self.rootPublicKey with
      | .error e => denied none "delegation.token_invalid"
          ("inbound biscuit verification failed against configured root public key: " ++ e)
      | .ok biscuit =>
        let ttlSecs := self.effectiveTtlSeconds payload
        match expiry (clock 0) ttlSecs with
        | none => ⟨none, none⟩
        | some expiresAt =>
          let source := blockSource payload.targetName audience payload.requiredPermissions
            expiresAt.timestamp
          self.mint biscuit payload audience source ttlSecs fun n => clock (n + 1)

end Cpex.Builtins
