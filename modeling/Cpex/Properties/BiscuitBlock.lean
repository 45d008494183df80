import Cpex.Infra.Datalog
import Cpex.Builtins.DelegatorBiscuit
import Cpex.Properties.PlainPpe

/-!
# The block of a delegated biscuit

The text of a delegation block is read back as its statements, whatever the strings spliced into it
are.

* `Statement`, `delegationBlock` — the statements a block is meant to have
* `statements_blockSource` — the text is read as exactly these
* `Verified`, `Mints` — the calls that reach the block, and those that mint a token
* `handle_source_statements` — the block of every call is exact
-/

namespace Cpex.Builtins

open Cpex.Infra Cpex.Infra.Datalog Cpex.Host

/-! ## The statements of a block -/

/-- A statement of a delegation block. -/
inductive Statement where
  | delegatedTo (target : String)
  | forAudience (audience : String)
  | operation (permission : String)
  | time (bound : Int)

/-- Text outside a literal, as tokens. -/
def plain (s : String) : List Token := s.toList.map .char

namespace Statement

/-- What a statement is read as. -/
def tokens : Statement → List Token
  | .delegatedTo target => plain "delegated_to(" ++ [.literal target] ++ plain ")"
  | .forAudience audience => plain "audience(" ++ [.literal audience] ++ plain ")"
  | .operation permission => plain "check if operation(" ++ [.literal permission] ++ plain ")"
  | .time bound => plain "check if time($t), $t <= " ++ plain (toString bound)

/-- A string between quotes. -/
def quoted (s : String) : List Char := '"' :: (spell s.toList ++ ['"'])

/-- How the block spells a statement, up to the semicolon. -/
def text : Statement → List Char
  | .delegatedTo target => "delegated_to(".toList ++ quoted target ++ ")".toList
  | .forAudience audience => "audience(".toList ++ quoted audience ++ ")".toList
  | .operation permission => "check if operation(".toList ++ quoted permission ++ ")".toList
  | .time bound => "check if time($t), $t <= ".toList ++ (toString bound).toList

/-- A number is digits, after a sign perhaps. -/
theorem mem_toString {bound : Int} {c : Char} (h : c ∈ (toString bound).toList) :
    c = '-' ∨ c.isDigit = true := by
  have hdigit : ∀ n : Nat, c ∈ n.repr.toList → c.isDigit = true := by
    intro n hmem
    rw [Nat.toList_repr] at hmem
    exact Nat.isDigit_of_mem_toDigits (by decide) (by decide) hmem
  rw [Int.toString_eq_repr, Int.repr_eq_if] at h
  split at h
  · exact .inr (hdigit _ h)
  · rw [String.toList_append, List.mem_append] at h
    rcases h with h | h
    · rw [show "-".toList = ['-'] from rfl, List.mem_singleton] at h
      exact .inl h
    · exact .inr (hdigit _ h)

/-- A character of another kind is not in a number. -/
theorem notMem_toString {bound : Int} {c : Char} (hsign : c ≠ '-') (hdigit : c.isDigit = false) :
    c ∉ (toString bound).toList := by
  intro h
  rcases mem_toString h with heq | hd
  · exact hsign heq
  · rw [hdigit] at hd
    cases hd

theorem lexes_text {s : String} (h : '"' ∉ s.toList) : Lexes s.toList (plain s) := lexes_plain h

theorem lexes_quoted (s : String) : Lexes (quoted s) [.literal s] := by
  have h := lexes_literal s.toList
  rwa [String.ofList_toList] at h

/-- A string in the argument place of a predicate. -/
theorem lexes_argument {start : String} (hstart : '"' ∉ start.toList) (s : String) :
    Lexes (start.toList ++ quoted s ++ ")".toList) (plain start ++ [.literal s] ++ plain ")") :=
  ((lexes_text hstart).append (lexes_quoted s)).append (lexes_text (by decide))

theorem lexes (s : Statement) : Lexes s.text s.tokens := by
  cases s with
  | delegatedTo target => exact lexes_argument (by decide) target
  | forAudience audience => exact lexes_argument (by decide) audience
  | operation permission => exact lexes_argument (by decide) permission
  | time bound =>
    have hstart : '"' ∉ "check if time($t), $t <= ".toList := by decide
    exact (lexes_text hstart).append (lexes_text (notMem_toString (by decide) rfl))

theorem semicolon_notMem_plain {s : String} (h : ';' ∉ s.toList) : .char ';' ∉ plain s := by
  intro hmem
  obtain ⟨c, hc, heq⟩ := List.mem_map.mp hmem
  obtain rfl : c = ';' := Token.char.inj heq
  exact h hc

theorem semicolon_notMem_argument {start : String} (hstart : ';' ∉ start.toList) (s : String) :
    .char ';' ∉ plain start ++ [.literal s] ++ plain ")" := by
  rw [List.mem_append, List.mem_append, List.mem_singleton]
  rintro ((h | h) | h)
  · exact semicolon_notMem_plain hstart h
  · cases h
  · exact semicolon_notMem_plain (by decide) h

theorem semicolon_notMem_tokens (s : Statement) : .char ';' ∉ s.tokens := by
  cases s with
  | delegatedTo target => exact semicolon_notMem_argument (by decide) target
  | forAudience audience => exact semicolon_notMem_argument (by decide) audience
  | operation permission => exact semicolon_notMem_argument (by decide) permission
  | time bound =>
    have hstart : ';' ∉ "check if time($t), $t <= ".toList := by decide
    have hbound : ';' ∉ (toString bound).toList := notMem_toString (by decide) rfl
    intro hmem
    rcases List.mem_append.mp hmem with h | h
    · exact semicolon_notMem_plain hstart h
    · exact semicolon_notMem_plain hbound h

end Statement

/-- The statements of a delegation block. -/
def delegationBlock (targetName audience : String) (requiredPermissions : List String)
    (bound : Int) : List Statement :=
  [.delegatedTo targetName, .forAudience audience] ++ requiredPermissions.map .operation ++
    [.time bound]

/-- The two replacements spell a string as a literal does. -/
theorem toList_escapeDatalogString (s : String) :
    (escapeDatalogString s).toList = spell s.toList := by
  unfold escapeDatalogString Text.replaceChar spell
  simp only [String.toList_ofList, List.flatMap_assoc]
  congr 1
  funext c
  unfold glyph
  by_cases hslash : c = '\\'
  · subst hslash
    rfl
  · by_cases hquote : c = '"'
    · subst hquote
      rfl
    · rw [if_neg hslash, if_neg (not_or.mpr ⟨hquote, hslash⟩), List.flatMap_cons, if_neg hquote]
      rfl

/-- A statement of one argument, as the block writes it. -/
theorem toList_argument {start opening : String} (hopen : opening.toList = start.toList ++ ['"'])
    (s : String) :
    (opening ++ escapeDatalogString s ++ "\");").toList =
      start.toList ++ Statement.quoted s ++ ")".toList ++ [';'] := by
  rw [String.toList_append, String.toList_append, hopen, toList_escapeDatalogString,
    Statement.quoted]
  simp only [List.append_assoc, List.cons_append, List.nil_append]
  rfl

theorem toList_blockSource (targetName audience : String) (requiredPermissions : List String)
    (bound : Int) :
    (blockSource targetName audience requiredPermissions bound).toList =
      (delegationBlock targetName audience requiredPermissions bound).flatMap
        fun s => s.text ++ [';'] := by
  have htarget : ("delegated_to(\"" ++ escapeDatalogString targetName ++ "\");").toList =
      (Statement.delegatedTo targetName).text ++ [';'] := toList_argument rfl targetName
  have haudience : ("audience(\"" ++ escapeDatalogString audience ++ "\");").toList =
      (Statement.forAudience audience).text ++ [';'] := toList_argument rfl audience
  have hperm : ∀ perm, ("check if operation(\"" ++ escapeDatalogString perm ++ "\");").toList =
      (Statement.operation perm).text ++ [';'] := fun perm => toList_argument rfl perm
  have htime : ("check if time($t), $t <= " ++ toString bound ++ ";").toList =
      (Statement.time bound).text ++ [';'] := by
    rw [String.toList_append, String.toList_append]
    rfl
  unfold blockSource delegationBlock
  rw [String.toList_append, String.toList_append, String.toList_append, htarget, haudience, htime,
    String.toList_join, List.flatMap_map, List.flatMap_append, List.flatMap_append,
    List.flatMap_map]
  simp only [hperm, List.flatMap_cons, List.flatMap_nil, List.append_nil]

/-- **The text of a block is read as exactly its statements**, whatever the strings are. -/
theorem statements_blockSource (targetName audience : String) (requiredPermissions : List String)
    (bound : Int) :
    statements (blockSource targetName audience requiredPermissions bound).toList =
      some ((delegationBlock targetName audience requiredPermissions bound).map
        Statement.tokens) := by
  rw [toList_blockSource]
  exact statements_flatMap Statement.lexes Statement.semicolon_notMem_tokens _

/-! ## The calls that build a block -/

variable {chrono : Chrono} {T : Types} {lib : BiscuitAuth} {d : BiscuitDelegator lib}
  {payload : DelegationPayload (types T chrono)} {clock : Nat → DateTime chrono}
  {audience source newBytes : String} {biscuit : lib.Biscuit}

/-- The call names an audience and carries a biscuit of the configured root. -/
structure Verified (d : BiscuitDelegator lib) (payload : DelegationPayload (types T chrono))
    (audience : String) (biscuit : lib.Biscuit) : Prop where
  bearer : payload.bearerToken ≠ ""
  named : payload.targetAudience = some audience
  nonempty : audience ≠ ""
  verifies : lib.fromBase64 payload.bearerToken d.rootPublicKey = .ok biscuit

theorem handle_of_verified (h : Verified d payload audience biscuit) :
    d.handle payload clock =
      match expiry (clock 0) (d.effectiveTtlSeconds payload) with
      | none => ⟨none, none⟩
      | some expiresAt => d.mint biscuit payload audience
          (blockSource payload.targetName audience payload.requiredPermissions expiresAt.timestamp)
          (d.effectiveTtlSeconds payload) fun n => clock (n + 1) := by
  unfold BiscuitDelegator.handle
  rw [if_neg h.bearer]
  dsimp only
  rw [h.named, Option.getD_some, if_neg h.nonempty]
  generalize hread : lib.fromBase64 payload.bearerToken d.rootPublicKey = read
  obtain rfl : read = .ok biscuit := hread.symm.trans h.verifies
  rfl

/-- Any other call is denied before a block is built. -/
theorem handle_of_not_verified (clock : Nat → DateTime chrono)
    (h : ∀ audience biscuit, ¬ Verified d payload audience biscuit) :
    ∃ violation, d.handle payload clock = ⟨none, some (.deny violation)⟩ := by
  unfold BiscuitDelegator.handle
  by_cases hbearer : payload.bearerToken = ""
  · rw [if_pos hbearer]
    exact ⟨_, rfl⟩
  · rw [if_neg hbearer]
    dsimp only
    cases hnamed : payload.targetAudience with
    | none => exact ⟨_, rfl⟩
    | some audience =>
      rw [Option.getD_some]
      by_cases hempty : audience = ""
      · rw [if_pos hempty]
        exact ⟨_, rfl⟩
      · rw [if_neg hempty]
        cases hverifies : lib.fromBase64 payload.bearerToken d.rootPublicKey with
        | error e => exact ⟨_, rfl⟩
        | ok biscuit => exact absurd ⟨hbearer, hnamed, hempty, hverifies⟩ (h audience biscuit)

/-- The library appends a block of this source and serializes the biscuit. -/
structure Mints (lib : BiscuitAuth) (biscuit : lib.Biscuit) (source newBytes : String) : Prop where
  appends : ∃ builder attenuated, lib.code source = .ok builder ∧
    lib.append biscuit builder = .ok attenuated ∧ lib.toBase64 attenuated = .ok newBytes

/-- The token a call records. -/
def recorded (d : BiscuitDelegator lib) (payload : DelegationPayload (types T chrono))
    (audience newBytes : String) (expiresAt : DateTime chrono) :
    RawDelegatedToken (types T chrono) where
  token := newBytes
  outboundHeader := d.defaultOutboundHeader
  audience := audience
  scopes := delegatedScopes payload
  expiresAt := expiresAt

theorem mint_of_mints (h : Mints lib biscuit source newBytes) (ttlSecs : UInt64) :
    d.mint biscuit payload audience source ttlSecs clock =
      match expiry (clock 0) ttlSecs with
      | none => ⟨some source, none⟩
      | some expiresAt => ⟨some source, some (.modifyPayload (minted payload
          (recorded d payload audience newBytes expiresAt) (clock 1)))⟩ := by
  obtain ⟨builder, attenuated, hcode, happend, hbytes⟩ := h.appends
  unfold BiscuitDelegator.mint
  rw [hcode]
  dsimp only
  rw [happend]
  dsimp only
  rw [hbytes]
  rfl

/-- A block the library refuses is a denied call. -/
theorem mint_of_not_mints (h : ∀ newBytes, ¬ Mints lib biscuit source newBytes)
    (ttlSecs : UInt64) :
    ∃ violation, d.mint biscuit payload audience source ttlSecs clock =
      ⟨some source, some (.deny violation)⟩ := by
  unfold BiscuitDelegator.mint
  cases hcode : lib.code source with
  | error e => exact ⟨_, rfl⟩
  | ok builder =>
    dsimp only
    cases happend : lib.append biscuit builder with
    | error e => exact ⟨_, rfl⟩
    | ok attenuated =>
      dsimp only
      cases hbytes : lib.toBase64 attenuated with
      | error e => exact ⟨_, rfl⟩
      | ok newBytes => exact absurd ⟨builder, attenuated, hcode, happend, hbytes⟩ (h newBytes)

/-- Whatever the library answers, the call is about the block it was given. -/
theorem mint_source (ttlSecs : UInt64) :
    (d.mint biscuit payload audience source ttlSecs clock).source = some source := by
  by_cases h : ∃ newBytes, Mints lib biscuit source newBytes
  · obtain ⟨newBytes, hmints⟩ := h
    rw [mint_of_mints hmints]
    split
    · rfl
    · rfl
  · obtain ⟨violation, hdenied⟩ := mint_of_not_mints (fun bytes hm => h ⟨bytes, hm⟩) ttlSecs
    rw [hdenied]

/-- A block is built for a verified call whose expiry can be computed, and is the block of its
payload. -/
theorem handle_source_eq_some_iff :
    (d.handle payload clock).source = some source ↔
      ∃ audience biscuit expiresAt, Verified d payload audience biscuit ∧
        expiry (clock 0) (d.effectiveTtlSeconds payload) = some expiresAt ∧
        source = blockSource payload.targetName audience payload.requiredPermissions
          expiresAt.timestamp := by
  constructor
  · intro h
    by_cases hverified : ∃ audience biscuit, Verified d payload audience biscuit
    · obtain ⟨audience, biscuit, hverified⟩ := hverified
      rw [handle_of_verified hverified] at h
      cases hexpiry : expiry (clock 0) (d.effectiveTtlSeconds payload) with
      | none =>
        rw [hexpiry] at h
        cases h
      | some expiresAt =>
        rw [hexpiry] at h
        dsimp only at h
        rw [mint_source, Option.some.injEq] at h
        exact ⟨audience, biscuit, expiresAt, hverified, rfl, h.symm⟩
    · obtain ⟨violation, hdenied⟩ := handle_of_not_verified clock
        fun audience biscuit hv => hverified ⟨audience, biscuit, hv⟩
      rw [hdenied] at h
      cases h
  · rintro ⟨audience, biscuit, expiresAt, hverified, hexpiry, rfl⟩
    rw [handle_of_verified hverified, hexpiry]
    exact mint_source _

/--
**The block is exact.** A call builds a block exactly when its bearer token is verified, it names an
audience that is not empty, and its expiry can be computed. Whatever the target, the audience and
the permissions are, the block reads as one `delegated_to` fact of the target, one `audience` fact
of the audience, one check for each required permission, in order, and the time check, and nothing
else.
-/
theorem handle_source_statements (d : BiscuitDelegator lib)
    (payload : DelegationPayload (types T chrono)) (clock : Nat → DateTime chrono) :
    ((d.handle payload clock).source.isSome = true ↔
      (∃ audience biscuit, Verified d payload audience biscuit) ∧
        ∃ expiresAt, expiry (clock 0) (d.effectiveTtlSeconds payload) = some expiresAt) ∧
    ∀ source, (d.handle payload clock).source = some source →
      ∃ audience expiresAt, payload.targetAudience = some audience ∧ audience ≠ "" ∧
        expiry (clock 0) (d.effectiveTtlSeconds payload) = some expiresAt ∧
        statements source.toList = some ((delegationBlock payload.targetName audience
          payload.requiredPermissions expiresAt.timestamp).map Statement.tokens) := by
  constructor
  · rw [Option.isSome_iff_exists]
    constructor
    · rintro ⟨source, h⟩
      obtain ⟨audience, biscuit, expiresAt, hverified, hexpiry, -⟩ :=
        handle_source_eq_some_iff.mp h
      exact ⟨⟨audience, biscuit, hverified⟩, expiresAt, hexpiry⟩
    · rintro ⟨⟨audience, biscuit, hverified⟩, expiresAt, hexpiry⟩
      exact ⟨_, handle_source_eq_some_iff.mpr
        ⟨audience, biscuit, expiresAt, hverified, hexpiry, rfl⟩⟩
  · intro source h
    obtain ⟨audience, biscuit, expiresAt, hverified, hexpiry, rfl⟩ :=
      handle_source_eq_some_iff.mp h
    exact ⟨audience, expiresAt, hverified.named, hverified.nonempty, hexpiry,
      statements_blockSource _ _ _ _⟩

/-! ## A delegation whose target is Datalog -/

namespace Sample

/-- The documented ranges of `chrono`. -/
def ranges : Chrono :=
  ⟨9223372036854775, -8334601315200000000000, 8210266876799999999999⟩

/-- A library that verifies every biscuit and appends every block. -/
def library : BiscuitAuth where
  Biscuit := String
  BlockBuilder := String
  PublicKey := String
  fromBase64 biscuit _ := .ok biscuit
  code := .ok
  append biscuit block := .ok (biscuit ++ block)
  toBase64 := .ok

def delegator (defaultTtlSeconds : UInt64) : BiscuitDelegator library :=
  ⟨"root", "Authorization", defaultTtlSeconds⟩

def delegation (targetName : String) (requiredPermissions : List String) :
    DelegationPayload (types Plain.types ranges) where
  bearerToken := "biscuit"
  actorToken := ""
  actorRole := none
  subject := .onBehalfOfUser
  targetName := targetName
  targetType := "tool"
  targetAudience := some "hr"
  requiredPermissions := requiredPermissions
  trustDomain := none
  authEnforcedBy := "target"
  routeAttenuation := none
  delegatedToken := none
  delegationMode := none
  mintedAt := none
  delegationUpdate := none
  outputs := ⟨HashMap.empty, ()⟩

/-- A clock that stands still on a whole second. -/
def still : Nat → DateTime ranges :=
  fun _ => ⟨1760000000000000000, by decide, by decide⟩

end Sample

/-- A target that closes its literal and opens a fact is one target. -/
theorem statements_of_injected_target :
    ∃ audience expiresAt,
      (Sample.delegation "a\"); admin(\"b" ["read\\"]).targetAudience = some audience ∧
      audience ≠ "" ∧ expiry (Sample.still 0) 300 = some expiresAt ∧
      statements (blockSource "a\"); admin(\"b" "hr" ["read\\"] 1760000300).toList =
        some ((delegationBlock "a\"); admin(\"b" audience ["read\\"]
          expiresAt.timestamp).map Statement.tokens) :=
  (handle_source_statements (Sample.delegator 300)
    (Sample.delegation "a\"); admin(\"b" ["read\\"]) Sample.still).2 _ rfl

end Cpex.Builtins
