import Cpex.Ffi.Invoke
import Cpex.Infra.StableSort
import Cpex.Properties.PlainFfi

/-!
# The order of the delegated credentials

The listing of the delegated credentials is sorted by target, audience and header. Tokens that
share all three are ties, and among ties the enumeration order of the map shows.

* `credentialOf`, `Offers` — the entry of a token, and whether there is a listing
* `Listing` — what is meant to hold of the listing of a map
* `listing_iff` — it holds exactly when the tied tokens give one entry
-/

namespace Cpex.Ffi

open Cpex.Infra

variable {T : Types} {L : Library T} {inner : Engine T} {result : PipelineResult T}

/-! ## The comparator -/

instance : Std.TransCmp compareText := transCmp_on String.toList compare

theorem compareText_eq_iff {a b : String} : compareText a b = .eq ↔ a = b := by
  rw [← String.toList_inj]
  unfold compareText
  exact Std.LawfulEqCmp.compare_eq_iff_eq

instance : Std.TransCmp compareCredentials := by
  have htarget := transCmp_on FfiDelegatedCredential.target compareText
  have haudience := transCmp_on FfiDelegatedCredential.audience compareText
  have hheader := transCmp_on FfiDelegatedCredential.header compareText
  exact inferInstanceAs (Std.TransCmp (compareLex
    (fun a b : FfiDelegatedCredential => compareText a.target b.target)
    (compareLex (fun a b : FfiDelegatedCredential => compareText a.audience b.audience)
      (fun a b : FfiDelegatedCredential => compareText a.header b.header))))

/-- The sort tells two entries apart by target, audience and header. -/
theorem compareCredentials_eq_iff {a b : FfiDelegatedCredential} :
    compareCredentials a b = .eq ↔
      a.target = b.target ∧ a.audience = b.audience ∧ a.header = b.header := by
  rw [compareCredentials, Ordering.then_eq_eq, Ordering.then_eq_eq, compareText_eq_iff,
    compareText_eq_iff, compareText_eq_iff]

/-! ## The listing -/

/-- The codec with this map behind every extensions value. -/
def Library.holding (L : Library T) (m : HashMap (DelegationKey T) (DelegatedToken T)) :
    Library T :=
  { L with delegatedTokens := fun _ => some m.entries }

/-- The entry of a token. -/
def credentialOf (L : Library T) (e : DelegationKey T × DelegatedToken T) :
    FfiDelegatedCredential where
  header := e.2.outboundHeader
  value := e.2.outboundPrefix ++ e.2.token
  delegator := e.1.delegatorName
  target := e.1.targetName
  audience := e.2.audience
  scopes := e.2.scopes
  expiresAt := L.toRfc3339 e.2.expiresAt

/-- The host opted in, and the result is an allowed one that modified extensions. -/
def Offers (inner : Engine T) (result : PipelineResult T) : Prop :=
  inner.exposeDelegatedCredentials = true ∧ result.continueProcessing = true ∧
    result.modifiedExtensions.isSome = true

variable {m m₁ m₂ : HashMap (DelegationKey T) (DelegatedToken T)}

/-- The entries of the minted tokens, in the order of the map. -/
def credentials (L : Library T) (m : HashMap (DelegationKey T) (DelegatedToken T)) :
    List FfiDelegatedCredential :=
  (m.entries.filter fun e => !Text.isBlank e.2.token).map (credentialOf L)

theorem listing_of_offers (h : Offers inner result) :
    hostDelegatedCredentials (L.holding m) inner result =
      sortBy compareCredentials (credentials L m) := by
  obtain ⟨hexpose, hallowed, hmodified⟩ := h
  obtain ⟨extensions, hextensions⟩ := Option.isSome_iff_exists.mp hmodified
  unfold hostDelegatedCredentials
  rw [hexpose, hallowed, hextensions]
  rfl

theorem listing_of_not_offers (h : ¬ Offers inner result) :
    hostDelegatedCredentials (L.holding m) inner result = [] := by
  unfold hostDelegatedCredentials
  split
  · rfl
  · next hgate =>
    cases hextensions : result.modifiedExtensions with
    | none => rfl
    | some extensions =>
      refine absurd ?_ h
      rw [Offers, hextensions]
      simpa using hgate

/--
What is meant to hold of the listing of a map. It is one list, however the map is enumerated, and
it has one entry for each token that was minted, when there is a listing.
-/
structure Listing (L : Library T) (inner : Engine T) (result : PipelineResult T)
    (m : HashMap (DelegationKey T) (DelegatedToken T)) : Prop where
  stable : ∀ m₁ m₂ : HashMap (DelegationKey T) (DelegatedToken T), m₁.entries.Perm m.entries →
    m₂.entries.Perm m.entries →
      hostDelegatedCredentials (L.holding m₁) inner result =
        hostDelegatedCredentials (L.holding m₂) inner result
  complete : Offers inner result →
    (hostDelegatedCredentials (L.holding m) inner result).Perm (credentials L m)
  closed : ¬ Offers inner result → hostDelegatedCredentials (L.holding m) inner result = []

/-- Minted tokens that the sort does not tell apart give one entry. -/
def TiesAgree (L : Library T) (m : HashMap (DelegationKey T) (DelegatedToken T)) : Prop :=
  ∀ e ∈ m.entries, ∀ e' ∈ m.entries, Text.isBlank e.2.token = false →
    Text.isBlank e'.2.token = false → e.1.targetName = e'.1.targetName →
      e.2.audience = e'.2.audience → e.2.outboundHeader = e'.2.outboundHeader →
        credentialOf L e = credentialOf L e'

/-- What a tie comes to between two entries of the listing. -/
theorem credentials_agree (h : TiesAgree L m) : ∀ a ∈ credentials L m, ∀ b ∈ credentials L m,
    compareCredentials a b = .eq → a = b := by
  intro a ha b hb heq
  obtain ⟨e, he, rfl⟩ := List.mem_map.mp ha
  obtain ⟨e', he', rfl⟩ := List.mem_map.mp hb
  obtain ⟨hmem, hminted⟩ := List.mem_filter.mp he
  obtain ⟨hmem', hminted'⟩ := List.mem_filter.mp he'
  obtain ⟨htarget, haudience, hheader⟩ := compareCredentials_eq_iff.mp heq
  exact h e hmem e' hmem' (Bool.not_eq_true' _ ▸ hminted) (Bool.not_eq_true' _ ▸ hminted') htarget
    haudience hheader

theorem perm_credentials (h : m₁.entries.Perm m₂.entries) :
    (credentials L m₁).Perm (credentials L m₂) := (h.filter _).map _

/-- A minted token that is enumerated first is the first of its entries. -/
theorem credentials_of_first {e : DelegationKey T × DelegatedToken T}
    {rest : List (DelegationKey T × DelegatedToken T)} (hminted : Text.isBlank e.2.token = false)
    (h : m.entries = e :: rest) : ∃ others, credentials L m = credentialOf L e :: others := by
  refine ⟨(rest.filter fun e => !Text.isBlank e.2.token).map (credentialOf L), ?_⟩
  rw [credentials, h, List.filter_cons, hminted]
  rfl

/--
**The listing is stable exactly when the tied tokens give one entry.** For every map of delegated
tokens, every engine and every result: each enumeration of the map gives one listing, which has one
entry for each minted token, or nothing where the host is offered nothing, if and only if the minted
tokens with the same target, audience and header give the same entry, where there is a listing.
-/
theorem listing_iff (L : Library T) (inner : Engine T) (result : PipelineResult T)
    (m : HashMap (DelegationKey T) (DelegatedToken T)) :
    Listing L inner result m ↔ (Offers inner result → TiesAgree L m) := by
  constructor
  · intro h hoffers e he e' he' hminted hminted' htarget haudience hheader
    obtain ⟨m₁, rest₁, hperm₁, hfirst₁⟩ := HashMap.exists_enumeration he
    obtain ⟨m₂, rest₂, hperm₂, hfirst₂⟩ := HashMap.exists_enumeration he'
    obtain ⟨others₁, hothers₁⟩ := credentials_of_first (L := L) hminted hfirst₁
    obtain ⟨others₂, hothers₂⟩ := credentials_of_first (L := L) hminted' hfirst₂
    have hsorts := h.stable m₁ m₂ hperm₁ hperm₂
    rw [listing_of_offers hoffers, listing_of_offers hoffers, hothers₁, hothers₂] at hsorts
    exact head_eq_of_sortBy_eq
      (compareCredentials_eq_iff.mpr ⟨htarget, haudience, hheader⟩) hsorts
  · intro hties
    by_cases hoffers : Offers inner result
    · refine ⟨fun m₁ m₂ hperm₁ hperm₂ => ?_, fun _ => ?_, fun hnot => absurd hoffers hnot⟩
      · have hagree : ∀ a ∈ credentials L m₁, ∀ b ∈ credentials L m₁,
            compareCredentials a b = .eq → a = b := fun a ha b hb =>
          credentials_agree (hties hoffers) a ((perm_credentials hperm₁).mem_iff.mp ha) b
            ((perm_credentials hperm₁).mem_iff.mp hb)
        rw [listing_of_offers hoffers, listing_of_offers hoffers]
        exact sortBy_eq_of_perm (perm_credentials (hperm₁.trans hperm₂.symm)) hagree
      · rw [listing_of_offers hoffers]
        exact perm_sortBy _ _
    · refine ⟨fun m₁ m₂ _ _ => ?_, fun h => absurd h hoffers, fun _ => ?_⟩
      · rw [listing_of_not_offers hoffers, listing_of_not_offers hoffers]
      · exact listing_of_not_offers hoffers

/-! ## Two delegators for one target -/

/-- A token for the billing service, minted by this delegator. -/
def billingToken (delegator : String) :
    DelegationKey Plain.types × DelegatedToken Plain.types :=
  (⟨delegator, "billing", ()⟩, ⟨delegator, "Authorization", "Bearer ", "billing", [], ()⟩)

def oauthFirst : HashMap (DelegationKey Plain.types) (DelegatedToken Plain.types) :=
  ⟨[billingToken "oauth", billingToken "biscuit"], by simp [billingToken]⟩

def biscuitFirst : HashMap (DelegationKey Plain.types) (DelegatedToken Plain.types) :=
  ⟨[billingToken "biscuit", billingToken "oauth"], by simp [billingToken]⟩

def exposing : Engine Plain.types := { Plain.engine with exposeDelegatedCredentials := true }

def delegating : PipelineResult Plain.types := { Plain.allowed with modifiedExtensions := some [] }

/-- **The listing follows the enumeration of the map.** -/
theorem listing_follows_map :
    biscuitFirst.entries.Perm oauthFirst.entries ∧
    (hostDelegatedCredentials (Plain.library.holding oauthFirst) exposing delegating).map
      FfiDelegatedCredential.value = ["Bearer oauth", "Bearer biscuit"] ∧
    (hostDelegatedCredentials (Plain.library.holding biscuitFirst) exposing delegating).map
      FfiDelegatedCredential.value = ["Bearer biscuit", "Bearer oauth"] ∧
    ¬ Listing Plain.library exposing delegating oauthFirst := by
  have hperm : biscuitFirst.entries.Perm oauthFirst.entries := List.Perm.swap _ _ _
  have hoauth : (hostDelegatedCredentials (Plain.library.holding oauthFirst) exposing
      delegating).map FfiDelegatedCredential.value = ["Bearer oauth", "Bearer biscuit"] := by
    decide +kernel
  have hbiscuit : (hostDelegatedCredentials (Plain.library.holding biscuitFirst) exposing
      delegating).map FfiDelegatedCredential.value = ["Bearer biscuit", "Bearer oauth"] := by
    decide +kernel
  refine ⟨hperm, hoauth, hbiscuit, fun hlisting => ?_⟩
  have hsame := hlisting.stable oauthFirst biscuitFirst (List.Perm.refl _) hperm
  rw [hsame, hbiscuit] at hoauth
  exact absurd hoauth (by decide)

end Cpex.Ffi
