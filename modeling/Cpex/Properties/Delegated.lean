import Cpex.Infra.Except
import Cpex.Infra.StableSort
import Cpex.Host.Credentials
import Cpex.Properties.PlainPpe

/-!
# Which delegated token a plugin receives

The host filters the tokens of the map by audience, sorts them by mode, subject and scopes, and
takes the first. Keys that differ in another field are ties, and among ties the enumeration order
of the map decides.

* `ForAudience`, `Least` — the tokens that match, and the keys that the preference order puts first
* `head_sort`, `sort_of_least` — the sort takes a least key, and any of them
* `Chosen` — what is returned is a matching token of the best mode, or the refusal
* `build_delegated_iff` — the result does not depend on the order of the map exactly when the tied
  tokens are one credential
-/

namespace Cpex.Host

open Cpex.Infra

variable {T : Types}

/-! ## The preference order -/

instance : Std.TransCmp compareText where
  eq_swap := by
    intro a b
    unfold compareText
    by_cases hab : a = b
    · rw [if_pos hab, if_pos hab.symm]
      rfl
    · rw [if_neg hab, if_neg (Ne.symm hab)]
      cases hlt : Json.keyOrder.lt a b with
      | true =>
        have hgt : Json.keyOrder.lt b a = false := by
          by_contra hba
          have hcycle := Json.keyOrder.trans a b a hlt (by simpa using hba)
          rw [Json.keyOrder.irrefl] at hcycle
          cases hcycle
        rw [hgt]
        rfl
      | false =>
        rw [Json.keyOrder.total a b hlt hab]
        rfl
  isLE_trans := by
    intro a b c
    unfold compareText
    by_cases hab : a = b
    · subst hab
      exact fun _ h => h
    · by_cases hbc : b = c
      · subst hbc
        exact fun h _ => h
      · rw [if_neg hab, if_neg hbc]
        intro h h'
        have hlt : Json.keyOrder.lt a b = true := by
          by_contra hnot
          rw [if_neg hnot] at h
          cases h
        have hlt' : Json.keyOrder.lt b c = true := by
          by_contra hnot
          rw [if_neg hnot] at h'
          cases h'
        rw [Json.keyOrder.trans a b c hlt hlt']
        split
        · rfl
        · rfl

instance : Std.TransCmp compareOption where
  eq_swap := by
    intro a b
    cases a with
    | none => cases b <;> rfl
    | some a =>
      cases b with
      | none => rfl
      | some b =>
        have hswap : compareText a b = (compareText b a).swap := Std.OrientedCmp.eq_swap
        exact hswap
  isLE_trans := by
    intro a b c hab hbc
    cases a with
    | none => cases c <;> rfl
    | some a =>
      cases b with
      | none => cases hab
      | some b =>
        cases c with
        | none => cases hbc
        | some c =>
          have hac : (compareText a c).isLE := Std.TransCmp.isLE_trans hab hbc
          exact hac

theorem compareTexts_eq : compareTexts = List.compareLex compareText := by
  funext as bs
  induction as generalizing bs with
  | nil => cases bs <;> rfl
  | cons a as ih =>
    cases bs with
    | nil => rfl
    | cons b bs =>
      rw [compareTexts, ih bs, List.compareLex_cons_cons]

instance : Std.TransCmp compareTexts := by
  rw [compareTexts_eq]
  infer_instance

instance : Std.TransCmp compareKeys := by
  have hmode := transCmp_on (fun k : DelegationKey => modeRank k.mode) compare
  have hsubject := transCmp_on (fun k : DelegationKey => k.subjectId) compareOption
  have hscopes := transCmp_on (fun k : DelegationKey => k.scopes) compareTexts
  exact inferInstanceAs (Std.TransCmp (compareLex
    (fun a b : DelegationKey => compare (modeRank a.mode) (modeRank b.mode))
    (compareLex (fun a b : DelegationKey => compareOption a.subjectId b.subjectId)
      (fun a b : DelegationKey => compareTexts a.scopes b.scopes))))

/-! ## Candidates -/

/-- The key and the token are for the required audience, when one is required. -/
def ForAudience (audience : Option String) (e : DelegationKey × RawDelegatedToken T) : Prop :=
  ∀ a, audience = some a → e.1.audience = a ∧ e.2.audience = a

/-- A matching entry that no matching entry precedes. -/
structure Least (m : HashMap DelegationKey (RawDelegatedToken T)) (audience : Option String)
    (e : DelegationKey × RawDelegatedToken T) : Prop where
  mem : e ∈ m.entries
  forAudience : ForAudience audience e
  least : ∀ e' ∈ m.entries, ForAudience audience e' → compareKeys e.1 e'.1 ≠ .gt

/-- The entries that match, in the order they are tried. -/
def sortedCandidates (m : HashMap DelegationKey (RawDelegatedToken T)) (audience : Option String) :
    List (DelegationKey × RawDelegatedToken T) :=
  (m.entries.filter fun e =>
    audience.all fun a => e.1.audience == a && e.2.audience == a).insertionSort
      fun left right => compareKeys left.1 right.1 ≠ .gt

variable {m m' : HashMap DelegationKey (RawDelegatedToken T)} {audience : Option String}
  {e : DelegationKey × RawDelegatedToken T}

theorem all_audience_iff :
    (audience.all fun a => e.1.audience == a && e.2.audience == a) = true ↔
      ForAudience audience e := by
  cases audience with
  | none => simp [ForAudience]
  | some a => simp [ForAudience]

theorem mem_sortedCandidates :
    e ∈ sortedCandidates m audience ↔ e ∈ m.entries ∧ ForAudience audience e := by
  rw [sortedCandidates, List.mem_insertionSort, List.mem_filter, all_audience_iff]

/-- The sort takes a least entry. -/
theorem head_sort {rest : List (DelegationKey × RawDelegatedToken T)}
    (h : sortedCandidates m audience = e :: rest) : Least m audience e := by
  have hmem : e ∈ sortedCandidates m audience := h ▸ List.mem_cons_self
  obtain ⟨hentry, haud⟩ := mem_sortedCandidates.mp hmem
  have hkeys := transCmp_on (fun e : DelegationKey × RawDelegatedToken T => e.1) compareKeys
  have hsorted : (sortedCandidates m audience).Pairwise
      fun left right => compareKeys left.1 right.1 ≠ .gt :=
    pairwise_sortBy (fun left right : DelegationKey × RawDelegatedToken T =>
      compareKeys left.1 right.1) _
  rw [h] at hsorted
  refine ⟨hentry, haud, fun e' hmem' haud' => ?_⟩
  have hcandidate : e' ∈ e :: rest := h ▸ mem_sortedCandidates.mpr ⟨hmem', haud'⟩
  rcases List.mem_cons.mp hcandidate with rfl | hrest
  · have hself : compareKeys e'.1 e'.1 = .eq := Std.ReflCmp.compare_self
    rw [hself]
    decide
  · exact List.rel_of_pairwise_cons hsorted hrest

/-- And any least entry, when the map enumerates it first. -/
theorem sort_of_least {rest : List (DelegationKey × RawDelegatedToken T)}
    (h : Least m audience e) (hfirst : m.entries = e :: rest) :
    ∃ others, sortedCandidates m audience = e :: others := by
  have hmatch := all_audience_iff.mpr h.forAudience
  rw [sortedCandidates, hfirst, List.filter_cons, if_pos hmatch]
  refine ⟨_, List.insertionSort_cons_of_forall_rel _ fun e' he' => ?_⟩
  obtain ⟨hmem, haud⟩ := List.mem_filter.mp he'
  exact h.least e' (hfirst ▸ List.mem_cons_of_mem e hmem) (all_audience_iff.mp haud)

/-! ## Enumeration orders -/

theorem Least.same (h : Least m audience e) (hsame : HashMap.Same m' m) : Least m' audience e where
  mem := hsame.mem_iff.mpr h.mem
  forAudience := h.forAudience
  least := fun e' hmem haud => h.least e' (hsame.mem_iff.mp hmem) haud

/-! ## What is returned -/

/-- Two tokens that go out as one credential, or as the same refusal of an empty one. -/
def SameCredential (t t' : RawDelegatedToken T) : Prop :=
  (Text.isBlank t.token = true ∧ Text.isBlank t'.token = true) ∨
    (t.token = t'.token ∧ t.outboundHeader = t'.outboundHeader ∧ t.audience = t'.audience ∧
      t.scopes = t'.scopes)

theorem delegatedFromToken_eq_iff {t t' : RawDelegatedToken T} {hook : String} :
    delegatedFromToken t hook = delegatedFromToken t' hook ↔ SameCredential t t' := by
  unfold delegatedFromToken SameCredential
  rw [ite_error_eq_iff, DelegatedCredential.mk.injEq]
  intro h
  rw [(DelegatedCredential.mk.inj h).1]

/-- A request whose map of delegated tokens is this one. -/
def withDelegated (ext : Extensions T) (inbound : HashMap TokenRole RawInboundToken)
    (m : HashMap DelegationKey (RawDelegatedToken T)) : Extensions T :=
  { ext with rawCredentials := some ⟨inbound, m⟩ }

variable {ext : Extensions T} {inbound : HashMap TokenRole RawInboundToken} {hook : String}

/-- The refusal names the audience that had no token. -/
def noDelegatedToken (hook : String) (audience : Option String) : HostError :=
  let scope := (audience.map fun audience => s!" for audience '{audience}'").getD ""
  .credential (s!"plugin declared '{capReadDelegated}' for hook '{hook}' but " ++
    s!"no delegated token{scope} is present — refusing to dispatch without it, and " ++
    "refusing to substitute a token minted for a different audience")

theorem buildDelegated_eq :
    buildDelegated (withDelegated ext inbound m) hook audience =
      match sortedCandidates m audience with
      | [] => .error (noDelegatedToken hook audience)
      | e :: _ => delegatedFromToken e.2 hook := by
  cases hsort : sortedCandidates m audience with
  | nil =>
    unfold sortedCandidates at hsort
    simp only [buildDelegated, withDelegated, noDelegatedToken, hsort]
  | cons e rest =>
    unfold sortedCandidates at hsort
    simp only [buildDelegated, withDelegated, hsort]

/--
What may be returned: the wire form of a token for the audience whose mode no other beats, and a
refusal when no token is for the audience.
-/
structure Chosen (m : HashMap DelegationKey (RawDelegatedToken T)) (audience : Option String)
    (hook : String) (result : Except HostError DelegatedCredential) : Prop where
  token : ∀ credential, result = .ok credential → ∃ e ∈ m.entries, ForAudience audience e ∧
    delegatedFromToken e.2 hook = .ok credential ∧
      ∀ e' ∈ m.entries, ForAudience audience e' → modeRank e.1.mode ≤ modeRank e'.1.mode
  refused : (∀ e ∈ m.entries, ¬ ForAudience audience e) →
    result = .error (noDelegatedToken hook audience)

theorem sortedCandidates_eq_nil_iff :
    sortedCandidates m audience = [] ↔ ∀ e ∈ m.entries, ¬ ForAudience audience e := by
  rw [List.eq_nil_iff_forall_not_mem]
  refine forall_congr' fun e => ?_
  rw [mem_sortedCandidates]
  exact not_and

/-- A least entry has a mode that none beats. -/
theorem modeRank_le_of_compareKeys {k k' : DelegationKey} (h : compareKeys k k' ≠ .gt) :
    modeRank k.mode ≤ modeRank k'.mode := by
  by_contra hgt
  have hcompare : compare (modeRank k.mode) (modeRank k'.mode) = .gt :=
    Nat.compare_eq_gt.mpr (by omega)
  refine h ?_
  rw [compareKeys, hcompare]
  rfl

theorem chosen_buildDelegated :
    Chosen m audience hook (buildDelegated (withDelegated ext inbound m) hook audience) where
  token := by
    intro credential hok
    rw [buildDelegated_eq] at hok
    cases hsort : sortedCandidates m audience with
    | nil =>
      rw [hsort] at hok
      cases hok
    | cons e rest =>
      rw [hsort] at hok
      have hleast := head_sort hsort
      exact ⟨e, hleast.mem, hleast.forAudience, hok,
        fun e' hmem haud => modeRank_le_of_compareKeys (hleast.least e' hmem haud)⟩
  refused := by
    intro hnone
    rw [buildDelegated_eq, sortedCandidates_eq_nil_iff.mpr hnone]

/-! ## Exactly when the order of the map does not matter -/

/-- The matching tokens under the least keys are one credential. -/
def TiesAgree (m : HashMap DelegationKey (RawDelegatedToken T)) (audience : Option String) : Prop :=
  ∀ e e', Least m audience e → Least m audience e' → SameCredential e.2 e'.2

/-- Under some order of the map, the result is that of any least entry. -/
theorem exists_order_of_least (ext : Extensions T) (inbound : HashMap TokenRole RawInboundToken)
    (hook : String) (h : Least m audience e) :
    ∃ m', HashMap.Same m' m ∧
      buildDelegated (withDelegated ext inbound m') hook audience =
        delegatedFromToken e.2 hook := by
  obtain ⟨m', rest, hsame, hentries⟩ := HashMap.exists_first h.mem
  obtain ⟨others, hsort⟩ := sort_of_least (h.same hsame) hentries
  refine ⟨m', hsame, ?_⟩
  rw [buildDelegated_eq, hsort]

/--
**The selection is minimal and fails closed, and does not depend on the order of the map exactly
when the tied tokens are one credential.** For every map of delegated tokens, every required
audience and hook: all enumeration orders of the map give one result, which is a matching token of
the best mode or the refusal, if and only if the matching tokens whose mode, subject and scopes come
first go out as one credential.
-/
theorem build_delegated_iff (ext : Extensions T) (inbound : HashMap TokenRole RawInboundToken)
    (m : HashMap DelegationKey (RawDelegatedToken T)) (hook : String) (audience : Option String) :
    ((∀ m₁ m₂, HashMap.Same m₁ m → HashMap.Same m₂ m →
        buildDelegated (withDelegated ext inbound m₁) hook audience =
          buildDelegated (withDelegated ext inbound m₂) hook audience) ∧
      Chosen m audience hook (buildDelegated (withDelegated ext inbound m) hook audience)) ↔
    TiesAgree m audience := by
  constructor
  · rintro ⟨horder, -⟩ e e' h h'
    obtain ⟨m₁, hsame₁, hresult₁⟩ := exists_order_of_least ext inbound hook h
    obtain ⟨m₂, hsame₂, hresult₂⟩ := exists_order_of_least ext inbound hook h'
    have heq := horder m₁ m₂ hsame₁ hsame₂
    rw [hresult₁, hresult₂] at heq
    exact delegatedFromToken_eq_iff.mp heq
  · intro hties
    refine ⟨fun m₁ m₂ hsame₁ hsame₂ => ?_, chosen_buildDelegated⟩
    rw [buildDelegated_eq, buildDelegated_eq]
    cases hsort₁ : sortedCandidates m₁ audience with
    | nil =>
      have hnone := sortedCandidates_eq_nil_iff.mp hsort₁
      have hsort₂ : sortedCandidates m₂ audience = [] :=
        sortedCandidates_eq_nil_iff.mpr fun e he =>
          hnone e (hsame₁.mem_iff.mpr (hsame₂.mem_iff.mp he))
      rw [hsort₂]
    | cons e₁ rest₁ =>
      have hleast₁ := (head_sort hsort₁).same hsame₁.symm
      cases hsort₂ : sortedCandidates m₂ audience with
      | nil =>
        have hnone := sortedCandidates_eq_nil_iff.mp hsort₂
        exact absurd hleast₁.forAudience (hnone e₁ (hsame₂.mem_iff.mpr hleast₁.mem))
      | cons e₂ rest₂ =>
        have hleast₂ := (head_sort hsort₂).same hsame₂.symm
        exact delegatedFromToken_eq_iff.mpr (hties e₁ e₂ hleast₁ hleast₂)

/-! ## A map with two tied tokens -/

/-- A token that acts for alice at one audience, and its key. -/
def aliceToken (audience token : String) :
    DelegationKey × RawDelegatedToken Plain.types :=
  ({ mode := .onBehalfOfUser, subjectId := some "alice", audience, scopes := []
     delegatorName := none, targetName := none },
    { token, outboundHeader := "Authorization", audience, scopes := [], expiresAt := 0 })

def billingFirst : HashMap DelegationKey (RawDelegatedToken Plain.types) :=
  ⟨[aliceToken "billing" "B", aliceToken "calendar" "C"], by decide⟩

def calendarFirst : HashMap DelegationKey (RawDelegatedToken Plain.types) :=
  ⟨[aliceToken "calendar" "C", aliceToken "billing" "B"], by decide⟩

/-- A request that carries nothing else. -/
def bareExtensions : Extensions Plain.types where
  slot := fun _ => none
  http := none
  security := none
  delegation := none
  custom := none
  rawCredentials := none
  httpWriteToken := false
  labelsWriteToken := false
  delegationWriteToken := false

/-- With no audience to filter on, the order of the map picks the upstream. -/
theorem map_order_picks_token :
    HashMap.Same calendarFirst billingFirst ∧
      buildDelegated (withDelegated bareExtensions HashMap.empty billingFirst)
        "token.delegate" none = .ok ⟨"B", "Authorization", "billing", []⟩ ∧
      buildDelegated (withDelegated bareExtensions HashMap.empty calendarFirst)
        "token.delegate" none = .ok ⟨"C", "Authorization", "calendar", []⟩ :=
  ⟨HashMap.same_of_perm (List.Perm.swap _ _ _), rfl, rfl⟩

end Cpex.Host
