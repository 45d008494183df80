import Mathlib
import Cpex.Properties.BiscuitBlock

/-!
# The expiry of a delegated biscuit

The time bound of a block and the expiry recorded on its token come from two readings of the clock,
and only the bound is rounded down to a second.

* `ChecksTime` — the time bound a block checks
* `ExpiryKept` — what is meant to hold of a call
* `Fits` — the times to live that the arithmetic can carry
* `expiry_kept_iff` — the expiry is kept exactly when the time to live fits and, if a token is
  minted, the clock stands still on a whole second
-/

namespace Cpex.Builtins

open Cpex.Infra Cpex.Infra.Datalog Cpex.Host

/-! ## The bound a block checks -/

theorem toDigits_injective {m n : Nat} (h : Nat.toDigits 10 m = Nat.toDigits 10 n) : m = n := by
  have hback := congrArg (Nat.ofDigitChars 10 · 0) h
  simpa using hback

/-- A number is written in one way. -/
theorem toString_injective {a b : Int} (h : toString a = toString b) : a = b := by
  have hsign : ∀ m n : Nat, m.repr ≠ "-" ++ n.repr := by
    intro m n heq
    have hmem : '-' ∈ Nat.toDigits 10 m := by
      rw [← Nat.toList_repr, heq, String.toList_append]
      exact List.mem_cons_self
    have hdigit := Nat.isDigit_of_mem_toDigits (by decide) (by decide) hmem
    exact absurd hdigit (by decide)
  have hinj : ∀ m n : Nat, m.repr = n.repr → m = n := by
    intro m n heq
    apply toDigits_injective
    rw [← Nat.toList_repr, ← Nat.toList_repr, heq]
  rw [Int.toString_eq_repr, Int.toString_eq_repr, Int.repr_eq_if, Int.repr_eq_if] at h
  split at h
  · next ha =>
    split at h
    · next hb =>
      have htoNat := hinj _ _ h
      omega
    · exact absurd h (hsign _ _)
  · next ha =>
    split at h
    · exact absurd h.symm (hsign _ _)
    · next hb =>
      have hrest := congrArg String.toList h
      rw [String.toList_append, String.toList_append, List.append_cancel_left_eq,
        String.toList_inj] at hrest
      have htoNat := hinj _ _ hrest
      omega

/-- The block of this source has a check that the time is at most `bound`. -/
def ChecksTime (source : String) (bound : Int) : Prop :=
  ∃ block, statements source.toList = some block ∧ (Statement.time bound).tokens ∈ block

theorem time_tokens_injective {bound bound' : Int}
    (h : (Statement.time bound).tokens = (Statement.time bound').tokens) : bound = bound' := by
  apply toString_injective
  apply String.toList_inj.mp
  have hplain := List.append_cancel_left h
  exact List.map_injective_iff.mpr (fun _ _ => Token.char.inj) hplain

/-- **A block checks the one bound it was built with.** -/
theorem checksTime_blockSource_iff {targetName audience : String} {permissions : List String}
    {bound bound' : Int} :
    ChecksTime (blockSource targetName audience permissions bound) bound' ↔ bound' = bound := by
  unfold ChecksTime
  rw [statements_blockSource]
  constructor
  · rintro ⟨block, hblock, hmem⟩
    obtain rfl := Option.some.inj hblock
    obtain ⟨statement, hstatement, heq⟩ := List.mem_map.mp hmem
    cases statement with
    | time b =>
      obtain rfl := time_tokens_injective heq
      simpa [delegationBlock] using hstatement
    | delegatedTo target =>
      have hfirst : some (Token.char 'd') = some (.char 'c') := congrArg List.head? heq
      exact absurd hfirst (by decide)
    | forAudience audience =>
      have hfirst : some (Token.char 'a') = some (.char 'c') := congrArg List.head? heq
      exact absurd hfirst (by decide)
    | operation permission =>
      have htenth : some (Token.char 'o') = some (.char 't') := congrArg (·[9]?) heq
      exact absurd htenth (by decide)
  · rintro rfl
    refine ⟨_, rfl, List.mem_map.mpr ⟨.time bound', ?_, rfl⟩⟩
    simp [delegationBlock]

/-! ## The arithmetic of the time to live -/

variable {chrono : Chrono} {T : Types} {lib : BiscuitAuth}

theorem toInt_toInt64 (n : UInt64) :
    n.toInt64.toInt = if n.toNat < 2 ^ 63 then (n.toNat : Int) else n.toNat - 2 ^ 64 := by
  have hbits : n.toInt64.toInt = n.toBitVec.toInt := rfl
  have hnat : n.toBitVec.toNat = n.toNat := rfl
  rw [hbits, BitVec.toInt_eq_toNat_cond, hnat]
  split
  · rw [if_pos (by omega)]
  · rw [if_neg (by omega)]
    rfl

theorem toInt_toInt64_eq_iff {n : UInt64} : n.toInt64.toInt = n.toNat ↔ n.toNat < 2 ^ 63 := by
  rw [toInt_toInt64]
  split
  · next h => exact iff_of_true rfl h
  · next h => exact iff_of_false (by omega) h

/-- The time to live is an `i64` that a duration holds, and the date it leads to is one. -/
structure Fits (now : DateTime chrono) (ttlSecs : UInt64) : Prop where
  cast : ttlSecs.toNat < 2 ^ 63
  duration : (ttlSecs.toNat : Int) ≤ chrono.maxSeconds
  date : now.nanos + ttlSecs.toNat * nanosPerSecond ≤ chrono.latest

variable {now expiresAt : DateTime chrono} {ttlSecs : UInt64}

theorem expiry_eq_some_iff (hcast : ttlSecs.toNat < 2 ^ 63) :
    expiry now ttlSecs = some expiresAt ↔
      Fits now ttlSecs ∧ expiresAt.nanos = now.nanos + ttlSecs.toNat * nanosPerSecond := by
  have hint := toInt_toInt64_eq_iff.mpr hcast
  have hearliest := now.earliest_le
  obtain ⟨nanos, hge, hle⟩ := expiresAt
  unfold expiry Chrono.seconds
  rw [hint]
  constructor
  · intro h
    split at h
    · next hduration =>
      rw [Option.bind_some, DateTime.add] at h
      split at h
      · next hdate =>
        rw [Option.some.injEq, DateTime.mk.injEq] at h
        exact ⟨⟨hcast, hduration.2, hdate.2⟩, h.symm⟩
      · cases h
    · cases h
  · rintro ⟨hfits, hnanos⟩
    have hduration := hfits.duration
    have hdate := hfits.date
    rw [if_pos ⟨by omega, hduration⟩, Option.bind_some, DateTime.add,
      dif_pos ⟨by unfold nanosPerSecond; omega, hdate⟩, Option.some.injEq, DateTime.mk.injEq]
    exact hnanos.symm

theorem Fits.expiry (h : Fits now ttlSecs) :
    ∃ expiresAt, expiry now ttlSecs = some expiresAt ∧
      expiresAt.nanos = now.nanos + ttlSecs.toNat * nanosPerSecond := by
  have hearliest := now.earliest_le
  have hge : chrono.earliest ≤ now.nanos + ttlSecs.toNat * nanosPerSecond := by
    unfold nanosPerSecond
    omega
  exact ⟨⟨_, hge, h.date⟩, (expiry_eq_some_iff h.cast).mpr ⟨h, rfl⟩, rfl⟩

/-- The expiry of a time to live that fits is that many whole seconds later. -/
theorem timestamp_of_expiry (h : expiresAt.nanos = now.nanos + ttlSecs.toNat * nanosPerSecond) :
    expiresAt.timestamp = now.timestamp + ttlSecs.toNat := by
  unfold DateTime.timestamp
  rw [h]
  unfold nanosPerSecond
  omega

/-! ## What is meant to hold of a call -/

/-- The smaller of the route's hint and the configured default. -/
def ttlLimit (d : BiscuitDelegator lib) (payload : DelegationPayload (types T chrono)) : Nat :=
  match payload.routeAttenuation.bind AttenuationConfig.ttlSeconds with
  | some hint => min hint.toNat d.defaultTtlSeconds.toNat
  | none => d.defaultTtlSeconds.toNat

variable {d : BiscuitDelegator lib} {payload : DelegationPayload (types T chrono)}
  {clock : Nat → DateTime chrono} {audience : String} {biscuit : lib.Biscuit}

theorem toNat_effectiveTtlSeconds :
    (d.effectiveTtlSeconds payload).toNat = ttlLimit d payload := by
  unfold BiscuitDelegator.effectiveTtlSeconds ttlLimit
  cases payload.routeAttenuation.bind AttenuationConfig.ttlSeconds with
  | none => rfl
  | some hint =>
    show (if hint ≤ d.defaultTtlSeconds then hint else d.defaultTtlSeconds).toNat =
      min hint.toNat d.defaultTtlSeconds.toNat
    split
    · next hle => exact (Nat.min_eq_left (UInt64.le_iff_toNat_le.mp hle)).symm
    · next hlt =>
      rw [UInt64.le_iff_toNat_le] at hlt
      exact (Nat.min_eq_right (by omega)).symm

/-- The call does not panic, its time to live is not wrapped, and a minted token expires no later
than the bound its block checks, which lies between the first reading of the clock and the last one
plus the time to live. -/
structure ExpiryKept (d : BiscuitDelegator lib) (payload : DelegationPayload (types T chrono))
    (clock : Nat → DateTime chrono) : Prop where
  returns : (d.handle payload clock).result ≠ none
  cast : ∀ audience biscuit, Verified d payload audience biscuit →
    (d.effectiveTtlSeconds payload).toInt64.toInt = ttlLimit d payload
  token : ∀ source updated token bound,
    d.handle payload clock = ⟨some source, some (.modifyPayload updated)⟩ →
    updated.delegatedToken = some token → ChecksTime source bound →
      token.expiresAt.nanos ≤ bound * nanosPerSecond ∧
        (clock 0).nanos ≤ bound * nanosPerSecond ∧
        bound * nanosPerSecond ≤ (clock 2).nanos + ttlLimit d payload * nanosPerSecond

/-- The block a verified call builds at the first reading of the clock. -/
def firstBlock (d : BiscuitDelegator lib) (payload : DelegationPayload (types T chrono))
    (clock : Nat → DateTime chrono) (audience : String) : String :=
  blockSource payload.targetName audience payload.requiredPermissions
    ((clock 0).timestamp + ttlLimit d payload)

/-- If the call is verified its time to live fits, and if the library then mints a token the first
two readings of the clock are one instant on a whole second. -/
def ExpirySettled (d : BiscuitDelegator lib) (payload : DelegationPayload (types T chrono))
    (clock : Nat → DateTime chrono) : Prop :=
  ∀ audience biscuit, Verified d payload audience biscuit →
    Fits (clock 0) (d.effectiveTtlSeconds payload) ∧
      ((∃ newBytes, Mints lib biscuit (firstBlock d payload clock audience) newBytes) →
        (clock 1).nanos = (clock 0).nanos ∧ nanosPerSecond ∣ (clock 0).nanos)

theorem handle_of_fits (h : Verified d payload audience biscuit)
    (hfits : Fits (clock 0) (d.effectiveTtlSeconds payload)) :
    d.handle payload clock = d.mint biscuit payload audience (firstBlock d payload clock audience)
      (d.effectiveTtlSeconds payload) fun n => clock (n + 1) := by
  obtain ⟨expiresAt, hexpiry, hnanos⟩ := hfits.expiry
  rw [handle_of_verified h, hexpiry]
  dsimp only
  rw [timestamp_of_expiry hnanos, toNat_effectiveTtlSeconds]
  rfl

/-- A call that returns and does not wrap has a time to live that fits. -/
theorem ExpiryKept.fits (hkept : ExpiryKept d payload clock)
    (h : Verified d payload audience biscuit) :
    Fits (clock 0) (d.effectiveTtlSeconds payload) := by
  have hcast := hkept.cast audience biscuit h
  rw [← toNat_effectiveTtlSeconds, toInt_toInt64_eq_iff] at hcast
  have hreturns := hkept.returns
  rw [handle_of_verified h] at hreturns
  cases hexpiry : expiry (clock 0) (d.effectiveTtlSeconds payload) with
  | none =>
    rw [hexpiry] at hreturns
    exact absurd rfl hreturns
  | some expiresAt => exact ((expiry_eq_some_iff hcast).mp hexpiry).1

/--
**The recorded expiry keeps to the checked bound exactly when the time to live fits and the clock
stands still on a whole second.** For every configured default, every hint and every clock that does
not go back: no call panics or wraps, and no token is recorded as live past the bound its block
checks, if and only if the time to live of a verified call is in range and, where a token is minted,
the first two readings are one instant on a whole second.
-/
theorem expiry_kept_iff (d : BiscuitDelegator lib) (payload : DelegationPayload (types T chrono))
    (clock : Nat → DateTime chrono) (hclock : Monotone fun n => (clock n).nanos) :
    ExpiryKept d payload clock ↔ ExpirySettled d payload clock := by
  have h01 : (clock 0).nanos ≤ (clock 1).nanos := hclock (Nat.zero_le 1)
  have h02 : (clock 0).nanos ≤ (clock 2).nanos := hclock (Nat.zero_le 2)
  have hlimit := @toNat_effectiveTtlSeconds _ _ _ d payload
  constructor
  · intro hkept audience biscuit hverified
    have hfits := hkept.fits hverified
    refine ⟨hfits, ?_⟩
    rintro ⟨newBytes, hmints⟩
    have hhandle := handle_of_fits hverified hfits
    rw [mint_of_mints hmints] at hhandle
    cases hexpiry : expiry (clock 1) (d.effectiveTtlSeconds payload) with
    | none =>
      rw [hexpiry] at hhandle
      exact absurd (congrArg Handled.result hhandle) hkept.returns
    | some expiresAt =>
      rw [hexpiry] at hhandle
      have hnanos := ((expiry_eq_some_iff hfits.cast).mp hexpiry).2
      have hbound := (hkept.token _ _ _ _ hhandle rfl (checksTime_blockSource_iff.mpr rfl)).1
      have hrecorded : expiresAt.nanos ≤
          ((clock 0).timestamp + ttlLimit d payload) * nanosPerSecond := hbound
      rw [hnanos, hlimit] at hrecorded
      unfold DateTime.timestamp nanosPerSecond at hrecorded
      unfold nanosPerSecond
      omega
  · intro hsettled
    by_cases hverified : ∃ audience biscuit, Verified d payload audience biscuit
    · obtain ⟨audience, biscuit, hverified⟩ := hverified
      obtain ⟨hfits, hstill⟩ := hsettled audience biscuit hverified
      have hcast : ∀ audience biscuit, Verified d payload audience biscuit →
          (d.effectiveTtlSeconds payload).toInt64.toInt = ttlLimit d payload := by
        intro _ _ _
        rw [toInt_toInt64_eq_iff.mpr hfits.cast, hlimit]
      have hhandle := handle_of_fits hverified hfits
      by_cases hmints : ∃ newBytes,
          Mints lib biscuit (firstBlock d payload clock audience) newBytes
      · obtain ⟨hsame, hwhole⟩ := hstill hmints
        obtain ⟨newBytes, hmints⟩ := hmints
        have hfits' : Fits (clock 1) (d.effectiveTtlSeconds payload) :=
          ⟨hfits.cast, hfits.duration, hsame ▸ hfits.date⟩
        obtain ⟨expiresAt, hexpiry, hnanos⟩ := hfits'.expiry
        rw [mint_of_mints hmints, hexpiry] at hhandle
        refine ⟨by rw [hhandle]; exact Option.some_ne_none _, hcast, ?_⟩
        intro source updated token bound hresult htoken hchecks
        rw [hhandle, Handled.mk.injEq, Option.some.injEq, Option.some.injEq,
          PluginResult.modifyPayload.injEq] at hresult
        obtain ⟨rfl, rfl⟩ := hresult
        obtain rfl := Option.some.inj htoken
        obtain rfl := checksTime_blockSource_iff.mp hchecks
        have hrecorded : (recorded d payload audience newBytes expiresAt).expiresAt.nanos =
            (clock 1).nanos + (d.effectiveTtlSeconds payload).toNat * nanosPerSecond := hnanos
        rw [hrecorded, hlimit, hsame]
        unfold DateTime.timestamp
        unfold nanosPerSecond at hwhole ⊢
        omega
      · obtain ⟨violation, hdenied⟩ :=
          mint_of_not_mints (fun bytes hm => hmints ⟨bytes, hm⟩) (d.effectiveTtlSeconds payload)
        rw [hdenied] at hhandle
        exact ⟨by rw [hhandle]; exact Option.some_ne_none _, hcast, fun _ _ _ _ hresult => by
          rw [hhandle] at hresult; cases hresult⟩
    · have hnot : ∀ audience biscuit, ¬ Verified d payload audience biscuit :=
        fun audience biscuit hv => hverified ⟨audience, biscuit, hv⟩
      obtain ⟨violation, hdenied⟩ := handle_of_not_verified clock hnot
      exact ⟨by rw [hdenied]; exact Option.some_ne_none _,
        fun audience biscuit hv => absurd hv (hnot audience biscuit),
        fun _ _ _ _ hresult => by rw [hdenied] at hresult; cases hresult⟩

/-! ## A second that passes between the readings -/

namespace Sample

/-- A clock that passes a second after its first reading. -/
def ticking : Nat → DateTime ranges
  | 0 => ⟨1760000000900000000, by decide, by decide⟩
  | _ + 1 => ⟨1760000001000000000, by decide, by decide⟩

end Sample

/-- The expiry is kept by a clock that stands still on a whole second. -/
theorem expiry_kept_still : ExpiryKept (Sample.delegator 300) (Sample.delegation "tool" ["read"])
    Sample.still :=
  (expiry_kept_iff _ _ _ monotone_const).mpr fun _ _ _ =>
    ⟨⟨by decide, by decide, by decide⟩, fun _ => ⟨rfl, ⟨1760000000, rfl⟩⟩⟩

/-- The token is recorded as live until a second after the bound, a time to live the duration cannot
hold panics, and a larger one is taken for a negative. -/
theorem expiry_not_kept :
    ¬ ExpiryKept (Sample.delegator 300) (Sample.delegation "tool" ["read"]) Sample.ticking ∧
      ((Sample.delegator 9223372036854775807).handle (Sample.delegation "tool" ["read"])
        Sample.still).result = none ∧
      (18446744073709551615 : UInt64).toInt64.toInt = -1 := by
  refine ⟨fun hkept => ?_, rfl, rfl⟩
  have hchecks : ChecksTime (blockSource "tool" "hr" ["read"] 1760000300) 1760000300 :=
    checksTime_blockSource_iff.mpr rfl
  have hexpires := (hkept.token _ _ _ _ rfl rfl hchecks).1
  exact absurd hexpires (by decide)

end Cpex.Builtins
