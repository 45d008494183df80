import Cpex.Properties.Entering

/-!
# Lengths across the C interface

Go passes each argument with its length converted to a C int. A length that becomes zero or negative
stands for "none", and one that becomes smaller cuts the argument.

* `cBytesToSlice_slice` — what is read of a Go slice
* `received_eq_sent_iff` — what is received is what was sent
* `Faithful` — what is meant to hold of a call
* `faithful_iff` — it holds exactly when two lengths survive the conversion
-/

namespace Cpex.Ffi

open Cpex.Infra Cpex.Go

variable {T : Types}

/-! ## Conversion of a length -/

/-- A length that is still positive as a C int. -/
def Counted (n : Nat) : Prop := 0 < n % Int32.size ∧ n % Int32.size ≤ cIntMax

instance (n : Nat) : Decidable (Counted n) := inferInstanceAs (Decidable (_ ∧ _))

theorem toInt_cInt (n : Nat) :
    (cInt n).toInt =
      if n % Int32.size ≤ cIntMax then ((n % Int32.size : Nat) : Int)
      else ((n % Int32.size : Nat) : Int) - Int32.size := by
  have hbmod : (cInt n).toInt = (n : Int).bmod Int32.size := Int32.toInt_ofNat'
  rw [hbmod, Int.bmod]
  unfold Int32.size cIntMax
  split <;> split <;> omega

theorem cInt_pos_iff {n : Nat} : 0 < cInt n ↔ Counted n := by
  rw [Int32.lt_iff_toInt_lt, toInt_cInt, Int32.toInt_zero]
  unfold Counted Int32.size cIntMax
  split <;> omega

/-- What is read of a Go slice: the bytes that the converted length counts. -/
theorem cBytesToSlice_slice (bytes : Bytes) :
    cBytesToSlice (slice bytes) =
      if Counted bytes.length then some (bytes.take (bytes.length % Int32.size)) else none := by
  cases bytes with
  | nil => rfl
  | cons b rest =>
    show (if cInt (b :: rest).length ≤ 0 then none
      else some ((b :: rest).take (cInt (b :: rest).length).toInt.toNat)) = _
    by_cases hcounted : Counted (b :: rest).length
    · rw [if_pos hcounted, if_neg (Int32.not_le.mpr (cInt_pos_iff.mpr hcounted)), toInt_cInt,
        if_pos hcounted.2, Int.toNat_natCast]
    · rw [if_neg hcounted, if_pos (Int32.not_lt.mp (mt cInt_pos_iff.mp hcounted))]

/-! ## What the arguments are decoded from -/

/-- A decoder refuses what is left of the encoding of a value when its end is cut off. -/
def Whole {α : Type} (read : Bytes → Except String α) (bytes : Bytes) : Prop :=
  ∀ n, 0 < n → n < bytes.length → ∃ e, read (bytes.take n) = .error e

/-- What is read of an encoding is the encoding, unless it is not decoded. -/
theorem eq_or_cut {bytes seen : Bytes} (hseen : cBytesToSlice (slice bytes) = some seen) :
    seen = bytes ∨ ∃ n, 0 < n ∧ n < bytes.length ∧ seen = bytes.take n := by
  rw [cBytesToSlice_slice] at hseen
  split at hseen
  · next hcounted =>
    obtain rfl := Option.some.inj hseen
    by_cases hlt : bytes.length % Int32.size < bytes.length
    · exact .inr ⟨_, hcounted.1, hlt, rfl⟩
    · exact .inl (List.take_of_length_le (Nat.not_lt.mp hlt))
  · cases hseen

theorem eq_of_whole {α : Type} {read : Bytes → Except String α} {bytes seen : Bytes}
    (hwhole : Whole read bytes) (hseen : cBytesToSlice (slice bytes) = some seen) {a : α}
    (hread : read seen = .ok a) : seen = bytes := by
  rcases eq_or_cut hseen with heq | ⟨n, hpos, hlt, rfl⟩
  · exact heq
  · obtain ⟨e, herror⟩ := hwhole n hpos hlt
    rw [herror] at hread
    cases hread

/-- What is received of an encoding that is decoded whole, or taken for none. -/
theorem received_of_whole {α : Type} {read : Bytes → Except String α} {bytes : Bytes}
    (hwhole : Whole read bytes)
    (hdecoded : (slice bytes).len > 0 →
      ∃ seen a, cBytesToSlice (slice bytes) = some seen ∧ read seen = .ok a) :
    cBytesToSlice (slice bytes) = (some bytes).filter fun bytes => Counted bytes.length := by
  rw [Option.filter_some]
  by_cases hcounted : Counted bytes.length
  · obtain ⟨seen, a, hseen, hread⟩ := hdecoded (cInt_pos_iff.mpr hcounted)
    rw [hseen, eq_of_whole hwhole hseen hread]
    exact (if_pos (decide_eq_true hcounted)).symm
  · rw [cBytesToSlice_slice, if_neg hcounted]
    exact (if_neg (by simpa using hcounted)).symm

/-! ## Faithful calls -/

/-- What a call sends of each argument. -/
def sent (inner : Engine T) (entry : Entry) (request : Request) : Argument → Option Bytes
  | .payload => request.payload
  | .extensions => request.extensions.join
  | .identity => if inner.hasHooksFor hookIdentityResolve then entry.identity.join else none

/-- The call `k`, whose arguments are marshalled, returns an error. -/
def Fails (L : Library T) (s : State T) (k : Nat) (inner : Engine T) : Prop :=
  ∀ (M : Msgpack T) (allocates : Nat → Bool), ∃ s' err,
    (binding L M).run s [.callC k inner allocates, .finish k] = some s' ∧
      s'.calls[k]? = some (.returned (some err))

/-- A hook is dispatched. -/
def Dispatches (step : Step T (Reply T)) : Prop := ∃ d, .dispatches d ∈ step.trace

/-- What Rust decodes and dispatches is what was sent, or the call returns an error. -/
structure Faithful (L : Library T) (inner : Engine T) (entry : Entry) (request : Request) :
    Prop where
  unmarshalled : marshal entry request = none → ∀ (s : State T) engine contextTable,
    ∃ err, s.invoke engine entry request contextTable = s.push (.returned (some err))
  /-- Where no hook is dispatched, the call fails. -/
  refused : ∀ marshalled, marshal entry request = some marshalled →
    (∀ table, ¬ Dispatches (entered L inner marshalled table)) →
    ∀ (s : State T) k engine ctHandle,
      s.calls[k]? = some (.invoking engine entry marshalled ctHandle) → Fails L s k inner
  /-- Where one is, the bytes that were decoded are those of the arguments. -/
  decoded : ∀ marshalled table, marshal entry request = some marshalled →
    Dispatches (entered L inner marshalled table) → ∀ argument bytes,
      .decodes argument bytes ∈ (entered L inner marshalled table).trace ↔
        sent inner entry request argument = some bytes
  dispatched : ∀ marshalled table d, marshal entry request = some marshalled →
    .dispatches d ∈ (entered L inner marshalled table).trace →
      d.Of L inner request.payloadType (sent inner entry request)

/-- What Go's encoder writes of a request is refused when its end is cut off. -/
structure Encoded (L : Library T) (entry : Entry) (request : Request) : Prop where
  payload : ∀ bytes, request.payload = some bytes →
    Whole L.readValue bytes ∧ Whole L.readMessage bytes ∧ Whole L.readIdentity bytes
  extensions : ∀ bytes, request.extensions = some (some bytes) → Whole L.readExtensions bytes
  identity : ∀ bytes, entry.identity = some (some bytes) → Whole L.readIdentity bytes

/-- The lengths that can stand for "none" are still positive. -/
structure Survives (inner : Engine T) (entry : Entry) (request : Request) : Prop where
  extensions : ∀ bytes, request.extensions = some (some bytes) → Counted bytes.length
  identity : inner.hasHooksFor hookIdentityResolve = true →
    ∀ bytes, entry.identity = some (some bytes) → Counted bytes.length

variable {L : Library T} {inner : Engine T} {marshalled : Marshalled} {table : Option T.Table}
  {entry : Entry} {request : Request}

/-- The arguments as they are marshalled. -/
theorem marshal_eq_some (h : marshal entry request = some marshalled) :
    marshalled.args.payloadType = request.payloadType ∧
      ∃ payload, request.payload = some payload ∧ marshalled.args.payload = slice payload ∧
      (request.extensions = none ∧ marshalled.args.extensions = slice [] ∨
        ∃ bytes, request.extensions = some (some bytes) ∧
          marshalled.args.extensions = slice bytes) ∧
      (entry.identity = none ∧ marshalled.identity = none ∨
        ∃ bytes, entry.identity = some (some bytes) ∧
          marshalled.identity = some (slice bytes)) := by
  unfold marshal at h
  cases hpayload : request.payload with
  | none =>
    rcases hidentity : entry.identity with _ | _ | identity
    all_goals
      rw [hidentity, hpayload] at h
      cases h
  | some payload =>
    rcases hextensions : request.extensions with _ | _ | extensions
    · rcases hidentity : entry.identity with _ | _ | identity
      all_goals rw [hidentity, hpayload, hextensions] at h
      · cases h
        exact ⟨rfl, payload, rfl, rfl, .inl ⟨rfl, rfl⟩, .inl ⟨rfl, rfl⟩⟩
      · cases h
      · cases h
        exact ⟨rfl, payload, rfl, rfl, .inl ⟨rfl, rfl⟩, .inr ⟨identity, rfl, rfl⟩⟩
    · rcases hidentity : entry.identity with _ | _ | identity
      all_goals
        rw [hidentity, hpayload, hextensions] at h
        cases h
    · rcases hidentity : entry.identity with _ | _ | identity
      all_goals rw [hidentity, hpayload, hextensions] at h
      · cases h
        exact ⟨rfl, payload, rfl, rfl, .inr ⟨extensions, rfl, rfl⟩, .inl ⟨rfl, rfl⟩⟩
      · cases h
      · cases h
        exact ⟨rfl, payload, rfl, rfl, .inr ⟨extensions, rfl, rfl⟩, .inr ⟨identity, rfl, rfl⟩⟩

theorem entered_coded (L : Library T) (inner : Engine T) (marshalled : Marshalled)
    (table : Option T.Table) : Coded (entered L inner marshalled table).outcome := by
  unfold entered
  split
  · exact invoked_coded L inner _ table
  · exact invokedResolved_coded L inner _ _ table

/-- The C call of either entry point. -/
theorem callC_invoking (L : Library T) (inner : Engine T) (entry : Entry)
    (marshalled : Marshalled) (s : State T) (k engine : Nat) (ctHandle : Option Addr)
    (allocates : Nat → Bool) :
    ∃ m table, ∀ r, r = writeOuts allocates m
        (if (s.engineHandle engine).isNone then .error .invalidHandle
          else (entered L inner marshalled table).outcome) →
      callC L s k (.invoking engine entry marshalled ctHandle) inner allocates =
        some { s.setCall k (.invoked engine entry ctHandle r.2.1 r.2.2) with memory := r.1 } := by
  refine ⟨asRef (takeTable s.memory ctHandle).1 (s.engineHandle engine),
    (takeTable s.memory ctHandle).2, ?_⟩
  rintro r rfl
  cases hidentity : marshalled.identity with
  | none =>
    simp only [callC, entered, hidentity]
    rfl
  | some identity =>
    simp only [callC, entered, hidentity]
    rfl

/-- The failure of a C call is the error of the Go call. -/
theorem fails_of_refused {s : State T} {k engine : Nat} {ctHandle : Option Addr}
    (hcall : s.calls[k]? = some (.invoking engine entry marshalled ctHandle))
    (hrefused : ∀ table, ∃ rc, (entered L inner marshalled table).outcome = .error rc) :
    Fails L s k inner := by
  intro M allocates
  obtain ⟨m, table, hcallC⟩ :=
    callC_invoking L inner entry marshalled s k engine ctHandle allocates
  obtain ⟨rc, hoc, hne⟩ : ∃ rc, (if (s.engineHandle engine).isNone then .error .invalidHandle
      else (entered L inner marshalled table).outcome) = .error rc ∧ rc ≠ .ok := by
    split
    · exact ⟨_, rfl, nofun⟩
    · obtain ⟨rc, hrc⟩ := hrefused table
      exact ⟨rc, hrc, fun hok => entered_coded L inner marshalled table (hok ▸ hrc)⟩
  have hstep := hcallC _ rfl
  rw [hoc] at hstep
  have hlt : k < s.calls.length := (List.getElem?_eq_some_iff.mp hcall).1
  let s₁ : State T :=
    { s.setCall k (.invoked engine entry ctHandle rc .null) with memory := m }
  have hreturned : s₁.calls[k]? = some (.invoked engine entry ctHandle rc .null) :=
    List.getElem?_set_self hlt
  have hcalls : (binding L M).step s (.callC k inner allocates) = some s₁ := by
    show s.calls[k]?.bind _ = _
    rw [hcall]
    exact hstep
  have hfinish : (binding L M).step s₁ (.finish k) =
      some (s₁.setCall k (.returned (some (.rc rc)))) := by
    show s₁.calls[k]?.bind _ = _
    rw [hreturned]
    exact if_pos hne
  refine ⟨_, .rc rc, (Machine.run_cons_eq_some _).mpr ⟨s₁, hcalls,
    (Machine.run_cons_eq_some _).mpr ⟨_, hfinish, rfl⟩⟩, ?_⟩
  have hlt₁ : k < s₁.calls.length := (List.getElem?_eq_some_iff.mp hreturned).1
  exact List.getElem?_set_self hlt₁

/-! ## Exactly when a call is faithful -/

theorem orFailed_eq_ok_iff {α : Type} {what : String} {x : Except String α} {a : α} :
    orFailed what x = .ok a ↔ x = .ok a := by
  cases x with
  | error e => simp [orFailed]
  | ok b => rfl

theorem deserializePayload_whole {payloadType : UInt8} {bytes seen : Bytes} {payload : Payload T}
    (hwhole : Whole L.readValue bytes ∧ Whole L.readMessage bytes ∧ Whole L.readIdentity bytes)
    (hseen : cBytesToSlice (slice bytes) = some seen)
    (h : deserializePayload L payloadType seen = .ok payload) : seen = bytes := by
  obtain ⟨hvalue, hmessage, hidentity⟩ := hwhole
  unfold deserializePayload at h
  split_ifs at h
  · obtain ⟨value, hread, -⟩ := map_eq_ok.mp h
    exact eq_of_whole hvalue hseen (orFailed_eq_ok_iff.mp hread)
  · obtain ⟨value, hread, -⟩ := map_eq_ok.mp h
    exact eq_of_whole hmessage hseen (orFailed_eq_ok_iff.mp hread)
  · obtain ⟨value, hread, -⟩ := map_eq_ok.mp h
    exact eq_of_whole hidentity hseen (orFailed_eq_ok_iff.mp hread)

/-- What is received of a call that is not refused. -/
theorem received_eq (hencoded : Encoded L entry request)
    (hmarshal : marshal entry request = some marshalled)
    (haccepted : Accepted L inner marshalled) (argument : Argument) :
    received inner marshalled argument =
      match argument with
      | .payload => sent inner entry request .payload
      | argument => (sent inner entry request argument).filter fun bytes =>
          Counted bytes.length := by
  obtain ⟨-, payload, hpayload, hslice, hextensions, hidentity⟩ := marshal_eq_some hmarshal
  cases argument with
  | payload =>
    obtain ⟨name, seen, decoded, -, -, hseen, hread, -⟩ := haccepted.hook
    have hsame : seen = payload :=
      deserializePayload_whole (hencoded.payload payload hpayload) (hslice ▸ hseen) hread
    show cBytesToSlice marshalled.args.payload = request.payload
    rw [hseen, hsame, hpayload]
  | extensions =>
    show cBytesToSlice marshalled.args.extensions = request.extensions.join.filter _
    rcases hextensions with ⟨hnone, hslice⟩ | ⟨bytes, hsome, hslice⟩
    · rw [hslice, hnone]
      rfl
    · have haccepts := haccepted.extensions
      rw [hslice] at haccepts ⊢
      rw [hsome]
      exact received_of_whole (hencoded.extensions bytes hsome) haccepts
  | identity =>
    show receivedIdentity inner marshalled.identity = (if _ then _ else _ : Option Bytes).filter _
    unfold receivedIdentity
    split
    · next hhook =>
      rcases hidentity with ⟨hnone, hidentity⟩ | ⟨bytes, hsome, hidentity⟩
      · rw [hidentity, hnone]
        rfl
      · rw [hidentity, hsome]
        refine received_of_whole (hencoded.identity bytes hsome) fun hlen => ?_
        obtain ⟨seen, value, hseen, hread, -⟩ := haccepted.identity _ hidentity hlen hhook
        exact ⟨seen, value, hseen, hread⟩
    · rfl

theorem filter_eq_self_iff {α : Type*} {o : Option α} {p : α → Bool} :
    o.filter p = o ↔ ∀ a, o = some a → p a = true := by
  cases o with
  | none => simp
  | some a => simp [Option.filter]

/-- What is received is what was sent, when the lengths survive. -/
theorem received_eq_sent_iff (hencoded : Encoded L entry request)
    (hmarshal : marshal entry request = some marshalled)
    (haccepted : Accepted L inner marshalled) :
    received inner marshalled = sent inner entry request ↔ Survives inner entry request := by
  constructor
  · intro heq
    have hkept : ∀ argument, argument ≠ .payload → ∀ bytes,
        sent inner entry request argument = some bytes → Counted bytes.length := by
      intro argument hne bytes hsome
      have hreceived := (received_eq hencoded hmarshal haccepted argument).symm.trans
        (congrFun heq argument)
      cases argument with
      | payload => exact absurd rfl hne
      | extensions => exact of_decide_eq_true (filter_eq_self_iff.mp hreceived bytes hsome)
      | identity => exact of_decide_eq_true (filter_eq_self_iff.mp hreceived bytes hsome)
    refine ⟨fun bytes hsome => ?_, fun hhook bytes hsome => ?_⟩
    · refine hkept .extensions nofun bytes ?_
      show request.extensions.join = some bytes
      rw [hsome]
      rfl
    · refine hkept .identity nofun bytes ?_
      show (if _ then entry.identity.join else none) = some bytes
      rw [if_pos hhook, hsome]
      rfl
  · intro hsurvives
    funext argument
    rw [received_eq hencoded hmarshal haccepted argument]
    cases argument with
    | payload => rfl
    | extensions =>
      refine filter_eq_self_iff.mpr fun bytes hsome => ?_
      exact decide_eq_true (hsurvives.extensions bytes (Option.join_eq_some_iff.mp hsome))
    | identity =>
      refine filter_eq_self_iff.mpr fun bytes hsome => ?_
      change (if _ then entry.identity.join else none) = some bytes at hsome
      split at hsome
      · next hhook =>
        exact decide_eq_true (hsurvives.identity hhook bytes (Option.join_eq_some_iff.mp hsome))
      · cases hsome

/--
**What Rust decodes and dispatches is what Go sent, or the call fails, exactly when two lengths
survive.** For every engine and codec that refuses encodings cut short, and for every call by name
or with an identity and every length of its arguments: the call is faithful if and only if, where
no argument is refused, the extensions and an identity that is to be resolved have a length that is
positive as a C int. The payload is read whole or refused.
-/
theorem faithful_iff (L : Library T) (inner : Engine T) (entry : Entry) (request : Request)
    (hencoded : Encoded L entry request) :
    Faithful L inner entry request ↔
      ∀ marshalled, marshal entry request = some marshalled → Accepted L inner marshalled →
        Survives inner entry request := by
  constructor
  · intro hfaithful marshalled hmarshal haccepted
    refine (received_eq_sent_iff hencoded hmarshal haccepted).mp ?_
    rcases entering L inner marshalled none with hrefused | htaken
    · exact absurd haccepted hrefused.unaccepted
    · funext argument
      refine Option.ext fun bytes => (htaken.decodes argument bytes).symm.trans ?_
      exact hfaithful.decoded marshalled none hmarshal htaken.dispatches argument bytes
  · intro hsurvives
    -- what a call receives, once it is taken
    have hsent : ∀ {marshalled table}, marshal entry request = some marshalled →
        Taken L inner marshalled (entered L inner marshalled table) →
        received inner marshalled = sent inner entry request := by
      intro marshalled table hmarshal htaken
      exact (received_eq_sent_iff hencoded hmarshal htaken.accepted).mpr
        (hsurvives marshalled hmarshal htaken.accepted)
    refine ⟨?_, ?_, ?_, ?_⟩
    · intro hnone s engine contextTable
      unfold State.invoke
      split
      · exact ⟨_, rfl⟩
      · rw [hnone]
        exact ⟨_, rfl⟩
    · intro marshalled hmarshal hnone s k engine ctHandle hcall
      refine fails_of_refused hcall fun table => ?_
      rcases entering L inner marshalled table with hrefused | htaken
      · exact hrefused.fails
      · exact absurd htaken.dispatches (hnone table)
    · intro marshalled table hmarshal hdispatches argument bytes
      rcases entering L inner marshalled table with hrefused | htaken
      · obtain ⟨d, hmem⟩ := hdispatches
        exact absurd hmem (hrefused.nothing d)
      · rw [htaken.decodes, hsent hmarshal htaken]
    · intro marshalled table d hmarshal hmem
      rcases entering L inner marshalled table with hrefused | htaken
      · exact absurd hmem (hrefused.nothing d)
      · have hof := htaken.dispatched d hmem
        rwa [(marshal_eq_some hmarshal).1, hsent hmarshal htaken] at hof

namespace Plain

/-- An engine whose identity hook allows. -/
def resolvingEngine : Engine types where
  exposeDelegatedCredentials := false
  hasHooksFor name := name = hookIdentityResolve
  invokeByName _ _ _ _ := .ok (allowed, ())
  waitForBackgroundTasks _ := .ok []

/-- A hook call by name, with these extensions. -/
def withExtensions (bytes : Bytes) : Request :=
  { Plain.request with extensions := some (some bytes) }

end Plain

/-- The identity hook and the named one run with the extensions that were sent. -/
theorem faithful_iff_small :
    Faithful Plain.library Plain.resolvingEngine (.invokeResolved (some Plain.mapBytes))
        (Plain.withExtensions Plain.mapBytes) ∧
      ∃ marshalled payload,
        marshal (.invokeResolved (some Plain.mapBytes)) (Plain.withExtensions Plain.mapBytes) =
          some marshalled ∧
        (entered Plain.library Plain.resolvingEngine marshalled none).trace =
          [.decodes .payload Plain.nilBytes, .decodes .extensions Plain.mapBytes,
            .decodes .identity Plain.mapBytes, .dispatches (.identity payload Plain.mapBytes),
            .dispatches (.named "h" (.generic .null) Plain.mapBytes none)] := by
  have hnil : ∀ {α : Type} (value : Bytes → α),
      Whole (fun bytes => Plain.read (value bytes) bytes) Plain.nilBytes := by
    intro α value n hpos hlt
    exact absurd hlt (Nat.not_lt.mpr hpos)
  have hmap : ∀ {α : Type} (value : Bytes → α),
      Whole (fun bytes => Plain.read (value bytes) bytes) Plain.mapBytes := by
    intro α value n hpos hlt
    have hlt : n < 4 := hlt
    obtain rfl | rfl | rfl : n = 1 ∨ n = 2 ∨ n = 3 := by omega
    · exact ⟨_, rfl⟩
    · exact ⟨_, rfl⟩
    · exact ⟨_, rfl⟩
  constructor
  · refine (faithful_iff _ _ _ _ ⟨?_, ?_, ?_⟩).mpr ?_
    · intro bytes hsome
      obtain rfl := Option.some.inj hsome
      exact ⟨hnil _, hnil _, hnil _⟩
    · intro bytes hsome
      obtain rfl := Option.some.inj (Option.some.inj hsome)
      exact hmap _
    · intro bytes hsome
      obtain rfl := Option.some.inj (Option.some.inj hsome)
      exact hmap _
    · intro marshalled _ _
      refine ⟨fun bytes hsome => ?_, fun _ bytes hsome => ?_⟩
      · obtain rfl := Option.some.inj (Option.some.inj hsome)
        decide
      · obtain rfl := Option.some.inj (Option.some.inj hsome)
        decide
  · exact ⟨_, _, rfl, rfl⟩

/-! ## Extensions that are not sent -/

/-- The map `{"k": …}` whose value is `n` zero bytes. The four bytes of its length count
`2 ^ 32 - 8`. -/
def zeros (n : Nat) : Bytes :=
  [0x81, 0xa1, 0x6b, 0xc6, 0xff, 0xff, 0xff, 0xf8] ++ List.replicate n 0

theorem length_zeros (n : Nat) : (zeros n).length = n + 8 := by
  rw [zeros, List.length_append, List.length_replicate]
  exact Nat.add_comm 8 n

/-- Extensions whose length does not survive are taken for none, and the hook is dispatched. -/
theorem entered_of_not_counted {bytes : Bytes} (h : ¬ Counted bytes.length) :
    ∃ marshalled, marshal .invokeByName (Plain.withExtensions bytes) = some marshalled ∧
      ∀ table, (entered Plain.library Plain.engine marshalled table).trace =
        [.decodes .payload Plain.nilBytes,
          .dispatches (.named "h" (.generic .null) Plain.library.defaultExtensions table)] := by
  refine ⟨⟨none, ⟨cString [0x68], payloadGeneric, slice Plain.nilBytes, slice bytes⟩⟩, rfl, ?_⟩
  intro table
  have hdefault : (decodeExtensions Plain.library (slice bytes) : Step Plain.types Bytes) =
      pure Plain.library.defaultExtensions := if_neg (mt cInt_pos_iff.mp h)
  have hname : cStrToSlice (cString [0x68]) = some "h" := rfl
  simp only [entered, invoked, invokedResult, hdefault, hname]
  rfl

/-- A length of `2 ^ 32` becomes zero: the hook runs with the default extensions. -/
theorem vast_extensions_not_read :
    (zeros 4294967288).length = 4294967296 ∧
      (∃ marshalled, marshal .invokeByName (Plain.withExtensions (zeros 4294967288)) =
          some marshalled ∧
        .dispatches (.named "h" (.generic .null) Plain.library.defaultExtensions none) ∈
          (entered Plain.library Plain.engine marshalled none).trace) ∧
      ¬ Faithful Plain.library Plain.engine .invokeByName
        (Plain.withExtensions (zeros 4294967288)) := by
  have hnot : ¬ Counted (zeros 4294967288).length := by
    rw [length_zeros]
    decide
  obtain ⟨marshalled, hmarshal, htrace⟩ := entered_of_not_counted hnot
  refine ⟨length_zeros _, ⟨marshalled, hmarshal, by rw [htrace]; simp⟩, fun hfaithful => ?_⟩
  have hdispatches : Dispatches (entered Plain.library Plain.engine marshalled none) :=
    ⟨_, by rw [htrace]; exact List.mem_cons_of_mem _ List.mem_cons_self⟩
  have hmem := (hfaithful.decoded marshalled none hmarshal hdispatches .extensions
    (zeros 4294967288)).mpr rfl
  rw [htrace] at hmem
  simp at hmem

end Cpex.Ffi
