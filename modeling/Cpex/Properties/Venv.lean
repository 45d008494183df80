import Cpex.Host.Ensure

/-!
# When `ensure` tells the truth

An `ensure` that returns `Ok` promises that the requirements file, when there is one, is installed
in the venv that exists now. The verdict behind a cache hit is read off a metadata file, and the
metadata file outlives the directory it describes.

* `Sound` — the invariant: what the metadata files, the running call and the last answer say of
  the venv
* `MetadataDescribesVenv` — no hit is read off metadata older than the venv
* `sound_step` — every step that meets the conditions keeps the invariant
-/

namespace Cpex.Host.Venv

open Cpex.Infra

variable {ι : Type*} {T : Tenants ι} {sha256 : Bytes → String} {K : Set Bytes}
  {w w' : World ι} {i : ι}

/-- A requirements file whose contents are among the installed ones, or that is not there. -/
def Holds (installed : List Bytes) : File → Prop
  | .absent => True
  | .unreadable => False
  | .contents bytes => bytes ∈ installed

instance (installed : List Bytes) (f : File) : Decidable (Holds installed f) := by
  unfold Holds
  split <;> infer_instance

/-- The metadata records no requirements file, or the digest of installed contents. -/
def Truthful (sha256 : Bytes → String) (K : Set Bytes) (installed : List Bytes)
    (m : CacheMetadata) : Prop :=
  (m.requirementsFile = none ∧ m.requirementsHash = sha256 []) ∨
    (m.requirementsFile ≠ none ∧ ∃ bytes ∈ installed, bytes ∈ K ∧
      m.requirementsHash = sha256 bytes)

/-- What the running call has seen is installed. -/
def Seen (installed : List Bytes) : Phase ι → Prop
  | .claiming _ f | .registering _ _ _ f | .saving _ _ _ f => Holds installed f
  | .idle | .preparing _ _ | .creating _ | .installing _ _ => True

/-! ## Conditions on the steps -/

/-- Only contents of `K` are ever written to a file. -/
def KnownContents (K : Set Bytes) : Label ι → Prop
  | .edit _ (.contents bytes) => bytes ∈ K
  | _ => True

/-- Files are edited between calls. -/
def EditsBetweenCalls (w : World ι) : Label ι → Prop
  | .edit _ _ => w.phase = .idle
  | _ => True

/--
A `Valid` verdict about a requirements file that exists is read off metadata written since the
venv was last deleted or created, and the file can be read and is not an empty one that this
metadata does not record.
-/
def MetadataDescribesVenv (T : Tenants ι) (sha256 : Bytes → String) (w : World ι) :
    Label ι → Prop
  | .ensure i =>
    w.cacheVerdict T sha256 i = .valid → (w.requirements T i).exists? = true →
      w.written (T.manager i).layout.metadataPath = w.incarnation ∧
        w.requirements T i ≠ .unreadable ∧
        (w.requirements T i = .contents [] →
          (w.metadata (T.manager i).layout.metadataPath).recordsRequirements = true)
  | _ => True

/--
The requirements file, when it exists, is at a hit's return what the verdict hashed, and when
`save_metadata` hashes it what pip read.
-/
def FileUnchanged (T : Tenants ι) (w : World ι) : Label ι → Prop
  | .register .ok =>
    match w.phase with
    | .claiming i hashed =>
      (w.requirements T i).exists? = true → w.requirements T i = hashed
    | _ => True
  | .save .ok =>
    match w.phase with
    | .saving i _ _ read => (w.requirements T i).exists? = true → w.requirements T i = read
    | _ => True
  | _ => True

instance [DecidablePred (· ∈ K)] : ∀ l : Label ι, Decidable (KnownContents K l)
  | .edit _ (.contents bytes) => inferInstanceAs (Decidable (bytes ∈ K))
  | .edit _ .absent | .edit _ .unreadable | .ensure _ | .prepare _ | .create _ | .install _
  | .register _ | .save _ | .interrupt | .release _ _ => .isTrue trivial

instance [DecidableEq ι] (w : World ι) : ∀ l : Label ι, Decidable (EditsBetweenCalls w l)
  | .edit _ _ => inferInstanceAs (Decidable (w.phase = .idle))
  | .ensure _ | .prepare _ | .create _ | .install _ | .register _ | .save _ | .interrupt
  | .release _ _ => .isTrue trivial

instance (w : World ι) : ∀ l : Label ι, Decidable (MetadataDescribesVenv T sha256 w l)
  | .ensure i => by unfold MetadataDescribesVenv; infer_instance
  | .edit _ _ | .prepare _ | .create _ | .install _ | .register _ | .save _ | .interrupt
  | .release _ _ => .isTrue trivial

instance (w : World ι) (l : Label ι) : Decidable (FileUnchanged T w l) := by
  unfold FileUnchanged
  split <;> (try split) <;> infer_instance

/-! ## The invariant -/

/-- What the metadata files, the running call and the last answer say of the venv. -/
structure Sound (T : Tenants ι) (sha256 : Bytes → String) (K : Set Bytes) (w : World ι) : Prop where
  known : ∀ path bytes, w.files path = .contents bytes → bytes ∈ K
  written : ∀ path, w.written path ≤ w.incarnation
  metadata : ∀ path m, w.metadata path = .readable m → w.written path = w.incarnation →
    Truthful sha256 K w.installed m
  call : Seen w.installed w.phase
  answer : ∀ i outcome, w.returned = some (i, .ok outcome) →
    Holds w.installed (w.requirements T i)

theorem Holds.mono {installed installed' : List Bytes} (hsub : installed ⊆ installed') :
    ∀ {f : File}, Holds installed f → Holds installed' f
  | .absent, _ => trivial
  | .contents _, h => hsub h

theorem Truthful.mono {installed installed' : List Bytes} {m : CacheMetadata}
    (hsub : installed ⊆ installed') (h : Truthful sha256 K installed m) :
    Truthful sha256 K installed' m :=
  h.imp_right fun ⟨hfile, bytes, hmem, hK, hhash⟩ => ⟨hfile, bytes, hsub hmem, hK, hhash⟩

theorem sound_initial (h : Initial w)
    (hfiles : ∀ path bytes, w.files path = .contents bytes → bytes ∈ K) : Sound T sha256 K w where
  known := hfiles
  written := h.written
  metadata := by
    intro path m hm
    rw [h.metadata path] at hm
    cases hm
  call := by rw [h.idle]; trivial
  answer := by
    intro i outcome hr
    rw [h.returned] at hr
    cases hr

/-- The contents of a requirements file are known. -/
theorem Sound.known_requirements (h : Sound T sha256 K w) {bytes : Bytes}
    (hreq : w.requirements T i = .contents bytes) : bytes ∈ K := by
  unfold World.requirements at hreq
  cases hfile : (T.manager i).requirementsFile with
  | none => simp [hfile] at hreq
  | some path =>
    simp only [hfile] at hreq
    exact h.known path bytes hreq

/-! ## Effects -/

/-- The running call moves on, and nothing it saw is missing. -/
theorem Sound.setPhase (h : Sound T sha256 K w) {p : Phase ι} (hp : Seen w.installed p) :
    Sound T sha256 K { w with phase := p } where
  known := h.known
  written := h.written
  metadata := h.metadata
  call := hp
  answer := h.answer

theorem Sound.setOwners (h : Sound T sha256 K w) (f : OwnersFile) :
    Sound T sha256 K { w with owners := f } where
  known := h.known
  written := h.written
  metadata := h.metadata
  call := h.call
  answer := h.answer

theorem Sound.forget (h : Sound T sha256 K w) : Sound T sha256 K { w with returned := none } where
  known := h.known
  written := h.written
  metadata := h.metadata
  call := h.call
  answer := fun _ _ hr => by cases hr

theorem Sound.returns_error (h : Sound T sha256 K w) (i : ι) (e : HostError) :
    Sound T sha256 K (w.returns i (.error e)) where
  known := h.known
  written := h.written
  metadata := h.metadata
  call := trivial
  answer := fun _ _ hr => by simp [World.returns] at hr

theorem Sound.returns_ok (h : Sound T sha256 K w) {outcome : EnsureOutcome}
    (hi : Holds w.installed (w.requirements T i)) :
    Sound T sha256 K (w.returns i (.ok outcome)) where
  known := h.known
  written := h.written
  metadata := h.metadata
  call := trivial
  answer := by
    intro j o hr
    obtain ⟨rfl, -⟩ : i = j ∧ outcome = o := by simpa [World.returns] using hr
    exact hi

/-- A directory just deleted or created is of an incarnation no metadata was written in. -/
theorem Sound.newIncarnation (h : Sound T sha256 K w) (hcall : ∀ installed, Seen installed w.phase)
    (hret : w.returned = none) (left : Option Dir) (removals : List (ι × List ι)) :
    Sound T sha256 K { w with
      venv := left, incarnation := w.incarnation + 1, removals := removals } where
  known := h.known
  written := fun path => Nat.le_succ_of_le (h.written path)
  metadata := by
    intro path m _ hw
    have hle := h.written path
    simp only at hw
    omega
  call := hcall _
  answer := by
    intro _ _ hr
    simp only [hret] at hr
    cases hr

/-- Writing a metadata file that is truthful, or that cannot be read. -/
theorem Sound.writeMetadata (h : Sound T sha256 K w) {path : Path} {f : MetadataFile}
    (hf : ∀ m, f = .readable m → Truthful sha256 K w.installed m) :
    Sound T sha256 K (w.writeMetadata path f) where
  known := h.known
  written := by
    intro p
    by_cases hp : p = path
    · subst hp
      simp [World.writeMetadata]
    · simpa [World.writeMetadata, hp] using h.written p
  metadata := by
    intro p m hm hw
    by_cases hp : p = path
    · subst hp
      exact hf m (by simpa [World.writeMetadata] using hm)
    · exact h.metadata p m (by simpa [World.writeMetadata, hp] using hm)
        (by simpa [World.writeMetadata, hp] using hw)
  call := h.call
  answer := h.answer

/-! ## The steps -/

/-- **A hit is sound.** Its metadata describes this venv, so equal digests mean equal contents. -/
theorem holds_of_valid (hK : Set.InjOn sha256 K) (hempty : [] ∈ K) (h : Sound T sha256 K w)
    (hvalid : w.cacheVerdict T sha256 i = .valid)
    (hdesc : MetadataDescribesVenv T sha256 w (.ensure i)) :
    Holds w.installed (w.requirements T i) := by
  obtain ⟨-, m, hm, hhash⟩ := evaluateCache_valid hvalid
  cases hreq : w.requirements T i with
  | absent => trivial
  | unreadable =>
    obtain ⟨-, hne, -⟩ := hdesc hvalid (by rw [hreq]; rfl)
    exact hne hreq
  | contents bytes =>
    obtain ⟨hwritten, -, hnonempty⟩ := hdesc hvalid (by rw [hreq]; rfl)
    have hbytes : bytes ∈ K := h.known_requirements hreq
    have hdigest : m.requirementsHash = sha256 bytes := by
      rw [hhash, hreq]
      rfl
    rcases h.metadata _ m hm hwritten with ⟨hnone, hnil⟩ | ⟨-, bytes', hmem, hbytes', hsha⟩
    · -- The digest of no file matches only an empty file, which the condition excludes.
      obtain rfl : bytes = [] := hK hbytes hempty (hdigest.symm.trans hnil)
      have hsome := hnonempty hreq
      rw [hm] at hsome
      simp [MetadataFile.recordsRequirements, hnone] at hsome
    · obtain rfl : bytes' = bytes := hK hbytes' hbytes (hsha.symm.trans hdigest)
      exact hmem

/-- The metadata that `save_metadata` writes for a file that is installed is truthful. -/
theorem truthful_currentMetadata (h : Sound T sha256 K w)
    (hi : Holds w.installed (w.requirements T i)) :
    Truthful sha256 K w.installed (w.currentMetadata T sha256 i) := by
  have hpath : (w.requirements T i).exists? = true → (T.manager i).requirementsFile ≠ none := by
    intro hex hnone
    simp [World.requirements, hnone, File.exists?] at hex
  cases hreq : w.requirements T i with
  | absent =>
    refine .inl ⟨?_, ?_⟩
    · simp [World.currentMetadata, hreq, File.exists?]
    · simp [World.currentMetadata, hreq, hashFileOrEmpty, File.readOrEmpty]
  | unreadable =>
    rw [hreq] at hi
    cases hi
  | contents bytes =>
    rw [hreq] at hi
    refine .inr ⟨?_, bytes, hi, h.known_requirements hreq, ?_⟩
    · have hsome := hpath (by rw [hreq]; rfl)
      simpa [World.currentMetadata, hreq, File.exists?] using hsome
    · simp [World.currentMetadata, hreq, hashFileOrEmpty, File.readOrEmpty]

/-- The file a call saw still stands, when it exists at all. -/
theorem holds_of_unchanged {f seen : File} {installed : List Bytes} (hseen : Holds installed seen)
    (hsame : f.exists? = true → f = seen) : Holds installed f := by
  cases f with
  | absent => trivial
  | unreadable => exact hsame rfl ▸ hseen
  | contents bytes => exact hsame rfl ▸ hseen

theorem sound_prepare {upd : Bool} {r : PrepareResult} (h : Sound T sha256 K w)
    (hphase : w.phase = .preparing i upd) (hret : w.returned = none)
    (hs : w.prepare T i upd r = some w') : Sound T sha256 K w' := by
  have hremove : ∀ left, Sound T sha256 K (w.removeVenv i left) := fun left =>
    h.newIncarnation (fun _ => by rw [hphase]; trivial) hret left _
  unfold World.prepare at hs
  dsimp only at hs
  split at hs
  · obtain rfl := Option.some.inj hs
    refine Sound.setPhase ?_ (by cases upd <;> trivial)
    split
    · exact hremove none
    · exact h
  · split at hs
    · obtain rfl := Option.some.inj hs
      refine Sound.returns_error ?_ i _
      split
      · exact hremove _
      · exact h
    · cases hs
  · obtain rfl := Option.some.inj hs
    exact h.returns_error i _

theorem sound_create {r : CreateResult} (h : Sound T sha256 K w)
    (hphase : w.phase = .creating i) (hret : w.returned = none) :
    Sound T sha256 K (w.create T i r) := by
  have hdir : Sound T sha256 K w.createDir :=
    h.newIncarnation (fun _ => by rw [hphase]; trivial) hret (some ⟨[]⟩) w.removals
  unfold World.create
  split
  · exact hdir.setPhase trivial
  · exact hdir.returns_error i _
  · exact h.returns_error i _

theorem sound_install {upd : Bool} {r : InstallResult} (h : Sound T sha256 K w)
    (hret : w.returned = none) (hs : w.install T i upd r = some w') : Sound T sha256 K w' := by
  unfold World.install at hs
  split at hs
  · split at hs
    · obtain rfl := Option.some.inj hs
      exact h.setPhase trivial
    · cases hs
  · split at hs
    · obtain rfl := Option.some.inj hs
      exact h.setPhase trivial
    · cases hs
    · next bytes dir _ _ hdir =>
      obtain rfl := Option.some.inj hs
      have hsub : w.installed ⊆ bytes :: dir.installed := by
        rw [World.installed, hdir]
        exact List.subset_cons_self _ _
      exact
        { known := h.known
          written := h.written
          metadata := fun path m hm hw => (h.metadata path m hm hw).mono hsub
          call := List.mem_cons_self
          answer := by
            intro _ _ hr
            simp only [hret] at hr
            cases hr }
    · cases hs
    · obtain rfl := Option.some.inj hs
      exact h.returns_error i _

theorem registerError_eq_none {l : VenvLayout} {r : WriteResult} :
    registerError l r = none ↔ r = .ok := by
  cases r <;> simp [registerError]

/-- `register_owner` writes the registry, which nothing of the invariant reads. -/
theorem registerOwner_eq {r : WriteResult} {e : Option HostError}
    (hs : w.registerOwner T i r = some (w', e)) :
    (∃ owners, w' = { w with owners := owners }) ∧ (e = none → r = .ok) := by
  unfold World.registerOwner at hs
  dsimp only at hs
  split at hs
  · next hnone =>
    obtain ⟨rfl, rfl⟩ := Prod.mk.inj (Option.some.inj hs)
    exact ⟨⟨_, rfl⟩, fun _ => registerError_eq_none.mp hnone⟩
  · obtain ⟨rfl, rfl⟩ := Prod.mk.inj (Option.some.inj hs)
    exact ⟨⟨_, rfl⟩, fun he => by cases he⟩
  · split at hs
    · cases hs
    · split at hs
      · obtain ⟨rfl, rfl⟩ := Prod.mk.inj (Option.some.inj hs)
        exact ⟨⟨_, rfl⟩, fun he => by cases he⟩
      · obtain ⟨rfl, rfl⟩ := Prod.mk.inj (Option.some.inj hs)
        exact ⟨⟨_, rfl⟩, fun he => by cases he⟩

theorem sound_saveMetadata {upd inst : Bool} {r : WriteResult} (h : Sound T sha256 K w)
    (hi : r = .ok → Holds w.installed (w.requirements T i))
    (hs : w.saveMetadata T sha256 i upd inst r = some w') : Sound T sha256 K w' := by
  unfold World.saveMetadata at hs
  dsimp only at hs
  split at hs
  · obtain rfl := Option.some.inj hs
    have hw : Sound T sha256 K (w.writeMetadata (T.manager i).layout.metadataPath
        (.readable (w.currentMetadata T sha256 i))) := h.writeMetadata fun m hm => by
      cases hm
      exact truthful_currentMetadata h (hi rfl)
    exact hw.returns_ok (hi rfl)
  · obtain rfl := Option.some.inj hs
    exact (h.writeMetadata fun m hm => by cases hm).returns_error i _
  · obtain rfl := Option.some.inj hs
    exact h.returns_error i _
  · cases hs

theorem sound_beginEnsure (hK : Set.InjOn sha256 K) (hempty : [] ∈ K) (h : Sound T sha256 K w)
    (hdesc : MetadataDescribesVenv T sha256 w (.ensure i)) :
    Sound T sha256 K (w.beginEnsure T sha256 i) := by
  unfold World.beginEnsure
  split
  · next hvalid => exact h.setPhase (holds_of_valid hK hempty h hvalid hdesc)
  · exact h.setPhase trivial

theorem sound_releaseOwner {r : ReleaseResult} (h : Sound T sha256 K w) :
    Sound T sha256 K (w.releaseOwner T i r) := by
  unfold World.releaseOwner
  dsimp only
  split
  · exact h.setOwners _
  · split
    · exact h.setOwners _
    · exact h
  · exact h

/-- Every step of a running call keeps the invariant. -/
theorem sound_advance {l : Label ι} (h : Sound T sha256 K w) (hret : w.returned = none)
    (hsame : FileUnchanged T w l) (hs : advance T sha256 w l = some w') : Sound T sha256 K w' := by
  have hcall := h.call
  cases l with
  | edit path file => cases hs
  | ensure i => cases hs
  | release i r => cases hs
  | prepare r =>
    simp only [advance] at hs
    split at hs
    · next hphase => exact sound_prepare h hphase hret hs
    · cases hs
  | create r =>
    simp only [advance] at hs
    split at hs
    · next hphase =>
      obtain rfl := Option.some.inj hs
      exact sound_create h hphase hret
    · cases hs
  | install r =>
    simp only [advance] at hs
    split at hs
    · exact sound_install h hret hs
    · cases hs
  | register r =>
    simp only [advance] at hs
    split at hs
    · next i hashed hphase =>
      rw [hphase] at hcall
      split at hs
      · next w₁ hreg =>
        obtain rfl := Option.some.inj hs
        obtain ⟨⟨owners, rfl⟩, hok⟩ := registerOwner_eq hreg
        obtain rfl := hok rfl
        simp only [FileUnchanged, hphase] at hsame
        exact (h.setOwners owners).returns_ok (holds_of_unchanged hcall hsame)
      · next w₁ e hreg =>
        obtain rfl := Option.some.inj hs
        obtain ⟨⟨owners, rfl⟩, -⟩ := registerOwner_eq hreg
        exact (h.setOwners owners).returns_error i e
      · cases hs
    · next i upd inst read hphase =>
      rw [hphase] at hcall
      split at hs
      · next w₁ hreg =>
        obtain rfl := Option.some.inj hs
        obtain ⟨⟨owners, rfl⟩, -⟩ := registerOwner_eq hreg
        exact (h.setOwners owners).setPhase hcall
      · next w₁ e hreg =>
        obtain rfl := Option.some.inj hs
        obtain ⟨⟨owners, rfl⟩, -⟩ := registerOwner_eq hreg
        exact (h.setOwners owners).returns_error i e
      · cases hs
    · cases hs
  | save r =>
    simp only [advance] at hs
    split at hs
    · next i upd inst read hphase =>
      rw [hphase] at hcall
      refine sound_saveMetadata h (fun hok => ?_) hs
      subst hok
      simp only [FileUnchanged, hphase] at hsame
      exact holds_of_unchanged hcall hsame
    · cases hs
  | interrupt =>
    simp only [advance] at hs
    split at hs
    · cases hs
    · obtain rfl := Option.some.inj hs
      exact h.setPhase trivial

theorem Sound.edit (h : Sound T sha256 K w) {path : Path} {file : File}
    (hknown : KnownContents (ι := ι) K (.edit path file)) :
    Sound T sha256 K { w with files := Function.update w.files path file, returned := none } where
  known := by
    intro p bytes hp
    by_cases hpp : p = path
    · subst hpp
      obtain rfl : file = .contents bytes := by simpa using hp
      exact hknown
    · exact h.known p bytes (by simpa [hpp] using hp)
  written := h.written
  metadata := h.metadata
  call := h.call
  answer := fun _ _ hr => by cases hr

/-! ## Edits between calls -/

/-- The file the running call saw is the one that stands. -/
def Steady (T : Tenants ι) (w : World ι) : Prop :=
  match w.phase with
  | .claiming i f | .registering i _ _ f | .saving i _ _ f => w.requirements T i = f
  | .idle | .preparing _ _ | .creating _ | .installing _ _ => True

theorem steady_prepare {upd : Bool} {r : PrepareResult}
    (hs : w.prepare T i upd r = some w') : Steady T w' := by
  unfold World.prepare at hs
  dsimp only at hs
  split at hs
  · obtain rfl := Option.some.inj hs
    cases upd <;> trivial
  · split at hs
    · obtain rfl := Option.some.inj hs
      trivial
    · cases hs
  · obtain rfl := Option.some.inj hs
    trivial

theorem steady_create (T : Tenants ι) (w : World ι) (i : ι) (r : CreateResult) :
    Steady T (w.create T i r) := by
  unfold World.create
  split <;> trivial

theorem steady_install {upd : Bool} {r : InstallResult} (hs : w.install T i upd r = some w') :
    Steady T w' := by
  unfold World.install at hs
  split at hs
  · next hnone =>
    split at hs
    · obtain rfl := Option.some.inj hs
      simp [Steady, World.requirements, hnone]
    · cases hs
  · next path hsome =>
    split at hs
    · next habsent _ =>
      obtain rfl := Option.some.inj hs
      simp [Steady, World.requirements, hsome, habsent]
    · cases hs
    · next hcontents _ _ =>
      obtain rfl := Option.some.inj hs
      simp [Steady, World.requirements, hsome, hcontents]
    · cases hs
    · obtain rfl := Option.some.inj hs
      trivial

theorem steady_saveMetadata {upd inst : Bool} {r : WriteResult}
    (hs : w.saveMetadata T sha256 i upd inst r = some w') : Steady T w' := by
  unfold World.saveMetadata at hs
  dsimp only at hs
  split at hs
  · obtain rfl := Option.some.inj hs
    trivial
  · obtain rfl := Option.some.inj hs
    trivial
  · obtain rfl := Option.some.inj hs
    trivial
  · cases hs

theorem steady_advance {l : Label ι} (h : Steady T w) (hs : advance T sha256 w l = some w') :
    Steady T w' := by
  cases l with
  | edit path file => cases hs
  | ensure i => cases hs
  | release i r => cases hs
  | prepare r =>
    simp only [advance] at hs
    split at hs
    · exact steady_prepare hs
    · cases hs
  | create r =>
    simp only [advance] at hs
    split at hs
    · obtain rfl := Option.some.inj hs
      exact steady_create T w _ r
    · cases hs
  | install r =>
    simp only [advance] at hs
    split at hs
    · exact steady_install hs
    · cases hs
  | register r =>
    simp only [advance] at hs
    split at hs
    · split at hs
      · obtain rfl := Option.some.inj hs
        trivial
      · obtain rfl := Option.some.inj hs
        trivial
      · cases hs
    · next i upd inst read hphase =>
      simp only [Steady, hphase] at h
      split at hs
      · next w₁ hreg =>
        obtain rfl := Option.some.inj hs
        obtain ⟨⟨owners, rfl⟩, -⟩ := registerOwner_eq hreg
        exact h
      · obtain rfl := Option.some.inj hs
        trivial
      · cases hs
    · cases hs
  | save r =>
    simp only [advance] at hs
    split at hs
    · exact steady_saveMetadata hs
    · cases hs
  | interrupt =>
    simp only [advance] at hs
    split at hs
    · cases hs
    · obtain rfl := Option.some.inj hs
      trivial

theorem Steady.fileUnchanged (h : Steady T w) (l : Label ι) : FileUnchanged T w l := by
  unfold FileUnchanged
  split
  · split
    · next hphase =>
      simp only [Steady, hphase] at h
      exact fun _ => h
    · trivial
  · split
    · next hphase =>
      simp only [Steady, hphase] at h
      exact fun _ => h
    · trivial
  · trivial

/-! ## Every run -/

variable [DecidableEq ι]

/-- **Every step that meets the conditions keeps the invariant.** -/
theorem sound_step {l : Label ι} (hK : Set.InjOn sha256 K) (hempty : [] ∈ K)
    (h : Sound T sha256 K w) (hknown : KnownContents K l)
    (hdesc : MetadataDescribesVenv T sha256 w l) (hsame : FileUnchanged T w l)
    (hs : step T sha256 w l = some w') : Sound T sha256 K w' := by
  cases l with
  | edit path file =>
    obtain rfl := Option.some.inj hs
    exact h.edit hknown
  | ensure i =>
    simp only [step] at hs
    split at hs
    · obtain rfl := Option.some.inj hs
      exact sound_beginEnsure hK hempty h.forget hdesc
    · cases hs
  | release i r =>
    simp only [step] at hs
    split at hs
    · obtain rfl := Option.some.inj hs
      have hrel : Sound T sha256 K (w.releaseOwner T i r) := sound_releaseOwner h
      exact
        { known := hrel.known
          written := hrel.written
          metadata := hrel.metadata
          call := hrel.call
          answer := fun _ _ hr => by cases hr }
    · cases hs
  | register r | save r => exact sound_advance h.forget rfl hsame hs
  | prepare r => exact sound_advance (l := .prepare r) h.forget rfl trivial hs
  | create r => exact sound_advance (l := .create r) h.forget rfl trivial hs
  | install r => exact sound_advance (l := .install r) h.forget rfl trivial hs
  | interrupt => exact sound_advance (l := .interrupt) h.forget rfl trivial hs

/-- What an `ensure` that returned `Ok` in the last step promised holds. -/
theorem returned_holds {es : List (Label ι)} {w₀ : World ι} (hK : Set.InjOn sha256 K)
    (hempty : [] ∈ K) (h₀ : Sound T sha256 K w₀)
    (hok : (disk T sha256).Meets (fun w l => KnownContents K l ∧
      MetadataDescribesVenv T sha256 w l ∧ FileUnchanged T w l) w₀ es)
    (hrun : (disk T sha256).run w₀ es = some w) {outcome : EnsureOutcome}
    (hret : w.returned = some (i, .ok outcome)) : Holds w.installed (w.requirements T i) := by
  have h : Sound T sha256 K w := (disk T sha256).run_invariant
    (fun _ _ _ hI hstep hs => sound_step hK hempty hI hstep.1 hstep.2.1 hstep.2.2 hs) h₀ hok hrun
  exact h.answer i outcome hret

/-- A call sees one file when nothing is edited while it runs. -/
theorem steady_step {l : Label ι} (h : Steady T w) (hedit : EditsBetweenCalls w l)
    (hs : step T sha256 w l = some w') : Steady T w' := by
  have hadv : ∀ l', advance T sha256 { w with returned := none } l' = some w' → Steady T w' :=
    fun _ hs' => steady_advance (w := { w with returned := none }) h hs'
  cases l with
  | edit path file =>
    obtain rfl := Option.some.inj hs
    have hidle : w.phase = .idle := hedit
    simp only [Steady, hidle]
  | ensure i =>
    simp only [step] at hs
    split at hs
    · obtain rfl := Option.some.inj hs
      unfold World.beginEnsure
      split
      · rfl
      · trivial
    · cases hs
  | release i r =>
    simp only [step] at hs
    split at hs
    · next hidle =>
      obtain rfl := Option.some.inj hs
      have hphase : (w.releaseOwner T i r).phase = .idle := by
        unfold World.releaseOwner
        dsimp only
        split
        · exact hidle
        · split <;> exact hidle
        · exact hidle
      simp only [Steady, hphase]
    · cases hs
  | prepare r => exact hadv (.prepare r) hs
  | create r => exact hadv (.create r) hs
  | install r => exact hadv (.install r) hs
  | register r => exact hadv (.register r) hs
  | save r => exact hadv (.save r) hs
  | interrupt => exact hadv .interrupt hs

/-! ## Plugins that share a venv -/

omit [DecidableEq ι] in
theorem holds_iff {installed : List Bytes} {f : File} :
    Holds installed f ↔ f = .absent ∨ ∃ bytes, f = .contents bytes ∧ bytes ∈ installed := by
  cases f <;> simp [Holds]

/--
**An ensured requirements file is installed.** Plugins of one class root call `ensure` and
`release_owner` in any order, any step may fail, and files are edited between calls. As long as no
hit is read off metadata older than the venv, a call that returns `Ok` finds its requirements file
absent or installed into the venv that exists now.
-/
theorem ensured_installed (T : Tenants ι) (es : List (Label ι)) {w₀ : World ι}
    (hK : Set.InjOn sha256 K) (hempty : [] ∈ K) (h₀ : Initial w₀)
    (hfiles : ∀ path bytes, w₀.files path = .contents bytes → bytes ∈ K)
    (hok : (disk T sha256).Meets (fun w l => KnownContents K l ∧ EditsBetweenCalls w l ∧
      MetadataDescribesVenv T sha256 w l) w₀ es)
    (hrun : (disk T sha256).run w₀ es = some w) {outcome : EnsureOutcome}
    (hret : w.returned = some (i, .ok outcome)) :
    w.requirements T i = .absent ∨
      ∃ bytes, w.requirements T i = .contents bytes ∧ bytes ∈ w.installed := by
  have hsteady₀ : Steady T w₀ := by simp only [Steady, h₀.idle]
  have hinv : Sound T sha256 K w ∧ Steady T w := by
    refine (disk T sha256).run_invariant (I := fun w => Sound T sha256 K w ∧ Steady T w)
      (fun w l w' hI hstep hs => ?_) ⟨sound_initial h₀ hfiles, hsteady₀⟩ hok hrun
    obtain ⟨hsound, hsteady⟩ := hI
    obtain ⟨hknown, hedit, hdesc⟩ := hstep
    exact ⟨sound_step hK hempty hsound hknown hdesc (hsteady.fileUnchanged l) hs,
      steady_step hsteady hedit hs⟩
  exact holds_iff.mp (hinv.1.answer i outcome hret)

def flask : Bytes := [102, 108, 97, 115, 107]

def requests : Bytes := [114, 101, 113, 117, 101, 115, 116, 115]

/-- The SHA-256 of three contents: none, `flask` and `requests`. -/
def knownDigests (bytes : Bytes) : String :=
  if bytes = [] then "e3b0c44298fc1c149afbf4c8996fb92427ae41e4649b934ca495991b7852b855"
  else if bytes = flask then "b87aa5270772708aeaed24ad65681618c398f238e7b3bed393af852738243377"
  else if bytes = requests then
    "ec72420df5dfbdce4111f715c96338df3b7cb75f58e478d2449c9720e560de8c"
  else ""

/-- The manager of class `pkg.<name>` with a requirements file of its own. -/
def pkgManager (name requirements : String) : VenvManager where
  layout := {
    pluginPath := "/srv/plugins/pkg"
    venvPath := "/srv/plugins/pkg/.venv"
    cacheDir := "/srv/plugins/pkg/.cpex/venv_cache"
    metadataPath := "/srv/plugins/pkg/.cpex/venv_cache/pkg-" ++ name ++ "_metadata.json"
    manifestPath := "/srv/plugins/pkg/pkg-" ++ name ++ ".plugin-manifest.yaml"
    ownersPath := "/srv/plugins/pkg/.cpex/venv_cache/owners.json" }
  requirementsFile := some requirements
  manifestVersion := none
  className := "pkg." ++ name
  pipTimeoutSecs := defaultPipTimeoutSecs

/-- Two plugins of one package. -/
def twoPlugins : Tenants Bool where
  manager := fun i =>
    if i then pkgManager "B" "/srv/plugins/pkg/b.txt" else pkgManager "A" "/srv/plugins/pkg/a.txt"
  sameRoot := fun i j => by cases i <;> cases j <;> exact ⟨rfl, rfl, rfl⟩

/-- Two requirements files and nothing else. -/
def freshDisk (ι : Type*) : World ι where
  files := fun path =>
    if path = "/srv/plugins/pkg/a.txt" then .contents flask
    else if path = "/srv/plugins/pkg/b.txt" then .contents requests
    else .absent
  venv := none
  metadata := fun _ => .absent
  owners := .absent
  phase := .idle
  incarnation := 0
  written := fun _ => 0
  live := []
  removals := []
  returned := none

/-- The steps of an `ensure` that builds a venv. -/
def buildSteps (i : ι) : List (Label ι) :=
  [.ensure i, .prepare .ok, .create .ok, .install .ok, .register .ok, .save .ok]

omit [DecidableEq ι] in
theorem freshDisk_initial : Initial (freshDisk ι) where
  idle := rfl
  metadata := fun _ => rfl
  written := fun _ => Nat.le_refl _
  live := rfl
  removals := rfl
  returned := rfl

/-- The contents of `knownDigests`. -/
def knownBytes : Set Bytes := {bytes | bytes ∈ [[], flask, requests]}

instance : DecidablePred (· ∈ knownBytes) := fun bytes =>
  inferInstanceAs (Decidable (bytes ∈ [[], flask, requests]))

theorem knownDigests_injOn : Set.InjOn knownDigests knownBytes := by
  have h : ∀ a ∈ [[], flask, requests], ∀ b ∈ [[], flask, requests],
      knownDigests a = knownDigests b → a = b := by decide
  exact fun a ha b hb hab => h a ha b hb hab

omit [DecidableEq ι] in
theorem freshDisk_known (path : Path) (bytes : Bytes)
    (h : (freshDisk ι).files path = .contents bytes) : bytes ∈ knownBytes := by
  simp only [freshDisk] at h
  split at h
  · obtain rfl := File.contents.inj h
    decide
  · split at h
    · obtain rfl := File.contents.inj h
      decide
    · cases h

/-- A builds a venv, B joins it in place, and A's next `ensure` is a hit. -/
def sharedSteps : List (Label Bool) :=
  buildSteps false ++ [.ensure true, .prepare .ok, .install .ok, .register .ok, .save .ok] ++
    [.ensure false, .register .ok]

theorem ensured_installed_shared :
    ∃ w, (disk twoPlugins knownDigests).run (freshDisk Bool) sharedSteps = some w ∧
      w.returned = some (false, .ok .reused) ∧
      (w.requirements twoPlugins false = .absent ∨
        ∃ bytes, w.requirements twoPlugins false = .contents bytes ∧ bytes ∈ w.installed) :=
  ⟨_, rfl, rfl, ensured_installed twoPlugins sharedSteps knownDigests_injOn (by decide)
    freshDisk_initial freshDisk_known (by decide) rfl rfl⟩

/--
Plugin A builds and shuts down, B builds and deletes A's venv, and A hits its own metadata: its
requirements are not installed.
-/
theorem shared_rebuild_uninstalls :
    Initial (freshDisk Bool) ∧ ∃ w, (disk twoPlugins knownDigests).run (freshDisk Bool)
        (buildSteps false ++ [.release false .ok] ++ buildSteps true ++
          [.ensure false, .register .ok]) = some w ∧
      w.returned = some (false, .ok .reused) ∧ w.requirements twoPlugins false = .contents flask ∧
      flask ∉ w.installed :=
  ⟨freshDisk_initial, _, rfl, rfl, rfl, by decide⟩

/-! ## A call that fails -/

/--
**A hit is never false.** One plugin has a class root of its own, any step of any call may fail or
be interrupted, and files are edited at any time. As long as no hit is read off metadata older than
the venv, and the requirements file is not changed between pip and `save_metadata` nor between a
`Valid` verdict and its return, a call that returns `Reused` finds its requirements file installed
into the venv that exists now.
-/
theorem reused_installed (T : Tenants Unit) (es : List (Label Unit)) {w₀ w : World Unit}
    (hK : Set.InjOn sha256 K) (hempty : [] ∈ K) (h₀ : Initial w₀)
    (hfiles : ∀ path bytes, w₀.files path = .contents bytes → bytes ∈ K)
    (hok : (disk T sha256).Meets (fun w l => KnownContents K l ∧
      MetadataDescribesVenv T sha256 w l ∧ FileUnchanged T w l) w₀ es)
    (hrun : (disk T sha256).run w₀ es = some w) (hret : w.returned = some ((), .ok .reused))
    (hexists : (w.requirements T ()).exists? = true) :
    ∃ bytes, w.requirements T () = .contents bytes ∧ bytes ∈ w.installed := by
  have hholds := returned_holds hK hempty (sound_initial h₀ hfiles) hok hrun hret
  rcases holds_iff.mp hholds with habsent | hinstalled
  · rw [habsent] at hexists
    cases hexists
  · exact hinstalled

/-- One plugin with a class root of its own. -/
def onePlugin : Tenants Unit where
  manager := fun _ => pkgManager "A" "/srv/plugins/pkg/a.txt"
  sameRoot := fun _ _ => ⟨rfl, rfl, rfl⟩

/-- The requirements change, the call fails before it deletes the venv, and they change back. -/
def revertedEarly : List (Label Unit) :=
  buildSteps () ++ [.edit "/srv/plugins/pkg/a.txt" (.contents requests), .ensure (),
    .prepare (.cacheDir "read-only file system"),
    .edit "/srv/plugins/pkg/a.txt" (.contents flask), .ensure (), .register .ok]

theorem reused_installed_reverted :
    ∃ w, (disk onePlugin knownDigests).run (freshDisk Unit) revertedEarly = some w ∧
      ∃ bytes, w.requirements onePlugin () = .contents bytes ∧ bytes ∈ w.installed :=
  ⟨_, rfl, reused_installed onePlugin revertedEarly knownDigests_injOn (by decide)
    freshDisk_initial freshDisk_known (by decide) rfl rfl rfl⟩

/--
The requirements change, pip fails in the venv that was created for them, and they change back:
the old metadata is a hit for a venv in which nothing is installed.
-/
theorem failed_rebuild_hits :
    Initial (freshDisk Unit) ∧ ∃ w, (disk onePlugin knownDigests).run (freshDisk Unit)
        (buildSteps () ++ [.edit "/srv/plugins/pkg/a.txt" (.contents requests), .ensure (),
          .prepare .ok, .create .ok, .install (.status ⟨some 1, "no matching distribution"⟩),
          .edit "/srv/plugins/pkg/a.txt" (.contents flask), .ensure (), .register .ok]) = some w ∧
      w.returned = some ((), .ok .reused) ∧ w.requirements onePlugin () = .contents flask ∧
      w.installed = [] :=
  ⟨freshDisk_initial, _, rfl, rfl, rfl, rfl⟩

end Cpex.Host.Venv
