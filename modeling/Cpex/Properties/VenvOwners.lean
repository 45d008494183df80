import Cpex.Properties.Venv

/-!
# No instance loses its venv to another

The owner registry tells class names apart, not instances. Where no two live instances share a
class name, a rebuild deletes the venv only for an instance that is alone in it.

* `Claimed` — the invariant: every live instance's class name is registered
* `NoTwin` — no other live instance has this one's class name
* `claimed_step` — every step that meets the conditions keeps the invariant
-/

namespace Cpex.Host.Venv

open Cpex.Infra

variable {ι : Type*} {T : Tenants ι} {sha256 : Bytes → String} {w w' : World ι} {i : ι}

/-! ## Conditions on the steps -/

/-- No other live instance has the class name of instance `i`. -/
def NoTwin (T : Tenants ι) (w : World ι) (i : ι) : Prop :=
  ∀ j ∈ w.live, (T.manager j).className = (T.manager i).className → j = i

/--
An instance shuts down, and a rebuild that sees no other owner starts, only while no other live
instance has the same class name. No failed write truncates the registry.
-/
def ClaimsAreOwn (T : Tenants ι) (sha256 : Bytes → String) (w : World ι) : Label ι → Prop
  | .ensure i =>
    w.cacheVerdict T sha256 i ≠ .valid → w.venv.isSome = true →
      w.venvHasOtherOwner T i = false → NoTwin T w i
  | .release i r => NoTwin T w i ∧ r ≠ .failed true
  | .register (.write _ truncated) => truncated = false
  | _ => True

instance [DecidableEq ι] (w : World ι) (i : ι) : Decidable (NoTwin T w i) := by
  unfold NoTwin
  infer_instance

instance [DecidableEq ι] (w : World ι) : ∀ l : Label ι, Decidable (ClaimsAreOwn T sha256 w l)
  | .ensure i => by unfold ClaimsAreOwn; infer_instance
  | .release i r => by unfold ClaimsAreOwn; infer_instance
  | .register (.write _ truncated) => inferInstanceAs (Decidable (truncated = false))
  | .register .ok | .register (.cacheDir _) | .register (.serialize _) | .register (.panicked _)
  | .edit _ _ | .prepare _ | .create _ | .install _ | .save _ | .interrupt => .isTrue trivial

/-! ## The invariant -/

/-- Every live instance is registered, and nobody removed the venv under another one. -/
structure Claimed (T : Tenants ι) (w : World ι) : Prop where
  live : ∀ i ∈ w.live, (T.manager i).className ∈ w.owners.load
  saving : ∀ i upd inst f, w.phase = .saving i upd inst f →
    (T.manager i).className ∈ w.owners.load
  preparing : ∀ i, w.phase = .preparing i false → w.venv.isSome = true → ∀ j ∈ w.live, j = i
  removals : ∀ r ∈ w.removals, ∀ j ∈ r.2, j = r.1

theorem claimed_of_unused (h : Unused w) : Claimed T w where
  live := fun i hi => by simp [h.live] at hi
  saving := by
    intro i upd inst f hp
    rw [h.idle] at hp
    cases hp
  preparing := by
    intro i hp
    rw [h.idle] at hp
    cases hp
  removals := fun r hr => by simp [h.removals] at hr

/-- A phase in which the running call neither removes the venv nor counts on its registration. -/
def Phase.plain : Phase ι → Prop
  | .preparing _ _ | .saving _ _ _ _ => False
  | .idle | .claiming _ _ | .creating _ | .installing _ _ | .registering _ _ _ _ => True

/-- What a step in a plain phase must leave: the live instances, their claims and the log. -/
theorem Claimed.frame (h : Claimed T w) (hlive : w'.live = w.live)
    (howners : w.owners.load ⊆ w'.owners.load) (hremovals : w'.removals = w.removals)
    (hphase : w'.phase.plain) : Claimed T w' where
  live := fun i hi => howners (h.live i (hlive ▸ hi))
  saving := by
    intro i upd inst f hp
    rw [hp] at hphase
    cases hphase
  preparing := by
    intro i hp
    rw [hp] at hphase
    cases hphase
  removals := fun r hr => h.removals r (hremovals ▸ hr)

theorem Claimed.returns_error (h : Claimed T w) (i : ι) (e : HostError) :
    Claimed T (w.returns i (.error e)) :=
  h.frame rfl (fun _ ho => ho) rfl trivial

/-- An instance that completes `ensure` is registered by then. -/
theorem Claimed.returns_ok (h : Claimed T w) (hi : (T.manager i).className ∈ w.owners.load)
    (outcome : EnsureOutcome) : Claimed T (w.returns i (.ok outcome)) where
  live := by
    intro j hj
    rcases List.mem_cons.mp hj with rfl | hold
    · exact hi
    · exact h.live j hold
  saving := fun _ _ _ _ hp => by cases hp
  preparing := fun _ hp => by cases hp
  removals := h.removals

/-- Removing the venv for an instance that is alone in it. -/
theorem Claimed.removeVenv (h : Claimed T w) (halone : ∀ j ∈ w.live, j = i) (left : Option Dir) :
    ∀ r ∈ (w.removeVenv i left).removals, ∀ j ∈ r.2, j = r.1 := by
  intro r hr
  rcases List.mem_append.mp hr with hold | hnew
  · exact h.removals r hold
  · obtain rfl : r = (i, w.live) := by simpa using hnew
    exact halone

/-! ## The steps -/

/-- **Sole ownership is sole use.** With every live instance registered and no twin of `i` live, a
registry that shows no other owner leaves nobody but `i`. -/
theorem alone_of_noOtherOwner (h : Claimed T w) (htwin : NoTwin T w i)
    (hother : w.venvHasOtherOwner T i = false) : ∀ j ∈ w.live, j = i := by
  intro j hj
  have hclass : (T.manager j).className = (T.manager i).className :=
    hasOtherOwner_eq_false.mp hother _ (h.live j hj)
  exact htwin j hj hclass

theorem claimed_beginEnsure (h : Claimed T w)
    (htwin : ClaimsAreOwn T sha256 w (.ensure i)) : Claimed T (w.beginEnsure T sha256 i) := by
  unfold World.beginEnsure
  split
  · exact h.frame rfl (fun _ ho => ho) rfl trivial
  · next hstale =>
    exact
      { live := h.live
        saving := fun _ _ _ _ hp => by cases hp
        removals := h.removals
        preparing := by
          intro j hp hexists
          obtain ⟨rfl, hupd⟩ := Phase.preparing.inj hp
          have hexists' : w.venv.isSome = true := hexists
          have hother : w.venvHasOtherOwner T i = false := by simpa [hexists'] using hupd
          have halone : ∀ j ∈ w.live, j = i :=
            alone_of_noOtherOwner h (htwin hstale hexists' hother) hother
          exact halone }

theorem claimed_prepare {upd : Bool} {r : PrepareResult} (h : Claimed T w)
    (hphase : w.phase = .preparing i upd) (hs : w.prepare T i upd r = some w') :
    Claimed T w' := by
  have halone : (!upd && w.venv.isSome) = true → ∀ j ∈ w.live, j = i := by
    intro hremoves
    obtain ⟨hupd, hexists⟩ : upd = false ∧ w.venv.isSome = true := by simpa using hremoves
    exact h.preparing i (by rw [hphase, hupd]) hexists
  unfold World.prepare at hs
  dsimp only at hs
  split at hs
  · obtain rfl := Option.some.inj hs
    split
    · next hremoves =>
      exact
        { live := h.live
          saving := fun _ _ _ _ hp => by cases upd <;> cases hp
          preparing := fun _ hp => by cases upd <;> cases hp
          removals := h.removeVenv (halone hremoves) none }
    · exact h.frame rfl (fun _ ho => ho) rfl (by cases upd <;> trivial)
  · split at hs
    · next hremoves =>
      obtain rfl := Option.some.inj hs
      split
      · exact
          { live := h.live
            saving := fun _ _ _ _ hp => by cases hp
            preparing := fun _ hp => by cases hp
            removals := h.removeVenv (halone hremoves) (some ⟨[]⟩) }
      · exact h.returns_error i _
    · cases hs
  · obtain rfl := Option.some.inj hs
    exact h.returns_error i _

theorem claimed_create {r : CreateResult} (h : Claimed T w) : Claimed T (w.create T i r) := by
  unfold World.create
  split
  · exact h.frame rfl (fun _ ho => ho) rfl trivial
  · exact h.frame rfl (fun _ ho => ho) rfl trivial
  · exact h.frame rfl (fun _ ho => ho) rfl trivial

theorem claimed_install {upd : Bool} {r : InstallResult} (h : Claimed T w)
    (hs : w.install T i upd r = some w') : Claimed T w' := by
  have hframe : ∀ w'', w''.live = w.live → w''.owners = w.owners → w''.removals = w.removals →
      w''.phase.plain → Claimed T w'' := fun w'' hl ho hr hp =>
    h.frame hl (by rw [ho]) hr hp
  unfold World.install at hs
  split at hs
  · split at hs
    · obtain rfl := Option.some.inj hs
      exact hframe _ rfl rfl rfl trivial
    · cases hs
  · split at hs
    · obtain rfl := Option.some.inj hs
      exact hframe _ rfl rfl rfl trivial
    · cases hs
    · obtain rfl := Option.some.inj hs
      exact hframe _ rfl rfl rfl trivial
    · cases hs
    · obtain rfl := Option.some.inj hs
      exact h.returns_error i _

/-- Registration adds the caller, and a failed one that truncates nothing changes nothing. -/
theorem registerOwner_owners {r : WriteResult} {e : Option HostError}
    (htrunc : ∀ m, r ≠ .write m true) (hs : w.registerOwner T i r = some (w', e)) :
    ∃ f : OwnersFile, w' = { w with owners := f } ∧ w.owners.load ⊆ f.load ∧
      (e = none → (T.manager i).className ∈ f.load) := by
  unfold World.registerOwner at hs
  dsimp only at hs
  split at hs
  · obtain ⟨rfl, rfl⟩ := Prod.mk.inj (Option.some.inj hs)
    refine ⟨_, rfl, ?_, fun _ => ?_⟩
    · rw [load_register]
      exact Finset.subset_insert _ _
    · rw [load_register]
      exact Finset.mem_insert_self _ _
  · obtain ⟨rfl, rfl⟩ := Prod.mk.inj (Option.some.inj hs)
    exact ⟨_, rfl, fun _ ho => ho, fun he => by cases he⟩
  · split at hs
    · cases hs
    · split at hs
      · exact absurd rfl (htrunc _)
      · obtain ⟨rfl, rfl⟩ := Prod.mk.inj (Option.some.inj hs)
        exact ⟨_, rfl, fun _ ho => ho, fun he => by cases he⟩

theorem claimed_saveMetadata {upd inst : Bool} {r : WriteResult} (h : Claimed T w)
    (hi : (T.manager i).className ∈ w.owners.load)
    (hs : w.saveMetadata T sha256 i upd inst r = some w') : Claimed T w' := by
  have hwrite : ∀ path f, Claimed T (w.writeMetadata path f) := fun _ _ =>
    ⟨h.live, h.saving, h.preparing, h.removals⟩
  unfold World.saveMetadata at hs
  dsimp only at hs
  split at hs
  · obtain rfl := Option.some.inj hs
    exact (hwrite _ _).returns_ok hi _
  · obtain rfl := Option.some.inj hs
    exact (hwrite _ _).returns_error i _
  · obtain rfl := Option.some.inj hs
    exact h.returns_error i _
  · cases hs

theorem claimed_advance {l : Label ι} (h : Claimed T w) (hok : ClaimsAreOwn T sha256 w l)
    (hs : advance T sha256 w l = some w') : Claimed T w' := by
  cases l with
  | edit path file => cases hs
  | ensure i => cases hs
  | release i r => cases hs
  | prepare r =>
    simp only [advance] at hs
    split at hs
    · next hphase => exact claimed_prepare h hphase hs
    · cases hs
  | create r =>
    simp only [advance] at hs
    split at hs
    · obtain rfl := Option.some.inj hs
      exact claimed_create h
    · cases hs
  | install r =>
    simp only [advance] at hs
    split at hs
    · exact claimed_install h hs
    · cases hs
  | register r =>
    have htrunc : ∀ m, r ≠ .write m true := by
      rintro m rfl
      cases hok
    simp only [advance] at hs
    split at hs
    · next i hashed hphase =>
      split at hs
      · next hreg =>
        obtain rfl := Option.some.inj hs
        obtain ⟨f, rfl, hsub, hin⟩ := registerOwner_owners htrunc hreg
        have hclaimed : Claimed T { w with owners := f } :=
          h.frame rfl hsub rfl (by rw [hphase]; trivial)
        exact hclaimed.returns_ok (hin rfl) _
      · next hreg =>
        obtain rfl := Option.some.inj hs
        obtain ⟨f, rfl, hsub, -⟩ := registerOwner_owners htrunc hreg
        exact h.frame rfl hsub rfl trivial
      · cases hs
    · next i upd inst read hphase =>
      split at hs
      · next hreg =>
        obtain rfl := Option.some.inj hs
        obtain ⟨f, rfl, hsub, hin⟩ := registerOwner_owners htrunc hreg
        exact
          { live := fun j hj => hsub (h.live j hj)
            saving := by
              intro j _ _ _ hp
              obtain ⟨rfl, -, -, -⟩ := Phase.saving.inj hp
              exact hin rfl
            preparing := fun _ hp => by cases hp
            removals := h.removals }
      · next hreg =>
        obtain rfl := Option.some.inj hs
        obtain ⟨f, rfl, hsub, -⟩ := registerOwner_owners htrunc hreg
        exact h.frame rfl hsub rfl trivial
      · cases hs
    · cases hs
  | save r =>
    simp only [advance] at hs
    split at hs
    · next i upd inst read hphase =>
      exact claimed_saveMetadata h (h.saving i upd inst read hphase) hs
    · cases hs
  | interrupt =>
    simp only [advance] at hs
    split at hs
    · cases hs
    · obtain rfl := Option.some.inj hs
      exact h.frame rfl (fun _ ho => ho) rfl trivial

variable [DecidableEq ι]

/-- A shutdown takes the instance out of the live ones, and its class name out of the registry. -/
theorem claimed_release {r : ReleaseResult} (h : Claimed T w) (hidle : w.phase = .idle)
    (hok : ClaimsAreOwn T sha256 w (.release i r)) :
    Claimed T { w.releaseOwner T i r with
      live := w.live.filter (· ≠ i), returned := none } := by
  obtain ⟨htwin, htrunc⟩ := hok
  have hlive : ∀ j ∈ w.live.filter (· ≠ i), (T.manager j).className ∈ w.owners.load ∧
      (T.manager j).className ≠ (T.manager i).className := by
    intro j hj
    obtain ⟨hmem, hne⟩ := List.mem_filter.mp hj
    exact ⟨h.live j hmem, fun hclass => by simp [htwin j hmem hclass] at hne⟩
  have hphase : (w.releaseOwner T i r).phase = .idle := by
    unfold World.releaseOwner
    dsimp only
    split
    · exact hidle
    · split <;> exact hidle
    · exact hidle
  refine
    { live := ?_
      saving := fun _ _ _ _ hp => by simp [hphase] at hp
      preparing := fun _ hp => by simp [hphase] at hp
      removals := ?_ }
  · intro j hj
    obtain ⟨hmem, hne⟩ := hlive j hj
    cases r with
    | ok =>
      show _ ∈ (w.owners.release _).load
      rw [load_release]
      exact Finset.mem_erase.mpr ⟨hne, hmem⟩
    | failed truncated =>
      cases truncated with
      | false => exact hmem
      | true => exact absurd rfl htrunc
  · cases r with
    | ok => exact h.removals
    | failed truncated =>
      cases truncated with
      | false => exact h.removals
      | true => exact absurd rfl htrunc

/-- **Every step that meets the conditions keeps the invariant.** -/
theorem claimed_step {l : Label ι} (h : Claimed T w) (hok : ClaimsAreOwn T sha256 w l)
    (hs : step T sha256 w l = some w') : Claimed T w' := by
  have hforget : Claimed T { w with returned := none } :=
    ⟨h.live, h.saving, h.preparing, h.removals⟩
  have hadv : ∀ l', ClaimsAreOwn T sha256 w l' →
      advance T sha256 { w with returned := none } l' = some w' → Claimed T w' :=
    fun l' hok' hs' => claimed_advance hforget (by cases l' <;> exact hok') hs'
  cases l with
  | edit path file =>
    obtain rfl := Option.some.inj hs
    exact ⟨h.live, h.saving, h.preparing, h.removals⟩
  | ensure i =>
    simp only [step] at hs
    split at hs
    · obtain rfl := Option.some.inj hs
      exact claimed_beginEnsure hforget hok
    · cases hs
  | release i r =>
    simp only [step] at hs
    split at hs
    · next hidle =>
      obtain rfl := Option.some.inj hs
      exact claimed_release h hidle hok
    · cases hs
  | prepare r => exact hadv (.prepare r) hok hs
  | create r => exact hadv (.create r) hok hs
  | install r => exact hadv (.install r) hok hs
  | register r => exact hadv (.register r) hok hs
  | save r => exact hadv (.save r) hok hs
  | interrupt => exact hadv .interrupt hok hs

/--
**A live instance's venv is never deleted by another one.** Instances of one class root ensure and
shut down in any order, on a disk with whatever earlier processes left there. As long as no
instance shuts down or starts a sole-owner rebuild beside a live instance of its own class name,
and no failed write truncates the registry, the venv directory is removed only by the one instance
that is live, if any.
-/
theorem removals_are_own (T : Tenants ι) (sha256 : Bytes → String) (es : List (Label ι))
    {w₀ : World ι} (h₀ : Unused w₀)
    (hok : (disk T sha256).Meets (ClaimsAreOwn T sha256) w₀ es)
    (hrun : (disk T sha256).run w₀ es = some w) {alive : List ι}
    (hremoved : (i, alive) ∈ w.removals) : ∀ j ∈ alive, j = i :=
  ((disk T sha256).run_invariant (fun _ _ _ hI hstep hs => claimed_step hI hstep hs)
    (claimed_of_unused h₀) hok hrun).removals _ hremoved

/-- A builds, and builds again while it is live because its requirements changed. -/
def rebuildSteps : List (Label Bool) :=
  buildSteps false ++ [.edit "/srv/plugins/pkg/a.txt" (.contents requests)] ++ buildSteps false

theorem removals_are_own_rebuild :
    ∃ w, (disk twoPlugins knownDigests).run (freshDisk Bool) rebuildSteps = some w ∧
      (false, [false]) ∈ w.removals ∧ ∀ j ∈ [false], j = false :=
  have hrun : ∃ w, (disk twoPlugins knownDigests).run (freshDisk Bool) rebuildSteps = some w ∧
      (false, [false]) ∈ w.removals := ⟨_, rfl, List.mem_singleton_self _⟩
  let ⟨w, hw, hremoved⟩ := hrun
  ⟨w, hw, hremoved, removals_are_own twoPlugins knownDigests rebuildSteps
    freshDisk_initial.toUnused (by decide) hw hremoved⟩

/-- Two configured entries of one class, each with requirements of its own. -/
def twins : Tenants Bool where
  manager := fun i =>
    if i then pkgManager "A" "/srv/plugins/pkg/b.txt" else pkgManager "A" "/srv/plugins/pkg/a.txt"
  sameRoot := fun i j => by cases i <;> cases j <;> exact ⟨rfl, rfl, rfl⟩

/-- The second entry sees only its own class name registered and deletes the first one's venv. -/
theorem twin_deletes_live_venv :
    Initial (freshDisk Bool) ∧ ∃ w, (disk twins knownDigests).run (freshDisk Bool)
        (buildSteps false ++ [.ensure true, .prepare .ok]) = some w ∧
      w.removals = [(true, [false])] :=
  ⟨freshDisk_initial, _, rfl, rfl⟩

end Cpex.Host.Venv
