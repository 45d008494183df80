import Mathlib.Data.Finset.Basic
import Cpex.Infra.Text
import Cpex.Host.Error

/-!
# Venv layout, cache verdict and owners

`crates/cpex-hosts-python/src/venv.rs`. Where a plugin's virtualenv and its bookkeeping stand on
disk, when a cached venv may be reused, and who claims a shared one.

A venv directory is keyed on the class *root*, so every plugin of one package shares it. The
metadata file is keyed on the full class name, and the owner registry is one file a directory.

The digest of file contents is a parameter, `sha256`, in hexadecimal as the host writes it.
-/

namespace Cpex.Host.Venv

open Cpex.Infra

abbrev Path := String

/-- The contents of a file. -/
abbrev Bytes := List UInt8

/-- A file as `exists` and `fs::read` find it. A directory is unreadable. -/
inductive File where
  | absent
  | unreadable
  | contents (bytes : Bytes)
  deriving DecidableEq, Repr

namespace File

def exists? : File → Bool
  | absent => false
  | unreadable | contents _ => true

/-- `fs::read`, with nothing read from a path that cannot be read. -/
def readOrEmpty : File → Bytes
  | contents bytes => bytes
  | absent | unreadable => []

end File

/-! ## Layout -/

/-- `Path::join`: an absolute second part replaces the first. -/
def join (base rel : Path) : Path :=
  if rel.toList.head? = some '/' then rel
  else if base.toList.getLast? = none ∨ base.toList.getLast? = some '/' then base ++ rel
  else base ++ "/" ++ rel

/-- `str::trim_matches('-')`. -/
def trimDashes (cs : List Char) : List Char :=
  ((cs.dropWhile (· = '-')).reverse.dropWhile (· = '-')).reverse

/-- Filesystem-safe stem for a fully-qualified class name. -/
def manifestStemForClass (isAlphanumeric : Char → Bool) (className : String) : String :=
  let safe := trimDashes ((Text.trim className).toList.map fun c =>
    if isAlphanumeric c ∨ c = '-' ∨ c = '_' then c else '-')
  if safe = [] then "plugin" else String.ofList safe

def manifestFilenameForClass (isAlphanumeric : Char → Bool) (className : String) : String :=
  manifestStemForClass isAlphanumeric className ++ ".plugin-manifest.yaml"

def ownersFilename : String := "owners.json"

/-- Resolved on-disk layout for one plugin's venv. -/
structure VenvLayout where
  pluginPath : Path
  venvPath : Path
  cacheDir : Path
  metadataPath : Path
  manifestPath : Path
  ownersPath : Path
  deriving DecidableEq, Repr

/-- The first dotted segment of a class name. -/
def classRoot (className : String) : String :=
  String.ofList (className.toList.takeWhile (· ≠ '.'))

def VenvLayout.resolve (isAlphanumeric : Char → Bool) (pluginDirs : List String)
    (className : String) : Except HostError VenvLayout :=
  match pluginDirs with
  | [] => .error (.config ("isolated_venv requires at least one plugin directory — " ++
      "the venv is built under the first one"))
  | first :: _ =>
    if classRoot className = "" then
      .error (.config s!"`class_name` '{className}' has no leading package segment")
    else
      let pluginPath := join first (classRoot className)
      let cacheDir := join (join pluginPath ".cpex") "venv_cache"
      .ok {
        pluginPath
        venvPath := join pluginPath ".venv"
        cacheDir
        metadataPath := join cacheDir (manifestStemForClass isAlphanumeric className ++
          "_metadata.json")
        manifestPath := join pluginPath (manifestFilenameForClass isAlphanumeric className)
        ownersPath := join cacheDir ownersFilename }

def VenvLayout.pythonExecutable (l : VenvLayout) : Path := join (join l.venvPath "bin") "python"

/-- **Plugins of one package share a venv**, its cache directory and its owner registry. -/
theorem resolve_shares {isAlphanumeric : Char → Bool} {dirs : List String} {a b : String}
    {la lb : VenvLayout} (hroot : classRoot a = classRoot b)
    (ha : VenvLayout.resolve isAlphanumeric dirs a = .ok la)
    (hb : VenvLayout.resolve isAlphanumeric dirs b = .ok lb) :
    la.venvPath = lb.venvPath ∧ la.cacheDir = lb.cacheDir ∧ la.ownersPath = lb.ownersPath := by
  unfold VenvLayout.resolve at ha hb
  cases dirs with
  | nil => cases ha
  | cons first rest =>
    dsimp only at ha hb
    by_cases hempty : classRoot a = ""
    · rw [if_pos hempty] at ha
      cases ha
    · rw [if_neg hempty] at ha
      rw [if_neg (hroot ▸ hempty)] at hb
      obtain rfl := Except.ok.inj ha
      obtain rfl := Except.ok.inj hb
      simp only [hroot, and_self]

/-! ## The manager -/

/-- `DEFAULT_PIP_TIMEOUT_SECS`. -/
def defaultPipTimeoutSecs : Nat := 600

/-- Builds and caches one plugin's virtualenv. -/
structure VenvManager where
  layout : VenvLayout
  requirementsFile : Option Path
  manifestVersion : Option String
  className : String
  pipTimeoutSecs : Nat
  deriving DecidableEq, Repr

def VenvManager.new (isAlphanumeric : Char → Bool) (pluginDirs : List String) (className : String)
    (requirementsFile manifestVersion : Option String) : Except HostError VenvManager := do
  let layout ← VenvLayout.resolve isAlphanumeric pluginDirs className
  return {
    layout
    requirementsFile := requirementsFile.map (join layout.pluginPath)
    manifestVersion
    className
    pipTimeoutSecs := defaultPipTimeoutSecs }

/-! ## The cache verdict -/

/-- Cache metadata persisted next to each venv. -/
structure CacheMetadata where
  venvPath : String
  requirementsFile : Option String
  requirementsHash : String
  manifestVersion : Option String
  manifestHash : Option String
  pythonVersion : Option String
  deriving DecidableEq, Repr

/-- A metadata file. One that cannot be read or parsed is unreadable. -/
inductive MetadataFile where
  | absent
  | unreadable
  | readable (metadata : CacheMetadata)
  deriving DecidableEq, Repr

/-- Whether the metadata can be read and names a requirements file. -/
def MetadataFile.recordsRequirements : MetadataFile → Bool
  | .readable metadata => metadata.requirementsFile.isSome
  | .absent | .unreadable => false

/-- Why a cached venv was rejected. -/
inductive CacheVerdict where
  | valid
  | venvMissing
  | metadataMissing
  | metadataUnreadable
  | requirementsChanged
  | manifestVersionChanged
  | manifestHashChanged
  deriving DecidableEq, Repr

/-- A metadata signal that is present and differs. An absent one says nothing. -/
def signalChanged (cached expected : Option String) : Bool := cached.isSome && cached != expected

/-- Decides whether a cached venv can be reused. -/
def evaluateCache (venvExists : Bool) (metadataFile : MetadataFile)
    (expectedRequirementsHash : String)
    (expectedManifestVersion expectedManifestHash : Option String) : CacheVerdict :=
  if !venvExists then .venvMissing
  else
    match metadataFile with
    | .absent => .metadataMissing
    | .unreadable => .metadataUnreadable
    | .readable metadata =>
      if metadata.requirementsHash ≠ expectedRequirementsHash then .requirementsChanged
      else if signalChanged metadata.manifestVersion expectedManifestVersion then
        .manifestVersionChanged
      else if signalChanged metadata.manifestHash expectedManifestHash then .manifestHashChanged
      else .valid

/-- A hit needs the directory and readable metadata of the same requirements digest. -/
theorem evaluateCache_valid {venvExists : Bool} {f : MetadataFile} {hash : String}
    {version manifest : Option String}
    (h : evaluateCache venvExists f hash version manifest = .valid) :
    venvExists = true ∧ ∃ m, f = .readable m ∧ m.requirementsHash = hash := by
  unfold evaluateCache at h
  split at h
  · cases h
  · next hexists =>
    cases f with
    | absent => cases h
    | unreadable => cases h
    | readable m =>
      by_cases hhash : m.requirementsHash = hash
      · exact ⟨by simpa using hexists, m, rfl, hhash⟩
      · simp [hhash] at h

/-- Digest of a file. A path that is absent or unreadable has the digest of empty contents. -/
def hashFileOrEmpty (sha256 : Bytes → String) (f : File) : String := sha256 f.readOrEmpty

/-! ## Owners -/

/-- The owner registry file. One that cannot be read or parsed is unreadable. -/
inductive OwnersFile where
  | absent
  | unreadable
  | readable (owners : Finset String)
  deriving DecidableEq

/-- `VenvOwners::load`: an absent or corrupt registry is empty. -/
def OwnersFile.load : OwnersFile → Finset String
  | .absent | .unreadable => ∅
  | .readable owners => owners

/-- Whether anyone other than `className` claims the venv. -/
def hasOtherOwner (owners : Finset String) (className : String) : Bool :=
  decide (∃ o ∈ owners, o ≠ className)

/-- What `register_owner` leaves when its write succeeds: nothing is written for one registered. -/
def OwnersFile.register (f : OwnersFile) (className : String) : OwnersFile :=
  if className ∈ f.load then f else .readable (insert className f.load)

/-- What `release_owner` leaves when its write succeeds: the last owner takes the file with it. -/
def OwnersFile.release (f : OwnersFile) (className : String) : OwnersFile :=
  if className ∉ f.load then f
  else if f.load.erase className = ∅ then .absent
  else .readable (f.load.erase className)

@[simp] theorem load_register (f : OwnersFile) (className : String) :
    (f.register className).load = insert className f.load := by
  unfold OwnersFile.register
  split
  · next h => rw [Finset.insert_eq_of_mem h]
  · rfl

@[simp] theorem load_release (f : OwnersFile) (className : String) :
    (f.release className).load = f.load.erase className := by
  unfold OwnersFile.release
  split
  · next h => rw [Finset.erase_eq_of_notMem h]
  · split
    · next h => rw [h]; rfl
    · rfl

/-- Nobody else owns a venv exactly when every recorded owner is the caller. -/
theorem hasOtherOwner_eq_false {owners : Finset String} {className : String} :
    hasOtherOwner owners className = false ↔ ∀ o ∈ owners, o = className := by
  rw [hasOtherOwner, decide_eq_false_iff_not]
  push Not
  rfl

end Cpex.Host.Venv
