import Mathlib.Logic.Function.Basic
import Cpex.Infra.Machine
import Cpex.Host.Venv

/-!
# Ensuring a shared venv

`VenvManager::ensure` and `release_owner` of `crates/cpex-hosts-python/src/venv.rs`, called by any
number of plugin instances whose venvs share a class root: one venv directory, one cache directory
and one owner registry, with a metadata file for each class.

Calls follow one another. Each step of a call (the verdict, the directories, `python3 -m venv`,
pip, the registry, the metadata file) is one step of the machine `disk`, whose label says whether
it fails and what a failure leaves behind. Requirements and manifest files may be edited at any
time. They stand outside the venv and the cache directory.
-/

namespace Cpex.Host.Venv

open Cpex.Infra

/-- The managers of plugin instances whose venvs share a class root. -/
structure Tenants (ι : Type*) where
  manager : ι → VenvManager
  sameRoot : ∀ i j, (manager i).layout.venvPath = (manager j).layout.venvPath ∧
    (manager i).layout.cacheDir = (manager j).layout.cacheDir ∧
    (manager i).layout.ownersPath = (manager j).layout.ownersPath

/-- Outcome of an `ensure` call. -/
inductive EnsureOutcome where
  | reused
  | built (installedRequirements : Bool)
  | sharedUpdate (installedRequirements : Bool)
  deriving DecidableEq, Repr

/-- A venv directory, with the contents pip has installed since it was created. -/
structure Dir where
  installed : List Bytes
  deriving DecidableEq, Repr

/--
What the running call does next. `hashed` is the requirements file as the verdict saw it, and
`read` as `install_requirements` did.
-/
inductive Phase (ι : Type*) where
  | idle
  /-- The verdict was `Valid`: registers, then returns. -/
  | claiming (i : ι) (hashed : File)
  | preparing (i : ι) (updateInPlace : Bool)
  | creating (i : ι)
  | installing (i : ι) (updateInPlace : Bool)
  | registering (i : ι) (updateInPlace installed : Bool) (read : File)
  | saving (i : ι) (updateInPlace installed : Bool) (read : File)
  deriving DecidableEq, Repr

/--
The disk, as the instances of one class root see it, and the running call.

`incarnation` changes whenever the venv directory is deleted or created, and `written` is the
incarnation in which a metadata file was last written. With `live` (the instances that completed
`ensure` and have not shut down), `removals` (who removed the directory and who was live then) and
`returned` (the call that returned in the last step) they are history.
-/
structure World (ι : Type*) where
  files : Path → File
  venv : Option Dir
  metadata : Path → MetadataFile
  owners : OwnersFile
  phase : Phase ι
  incarnation : Nat
  written : Path → Nat
  live : List ι
  removals : List (ι × List ι)
  returned : Option (ι × Except HostError EnsureOutcome)

/-! ## Outcomes of a step -/

inductive PrepareResult where
  | ok
  | pluginDir (e : String)
  | cacheDir (e : String)
  /-- `remove_dir_all` failed, before or after it removed something. -/
  | remove (e : String) (damaged : Bool)
  | panicked (e : String)

inductive CreateResult where
  | ok
  | spawn (e : String)
  /-- The command failed, and may have left a directory. -/
  | status (output : ProcessOutput) (left : Bool)

inductive InstallResult where
  | ok
  | spawn (e : String)
  | wait (e : String)
  | timeout
  | status (output : ProcessOutput)

/-- A write that fails may leave the file truncated. -/
inductive WriteResult where
  | ok
  | cacheDir (e : String)
  | serialize (e : String)
  | write (e : String) (truncated : Bool)
  | panicked (e : String)

inductive ReleaseResult where
  | ok
  | failed (truncated : Bool)
  deriving DecidableEq

/-- The error of a failed `prepare_directories`. -/
def prepareError (l : VenvLayout) : PrepareResult → Option HostError
  | .ok => none
  | .pluginDir e => some (.venvBuild s!"could not create plugin dir {l.pluginPath}: {e}")
  | .cacheDir e => some (.venvBuild s!"could not create cache dir {l.cacheDir}: {e}")
  | .remove e _ => some (.venvBuild s!"could not remove stale venv {l.venvPath}: {e}")
  | .panicked e => some (.venvBuild s!"venv directory preparation panicked: {e}")

/-- The error of a failed `create_venv`. -/
def createError (l : VenvLayout) : CreateResult → Option HostError
  | .ok => none
  | .spawn e =>
    some (.venvBuild s!"could not run `python3 -m venv`: {e} (is python3 on PATH?)")
  | .status output _ => some (.venvCommand "python3 -m venv" l.venvPath output)

/-- The error of a failed `install_requirements`. -/
def installError (m : VenvManager) (requirements : Path) : InstallResult → Option HostError
  | .ok => none
  | .spawn e => some (.venvBuild s!"could not run pip in {m.layout.pythonExecutable}: {e}")
  | .wait e => some (.venvBuild s!"could not wait on pip in {m.layout.pythonExecutable}: {e}")
  | .timeout => some (.venvBuild (s!"pip install -r {requirements} exceeded the " ++
      s!"{m.pipTimeoutSecs}s timeout and was killed — check network reachability to the " ++
      "package index, or raise the pip timeout"))
  | .status output => some (.venvCommand "pip install" requirements output)

/-- The error of a failed `register_owner`. -/
def registerError (l : VenvLayout) : WriteResult → Option HostError
  | .ok => none
  | .cacheDir e => some (.venvBuild s!"could not create cache dir {l.cacheDir}: {e}")
  | .serialize e => some (.venvBuild s!"could not serialize the venv owner registry: {e}")
  | .write e _ => some (.venvBuild s!"could not write venv owners {l.ownersPath}: {e}")
  | .panicked e => some (.venvBuild s!"venv owner registration panicked: {e}")

/-- The error of a failed `save_metadata`, which creates no directory. -/
def saveError (l : VenvLayout) : WriteResult → Option HostError
  | .ok | .cacheDir _ => none
  | .serialize e => some (.venvBuild s!"could not serialize cache metadata: {e}")
  | .write e _ => some (.venvBuild s!"could not write cache metadata {l.metadataPath}: {e}")
  | .panicked e => some (.venvBuild s!"cache metadata write panicked: {e}")

namespace World

variable {ι : Type*} (T : Tenants ι) (sha256 : Bytes → String)

/-! ## Reading the disk -/

/-- The requirements file of instance `i` as it is now. -/
def requirements (w : World ι) (i : ι) : File :=
  match (T.manager i).requirementsFile with
  | some path => w.files path
  | none => .absent

/-- The contents installed in the venv that exists now. -/
def installed (w : World ι) : List Bytes :=
  match w.venv with
  | some dir => dir.installed
  | none => []

/-- `cache_verdict`. -/
def cacheVerdict (w : World ι) (i : ι) : CacheVerdict :=
  let m := T.manager i
  evaluateCache w.venv.isSome (w.metadata m.layout.metadataPath)
    (hashFileOrEmpty sha256 (w.requirements T i)) m.manifestVersion
    (some (hashFileOrEmpty sha256 (w.files m.layout.manifestPath)))

/-- `venv_has_other_owner`. -/
def venvHasOtherOwner (w : World ι) (i : ι) : Bool :=
  hasOtherOwner w.owners.load (T.manager i).className

/-- What `save_metadata` writes. -/
def currentMetadata (w : World ι) (i : ι) : CacheMetadata :=
  let m := T.manager i
  { venvPath := m.layout.venvPath
    requirementsFile := if (w.requirements T i).exists? then m.requirementsFile else none
    requirementsHash := hashFileOrEmpty sha256 (w.requirements T i)
    manifestVersion := m.manifestVersion
    manifestHash := some (hashFileOrEmpty sha256 (w.files m.layout.manifestPath))
    pythonVersion := none }

/-! ## Effects -/

/-- The running call returns. -/
def returns (w : World ι) (i : ι) (r : Except HostError EnsureOutcome) : World ι :=
  { w with
    phase := .idle
    returned := some (i, r)
    live := match r with
      | .ok _ => i :: w.live
      | .error _ => w.live }

/-- `remove_dir_all` by instance `i`. What it leaves, if anything, holds nothing installed. -/
def removeVenv (w : World ι) (i : ι) (left : Option Dir) : World ι :=
  { w with
    venv := left
    incarnation := w.incarnation + 1
    removals := w.removals ++ [(i, w.live)] }

/-- A venv directory with nothing installed. -/
def createDir (w : World ι) : World ι :=
  { w with venv := some ⟨[]⟩, incarnation := w.incarnation + 1 }

def writeMetadata (w : World ι) (path : Path) (f : MetadataFile) : World ι :=
  { w with
    metadata := Function.update w.metadata path f
    written := Function.update w.written path w.incarnation }

/-! ## The steps of `ensure` -/

/-- Up to the first await: the verdict, and whether a stale venv is updated in place. -/
def beginEnsure (w : World ι) (i : ι) : World ι :=
  if w.cacheVerdict T sha256 i = .valid then
    { w with phase := .claiming i (w.requirements T i) }
  else { w with phase := .preparing i (w.venvHasOtherOwner T i && w.venv.isSome) }

def prepare (w : World ι) (i : ι) (updateInPlace : Bool) (r : PrepareResult) :
    Option (World ι) :=
  let removes := !updateInPlace && w.venv.isSome
  match prepareError (T.manager i).layout r, r with
  | none, _ =>
    let w' := if removes then w.removeVenv i none else w
    some { w' with phase := if updateInPlace then .installing i true else .creating i }
  | some e, .remove _ damaged =>
    -- Only a removal that is attempted can fail.
    if removes then
      some ((if damaged then w.removeVenv i (some ⟨[]⟩) else w).returns i (.error e))
    else none
  | some e, _ => some (w.returns i (.error e))

def create (w : World ι) (i : ι) (r : CreateResult) : World ι :=
  match createError (T.manager i).layout r, r with
  | none, _ => { w.createDir with phase := .installing i false }
  | some e, .status _ true => w.createDir.returns i (.error e)
  | some e, _ => w.returns i (.error e)

def install (w : World ι) (i : ι) (updateInPlace : Bool) (r : InstallResult) :
    Option (World ι) :=
  match (T.manager i).requirementsFile with
  | none =>
    match r with
    | .ok => some { w with phase := .registering i updateInPlace false .absent }
    | _ => none
  | some path =>
    match w.files path, installError (T.manager i) path r, w.venv with
    | .absent, none, _ => some { w with phase := .registering i updateInPlace false .absent }
    | .absent, some _, _ => none
    | .contents bytes, none, some dir => some { w with
        venv := some { dir with installed := bytes :: dir.installed }
        phase := .registering i updateInPlace true (.contents bytes) }
    -- pip fails on a file it cannot read.
    | _, none, _ => none
    | _, some e, _ => some (w.returns i (.error e))

/-- `register_owner`: the registry it leaves and its error. -/
def registerOwner (w : World ι) (i : ι) (r : WriteResult) :
    Option (World ι × Option HostError) :=
  let m := T.manager i
  match registerError m.layout r, r with
  | none, _ => some ({ w with owners := w.owners.register m.className }, none)
  | some e, .panicked _ => some (w, some e)
  | some e, r =>
    -- An owner that is registered already is not written again.
    if m.className ∈ w.owners.load then none
    else
      match r with
      | .write _ true => some ({ w with owners := .unreadable }, some e)
      | _ => some (w, some e)

def saveMetadata (w : World ι) (i : ι) (updateInPlace installed : Bool) (r : WriteResult) :
    Option (World ι) :=
  let l := (T.manager i).layout
  match r, saveError l r with
  | .ok, _ => some
    ((w.writeMetadata l.metadataPath (.readable (w.currentMetadata T sha256 i))).returns i
      (.ok (if updateInPlace then .sharedUpdate installed else .built installed)))
  | .write _ true, some e =>
    some ((w.writeMetadata l.metadataPath .unreadable).returns i (.error e))
  | _, some e => some (w.returns i (.error e))
  | _, none => none

/-- `release_owner`, at the end of a shutdown. -/
def releaseOwner (w : World ι) (i : ι) (r : ReleaseResult) : World ι :=
  let className := (T.manager i).className
  match r with
  | .ok => { w with owners := w.owners.release className }
  | .failed true => if className ∈ w.owners.load then { w with owners := .unreadable } else w
  | .failed false => w

end World

/-! ## The machine -/

inductive Label (ι : Type*) where
  | edit (path : Path) (file : File)
  | ensure (i : ι)
  | prepare (r : PrepareResult)
  | create (r : CreateResult)
  | install (r : InstallResult)
  | register (r : WriteResult)
  | save (r : WriteResult)
  /-- The caller drops the future, or the host stops, between two steps. -/
  | interrupt
  /-- Instance `i` shuts down. -/
  | release (i : ι) (r : ReleaseResult)

variable {ι : Type*}

/-- A step of the running call. -/
def advance (T : Tenants ι) (sha256 : Bytes → String) (w : World ι) : Label ι → Option (World ι)
  | .prepare r =>
    match w.phase with
    | .preparing i updateInPlace => w.prepare T i updateInPlace r
    | _ => none
  | .create r =>
    match w.phase with
    | .creating i => some (w.create T i r)
    | _ => none
  | .install r =>
    match w.phase with
    | .installing i updateInPlace => w.install T i updateInPlace r
    | _ => none
  | .register r =>
    match w.phase with
    | .claiming i _ =>
      match w.registerOwner T i r with
      | some (w', none) => some (w'.returns i (.ok .reused))
      | some (w', some e) => some (w'.returns i (.error e))
      | none => none
    | .registering i updateInPlace installed read =>
      match w.registerOwner T i r with
      | some (w', none) => some { w' with phase := .saving i updateInPlace installed read }
      | some (w', some e) => some (w'.returns i (.error e))
      | none => none
    | _ => none
  | .save r =>
    match w.phase with
    | .saving i updateInPlace installed _ => w.saveMetadata T sha256 i updateInPlace installed r
    | _ => none
  | .interrupt =>
    match w.phase with
    | .idle => none
    | _ => some { w with phase := .idle }
  | _ => none

variable [DecidableEq ι]

def step (T : Tenants ι) (sha256 : Bytes → String) (w : World ι) : Label ι → Option (World ι)
  | .edit path file => some { w with files := Function.update w.files path file, returned := none }
  | .ensure i =>
    match w.phase with
    | .idle => some ({ w with returned := none }.beginEnsure T sha256 i)
    | _ => none
  | .release i r =>
    match w.phase with
    | .idle => some { w.releaseOwner T i r with
        live := w.live.filter (· ≠ i)
        returned := none }
    | _ => none
  | l => advance T sha256 { w with returned := none } l

/-- The instances of a class root and their disk as a machine. -/
def disk (T : Tenants ι) (sha256 : Bytes → String) : Machine (World ι) (Label ι) where
  step := step T sha256

/-- A disk before the first call of this process, whatever an earlier one left on it. -/
structure Unused (w : World ι) : Prop where
  idle : w.phase = .idle
  live : w.live = []
  removals : w.removals = []

/-- A disk before the first call: no plugin of the class root has cache metadata yet. -/
structure Initial (w : World ι) : Prop extends Unused w where
  metadata : ∀ path, w.metadata path = .absent
  written : ∀ path, w.written path ≤ w.incarnation
  returned : w.returned = none

end Cpex.Host.Venv
