import Cpex.Ffi.Invoke

/-!
# Plugin names and secrets over the C interface

`cpex_plugin_names` of `crates/cpex-ffi/src/lib.rs` and `cpex_refresh_secrets` of
`crates/cpex-ffi/src/secrets.rs`, with the report of `crates/cpex/src/host.rs`.

* `RefreshSummary` — the report of a refresh as it crosses
* `Reporting` — what an engine answers, and the codec at these types
* `cpexPluginNames`, `cpexRefreshSecrets`
-/

namespace Cpex.Ffi

open Cpex.Infra

variable {T : Types}

/-! ## The report of a refresh -/

/-- An error of the engine, by its class, with the text it displays. -/
inductive SecretError where
  | config (text : String)
  | reference (text : String)
  | notFound (text : String)
  | malformed (text : String)
  | backend (text : String)
  | other (text : String)

def SecretError.text : SecretError → String
  | .config text | .reference text | .notFound text | .malformed text | .backend text
  | .other text => text

def secretErrorKind : SecretError → String
  | .config _ => "config"
  | .reference _ => "reference"
  | .notFound _ => "not_found"
  | .malformed _ => "malformed"
  | .backend _ => "backend"
  | .other _ => "other"

structure SecretFailure where
  secret : String
  provider : String
  source : SecretError

structure RefreshReport where
  updated : List String
  unchanged : UInt64
  failed : List SecretFailure

structure RefreshFailure where
  secret : String
  provider : String
  kind : String
  message : String

structure RefreshSummary where
  updated : List String
  unchanged : UInt64
  failed : List RefreshFailure

/-- `RefreshSummary::from` -/
def RefreshSummary.ofReport (report : RefreshReport) : RefreshSummary where
  updated := report.updated
  unchanged := report.unchanged
  failed := report.failed.map fun failure =>
    { secret := failure.secret
      provider := failure.provider
      kind := secretErrorKind failure.source
      message := failure.source.text }

/-! ## The entry points -/

/-- What an engine answers of its plugins and secrets, and how the codec writes it. -/
structure Reporting where
  pluginNames : List String
  refreshSecrets : SafeRun RefreshReport
  writeNames : List String → Except String Bytes
  writeSummary : RefreshSummary → Except String Bytes

/-- A buffer and its length. -/
abbrev BufferOut : Type := Option Addr × Int32

/-- `cpex_plugin_names`, up to the buffer. -/
def named (R : Reporting) : Except Rc Bytes :=
  orReturn .serializeError (R.writeNames R.pluginNames).toOption

/-- The out parameters are as they were unless the code is `RC_OK`. -/
def cpexPluginNames (R : Reporting) (allocates : Nat → Bool) (m : Memory T) (handle : Option Addr)
    (outs : BufferOut) : Memory T × Rc × BufferOut :=
  let m := asRef m handle
  if handle.isNone then (m, .invalidHandle, outs)
  else match named R with
    | .error rc => (m, rc, outs)
    | .ok bytes =>
      let (m, p, len) := allocBytes allocates m bytes
      (m, .ok, (p, len))

/-- `cpex_refresh_secrets`, up to the buffer. A secret that failed is listed in the report. -/
def refreshed (R : Reporting) : Except Rc Bytes := do
  let report ← R.refreshSecrets.orReturn
  orReturn .serializeError (R.writeSummary (.ofReport report)).toOption

/-- `writable` is whether neither out pointer is null. They are cleared first. -/
def cpexRefreshSecrets (R : Reporting) (allocates : Nat → Bool) (m : Memory T)
    (handle : Option Addr) (writable : Bool) (outs : BufferOut) : Memory T × Rc × BufferOut :=
  if !writable then (m, .invalidInput, outs)
  else
    let m := asRef m handle
    if handle.isNone then (m, .invalidHandle, (none, 0))
    else match refreshed R with
      | .error rc => (m, rc, (none, 0))
      | .ok bytes =>
        let (m, p, len) := allocBytes allocates m bytes
        (m, .ok, (p, len))

end Cpex.Ffi
