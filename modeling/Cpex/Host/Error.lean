import Mathlib.Data.List.Basic

/-!
# Host errors

`crates/cpex-hosts-python/src/error.rs`. The failures the host tells apart. At the trait boundary
each becomes a `PluginError` of the same message, to which the executor applies the plugin's
`on_error` policy.
-/

namespace Cpex.Host

/-- Output of a failed child process. `exitCode` is `none` for one killed by a signal. -/
structure ProcessOutput where
  exitCode : Option Int32
  stderr : String
  deriving DecidableEq, Repr

inductive HostError where
  | config (message : String)
  | venvBuild (message : String)
  | venvCommand (step context : String) (output : ProcessOutput)
  | workerStart (message : String)
  | workerDied (message : String)
  | timeout (timeoutSecs : Nat)
  | taskTooLarge (size limit : Nat)
  | responseTooLarge (size limit : Nat)
  | workerError (message : String)
  | protocol (message : String)
  | credential (message : String)
  | legacyShim (hook message : String)
  deriving DecidableEq, Repr

/-! ## Display -/

def stderrExcerptBytes : Nat := 4096

/-- The longest end of a text, by whole characters, that takes at most `limit` bytes. -/
def endWithin (limit : Nat) : List Char → List Char
  | [] => []
  | c :: cs => if (String.ofList (c :: cs)).utf8ByteSize ≤ limit then c :: cs else endWithin limit cs

namespace ProcessOutput

/-- The end of stderr. -/
def stderrExcerpt (output : ProcessOutput) : String :=
  String.ofList (endWithin stderrExcerptBytes output.stderr.toList)

def describe (output : ProcessOutput) : String :=
  let status := match output.exitCode with
    | some code => s!"exited {code}"
    | none => "was killed by a signal"
  if output.stderrExcerpt = "" then status else s!"{status}: {output.stderrExcerpt}"

end ProcessOutput

/-- The message of an error. -/
def HostError.display : HostError → String
  | .config message => s!"configuration error: {message}"
  | .venvBuild message => s!"venv build failed: {message}"
  | .venvCommand step context output =>
    s!"venv build failed: `{step}` on {context} {output.describe}"
  | .workerStart message => s!"worker failed to start: {message}"
  | .workerDied message => s!"worker process died: {message}"
  | .timeout timeoutSecs => s!"worker did not respond within {timeoutSecs}s"
  | .taskTooLarge size limit =>
    s!"serialized task is {size} bytes, over the {limit}-byte max_content_size"
  | .responseTooLarge size limit => s!"worker response frame is at least {size} bytes, over the " ++
      s!"{limit}-byte max_content_size; the frame was discarded rather than buffered"
  | .workerError message => s!"worker returned an error: {message}"
  | .protocol message => s!"protocol error: {message}"
  | .credential message => s!"credential error: {message}"
  | .legacyShim hook message => s!"hook '{hook}' cannot be served by this worker, which predates " ++
      s!"cmf hook support: {message}"

end Cpex.Host
