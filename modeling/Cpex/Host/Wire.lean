import Cpex.Host.Framing

/-!
# The worker client on its pipes

`WorkerClient::spawn` of `crates/cpex-hosts-python/src/worker.rs` starts `writer_loop`,
`reader_loop` and `stderr_loop` over the three pipes of the process. Here they run next to the
calls of the machine `client`: what comes down a pipe are bytes, in chunks of any size, and a write
takes as many bytes as the pipe has room for.

* `LineReader` — `read_bounded_line` cut at its `fill_buf`s
* `Wire`, `wire` — the client, its pipes and the calls of `shutdown`, as a machine
-/

namespace Cpex.Host.Worker

open Cpex.Infra

/-! ## `read_bounded_line` -/

/-- What a `fill_buf` that has to read from the pipe yields. -/
inductive Fill where
  | chunk (c : Chunk)
  | ended
  | failed (e : String)

/-- A loop over `read_bounded_line`: the locals of the call in progress, and what the buffer holds.
`ending` is how the stream ended, and `received` is history. -/
structure LineReader where
  scan : Scan
  unread : List UInt8
  ending : Option (Option String)
  received : List UInt8

namespace LineReader

def new : LineReader := ⟨.start, [], none, []⟩

/-- `fill_buf` of an empty buffer. -/
def fill (r : LineReader) (f : Fill) : Option LineReader :=
  if r.unread = [] ∧ r.ending = none then
    match f with
    | .chunk c => some { r with unread := c.bytes, received := r.received ++ c.bytes }
    | .ended => some { r with ending := some none }
    | .failed e => some { r with ending := some (some e) }
  else none

/-- One pass of the loop of `read_bounded_line`, and what the call returns if it was the last. -/
def pass (limit : Nat) (r : LineReader) :
    Option (LineReader × Option (Except String BoundedLine)) :=
  if r.unread = [] then
    r.ending.map fun failure => ({ r with scan := .start }, some (r.scan.ended failure))
  else
    let (scan, consumed, done) := r.scan.pass limit r.unread
    let unread := r.unread.drop consumed
    if done then some ({ r with scan := .start, unread }, some (.ok scan.finish))
    else some ({ r with scan, unread }, none)

end LineReader

/-! ## `stderr_loop` -/

/-- `STDERR_MAX_LINE_BYTES`. -/
def stderrMaxLineBytes : Nat := 8 * 1024

/-- `TRUNCATION_MARKER`. -/
def truncationMarker : String := "… [truncated by host]"

/-- What `stderr_loop` retains of a line. The loop ends on anything else. -/
def stderrLine : Except String BoundedLine → Option String
  | .ok (.line text) => some text
  | .ok (.oversized kept _) => some (kept ++ truncationMarker)
  | .ok .eof | .error _ => none

/-! ## The client and its pipes -/

/-- Where `writer_loop` stands. -/
inductive WriterPhase where
  | receiving
  | writing (rest : List UInt8)
  | flushing
  /-- The pipe is broken; the receiver is not dropped yet. -/
  | stopping
  | finished

/-- Where a call of `shutdown` stands that took the child. -/
inductive Stopping where
  | waiting
  | killing
  | done (result : Except HostError Unit)

/-- What the outbound channel carries: the line of a call, or that of `shutdown`. -/
structure Outbound where
  owner : Option CallId
  line : String

/-- `format!("{line}\n")`, as bytes. -/
def Outbound.bytes (o : Outbound) : List UInt8 := Utf8.encode (o.line.toList ++ ['\n'])

/-- The client on its pipes.

`sent` and `stdin` are history: what the outbound channel accepted, and what the worker's stdin
got. `taken` of `sent` were received by the writer. -/
structure Wire where
  client : Client
  stdout : LineReader
  stderr : LineReader
  stderrOpen : Bool
  sent : List Outbound
  taken : Nat
  writer : WriterPhase
  stdin : List UInt8
  /-- `child` is still there for a `shutdown` to take. -/
  child : Bool
  shutdowns : List Stopping

/-- A client right after `WorkerClient::spawn`. -/
def Wire.spawned : Wire where
  client := .spawned
  stdout := .new
  stderr := .new
  stderrOpen := true
  sent := []
  taken := 0
  writer := .receiving
  stdin := []
  child := true
  shutdowns := []

/-- The task that asks the worker to exit. -/
def shutdownTask : Json :=
  .object [("request_id", .string "shutdown"), ("task_type", .string "shutdown")]

inductive WireLabel where
  /-- A step of a call, or of the end of `reader_loop`. -/
  | client (l : Label)
  | fillStdout (f : Fill)
  | passStdout
  | fillStderr (f : Fill)
  | passStderr
  /-- The writer receives a line. -/
  | take
  /-- The pipe takes `n` bytes. -/
  | write (n : Nat)
  | flush
  /-- A write or a flush fails. -/
  | breakStdin
  | dropReceiver
  /-- A caller runs `shutdown`. -/
  | shutdown
  /-- `child.wait()` returns. -/
  | exited (k : Nat) (status : Except String Unit)
  | graceElapsed (k : Nat)
  /-- `child.kill()` returns. -/
  | killed (k : Nat) (status : Except String Unit)

namespace Wire

/-- A step of the client. What it hands off goes into the channel. -/
def stepClient (cfg : Settings) (s : Wire) (l : Label) : Option Wire :=
  (step cfg s.client l).map fun client =>
    let handed := client.outbound.drop s.client.outbound.length
    { s with client, sent := s.sent ++ handed.map fun e => ⟨some e.1, e.2⟩ }

/-- What the pipes, the writer and the tasks behind them do is not a step of a call. -/
def ofCalls : Label → Bool
  | .read _ | .stderr _ | .writerExit => false
  | _ => true

/-- A pass of `reader_loop`. -/
def passStdout (cfg : Settings) (s : Wire) : Option Wire :=
  if s.client.reader = .reading then
    (s.stdout.pass cfg.maxContentSize).bind fun (stdout, frame) =>
      match frame with
      | none => some { s with stdout }
      | some frame => stepClient cfg { s with stdout } (.read frame)
  else none

/-- A pass of `stderr_loop`. -/
def passStderr (cfg : Settings) (s : Wire) : Option Wire :=
  if s.stderrOpen then
    (s.stderr.pass stderrMaxLineBytes).bind fun (stderr, frame) =>
      match frame with
      | none => some { s with stderr }
      | some frame =>
        match stderrLine frame with
        | none => some { s with stderr, stderrOpen := false }
        | some line => stepClient cfg { s with stderr } (.stderr line)
  else none

/-- `outbound.recv()`. -/
def take (s : Wire) : Option Wire :=
  match s.writer with
  | .receiving =>
    s.sent[s.taken]?.map fun o => { s with writer := .writing o.bytes, taken := s.taken + 1 }
  | _ => none

/-- A write of `write_all`. -/
def write (s : Wire) (n : Nat) : Option Wire :=
  match s.writer with
  | .writing rest =>
    if 0 < n ∧ n ≤ rest.length then
      some { s with
        stdin := s.stdin ++ rest.take n
        writer := if rest.length = n then .flushing else .writing (rest.drop n) }
    else none
  | _ => none

/-- `shutdown`, up to its first `await` on the child. Without a child it is over. -/
def shutdown (cfg : Settings) (s : Wire) : Wire :=
  if s.child then
    let s := { s with child := false, shutdowns := s.shutdowns ++ [.waiting] }
    match cfg.toString shutdownTask with
    | .ok line => if s.client.writerOpen then { s with sent := s.sent ++ [⟨none, line⟩] } else s
    | .error _ => s
  else { s with shutdowns := s.shutdowns ++ [.done (.ok ())] }

def setShutdown (s : Wire) (k : Nat) (p : Stopping) : Wire :=
  { s with shutdowns := s.shutdowns.set k p }

end Wire

open Wire in
def wireStep (cfg : Settings) (s : Wire) : WireLabel → Option Wire
  | .client l => if ofCalls l then s.stepClient cfg l else none
  | .fillStdout f =>
    if s.client.reader = .reading then (s.stdout.fill f).map ({ s with stdout := · }) else none
  | .passStdout => s.passStdout cfg
  | .fillStderr f =>
    if s.stderrOpen then (s.stderr.fill f).map ({ s with stderr := · }) else none
  | .passStderr => s.passStderr cfg
  | .take => s.take
  | .write n => s.write n
  | .flush =>
    match s.writer with
    | .flushing => some { s with writer := .receiving }
    | _ => none
  | .breakStdin =>
    match s.writer with
    | .writing _ | .flushing => some { s with writer := .stopping }
    | _ => none
  | .dropReceiver =>
    match s.writer with
    | .stopping => stepClient cfg { s with writer := .finished } .writerExit
    | _ => none
  | .shutdown => some (s.shutdown cfg)
  | .exited k status =>
    match s.shutdowns[k]?, status with
    | some .waiting, .ok () => some (s.setShutdown k (.done (.ok ())))
    | some .waiting, .error e =>
      some (s.setShutdown k
        (.done (.error (.workerDied s!"could not wait on the worker process: {e}"))))
    | _, _ => none
  | .graceElapsed k =>
    match s.shutdowns[k]? with
    | some .waiting => some (s.setShutdown k .killing)
    | _ => none
  | .killed k status =>
    match s.shutdowns[k]?, status with
    | some .killing, .ok () => some (s.setShutdown k (.done (.ok ())))
    | some .killing, .error e =>
      some (s.setShutdown k
        (.done (.error (.workerDied s!"could not kill the unresponsive worker: {e}"))))
    | _, _ => none

/-- The worker client on its pipes, as a machine. -/
def wire (cfg : Settings) : Machine Wire WireLabel where
  step := wireStep cfg

end Cpex.Host.Worker
