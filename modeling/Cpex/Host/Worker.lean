import Mathlib.Logic.Function.Basic
import Cpex.Infra.Machine
import Cpex.Infra.Json
import Cpex.Infra.Text
import Cpex.Host.Error

/-!
# The worker client

`crates/cpex-hosts-python/src/worker.rs`. One `worker.py` process is served by three tasks over
shared state: any number of `send_task` calls, one writer and one reader. The reader routes each
response line to the call whose `request_id` it carries.

Every access to shared state (the `alive` flag, one locked section of `pending`, the outbound
channel, a one-shot channel) is one step of the machine `client`, and an `await` is a place where
a call's future may be dropped. What the worker prints, when a timeout elapses and who runs next
are labels, so a run is one schedule against one worker.
-/

namespace Cpex.Host.Worker

open Cpex.Infra

abbrev CallId := Nat

/-- Outcome of one bounded line read. `oversized` keeps the text read up to the limit. -/
inductive BoundedLine where
  | line (text : String)
  | oversized (kept : String) (scanned : Nat)
  | eof
  deriving DecidableEq, Repr

/-- What the client is configured with, and `serde_json`'s two conversions of text. -/
structure Settings where
  maxContentSize : Nat
  timeoutSecs : Nat
  fromStr : String → Option Json
  toString : Json → Except String String

/-! ## Pure parts -/

/-- Strips `request_id` from a response and turns an error envelope into an error. -/
def interpretResponse : Json → Except HostError Json
  | .object fields =>
    let obj := Assoc.erase "request_id" fields
    if (Assoc.get? "status" obj).bind Json.asStr = some "error" then
      .error (.workerError (((Assoc.get? "message" obj).bind Json.asStr).getD
        "worker reported an error with no message"))
    else .ok (.object obj)
  | other => .ok other

/-- The error a caller gets when its response frame was over the inbound cap. -/
def responseTooLarge (size limit : Nat) : HostError := .responseTooLarge size limit

/-- The text up to the first `"`, when there is one. -/
def untilQuote : List Char → Option (List Char)
  | [] => none
  | '"' :: _ => some []
  | c :: cs => (untilQuote cs).map (c :: ·)

/-- Best-effort recovery of a request id from a truncated response frame. -/
def requestIdFromPrefix (kept : String) : Option String := do
  let afterKey ← Text.afterFirst "\"request_id\"".toList kept.toList
  let afterColon ← Text.afterFirst [':'] afterKey
  let rest ← Text.afterFirst ['"'] afterColon
  let id ← untilQuote rest
  return String.ofList id

/-- The `WorkerDied` error, with the recent stderr when there is any. -/
def died (stderrTail : List String) (context : String) : HostError :=
  if stderrTail.isEmpty then .workerDied context
  else .workerDied (context ++ "; recent worker stderr: " ++ " | ".intercalate stderrTail)

/-- How many recent stderr lines are kept. -/
def stderrRetainLines : Nat := 40

/-! ## State -/

/-- A one-shot channel as its receiver sees it. `closed`: the sender was dropped. -/
inductive OneShot where
  | waiting
  | sent (reply : Except HostError Json)
  | closed

/-- Where one `send_task` call stands. The name of a phase says what the call does next. -/
inductive Phase where
  /-- Not called yet. -/
  | idle
  /-- Waits for the lock of `pending` to register. -/
  | registering (id line : String)
  /-- Registered, and about to hand the line to the writer. -/
  | handingOff (id line : String)
  /-- The writer is gone: waits for the lock to take the registration back. -/
  | withdrawing (id : String)
  /-- Waits on its one-shot channel. -/
  | awaiting (id : String)
  /-- The timeout elapsed and the receiver is gone: waits for the lock to unregister. -/
  | expiring (id : String)
  /-- Waits for the stderr tail to report that the worker died. -/
  | reporting (context : String)
  | done (result : Except HostError Json)
  /-- The caller dropped the future. -/
  | cancelled

/-- The request id a call is using for `pending`. -/
def Phase.id? : Phase → Option String
  | .registering id _ | .handingOff id _ | .withdrawing id | .awaiting id | .expiring id => some id
  | _ => none

/-- Whether the receiver of the call's one-shot channel still exists. -/
def Phase.listening : Phase → Bool
  | .handingOff _ _ | .withdrawing _ | .awaiting _ => true
  | _ => false

/-- Where the reader task stands. -/
inductive ReaderPhase where
  | reading
  /-- Stdout closed; `alive` is still set. -/
  | closing
  /-- `alive` is cleared; `pending` is not yet. -/
  | clearing
  | finished
  deriving DecidableEq

/--
The shared state of one client.

`requestId`, `lines`, `deliveries` and `resolved` are history: the id each call generated, what
the reader read, which line (by its index) went to which call, and what each call returned.
-/
structure Client where
  alive : Bool
  pending : List (String × CallId)
  phase : CallId → Phase
  oneShot : CallId → OneShot
  writerOpen : Bool
  outbound : List (CallId × String)
  reader : ReaderPhase
  stderrTail : List String
  requestId : CallId → Option String
  lines : List (Except String BoundedLine)
  deliveries : List (Nat × CallId)
  resolved : List (CallId × Except HostError Json)

/-- A client right after `WorkerClient::spawn`. -/
def Client.spawned : Client where
  alive := true
  pending := []
  phase := fun _ => .idle
  oneShot := fun _ => .waiting
  writerOpen := true
  outbound := []
  reader := .reading
  stderrTail := []
  requestId := fun _ => none
  lines := []
  deliveries := []
  resolved := []

namespace Client

def setPhase (s : Client) (c : CallId) (p : Phase) : Client :=
  { s with phase := Function.update s.phase c p }

/-- The call returns `r`. -/
def resolve (s : Client) (c : CallId) (r : Except HostError Json) : Client :=
  { s with phase := Function.update s.phase c (.done r), resolved := s.resolved ++ [(c, r)] }

/-- Drops the sender of a call's one-shot channel. A value already sent stays. -/
def dropSender (s : Client) (c : CallId) : Client :=
  match s.oneShot c with
  | .waiting => { s with oneShot := Function.update s.oneShot c .closed }
  | _ => s

/-- `tx.send(Err(e))`: lost when the receiver is gone. -/
def sendError (s : Client) (e : HostError) (c : CallId) : Client :=
  if (s.phase c).listening then
    { s with oneShot := Function.update s.oneShot c (.sent (.error e)) }
  else s

/-- `tx.send(Ok(response))` for the line at index `n`: lost when the receiver is gone. -/
def sendResponse (s : Client) (n : Nat) (response : Json) (c : CallId) : Client :=
  if (s.phase c).listening then
    { s with
      oneShot := Function.update s.oneShot c (.sent (.ok response))
      deliveries := s.deliveries ++ [(n, c)] }
  else s

/-- Removes `id` from `pending` and drops the sender it held. -/
def unregister (s : Client) (id : String) : Client :=
  match Assoc.get? id s.pending with
  | some c => { s with pending := Assoc.erase id s.pending }.dropSender c
  | none => s

/-! ## `send_task` -/

/-- Up to the first lock: the liveness check, the request id, the size check. -/
def beginSend (cfg : Settings) (s : Client) (c : CallId) (id : String) (task : Json) : Client :=
  if !s.alive then s.setPhase c (.reporting "worker process is no longer running")
  else
    let s := { s with requestId := Function.update s.requestId c (some id) }
    match task with
    | .object fields =>
      match cfg.toString (.object (Assoc.putSorted Json.keyOrder "request_id" (.string id) fields)) with
      | .error e => s.resolve c (.error (.protocol s!"could not serialize task: {e}"))
      | .ok line =>
        if cfg.maxContentSize < line.utf8ByteSize then
          s.resolve c (.error (.taskTooLarge line.utf8ByteSize cfg.maxContentSize))
        else s.setPhase c (.registering id line)
    | _ => s.resolve c (.error (.protocol "task must be a JSON object"))

/-- `pending.insert`: a sender it replaces is dropped. -/
def register (s : Client) (c : CallId) (id line : String) : Client :=
  let s := match Assoc.get? id s.pending with
    | some old => s.dropSender old
    | none => s
  { s with
    pending := Assoc.put id c s.pending
    oneShot := Function.update s.oneShot c .waiting
    phase := Function.update s.phase c (.handingOff id line) }

/-- `outbound.send`: fails once the writer task is gone. -/
def handOff (s : Client) (c : CallId) (id line : String) : Client :=
  if s.writerOpen then { s with outbound := s.outbound ++ [(c, line)] }.setPhase c (.awaiting id)
  else s.setPhase c (.withdrawing id)

/-- What the awaited one-shot channel yields, once it yields something. -/
def receive (s : Client) (c : CallId) : Option Client :=
  match s.oneShot c with
  | .sent (.ok response) => some (s.resolve c (interpretResponse response))
  | .sent (.error e) => some (s.resolve c (.error e))
  | .closed => some (s.setPhase c (.reporting "worker exited while the request was in flight"))
  | .waiting => none

/-! ## `reader_loop` -/

/-- A frame within the limit: the call whose id it carries is answered, if it still waits. -/
def onLine (cfg : Settings) (s : Client) (text : String) : Client :=
  let line := Text.trim text
  if line = "" then s
  else
    match cfg.fromStr line with
    | none => s
    | some response =>
      match (response.get? "request_id").bind Json.asStr with
      | none => s
      | some id =>
        match Assoc.get? id s.pending with
        | none => s
        | some c =>
          { s with pending := Assoc.erase id s.pending }.sendResponse s.lines.length response c

/-- A frame over the limit: its owner is told, or every waiting call when no owner is found. -/
def onOversized (cfg : Settings) (s : Client) (kept : String) (scanned : Nat) : Client :=
  let e := responseTooLarge scanned cfg.maxContentSize
  match (requestIdFromPrefix kept).bind fun id => (Assoc.get? id s.pending).map (id, ·) with
  | some (id, c) => { s with pending := Assoc.erase id s.pending }.sendError e c
  | none => (s.pending.map Prod.snd).foldl (sendError · e) { s with pending := [] }

def onFrame (cfg : Settings) (s : Client) (frame : Except String BoundedLine) : Client :=
  let s' := match frame with
    | .ok (.line text) => s.onLine cfg text
    | .ok (.oversized kept scanned) => s.onOversized cfg kept scanned
    | .ok .eof => { s with reader := .closing }
    | .error _ => { s with reader := .closing }
  { s' with lines := s.lines ++ [frame] }

/-- `pending.clear()`: every sender still registered is dropped. -/
def clearPending (s : Client) : Client :=
  (s.pending.map Prod.snd).foldl dropSender { s with pending := [], reader := .finished }

end Client

/-! ## Steps -/

inductive Label where
  /-- A caller runs `send_task`, which draws `id`. -/
  | call (c : CallId) (id : String) (task : Json)
  | register (c : CallId)
  | handOff (c : CallId)
  | withdraw (c : CallId)
  | receive (c : CallId)
  | timeOut (c : CallId)
  | expire (c : CallId)
  | report (c : CallId)
  /-- The caller drops the future while it awaits. -/
  | cancel (c : CallId)
  | read (frame : Except String BoundedLine)
  | markDead
  | clear
  | writerExit
  | stderr (line : String)

def step (cfg : Settings) (s : Client) : Label → Option Client
  | .call c id task =>
    match s.phase c with
    | .idle => some (s.beginSend cfg c id task)
    | _ => none
  | .register c =>
    match s.phase c with
    | .registering id line => some (s.register c id line)
    | _ => none
  | .handOff c =>
    match s.phase c with
    | .handingOff id line => some (s.handOff c id line)
    | _ => none
  | .withdraw c =>
    match s.phase c with
    | .withdrawing id => some ((s.unregister id).setPhase c
        (.reporting "writer task is gone — the worker is no longer accepting tasks"))
    | _ => none
  | .receive c =>
    match s.phase c with
    | .awaiting _ => s.receive c
    | _ => none
  | .timeOut c =>
    -- `timeout` polls the channel before the clock, so a ready channel never times out.
    match s.phase c, s.oneShot c with
    | .awaiting id, .waiting => some (s.setPhase c (.expiring id))
    | _, _ => none
  | .expire c =>
    match s.phase c with
    | .expiring id => some ((s.unregister id).resolve c (.error (.timeout cfg.timeoutSecs)))
    | _ => none
  | .report c =>
    match s.phase c with
    | .reporting context => some (s.resolve c (.error (died s.stderrTail context)))
    | _ => none
  | .cancel c =>
    -- No await stands between registration and hand-off.
    match s.phase c with
    | .registering _ _ | .withdrawing _ | .awaiting _ | .expiring _ | .reporting _ =>
      some (s.setPhase c .cancelled)
    | _ => none
  | .read frame =>
    if s.reader = .reading then some (s.onFrame cfg frame) else none
  | .markDead =>
    if s.reader = .closing then some { s with alive := false, reader := .clearing } else none
  | .clear => if s.reader = .clearing then some s.clearPending else none
  | .writerExit => some { s with writerOpen := false }
  | .stderr line =>
    let tail := s.stderrTail ++ [line]
    some { s with stderrTail := tail.drop (tail.length - stderrRetainLines) }

/-- The worker client as a machine. -/
def client (cfg : Settings) : Machine Client Label where
  step := step cfg

end Cpex.Host.Worker
