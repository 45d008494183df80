import Mathlib.Algebra.Order.BigOperators.Group.List
import Mathlib.Algebra.Order.Ring.Nat
import Cpex.Host.Wire
import Cpex.Properties.Framing
import Cpex.Properties.Worker

/-!
# The worker client on its pipes

Whatever the chunks, the writes and the schedule, the calls see the lines of the bytes that came,
the worker gets the lines that were handed off, and what is kept of stderr is bounded.

* `LineReader.Reads` — what a loop over `read_bounded_line` has returned, and where it stands
* `Handed` — what the phases of the calls say of the lines they hand off
* `responses_from_bytes` — a call that succeeds was answered by its own line of the bytes
* `tasks_reach_stdin` — the worker's stdin is made of whole task lines, in order, each at most once
* `stderr_retained` — the last lines of stderr, and how long they may be
* `shutdown_once` — one call of `shutdown` takes the child
-/

namespace Cpex.Host.Worker

open Cpex.Infra

variable {cfg : Settings} {limit : Nat}

/-! ## Reading lines from a pipe -/

/-- The lines a pipe has brought. What stands behind the last newline is one once the stream has
ended there. -/
def LineReader.lines (r : LineReader) : List (List UInt8) :=
  linesOf (if r.ending = some none then none else some "") r.received

/-- What a call returns for a line. -/
def frame (limit : Nat) (line : List UInt8) : Except String BoundedLine := .ok (bounded limit line)

/-- What the last call returns. -/
def LineReader.last (r : LineReader) : Except String BoundedLine :=
  match r.ending with
  | some (some e) => .error e
  | _ => .ok .eof

/-- The calls so far have returned `lines`, and the one in progress has counted `begun`. -/
structure LineReader.Reads (limit : Nat) (r : LineReader) (lines : List (List UInt8))
    (begun : List UInt8) : Prop where
  scan : r.scan = .of limit begun
  begun_line : newline ∉ begun
  split : ∀ failure more, r.ending = none ∨ more = [] ∧ (r.ending = some none ↔ failure = none) →
    linesOf failure (r.received ++ more) = lines ++ linesOf failure (begun ++ r.unread ++ more)

theorem linesOf_failed (e : String) {tail : List UInt8} (h : newline ∉ tail) :
    linesOf (some e) tail = [] := by
  rw [linesOf_tail _ h, if_neg (by simp)]

/-- A loop goes on unless `read_bounded_line` found the end or failed. -/
def ends : Except String BoundedLine → Bool
  | .ok .eof | .error _ => true
  | .ok _ => false

theorem ends_frame (line : List UInt8) : ends (frame limit line) = false := by
  unfold frame bounded
  split <;> rfl

theorem ends_last (r : LineReader) : ends r.last = true := by
  unfold LineReader.last
  split <;> rfl

namespace LineReader

variable {r r' : LineReader} {lines : List (List UInt8)} {begun : List UInt8}

theorem reads_new (limit : Nat) : Reads limit .new [] [] where
  scan := (Scan.of_nil limit).symm
  begun_line := List.not_mem_nil
  split := fun _ _ _ => rfl

theorem Reads.fill (h : Reads limit r lines begun) {f : Fill} (hf : r.fill f = some r') :
    Reads limit r' lines begun := by
  simp only [LineReader.fill] at hf
  split at hf
  · next hcond =>
    obtain ⟨hunread, hending⟩ := hcond
    cases f with
    | chunk c =>
      obtain rfl := Option.some.inj hf
      refine ⟨h.scan, h.begun_line, fun failure more _ => ?_⟩
      have hsplit := h.split failure (c.bytes ++ more) (.inl hending)
      rw [hunread, List.append_nil] at hsplit
      show linesOf failure (r.received ++ c.bytes ++ more) = _
      rw [List.append_assoc, hsplit, List.append_assoc]
    | ended | failed e =>
      obtain rfl := Option.some.inj hf
      exact ⟨h.scan, h.begun_line, fun failure more _ => h.split failure more (.inl hending)⟩
  · cases hf

/-- What a pass does: it goes on, returns a line, or finds the end. -/
inductive Passed (limit : Nat) (r r' : LineReader) (lines : List (List UInt8)) :
    Option (Except String BoundedLine) → Prop where
  | counted (begun' : List UInt8) (h : Reads limit r' lines begun') : Passed limit r r' lines none
  | line (line : List UInt8) (h : Reads limit r' (lines ++ [line]) []) :
      Passed limit r r' lines (some (frame limit line))
  | ended (hlines : r'.lines = lines) (hending : r'.ending ≠ none) (hlast : r'.last = r.last)
      (hstart : r'.scan = .start) : Passed limit r r' lines (some r.last)

/-- **One pass**: what it returns is the next line, or the end behind the last one. -/
theorem Reads.pass (h : Reads limit r lines begun) {returned : Option (Except String BoundedLine)}
    (hp : r.pass limit = some (r', returned)) : Passed limit r r' lines returned := by
  rw [LineReader.pass] at hp
  split at hp
  · next hunread =>
    obtain ⟨failure, hending, hp⟩ := Option.map_eq_some_iff.mp hp
    obtain ⟨rfl, rfl⟩ := Prod.mk.inj hp
    rw [h.scan, Scan.ended_of]
    cases failure with
    | some e =>
      have hlast : r.last = .error e := by rw [last, hending]
      show Passed limit r _ lines (some (.error e))
      rw [← hlast]
      refine .ended ?_ (by simp [hending]) rfl rfl
      have hsplit := h.split (some "") [] (.inr ⟨rfl, by simp [hending]⟩)
      rw [hunread, List.append_nil, List.append_nil, List.append_nil,
        linesOf_failed "" h.begun_line, List.append_nil] at hsplit
      simpa [LineReader.lines, hending] using hsplit
    | none =>
      have hsplit := h.split none [] (.inr ⟨rfl, by simp [hending]⟩)
      rw [hunread, List.append_nil, List.append_nil, List.append_nil,
        linesOf_tail none h.begun_line] at hsplit
      by_cases hnil : begun = []
      · have hlast : r.last = .ok .eof := by rw [last, hending]
        show Passed limit r _ lines (some (if begun = [] then .ok .eof else _))
        rw [if_pos hnil, ← hlast]
        refine .ended ?_ (by simp [hending]) rfl rfl
        simpa [LineReader.lines, hending, hnil] using hsplit
      · show Passed limit r _ lines (some (if begun = [] then .ok .eof else _))
        rw [if_neg hnil]
        rw [if_pos ⟨rfl, hnil⟩] at hsplit
        refine .line begun ⟨(Scan.of_nil limit).symm, List.not_mem_nil, ?_⟩
        rintro failure more (hopen | ⟨rfl, hfailure⟩)
        · rw [hending] at hopen
          cases hopen
        · show linesOf failure (r.received ++ []) =
            lines ++ [begun] ++ linesOf failure (r.unread ++ [])
          rw [hfailure.mp hending, hunread, List.append_nil, List.append_nil, hsplit,
            linesOf_tail none List.not_mem_nil, if_neg (by simp), List.append_nil]
  · next hunread =>
    have hover := Scan.passed_over limit begun r.unread
    rw [← h.scan] at hover
    generalize r.scan.pass limit r.unread = passed at hover hp
    cases hover with
    | line before after hcut hnot consumed hdrop =>
      obtain ⟨rfl, rfl⟩ := Prod.mk.inj (Option.some.inj hp)
      have hline : newline ∉ begun ++ before :=
        fun hmem => (List.mem_append.mp hmem).elim h.begun_line hnot
      rw [Scan.finish_of]
      refine .line _ ⟨(Scan.of_nil limit).symm, List.not_mem_nil, fun failure more hmore => ?_⟩
      show linesOf failure (r.received ++ more) =
        lines ++ [begun ++ before] ++ linesOf failure (r.unread.drop consumed ++ more)
      have hsplit := h.split failure more hmore
      rw [hcut] at hsplit
      rw [hdrop, hsplit, List.append_assoc lines, List.singleton_append,
        ← linesOf_line failure hline]
      simp
    | counted hnot =>
      obtain ⟨rfl, rfl⟩ := Prod.mk.inj (Option.some.inj hp)
      refine .counted (begun ++ r.unread) ⟨rfl, ?_, fun failure more hmore => ?_⟩
      · exact fun hmem => (List.mem_append.mp hmem).elim h.begun_line hnot
      · show linesOf failure (r.received ++ more) =
          lines ++ linesOf failure (begun ++ r.unread ++ r.unread.drop r.unread.length ++ more)
        rw [List.drop_length, List.append_nil]
        exact h.split failure more hmore

/-- Where a loop stands that has got `frames` so far, while it runs and once it is over. -/
structure Returned (limit : Nat) (r : LineReader) (runs : Prop)
    (frames : List (Except String BoundedLine)) : Prop where
  going : runs → ∃ lines begun, Reads limit r lines begun ∧ frames = lines.map (frame limit)
  stopped : ¬ runs → r.ending ≠ none ∧ frames = r.lines.map (frame limit) ++ [r.last]
  retained : r.scan.buffer.length ≤ limit

variable {runs : Prop} {frames : List (Except String BoundedLine)}

theorem Reads.retained (h : Reads limit r lines begun) : r.scan.buffer.length ≤ limit := by
  rw [h.scan]
  exact List.length_take_le limit begun

theorem returned_new (hruns : runs) : Returned limit .new runs [] where
  going := fun _ => ⟨[], [], reads_new limit, rfl⟩
  stopped := fun hnot => absurd hruns hnot
  retained := (reads_new limit).retained

theorem Returned.fill (h : Returned limit r runs frames) (hruns : runs) {f : Fill}
    (hf : r.fill f = some r') : Returned limit r' runs frames := by
  obtain ⟨lines, begun, hreads, hframes⟩ := h.going hruns
  have hreads' := hreads.fill hf
  exact ⟨fun _ => ⟨lines, begun, hreads', hframes⟩, fun hnot => absurd hruns hnot, hreads'.retained⟩

/-- A pass of a running loop, which goes on if it got a line or nothing yet. -/
theorem Returned.pass (h : Returned limit r runs frames) (hruns : runs) {runs' : Prop}
    {returned : Option (Except String BoundedLine)} (hp : r.pass limit = some (r', returned))
    (hruns' : runs' ↔ ∀ f ∈ returned, ends f = false) :
    Returned limit r' runs' (frames ++ returned.toList) := by
  obtain ⟨lines, begun, hreads, hframes⟩ := h.going hruns
  cases hreads.pass hp with
  | counted begun' hreads' =>
    have hgoes : runs' := hruns'.mpr (by simp)
    refine ⟨fun _ => ⟨lines, begun', hreads', ?_⟩, fun hnot => absurd hgoes hnot, hreads'.retained⟩
    rw [hframes, Option.toList_none, List.append_nil]
  | line line hreads' =>
    have hgoes : runs' := hruns'.mpr (by simp [ends_frame])
    refine ⟨fun _ => ⟨_, [], hreads', ?_⟩, fun hnot => absurd hgoes hnot, hreads'.retained⟩
    rw [hframes, List.map_append]
    rfl
  | ended hlines hending hlast hstart =>
    have hstops : ¬ runs' := by
      rw [hruns']
      simp [ends_last]
    refine ⟨fun hgoes => absurd hgoes hstops, fun _ => ⟨hending, ?_⟩, ?_⟩
    · rw [hframes, hlines, hlast]
      rfl
    · rw [hstart]
      exact Nat.zero_le limit

/-- What a running loop has got are the first lines of the pipe. -/
theorem Reads.lines_eq (h : Reads limit r lines begun) : ∃ more, r.lines = lines ++ more := by
  have hsplit := h.split (if r.ending = some none then none else some "") []
    (.inr ⟨rfl, by split_ifs with hending <;> simp [hending]⟩)
  rw [List.append_nil] at hsplit
  exact ⟨_, hsplit⟩

/-- All that came was read, and the stream is open: nothing is missing but the rest of a line. -/
theorem Returned.caught_up (h : Returned limit r runs frames) (hruns : runs)
    (hunread : r.unread = []) (hending : r.ending = none) :
    frames = r.lines.map (frame limit) := by
  obtain ⟨lines, begun, hreads, hframes⟩ := h.going hruns
  have hsplit := hreads.split (some "") [] (.inl hending)
  rw [hunread, List.append_nil, List.append_nil, List.append_nil,
    linesOf_failed "" hreads.begun_line, List.append_nil] at hsplit
  rw [hframes, LineReader.lines, hending, if_neg (by simp), hsplit]

/-- **A line that was got is that line of the pipe.** -/
theorem Returned.getElem? (h : Returned limit r runs frames) {n : Nat} {text : String}
    (hn : frames[n]? = some (.ok (.line text))) :
    ∃ line, r.lines[n]? = some line ∧ bounded limit line = .line text := by
  have hat : ∀ {ls more : List (List UInt8)}, r.lines = ls ++ more →
      (ls.map (frame limit))[n]? = some (.ok (.line text)) →
      ∃ line, r.lines[n]? = some line ∧ bounded limit line = .line text := by
    intro ls more heq hget
    rw [List.getElem?_map, Option.map_eq_some_iff] at hget
    obtain ⟨line, hline, hframe⟩ := hget
    refine ⟨line, ?_, Except.ok.inj hframe⟩
    rw [heq, List.getElem?_append_left (List.getElem?_eq_some_iff.mp hline).1]
    exact hline
  by_cases hruns : runs
  · obtain ⟨lines, begun, hreads, hframes⟩ := h.going hruns
    obtain ⟨more, hmore⟩ := hreads.lines_eq
    exact hat hmore (hframes ▸ hn)
  · obtain ⟨-, hframes⟩ := h.stopped hruns
    rw [hframes] at hn
    rcases Nat.lt_or_ge n (r.lines.map (frame limit)).length with hlt | hge
    · rw [List.getElem?_append_left hlt] at hn
      exact hat (List.append_nil _).symm hn
    · -- The end is not a line.
      rw [List.getElem?_append_right hge] at hn
      have hlast := List.mem_singleton.mp (List.mem_of_getElem? hn)
      have hends := ends_last r
      rw [← hlast] at hends
      cases hends

end LineReader

/-! ## What the calls hand off -/

/-- `line` is this task of call `c`, under the id the call drew, and within the limit. -/
def Renders (cfg : Settings) (s : Client) (c : CallId) (task : Json) (line : String) : Prop :=
  ∃ id fields, task = .object fields ∧ s.requestId c = some id ∧
    line.utf8ByteSize ≤ cfg.maxContentSize ∧
    cfg.toString (.object (Assoc.putSorted Json.keyOrder "request_id" (.string id) fields)) =
      .ok line

/-- `line` is a task of call `c`. -/
def IsTask (cfg : Settings) (s : Client) (c : CallId) (line : String) : Prop :=
  ∃ task, Renders cfg s c task line

/-- The line of a call that has not handed it off yet. -/
def Phase.line? : Phase → Option String
  | .registering _ line | .handingOff _ line => some line
  | _ => none

/-- The call comes before its hand-off. -/
def Phase.early : Phase → Bool
  | .idle | .registering _ _ | .handingOff _ _ => true
  | _ => false

/-- The call waits for the response to the line it handed off. -/
def Phase.handed : Phase → Bool
  | .awaiting _ | .expiring _ => true
  | _ => false

/-- What the call returned. -/
def Phase.result? : Phase → Option (Except HostError Json)
  | .done r => some r
  | _ => none

variable {s s' : Client} {c : CallId} {l : Label}

/-- The step is the first of call `c`. -/
def Starts (l : Label) (c : CallId) : Prop := ∃ id task, l = .call c id task

/-- What a step does to the calls and the outbound channel. -/
inductive Hands (cfg : Settings) (s : Client) (l : Label) (s' : Client) : Prop where
  | still (hphase : s'.phase = s.phase) (hid : s'.requestId = s.requestId)
      (hout : s'.outbound = s.outbound) (hres : s'.resolved = s.resolved)
  | moves (c : CallId) (p : Phase) (hphase : s'.phase = Function.update s.phase c p)
      (hnew : p ≠ .idle) (hstarts : s.phase c = .idle → Starts l c)
      (hid : ∀ d, d ≠ c ∨ s.phase c ≠ .idle → s'.requestId d = s.requestId d)
      (hline : ∀ line, p.line? = some line → (s.phase c).line? = some line ∨
        ∃ id task, l = .call c id task ∧ Renders cfg s' c task line)
      (hearly : p.early → (s.phase c).early) (hhanded : p.handed → (s.phase c).handed)
      (hout : s'.outbound = s.outbound)
      (hres : s'.resolved = s.resolved ++ (p.result?.map (c, ·)).toList)
      (hok : ∀ v, p.result? = some (.ok v) → (s.phase c).handed)
  | handsOff (c : CallId) (id line : String) (hold : s.phase c = .handingOff id line)
      (hphase : s'.phase = Function.update s.phase c (.awaiting id))
      (hid : s'.requestId = s.requestId) (hout : s'.outbound = s.outbound ++ [(c, line)])
      (hres : s'.resolved = s.resolved)

/-- A call in a phase of its own has begun. -/
theorem starts_of_phase {p : Phase} (h : s.phase c = p) (hp : p ≠ .idle) :
    s.phase c = .idle → Starts l c :=
  fun hidle => absurd (h.symm.trans hidle) hp

/-- A call that is past its hand-off, or never comes to it, goes on. -/
theorem hands_setPhase {p : Phase} (hstarts : s.phase c = .idle → Starts l c)
    (hp : p.early = false) (hr : p.result? = none) (hhanded : p.handed → (s.phase c).handed) :
    Hands cfg s l (s.setPhase c p) := by
  refine .moves c p rfl ?_ hstarts (fun _ _ => rfl) (fun line hline => ?_) (fun he => ?_) hhanded
    rfl ?_ fun v hv => ?_
  · rintro rfl
    cases hp
  · cases p with
    | registering | handingOff => cases hp
    | _ => cases hline
  · rw [hp] at he
    cases he
  · rw [hr]
    exact (List.append_nil _).symm
  · rw [hr] at hv
    cases hv

theorem hands_resolve {r : Except HostError Json} (hstarts : s.phase c = .idle → Starts l c)
    (hok : ∀ v, r = .ok v → (s.phase c).handed) : Hands cfg s l (s.resolve c r) :=
  .moves c (.done r) rfl (by simp) hstarts (fun _ _ => rfl) (fun line hline => by cases hline)
    (fun he => by cases he) (fun he => by cases he) rfl rfl
    fun v hv => hok v (Option.some.inj hv)

/-- The reader, the writer and the channels leave the calls as they are. -/
theorem Hands.after {m : Client} (h : Hands cfg m l s') (hphase : m.phase = s.phase)
    (hid : m.requestId = s.requestId) (hout : m.outbound = s.outbound)
    (hres : m.resolved = s.resolved) : Hands cfg s l s' := by
  cases h with
  | still h₁ h₂ h₃ h₄ =>
    exact .still (h₁.trans hphase) (h₂.trans hid) (h₃.trans hout) (h₄.trans hres)
  | moves c p h₁ hnew hstarts h₂ h₃ h₄ h₅ h₆ h₇ h₈ =>
    rw [hphase] at h₁ hstarts h₂ h₃ h₄ h₅ h₈
    rw [hid] at h₂
    rw [hres] at h₇
    exact .moves c p h₁ hnew hstarts h₂ h₃ h₄ h₅ (h₆.trans hout) h₇ h₈
  | handsOff c id line h₁ h₂ h₃ h₄ h₅ =>
    rw [hphase] at h₁ h₂
    exact .handsOff c id line h₁ h₂ (h₃.trans hid) (by rw [h₄, hout]) (h₅.trans hres)

/-- The parts of the client that a step of the channels leaves. -/
structure Apart (s s' : Client) : Prop where
  phase : s'.phase = s.phase
  requestId : s'.requestId = s.requestId
  outbound : s'.outbound = s.outbound
  resolved : s'.resolved = s.resolved
  lines : s'.lines = s.lines
  reader : s'.reader = s.reader
  stderrTail : s'.stderrTail = s.stderrTail

theorem Apart.refl (s : Client) : Apart s s := ⟨rfl, rfl, rfl, rfl, rfl, rfl, rfl⟩

theorem Apart.trans {s₁ s₂ s₃ : Client} (h : Apart s₁ s₂) (h' : Apart s₂ s₃) : Apart s₁ s₃ where
  phase := h'.phase.trans h.phase
  requestId := h'.requestId.trans h.requestId
  outbound := h'.outbound.trans h.outbound
  resolved := h'.resolved.trans h.resolved
  lines := h'.lines.trans h.lines
  reader := h'.reader.trans h.reader
  stderrTail := h'.stderrTail.trans h.stderrTail

theorem apart_dropSender (s : Client) (c : CallId) : Apart s (s.dropSender c) := by
  unfold Client.dropSender
  split
  · exact ⟨rfl, rfl, rfl, rfl, rfl, rfl, rfl⟩
  · exact ⟨rfl, rfl, rfl, rfl, rfl, rfl, rfl⟩

theorem apart_sendError (s : Client) (e : HostError) (c : CallId) : Apart s (s.sendError e c) := by
  unfold Client.sendError
  split
  · exact ⟨rfl, rfl, rfl, rfl, rfl, rfl, rfl⟩
  · exact ⟨rfl, rfl, rfl, rfl, rfl, rfl, rfl⟩

theorem apart_sendResponse (s : Client) (n : Nat) (response : Json) (c : CallId) :
    Apart s (s.sendResponse n response c) := by
  unfold Client.sendResponse
  split
  · exact ⟨rfl, rfl, rfl, rfl, rfl, rfl, rfl⟩
  · exact ⟨rfl, rfl, rfl, rfl, rfl, rfl, rfl⟩

theorem apart_foldl {f : Client → CallId → Client} (hf : ∀ s c, Apart s (f s c)) :
    ∀ (cs : List CallId) (s : Client), Apart s (cs.foldl f s)
  | [], s => .refl s
  | c :: cs, s => (hf s c).trans (apart_foldl hf cs (f s c))

theorem apart_pending (s : Client) (pending : List (String × CallId)) :
    Apart s { s with pending } :=
  ⟨rfl, rfl, rfl, rfl, rfl, rfl, rfl⟩

theorem apart_unregister (s : Client) (id : String) : Apart s (s.unregister id) := by
  unfold Client.unregister
  split
  · exact (apart_pending s _).trans (apart_dropSender _ _)
  · exact ⟨rfl, rfl, rfl, rfl, rfl, rfl, rfl⟩

theorem apart_onLine (cfg : Settings) (s : Client) (text : String) :
    Apart s (s.onLine cfg text) := by
  unfold Client.onLine
  dsimp only
  split
  · exact ⟨rfl, rfl, rfl, rfl, rfl, rfl, rfl⟩
  · split
    · exact ⟨rfl, rfl, rfl, rfl, rfl, rfl, rfl⟩
    · split
      · exact ⟨rfl, rfl, rfl, rfl, rfl, rfl, rfl⟩
      · split
        · exact ⟨rfl, rfl, rfl, rfl, rfl, rfl, rfl⟩
        · exact (apart_pending s _).trans (apart_sendResponse _ _ _ _)

theorem apart_onOversized (cfg : Settings) (s : Client) (kept : String) (scanned : Nat) :
    Apart s (s.onOversized cfg kept scanned) := by
  unfold Client.onOversized
  split
  · exact (apart_pending s _).trans (apart_sendError _ _ _)
  · exact (apart_pending s _).trans (apart_foldl (fun s c => apart_sendError s _ c) _ _)

/-- A frame changes what was read, and whether the reader goes on. -/
theorem onFrame_apart (cfg : Settings) (s : Client) (f : Except String BoundedLine) :
    ∃ m, Apart s m ∧ s.onFrame cfg f =
      { m with lines := s.lines ++ [f], reader := if ends f then .closing else s.reader } := by
  match f with
  | .error _ | .ok .eof => exact ⟨s, .refl s, rfl⟩
  | .ok (.line text) =>
    have hm := apart_onLine cfg s text
    exact ⟨_, hm, by rw [← hm.reader]; rfl⟩
  | .ok (.oversized kept scanned) =>
    have hm := apart_onOversized cfg s kept scanned
    exact ⟨_, hm, by rw [← hm.reader]; rfl⟩

theorem hands_beginSend {id : String} {task : Json} (hidle : s.phase c = .idle) :
    Hands cfg s (.call c id task) (s.beginSend cfg c id task) := by
  have hstarts : s.phase c = .idle → Starts (.call c id task) c := fun _ => ⟨id, task, rfl⟩
  have hdraw : ∀ d, d ≠ c ∨ s.phase c ≠ .idle →
      Function.update s.requestId c (some id) d = s.requestId d := by
    rintro d (hd | hd)
    · rw [Function.update_of_ne hd]
    · exact absurd hidle hd
  have hfails : ∀ e : HostError, Hands cfg s (.call c id task)
      ({ s with requestId := Function.update s.requestId c (some id) }.resolve c (.error e)) :=
    fun e => .moves c (.done (.error e)) rfl (by simp) hstarts hdraw
      (fun line hline => by cases hline) (fun he => by cases he) (fun he => by cases he) rfl rfl
      fun v hv => by cases hv
  unfold Client.beginSend
  split
  · exact hands_setPhase hstarts rfl rfl fun hp => by cases hp
  · dsimp only
    split
    · next fields =>
      split
      · exact hfails _
      · next line hline =>
        split
        · exact hfails _
        · next hsize =>
          refine .moves c (.registering id line) rfl (by simp) hstarts hdraw
            (fun line' hline' => .inr ⟨id, _, rfl, ?_⟩) (fun _ => by rw [hidle]; rfl)
            (fun hp => by cases hp) rfl (List.append_nil _).symm fun v hv => by cases hv
          obtain rfl : line = line' := by simpa [Phase.line?] using hline'
          exact ⟨id, fields, rfl, Function.update_self _ _ _, Nat.not_lt.mp hsize, hline⟩
    · exact hfails _

theorem hands_receive {id : String} (hphase : s.phase c = .awaiting id)
    (hs : s.receive c = some s') : Hands cfg s l s' := by
  have hstarts : s.phase c = .idle → Starts l c := starts_of_phase hphase (by simp)
  have hhanded : (s.phase c).handed := by rw [hphase]; rfl
  unfold Client.receive at hs
  split at hs
  · obtain rfl := Option.some.inj hs
    exact hands_resolve hstarts fun _ _ => hhanded
  · obtain rfl := Option.some.inj hs
    exact hands_resolve hstarts fun _ _ => hhanded
  · obtain rfl := Option.some.inj hs
    exact hands_setPhase hstarts rfl rfl fun _ => hhanded
  · cases hs

theorem hands_register {id line : String} (hphase : s.phase c = .registering id line) :
    Hands cfg s l (s.register c id line) := by
  have hmove : ∀ m : Client, Apart s m → Hands cfg s l { m with
      pending := Assoc.put id c m.pending
      oneShot := Function.update m.oneShot c .waiting
      phase := Function.update m.phase c (.handingOff id line) } := by
    intro m hm
    refine .moves c (.handingOff id line) (by rw [hm.phase]) (by simp)
      (starts_of_phase hphase (by simp)) (fun d _ => congrFun hm.requestId d)
      (fun line' hline' => .inl ?_) (fun _ => by rw [hphase]; rfl) (fun hp => by cases hp)
      hm.outbound (hm.resolved.trans (List.append_nil _).symm) fun v hv => by cases hv
    rw [hphase]
    exact hline'
  unfold Client.register
  cases Assoc.get? id s.pending with
  | none => exact hmove s (.refl s)
  | some old => exact hmove _ (apart_dropSender s old)

theorem hands_handOff {id line : String} (hphase : s.phase c = .handingOff id line) :
    Hands cfg s l (s.handOff c id line) := by
  unfold Client.handOff
  split
  · exact .handsOff c id line hphase rfl rfl rfl rfl
  · exact hands_setPhase (starts_of_phase hphase (by simp)) rfl rfl fun hp => by cases hp

theorem hands_step (hs : step cfg s l = some s') : Hands cfg s l s' := by
  cases l with
  | call c id task =>
    simp only [step] at hs
    split at hs
    · next hidle =>
      obtain rfl := Option.some.inj hs
      exact hands_beginSend hidle
    · cases hs
  | register c =>
    simp only [step] at hs
    split at hs
    · next hphase =>
      obtain rfl := Option.some.inj hs
      exact hands_register hphase
    · cases hs
  | handOff c =>
    simp only [step] at hs
    split at hs
    · next hphase =>
      obtain rfl := Option.some.inj hs
      exact hands_handOff hphase
    · cases hs
  | withdraw c =>
    simp only [step] at hs
    split at hs
    · next id hphase =>
      obtain rfl := Option.some.inj hs
      have hu := apart_unregister s id
      have hbegun : (s.unregister id).phase c = .withdrawing id := by rw [hu.phase, hphase]
      exact (hands_setPhase (starts_of_phase hbegun (by simp)) rfl rfl
        fun hp => by cases hp).after hu.phase hu.requestId hu.outbound hu.resolved
    · cases hs
  | receive c =>
    simp only [step] at hs
    split at hs
    · next hphase => exact hands_receive hphase hs
    · cases hs
  | timeOut c =>
    simp only [step] at hs
    split at hs
    · next hphase _ =>
      obtain rfl := Option.some.inj hs
      exact hands_setPhase (starts_of_phase hphase (by simp)) rfl rfl fun _ => by rw [hphase]; rfl
    · cases hs
  | expire c =>
    simp only [step] at hs
    split at hs
    · next id hphase =>
      obtain rfl := Option.some.inj hs
      have hu := apart_unregister s id
      have hbegun : (s.unregister id).phase c = .expiring id := by rw [hu.phase, hphase]
      exact (hands_resolve (starts_of_phase hbegun (by simp)) fun _ hv => by cases hv).after
        hu.phase hu.requestId hu.outbound hu.resolved
    · cases hs
  | report c =>
    simp only [step] at hs
    split at hs
    · next hphase =>
      obtain rfl := Option.some.inj hs
      exact hands_resolve (starts_of_phase hphase (by simp)) fun _ hv => by cases hv
    · cases hs
  | cancel c =>
    simp only [step] at hs
    split at hs <;> first | (cases hs; done) | skip
    all_goals
      next hphase =>
      obtain rfl := Option.some.inj hs
      exact hands_setPhase (starts_of_phase hphase (by simp)) rfl rfl fun hp => by cases hp
  | read f =>
    simp only [step] at hs
    split at hs
    · obtain rfl := Option.some.inj hs
      obtain ⟨m, hm, heq⟩ := onFrame_apart cfg s f
      rw [heq]
      exact .still hm.phase hm.requestId hm.outbound hm.resolved
    · cases hs
  | markDead =>
    simp only [step] at hs
    split at hs
    · obtain rfl := Option.some.inj hs
      exact .still rfl rfl rfl rfl
    · cases hs
  | clear =>
    simp only [step] at hs
    split at hs
    · obtain rfl := Option.some.inj hs
      have hall := apart_foldl apart_dropSender (s.pending.map Prod.snd)
        { s with pending := [], reader := .finished }
      exact .still hall.phase hall.requestId hall.outbound hall.resolved
    · cases hs
  | writerExit | stderr line =>
    obtain rfl := Option.some.inj hs
    exact .still rfl rfl rfl rfl

/-- What the calls have handed off so far, and what they hold to hand off. -/
structure Handed (cfg : Settings) (s : Client) : Prop where
  line : ∀ c line, (s.phase c).line? = some line → IsTask cfg s c line
  outbound : ∀ c line, (c, line) ∈ s.outbound → IsTask cfg s c line ∧ (s.phase c).early = false
  once : (s.outbound.map Prod.fst).Nodup
  handed : ∀ c, (s.phase c).handed → c ∈ s.outbound.map Prod.fst
  answered : ∀ c v, (c, .ok v) ∈ s.resolved → c ∈ s.outbound.map Prod.fst

theorem handed_spawned : Handed cfg .spawned where
  line := fun _ _ h => by cases h
  outbound := fun _ _ h => by cases h
  once := List.nodup_nil
  handed := fun _ h => by cases h
  answered := fun _ _ h => by cases h

theorem Renders.keep {task : Json} {line : String} (h : Renders cfg s c task line)
    (hid : s'.requestId c = s.requestId c) : Renders cfg s' c task line := by
  obtain ⟨id, fields, htask, hdrawn, hsize, hline⟩ := h
  exact ⟨id, fields, htask, hid.trans hdrawn, hsize, hline⟩

theorem IsTask.keep {line : String} (h : IsTask cfg s c line)
    (hid : s'.requestId c = s.requestId c) : IsTask cfg s' c line :=
  h.imp fun _ hrenders => hrenders.keep hid

theorem Phase.ne_idle_of_line {p : Phase} {line : String} (h : p.line? = some line) :
    p ≠ .idle := by
  rintro rfl
  cases h

theorem Phase.ne_idle_of_late {p : Phase} (h : p.early = false) : p ≠ .idle := by
  rintro rfl
  cases h

/-- **Every step keeps the invariant.** -/
theorem Handed.step (h : Handed cfg s) (hs : Hands cfg s l s') : Handed cfg s' := by
  cases hs with
  | still hphase hid hout hres =>
    have hkeep : ∀ {c line}, IsTask cfg s c line → IsTask cfg s' c line :=
      fun ht => ht.keep (congrFun hid _)
    refine ⟨fun c line hc => ?_, fun c line hc => ?_, ?_, fun c hc => ?_, fun c v hc => ?_⟩
    · rw [hphase] at hc
      exact hkeep (h.line c line hc)
    · rw [hout] at hc
      rw [hphase]
      exact (h.outbound c line hc).imp_left hkeep
    · rw [hout]
      exact h.once
    · rw [hphase] at hc
      rw [hout]
      exact h.handed c hc
    · rw [hres] at hc
      rw [hout]
      exact h.answered c v hc
  | moves c p hphase hnew hstarts hid hline hearly hhanded hout hres hok =>
    have hown : s'.phase c = p := by rw [hphase, Function.update_self]
    have hother : ∀ {d}, d ≠ c → s'.phase d = s.phase d := fun hd => by
      rw [hphase, Function.update_of_ne hd]
    refine ⟨fun d line hd => ?_, fun d line hd => ?_, ?_, fun d hd => ?_, fun d v hd => ?_⟩
    · by_cases hdc : d = c
      · subst hdc
        rw [hown] at hd
        rcases hline line hd with hold | ⟨id, task, -, hrenders⟩
        · exact (h.line d line hold).keep (hid d (.inr (Phase.ne_idle_of_line hold)))
        · exact ⟨task, hrenders⟩
      · rw [hother hdc] at hd
        exact (h.line d line hd).keep (hid d (.inl hdc))
    · rw [hout] at hd
      obtain ⟨htask, hlate⟩ := h.outbound d line hd
      by_cases hdc : d = c
      · subst hdc
        refine ⟨htask.keep (hid d (.inr (Phase.ne_idle_of_late hlate))), ?_⟩
        rw [hown]
        by_contra hpe
        rw [hearly (by simpa using hpe)] at hlate
        cases hlate
      · rw [hother hdc]
        exact ⟨htask.keep (hid d (.inl hdc)), hlate⟩
    · rw [hout]
      exact h.once
    · rw [hout]
      by_cases hdc : d = c
      · subst hdc
        rw [hown] at hd
        exact h.handed d (hhanded hd)
      · rw [hother hdc] at hd
        exact h.handed d hd
    · rw [hres] at hd
      rw [hout]
      rcases List.mem_append.mp hd with hold | hnew
      · exact h.answered d v hold
      · obtain ⟨r, hr, heq⟩ := Option.map_eq_some_iff.mp (Option.mem_toList.mp hnew)
        obtain ⟨rfl, rfl⟩ := Prod.mk.inj heq
        exact h.handed c (hok v hr)
  | handsOff c id line hold hphase hid hout hres =>
    have htask : IsTask cfg s c line := h.line c line (by rw [hold]; rfl)
    have hown : s'.phase c = .awaiting id := by rw [hphase, Function.update_self]
    have hother : ∀ {d}, d ≠ c → s'.phase d = s.phase d := fun hd => by
      rw [hphase, Function.update_of_ne hd]
    have hkeep : ∀ {c line}, IsTask cfg s c line → IsTask cfg s' c line :=
      fun ht => ht.keep (congrFun hid _)
    have hmem : ∀ {d}, d ∈ s.outbound.map Prod.fst → d ∈ s'.outbound.map Prod.fst := by
      intro d hd
      rw [hout, List.map_append]
      exact List.mem_append_left _ hd
    refine ⟨fun d line' hd => ?_, fun d line' hd => ?_, ?_, fun d hd => ?_, fun d v hd => ?_⟩
    · by_cases hdc : d = c
      · subst hdc
        rw [hown] at hd
        cases hd
      · rw [hother hdc] at hd
        exact hkeep (h.line d line' hd)
    · rw [hout] at hd
      rcases List.mem_append.mp hd with hbefore | hnew
      · obtain ⟨htask', hlate⟩ := h.outbound d line' hbefore
        refine ⟨hkeep htask', ?_⟩
        by_cases hdc : d = c
        · rw [hdc, hown]
          rfl
        · rw [hother hdc]
          exact hlate
      · obtain ⟨rfl, rfl⟩ : d = c ∧ line' = line := by simpa using hnew
        refine ⟨hkeep htask, ?_⟩
        rw [hown]
        rfl
    · -- A call that is about to hand off has not done so before.
      rw [hout, List.map_append]
      refine List.nodup_append.mpr ⟨h.once, List.nodup_singleton _, ?_⟩
      rintro d hd e he rfl
      obtain rfl : d = c := by simpa using he
      obtain ⟨⟨d', line'⟩, hmem', rfl⟩ := List.mem_map.mp hd
      have hlate := (h.outbound d' line' hmem').2
      rw [hold] at hlate
      cases hlate
    · by_cases hdc : d = c
      · rw [hout, hdc]
        simp
      · rw [hother hdc] at hd
        exact hmem (h.handed d hd)
    · rw [hres] at hd
      exact hmem (h.answered d v hd)

/-! ## The client on its pipes -/

/-- A step of a call, or of the teardown, reads nothing. -/
structure Unread (s s' : Client) : Prop where
  lines : s'.lines = s.lines
  stderrTail : s'.stderrTail = s.stderrTail
  reader : s'.reader = .reading ↔ s.reader = .reading

theorem Apart.unread (h : Apart s s') : Unread s s' :=
  ⟨h.lines, h.stderrTail, by rw [h.reader]⟩

theorem unread_beginSend (cfg : Settings) (s : Client) (c : CallId) (id : String) (task : Json) :
    Unread s (s.beginSend cfg c id task) := by
  unfold Client.beginSend
  split
  · exact ⟨rfl, rfl, Iff.rfl⟩
  · dsimp only
    split
    · split
      · exact ⟨rfl, rfl, Iff.rfl⟩
      · split
        · exact ⟨rfl, rfl, Iff.rfl⟩
        · exact ⟨rfl, rfl, Iff.rfl⟩
    · exact ⟨rfl, rfl, Iff.rfl⟩

theorem unread_register (s : Client) (c : CallId) (id line : String) :
    Unread s (s.register c id line) := by
  unfold Client.register
  cases Assoc.get? id s.pending with
  | none => exact ⟨rfl, rfl, Iff.rfl⟩
  | some old =>
    have hdrop := (apart_dropSender s old).unread
    exact ⟨hdrop.lines, hdrop.stderrTail, hdrop.reader⟩

theorem unread_handOff (s : Client) (c : CallId) (id line : String) :
    Unread s (s.handOff c id line) := by
  unfold Client.handOff
  split
  · exact ⟨rfl, rfl, Iff.rfl⟩
  · exact ⟨rfl, rfl, Iff.rfl⟩

theorem unread_receive (hs : s.receive c = some s') : Unread s s' := by
  unfold Client.receive at hs
  split at hs
  · obtain rfl := Option.some.inj hs
    exact ⟨rfl, rfl, Iff.rfl⟩
  · obtain rfl := Option.some.inj hs
    exact ⟨rfl, rfl, Iff.rfl⟩
  · obtain rfl := Option.some.inj hs
    exact ⟨rfl, rfl, Iff.rfl⟩
  · cases hs

theorem unread_step {l : Label} (hl : Wire.ofCalls l) (hs : step cfg s l = some s') :
    Unread s s' := by
  cases l with
  | call c id task =>
    simp only [step] at hs
    split at hs
    · obtain rfl := Option.some.inj hs
      exact unread_beginSend cfg s c id task
    · cases hs
  | register c =>
    simp only [step] at hs
    split at hs
    · obtain rfl := Option.some.inj hs
      exact unread_register s c _ _
    · cases hs
  | handOff c =>
    simp only [step] at hs
    split at hs
    · obtain rfl := Option.some.inj hs
      exact unread_handOff s c _ _
    · cases hs
  | withdraw c | expire c =>
    simp only [step] at hs
    split at hs
    · next id _ =>
      obtain rfl := Option.some.inj hs
      have hu := (apart_unregister s id).unread
      exact ⟨hu.lines, hu.stderrTail, hu.reader⟩
    · cases hs
  | receive c =>
    simp only [step] at hs
    split at hs
    · exact unread_receive hs
    · cases hs
  | timeOut c | report c =>
    simp only [step] at hs
    split at hs
    · obtain rfl := Option.some.inj hs
      exact ⟨rfl, rfl, Iff.rfl⟩
    · cases hs
  | cancel c =>
    simp only [step] at hs
    split at hs <;> first | (cases hs; done) | skip
    all_goals
      obtain rfl := Option.some.inj hs
      exact ⟨rfl, rfl, Iff.rfl⟩
  | markDead =>
    simp only [step] at hs
    split at hs
    · next hclosing =>
      obtain rfl := Option.some.inj hs
      exact ⟨rfl, rfl, by simp [hclosing]⟩
    · cases hs
  | clear =>
    simp only [step] at hs
    split at hs
    · next hclearing =>
      obtain rfl := Option.some.inj hs
      have hall := (apart_foldl apart_dropSender (s.pending.map Prod.snd)
        { s with pending := [], reader := .finished }).unread
      refine ⟨hall.lines, hall.stderrTail, hall.reader.trans ?_⟩
      simp [hclearing]
    · cases hs
  | read | stderr | writerExit => cases hl

/-- The lines of stderr that are kept. -/
def lastLines (lines : List String) : List String :=
  lines.drop (lines.length - stderrRetainLines)

theorem lastLines_push (lines : List String) (line : String) :
    lastLines (lastLines lines ++ [line]) = lastLines (lines ++ [line]) := by
  simp only [lastLines, List.length_append, List.length_drop, List.length_singleton]
  rcases Nat.le_total lines.length stderrRetainLines with hle | hge
  · rw [Nat.sub_eq_zero_of_le hle, List.drop_zero, Nat.sub_zero]
  · have hlen : (lines.drop (lines.length - stderrRetainLines)).length = stderrRetainLines := by
      rw [List.length_drop]
      omega
    have hone : lines.length - (lines.length - stderrRetainLines) + 1 - stderrRetainLines = 1 := by
      omega
    rw [hone, ← List.drop_append_of_le_length (by omega), List.drop_drop]
    congr 1
    omega

/-- What the writer has brought of the lines it received. -/
def Written (received : List Outbound) (stdin : List UInt8) : WriterPhase → Prop
  | .receiving | .flushing => stdin = received.flatMap Outbound.bytes
  | .writing rest => rest ≠ [] ∧ stdin ++ rest = received.flatMap Outbound.bytes
  | .stopping | .finished => stdin <+: received.flatMap Outbound.bytes

/-- The calls of `shutdown` after the one that took the child return at once. -/
def Stopped (child : Bool) (shutdowns : List Stopping) : Prop :=
  if child then shutdowns = []
  else ∃ p rest, shutdowns = p :: rest ∧ ∀ q ∈ rest, q = .done (.ok ())

/-- What holds between the pipes, the loops over them and the calls. -/
structure Piped (cfg : Settings) (s : Wire) : Prop where
  demuxed : Demuxed cfg s.client
  handed : Handed cfg s.client
  stdout : s.stdout.Returned cfg.maxContentSize (s.client.reader = .reading) s.client.lines
  stderr : ∃ frames, s.stderr.Returned stderrMaxLineBytes (s.stderrOpen = true) frames ∧
    s.client.stderrTail = lastLines (frames.filterMap stderrLine)
  calls : (s.sent.filterMap fun o => o.owner.map (·, o.line)) = s.client.outbound
  shutdown : ∀ line, ⟨none, line⟩ ∈ s.sent → cfg.toString shutdownTask = .ok line
  shutdowns : s.sent.countP (·.owner.isNone) ≤ if s.child then 0 else 1
  received : s.taken ≤ s.sent.length
  written : Written (s.sent.take s.taken) s.stdin s.writer
  stopped : Stopped s.child s.shutdowns

theorem piped_spawned : Piped cfg .spawned where
  demuxed := demuxed_spawned
  handed := handed_spawned
  stdout := LineReader.returned_new rfl
  stderr := ⟨[], LineReader.returned_new rfl, rfl⟩
  calls := rfl
  shutdown := fun _ h => by cases h
  shutdowns := Nat.le_refl 0
  received := Nat.le_refl 0
  written := rfl
  stopped := rfl

/-! ## Steps of the wire -/

theorem hands_outbound (h : Hands cfg s l s') : ∃ handed, s'.outbound = s.outbound ++ handed := by
  cases h with
  | still _ _ hout _ => exact ⟨[], by rw [hout, List.append_nil]⟩
  | moves c p _ _ _ _ _ _ _ hout _ _ => exact ⟨[], by rw [hout, List.append_nil]⟩
  | handsOff c id line _ _ _ hout _ => exact ⟨[(c, line)], hout⟩

theorem stepClient_cases {w w' : Wire} {l : Label} (hs : w.stepClient cfg l = some w') :
    ∃ client handed, step cfg w.client l = some client ∧
      client.outbound = w.client.outbound ++ handed ∧
      w' = { w with client, sent := w.sent ++ handed.map fun e => ⟨some e.1, e.2⟩ } := by
  obtain ⟨client, hstep, rfl⟩ := Option.map_eq_some_iff.mp hs
  obtain ⟨handed, hout⟩ := hands_outbound (hands_step hstep)
  refine ⟨client, handed, hstep, hout, ?_⟩
  rw [hout, List.drop_left]

variable {w w' : Wire}

/-- A step of the client, with what it means for the loops over the pipes. -/
theorem Piped.stepClient (h : Piped cfg w) (stdout stderr : LineReader) (writer : WriterPhase)
    {l : Label} (hs : Wire.stepClient cfg { w with stdout, stderr, writer } l = some w')
    (hout : ∀ client, step cfg w.client l = some client →
      stdout.Returned cfg.maxContentSize (client.reader = .reading) client.lines)
    (herr : ∀ client, step cfg w.client l = some client →
      ∃ frames, stderr.Returned stderrMaxLineBytes (w.stderrOpen = true) frames ∧
        client.stderrTail = lastLines (frames.filterMap stderrLine))
    (hwritten : Written (w.sent.take w.taken) w.stdin writer) : Piped cfg w' := by
  obtain ⟨client, handed, hstep, houtbound, rfl⟩ := stepClient_cases hs
  have hcalls : ∀ es : List (CallId × String),
      (es.map fun e => (⟨some e.1, e.2⟩ : Outbound)).filterMap
        (fun o => o.owner.map (·, o.line)) = es := by
    intro es
    induction es with
    | nil => rfl
    | cons e es ih => simp
  refine
    { demuxed := demuxed_step h.demuxed hstep
      handed := h.handed.step (hands_step hstep)
      stdout := hout client hstep
      stderr := herr client hstep
      calls := ?_, shutdown := fun line hline => ?_, shutdowns := ?_, received := ?_, written := ?_
      stopped := h.stopped }
  · show (w.sent ++ _).filterMap _ = client.outbound
    rw [List.filterMap_append, h.calls, hcalls, houtbound]
  · rcases List.mem_append.mp hline with hold | hnew
    · exact h.shutdown line hold
    · simp at hnew
  · show (w.sent ++ _).countP _ ≤ _
    rw [List.countP_append]
    have hnone :
        (handed.map fun e => (⟨some e.1, e.2⟩ : Outbound)).countP (·.owner.isNone) = 0 := by
      rw [List.countP_eq_zero]
      intro o ho
      obtain ⟨e, -, rfl⟩ := List.mem_map.mp ho
      simp
    rw [hnone]
    exact h.shutdowns
  · show w.taken ≤ (w.sent ++ _).length
    rw [List.length_append]
    exact Nat.le_trans h.received (Nat.le_add_right _ _)
  · show Written ((w.sent ++ _).take w.taken) _ _
    rw [List.take_append_of_le_length h.received]
    exact hwritten

theorem Piped.calls_step (h : Piped cfg w) {l : Label} (hl : Wire.ofCalls l)
    (hs : w.stepClient cfg l = some w') : Piped cfg w' := by
  refine h.stepClient w.stdout w.stderr w.writer hs
    (fun client hstep => ?_) (fun client hstep => ?_) h.written
  · have hunread := unread_step hl hstep
    rw [hunread.lines, propext hunread.reader]
    exact h.stdout
  · rw [(unread_step hl hstep).stderrTail]
    exact h.stderr

theorem Piped.passStdout (h : Piped cfg w) (hs : w.passStdout cfg = some w') : Piped cfg w' := by
  unfold Wire.passStdout at hs
  split at hs
  · next hreading =>
    obtain ⟨⟨stdout, returned⟩, hpass, hnext⟩ := Option.bind_eq_some_iff.mp hs
    cases returned with
    | none =>
      obtain rfl := Option.some.inj hnext
      have hstdout : stdout.Returned _ (w.client.reader = .reading) (w.client.lines ++ []) :=
        h.stdout.pass hreading hpass (iff_of_true hreading (by simp))
      rw [List.append_nil] at hstdout
      exact { h with stdout := hstdout }
    | some f =>
      refine h.stepClient stdout w.stderr w.writer hnext
        (fun client hstep => ?_) (fun client hstep => ?_) h.written
      all_goals
        simp only [step, if_pos hreading, Option.some.injEq] at hstep
        obtain ⟨m, hm, heq⟩ := onFrame_apart cfg w.client f
        rw [heq] at hstep
        subst hstep
      · refine h.stdout.pass hreading hpass ?_
        cases hends : ends f with
        | true => simp [hends]
        | false => simp [hends, hreading]
      · show ∃ frames, _ ∧ m.stderrTail = _
        rw [hm.stderrTail]
        exact h.stderr
  · cases hs

theorem stderrLine_eq_none (f : Except String BoundedLine) :
    stderrLine f = none ↔ ends f = true := by
  match f with
  | .error _ | .ok .eof | .ok (.line _) | .ok (.oversized _ _) => simp [stderrLine, ends]

theorem Piped.passStderr (h : Piped cfg w) (hs : w.passStderr cfg = some w') : Piped cfg w' := by
  unfold Wire.passStderr at hs
  split at hs
  · next hopen =>
    obtain ⟨⟨stderr, returned⟩, hpass, hnext⟩ := Option.bind_eq_some_iff.mp hs
    obtain ⟨frames, hreturned, htail⟩ := h.stderr
    cases returned with
    | none =>
      obtain rfl := Option.some.inj hnext
      have hstderr : stderr.Returned _ (w.stderrOpen = true) (frames ++ []) :=
        hreturned.pass hopen hpass (iff_of_true hopen (by simp))
      rw [List.append_nil] at hstderr
      exact { h with stderr := ⟨frames, hstderr, htail⟩ }
    | some f =>
      dsimp only at hnext
      split at hnext
      · next hline =>
        obtain rfl := Option.some.inj hnext
        have hends := (stderrLine_eq_none f).mp hline
        have hstderr : stderr.Returned _ (false = true) (frames ++ [f]) :=
          hreturned.pass hopen hpass (by simp [hends])
        refine { h with stderr := ⟨_, hstderr, ?_⟩ }
        rw [List.filterMap_append]
        simpa [hline] using htail
      · next line hline =>
        have hends : ends f = false := by
          rw [← Bool.not_eq_true, ← stderrLine_eq_none, hline]
          exact Option.some_ne_none line
        refine h.stepClient w.stdout stderr w.writer hnext
          (fun client hstep => ?_) (fun client hstep => ?_) h.written
        all_goals
          obtain rfl := Option.some.inj hstep
        · exact h.stdout
        · refine ⟨_, hreturned.pass hopen hpass (iff_of_true hopen (by simp [hends])), ?_⟩
          show List.drop _ (w.client.stderrTail ++ [line]) = _
          rw [Option.toList_some, List.filterMap_append, htail]
          have hone : [f].filterMap stderrLine = [line] := by simp [hline]
          rw [hone, ← lastLines_push]
          rfl
  · cases hs

theorem Piped.take (h : Piped cfg w) (hs : w.take = some w') : Piped cfg w' := by
  unfold Wire.take at hs
  split at hs
  · next hwriter =>
    obtain ⟨o, hget, rfl⟩ := Option.map_eq_some_iff.mp hs
    have hwritten := h.written
    rw [hwriter] at hwritten
    have hlt : w.taken < w.sent.length := (List.getElem?_eq_some_iff.mp hget).1
    refine { h with received := hlt, written := ⟨?_, ?_⟩ }
    · simp [Outbound.bytes, Utf8.encode]
    · show w.stdin ++ o.bytes = (w.sent.take (w.taken + 1)).flatMap Outbound.bytes
      rw [List.take_add_one, hget, Option.toList_some, List.flatMap_append, ← hwritten]
      simp
  · cases hs

theorem Piped.write (h : Piped cfg w) {n : Nat} (hs : w.write n = some w') : Piped cfg w' := by
  unfold Wire.write at hs
  split at hs
  · next rest hwriter =>
    split at hs
    · next hn =>
      obtain rfl := Option.some.inj hs
      obtain ⟨-, hwritten⟩ : Written _ _ (.writing rest) := hwriter ▸ h.written
      refine { h with written := ?_ }
      by_cases hall : rest.length = n
      · simp only [if_pos hall]
        show w.stdin ++ rest.take n = _
        rw [List.take_of_length_le (Nat.le_of_eq hall), hwritten]
      · simp only [if_neg hall]
        refine ⟨?_, ?_⟩
        · rw [Ne, List.drop_eq_nil_iff]
          omega
        · rw [List.append_assoc, List.take_append_drop, hwritten]
    · cases hs
  · cases hs

theorem Piped.shutdown_step (h : Piped cfg w) : Piped cfg (w.shutdown cfg) := by
  unfold Wire.shutdown
  split
  · next hchild =>
    have hnil : w.shutdowns = [] := by simpa [Stopped, hchild] using h.stopped
    have hcount : w.sent.countP (·.owner.isNone) = 0 := by simpa [hchild] using h.shutdowns
    have hstopped : Stopped false (w.shutdowns ++ [.waiting]) :=
      ⟨.waiting, [], by rw [hnil]; rfl, fun _ hq => by cases hq⟩
    have htaken : Piped cfg { w with child := false, shutdowns := w.shutdowns ++ [.waiting] } :=
      { h with stopped := hstopped, shutdowns := by rw [hcount]; exact Nat.zero_le 1 }
    dsimp only
    split
    · next line hline =>
      split
      · refine
          { htaken with
            calls := ?_, shutdown := fun line' hline' => ?_, shutdowns := ?_, received := ?_
            written := ?_ }
        · show (w.sent ++ [(⟨none, line⟩ : Outbound)]).filterMap _ = w.client.outbound
          rw [List.filterMap_append, h.calls]
          simp
        · rcases List.mem_append.mp hline' with hold | hnew
          · exact h.shutdown line' hold
          · obtain rfl : line' = line := by simpa using hnew
            exact hline
        · show (w.sent ++ [(⟨none, line⟩ : Outbound)]).countP _ ≤ 1
          rw [List.countP_append, hcount]
          simp
        · show w.taken ≤ (w.sent ++ _).length
          rw [List.length_append]
          exact Nat.le_trans h.received (Nat.le_add_right _ _)
        · show Written ((w.sent ++ _).take w.taken) _ _
          rw [List.take_append_of_le_length h.received]
          exact h.written
      · exact htaken
    · exact htaken
  · next hchild =>
    have hstopped := h.stopped
    rw [Stopped, if_neg hchild] at hstopped
    obtain ⟨p, rest, hlist, hrest⟩ := hstopped
    refine { h with stopped := ?_ }
    rw [Stopped, if_neg hchild]
    refine ⟨p, rest ++ [.done (.ok ())], by rw [hlist]; rfl, fun q hq => ?_⟩
    rcases List.mem_append.mp hq with hold | hnew
    · exact hrest q hold
    · exact List.mem_singleton.mp hnew

/-- Only the call that took the child has steps to take. -/
theorem Piped.setShutdown (h : Piped cfg w) {k : Nat} {p q : Stopping}
    (hk : w.shutdowns[k]? = some p) (hp : p ≠ .done (.ok ())) :
    Piped cfg (w.setShutdown k q) := by
  refine { h with stopped := ?_ }
  have hstopped := h.stopped
  show Stopped w.child (w.shutdowns.set k q)
  rw [Stopped] at hstopped ⊢
  split at hstopped
  · next hchild =>
    rw [hstopped] at hk
    cases hk
  · next hchild =>
    obtain ⟨first, rest, hlist, hrest⟩ := hstopped
    rw [if_neg hchild]
    cases k with
    | zero => exact ⟨q, rest, by rw [hlist]; rfl, hrest⟩
    | succ k =>
      rw [hlist, List.getElem?_cons_succ] at hk
      exact absurd (hrest p (List.mem_of_getElem? hk)) hp

/-- **Every step keeps the invariant.** -/
theorem Piped.step (h : Piped cfg w) {l : WireLabel} (hs : wireStep cfg w l = some w') :
    Piped cfg w' := by
  cases l with
  | client l =>
    simp only [wireStep] at hs
    split at hs
    · next hl => exact h.calls_step hl hs
    · cases hs
  | fillStdout f =>
    simp only [wireStep] at hs
    split at hs
    · next hreading =>
      obtain ⟨stdout, hfill, rfl⟩ := Option.map_eq_some_iff.mp hs
      exact { h with stdout := h.stdout.fill hreading hfill }
    · cases hs
  | passStdout => exact h.passStdout hs
  | fillStderr f =>
    simp only [wireStep] at hs
    split at hs
    · next hopen =>
      obtain ⟨stderr, hfill, rfl⟩ := Option.map_eq_some_iff.mp hs
      obtain ⟨frames, hreturned, htail⟩ := h.stderr
      exact { h with stderr := ⟨frames, hreturned.fill hopen hfill, htail⟩ }
    · cases hs
  | passStderr => exact h.passStderr hs
  | take => exact h.take hs
  | write n => exact h.write hs
  | flush =>
    simp only [wireStep] at hs
    split at hs
    · next hwriter =>
      obtain rfl := Option.some.inj hs
      have hwritten := h.written
      rw [hwriter] at hwritten
      exact { h with written := hwritten }
    · cases hs
  | breakStdin =>
    simp only [wireStep] at hs
    have hwritten := h.written
    split at hs
    · next rest hwriter =>
      obtain rfl := Option.some.inj hs
      rw [hwriter] at hwritten
      have hbroken : w.stdin <+: (w.sent.take w.taken).flatMap Outbound.bytes :=
        ⟨rest, hwritten.2⟩
      exact { h with written := hbroken }
    · next hwriter =>
      obtain rfl := Option.some.inj hs
      rw [hwriter] at hwritten
      have hbroken : w.stdin <+: (w.sent.take w.taken).flatMap Outbound.bytes :=
        hwritten ▸ List.prefix_refl _
      exact { h with written := hbroken }
    · cases hs
  | dropReceiver =>
    simp only [wireStep] at hs
    split at hs
    · next hwriter =>
      have hwritten := h.written
      rw [hwriter] at hwritten
      refine h.stepClient w.stdout w.stderr .finished hs (fun client hstep => ?_)
        (fun client hstep => ?_) hwritten
      all_goals
        obtain rfl := Option.some.inj hstep
      · exact h.stdout
      · exact h.stderr
    · cases hs
  | shutdown =>
    obtain rfl := Option.some.inj hs
    exact h.shutdown_step
  | exited k status | killed k status =>
    simp only [wireStep] at hs
    split at hs
    · next hk =>
      obtain rfl := Option.some.inj hs
      exact h.setShutdown hk (by simp)
    · next hk =>
      obtain rfl := Option.some.inj hs
      exact h.setShutdown hk (by simp)
    · cases hs
  | graceElapsed k =>
    simp only [wireStep] at hs
    split at hs
    · next hk =>
      obtain rfl := Option.some.inj hs
      exact h.setShutdown hk (by simp)
    · cases hs

theorem piped_run {es : List WireLabel} (h : (wire cfg).run .spawned es = some w) : Piped cfg w :=
  (wire cfg).run_preserves (fun _ _ _ hp hs => hp.step hs) piped_spawned h

/-! ## Responses -/

/-- How the bytes of the worker's stdout answer the calls. -/
structure AnsweredByBytes (cfg : Settings) (w : Wire) : Prop where
  /-- Whatever the chunks, the reader has seen the lines of the bytes. -/
  caught_up : w.client.reader = .reading → w.stdout.unread = [] → w.stdout.ending = none →
    w.client.lines = w.stdout.lines.map (frame cfg.maxContentSize)
  at_end : w.client.reader ≠ .reading →
    w.client.lines = w.stdout.lines.map (frame cfg.maxContentSize) ++ [w.stdout.last]
  retained : w.stdout.scan.buffer.length ≤ cfg.maxContentSize
  /-- What a call returns stands in its own line of the bytes, under the id of its task. -/
  response : ∀ c v, (c, .ok v) ∈ w.client.resolved → ∃ id task n line response,
    w.client.requestId c = some id ∧ ⟨some c, task⟩ ∈ w.sent ∧ (n, c) ∈ w.client.deliveries ∧
      w.stdout.lines[n]? = some line ∧ line.length ≤ cfg.maxContentSize ∧
      cfg.fromStr (Text.trim (lineText line)) = some response ∧
      response.get? "request_id" = some (.string id) ∧ interpretResponse response = .ok v
  once : (w.client.deliveries.map Prod.fst).Nodup

theorem mem_sent_iff (h : Piped cfg w) {c : CallId} {line : String} :
    ⟨some c, line⟩ ∈ w.sent ↔ (c, line) ∈ w.client.outbound := by
  rw [← h.calls, List.mem_filterMap]
  constructor
  · intro hmem
    exact ⟨_, hmem, rfl⟩
  · rintro ⟨⟨owner, line'⟩, hmem, heq⟩
    obtain ⟨d, rfl, hd⟩ := Option.map_eq_some_iff.mp heq
    obtain ⟨rfl, rfl⟩ := Prod.mk.inj hd
    exact hmem

theorem bounded_line {line : List UInt8} {text : String} (h : bounded limit line = .line text) :
    line.length ≤ limit ∧ lineText line = text := by
  unfold bounded at h
  split at h
  · next hle => exact ⟨hle, BoundedLine.line.inj h⟩
  · cases h

theorem Piped.answered (hp : Piped cfg w) : AnsweredByBytes cfg w := by
  refine ⟨hp.stdout.caught_up, fun hnot => (hp.stdout.stopped hnot).2, hp.stdout.retained,
    fun c v hv => ?_, hp.demuxed.delivered_once⟩
  obtain ⟨n, response, hdelivered, ⟨text, id, hline, hparse, hresp, hid⟩, hok⟩ :=
    hp.demuxed.resolved_line c v hv
  obtain ⟨line, hget, hbounded⟩ := hp.stdout.getElem? hline
  obtain ⟨hsize, rfl⟩ := bounded_line hbounded
  obtain ⟨⟨d, task⟩, htask, rfl⟩ := List.mem_map.mp (hp.handed.answered c v hv)
  exact ⟨id, task, n, line, response, hid, (mem_sent_iff hp).mpr htask, hdelivered, hget, hsize,
    hparse, hresp, hok⟩

/-- **A call that succeeds was answered by its own line of the worker's stdout**, however the bytes
come in chunks and whatever else the worker prints. -/
theorem responses_from_bytes (es : List WireLabel) (h : (wire cfg).run .spawned es = some w) :
    AnsweredByBytes cfg w :=
  (piped_run h).answered

/-- A worker that logs, and echoes the task in two parts behind a line of noise. -/
def echoing : Settings where
  maxContentSize := 100
  timeoutSecs := 30
  fromStr := fun line =>
    if line = "\x7b\"request_id\":\"a\"\x7d" then some (.object [("request_id", .string "a")])
    else none
  toString := fun task =>
    match (task.get? "request_id").bind Json.asStr with
    | some id =>
      if '\n' ∈ id.toList then .error "not printable"
      else .ok ("\x7b\"request_id\":\"" ++ id ++ "\"\x7d")
    | none => .error "no request id"

def echoRun : List WireLabel :=
  [.client (.call 0 "a" (.object [])), .client (.register 0), .client (.handOff 0), .take, .write 3,
    .fillStderr (.chunk ⟨Utf8.encode "warn\nin".toList, by decide⟩), .passStderr, .write 16, .flush,
    .fillStdout (.chunk ⟨Utf8.encode "noise\n\x7b\"request".toList, by decide⟩), .passStdout,
    .passStdout, .fillStdout (.chunk ⟨Utf8.encode "_id\":\"a\"\x7d\n".toList, by decide⟩),
    .passStdout, .client (.receive 0), .shutdown, .shutdown, .exited 0 (.ok ())]

theorem responses_from_bytes_echo : ∃ w, (wire echoing).run .spawned echoRun = some w ∧
    w.client.resolved = [(0, .ok (.object []))] ∧ AnsweredByBytes echoing w :=
  ⟨_, rfl, rfl, responses_from_bytes echoRun rfl⟩

/-! ## Tasks -/

/-- The bytes of a line without its newline. -/
def Outbound.body (o : Outbound) : List UInt8 := Utf8.encode o.line.toList

theorem Outbound.bytes_eq (o : Outbound) : o.bytes = o.body ++ [newline] := by
  rw [bytes, body, Utf8.encode, Utf8.encode, List.flatMap_append]
  rfl

theorem newline_notMem_body {o : Outbound} (h : '\n' ∉ o.line.toList) : newline ∉ o.body := by
  intro hmem
  obtain ⟨c, hc, hbyte⟩ := List.mem_flatMap.mp hmem
  have hval : c.toNat = 10 := Utf8.toNat_of_mem hbyte (by decide)
  obtain rfl : c = '\n' := Char.toNat_inj.mp hval
  exact h hc

/-- **What a worker reads of part of the bytes** are the first lines, each whole. -/
theorem linesOf_of_prefix (e : String) : ∀ {os : List Outbound} {stdin : List UInt8},
    (∀ o ∈ os, newline ∉ o.body) → stdin <+: os.flatMap Outbound.bytes →
    ∃ k ≤ os.length, linesOf (some e) stdin = (os.take k).map Outbound.body
  | [], stdin, _, hstart => by
    rw [List.flatMap_nil, List.prefix_nil] at hstart
    refine ⟨0, Nat.le_refl 0, ?_⟩
    rw [hstart, linesOf_failed e List.not_mem_nil]
    rfl
  | o :: os, stdin, hos, hstart => by
    have ho := hos o List.mem_cons_self
    rw [List.flatMap_cons, o.bytes_eq, List.append_assoc, List.singleton_append] at hstart
    rcases cut_at_newline stdin with ⟨line, after, rfl, hline⟩ | hnot
    · -- the first line came whole
      obtain ⟨more, hmore⟩ := hstart
      rw [List.append_assoc, List.cons_append] at hmore
      obtain ⟨rfl, hafter⟩ := Text.append_cons_inj hline ho hmore
      obtain ⟨k, hk, hlines⟩ :=
        linesOf_of_prefix e (fun o ho => hos o (List.mem_cons_of_mem _ ho)) ⟨more, hafter⟩
      refine ⟨k + 1, Nat.succ_le_succ hk, ?_⟩
      rw [linesOf_line _ hline, hlines]
      rfl
    · refine ⟨0, Nat.zero_le _, ?_⟩
      rw [linesOf_failed e hnot]
      rfl

/-- What the worker's stdin gets. -/
structure Delivered (cfg : Settings) (w : Wire) : Prop where
  bytes : w.stdin <+: w.sent.flatMap Outbound.bytes
  /-- The worker reads whole lines, those that were sent, in order and each once. -/
  lines : ∃ k ≤ w.taken, ∀ e, linesOf (some e) w.stdin = (w.sent.take k).map Outbound.body
  idle : w.writer = .receiving → w.stdin = (w.sent.take w.taken).flatMap Outbound.bytes
  /-- What a call sends is its task, under the id it drew. -/
  task : ∀ c line, ⟨some c, line⟩ ∈ w.sent → IsTask cfg w.client c line
  shutdown : ∀ line, ⟨none, line⟩ ∈ w.sent → cfg.toString shutdownTask = .ok line
  once : (w.sent.filterMap Outbound.owner).Nodup

theorem Written.bytes {received : List Outbound} {stdin : List UInt8} {writer : WriterPhase}
    (h : Written received stdin writer) : stdin <+: received.flatMap Outbound.bytes := by
  cases writer with
  | receiving | flushing => exact h ▸ List.prefix_refl _
  | writing rest => exact ⟨rest, h.2⟩
  | stopping | finished => exact h

/-- **The worker's stdin gets whole task lines, in order, each at most once**, when the serializer
writes no newline: whatever is written at a time, and wherever the pipe breaks. -/
theorem tasks_reach_stdin (hline : ∀ task line, cfg.toString task = .ok line → '\n' ∉ line.toList)
    (es : List WireLabel) (h : (wire cfg).run .spawned es = some w) : Delivered cfg w := by
  have hp := piped_run h
  have htask : ∀ c line, ⟨some c, line⟩ ∈ w.sent → IsTask cfg w.client c line :=
    fun c line hmem => (hp.handed.outbound c line ((mem_sent_iff hp).mp hmem)).1
  have hbody : ∀ o ∈ w.sent, newline ∉ o.body := by
    rintro ⟨owner, line⟩ hmem
    refine newline_notMem_body ?_
    cases owner with
    | none => exact hline _ _ (hp.shutdown line hmem)
    | some c =>
      obtain ⟨task, id, fields, -, -, -, hserialized⟩ := htask c line hmem
      exact hline _ _ hserialized
  have hbytes := hp.written.bytes
  have hcut : w.sent.flatMap Outbound.bytes = (w.sent.take w.taken).flatMap Outbound.bytes ++
      (w.sent.drop w.taken).flatMap Outbound.bytes := by
    rw [← List.flatMap_append, List.take_append_drop]
  refine ⟨hcut ▸ hbytes.trans (List.prefix_append _ _), ?_, fun hidle => ?_, htask, hp.shutdown, ?_⟩
  · obtain ⟨k, hk, hlines⟩ := linesOf_of_prefix ""
      (fun o ho => hbody o (List.mem_of_mem_take ho)) hbytes
    rw [List.length_take, Nat.min_eq_left hp.received] at hk
    refine ⟨k, hk, fun e => ?_⟩
    rw [List.take_take, Nat.min_eq_left hk] at hlines
    exact hlines
  · have hwritten := hp.written
    rw [hidle] at hwritten
    exact hwritten
  · have howners : w.sent.filterMap Outbound.owner = w.client.outbound.map Prod.fst := by
      rw [← hp.calls, List.map_filterMap]
      refine List.filterMap_congr fun o _ => ?_
      cases o.owner <;> rfl
    rw [howners]
    exact hp.handed.once

theorem echoing_line (task : Json) (line : String) (h : echoing.toString task = .ok line) :
    '\n' ∉ line.toList := by
  simp only [echoing] at h
  split at h
  · split at h
    · cases h
    · next hnot =>
      obtain rfl := Except.ok.inj h
      simp [String.toList_append, hnot]
  · cases h

theorem tasks_reach_stdin_echo : ∃ w, (wire echoing).run .spawned echoRun = some w ∧
    w.stdin = Utf8.encode "\x7b\"request_id\":\"a\"\x7d\n".toList ∧ Delivered echoing w :=
  ⟨_, rfl, rfl, tasks_reach_stdin echoing_line echoRun rfl⟩

/-! ## Stderr -/

/-- What is kept of a line of stderr. -/
def retained (line : List UInt8) : String :=
  if line.length ≤ stderrMaxLineBytes then lineText line
  else lineText (line.take stderrMaxLineBytes) ++ truncationMarker

theorem stderrLine_frame (line : List UInt8) :
    stderrLine (frame stderrMaxLineBytes line) = some (retained line) := by
  unfold frame bounded retained
  split
  · rfl
  · rfl

theorem stderrLine_last (r : LineReader) : stderrLine r.last = none :=
  (stderrLine_eq_none r.last).mpr (ends_last r)

theorem filterMap_stderrLine (lines : List (List UInt8)) :
    (lines.map (frame stderrMaxLineBytes)).filterMap stderrLine = lines.map retained := by
  induction lines with
  | nil => rfl
  | cons line lines ih =>
    rw [List.map_cons, List.filterMap_cons, stderrLine_frame, ih]
    rfl

theorem size_lineText_le (line : List UInt8) : (lineText line).utf8ByteSize ≤ 3 * line.length := by
  have htrim : (trimReturn line).length ≤ line.length := by
    unfold trimReturn
    split
    · rw [List.length_dropLast]
      exact Nat.sub_le _ _
    · exact Nat.le_refl _
  have hlossy := Utf8.length_encode_fromUtf8Lossy_le (trimReturn line)
  rw [lineText, Utf8.length_utf8_ofList]
  omega

/-- The most a line of stderr may take. -/
def retainedMax : Nat := 3 * stderrMaxLineBytes + truncationMarker.utf8ByteSize

theorem size_retained_le (line : List UInt8) : (retained line).utf8ByteSize ≤ retainedMax := by
  unfold retained retainedMax
  split
  · next hle =>
    have hsize := size_lineText_le line
    omega
  · have hsize := size_lineText_le (line.take stderrMaxLineBytes)
    have htake := List.length_take_le stderrMaxLineBytes line
    rw [String.utf8ByteSize_append]
    omega

/-- What is kept of the worker's stderr. -/
structure StderrRetained (w : Wire) : Prop where
  lines : ∃ lines, lines <+: w.stderr.lines ∧
    w.client.stderrTail = lastLines (lines.map retained) ∧
    (w.stderrOpen = false ∨ w.stderr.unread = [] ∧ w.stderr.ending = none →
      lines = w.stderr.lines)
  reading : w.stderr.scan.buffer.length ≤ stderrMaxLineBytes
  size : (w.client.stderrTail.map String.utf8ByteSize).sum ≤ stderrRetainLines * retainedMax

theorem size_lastLines_le (lines : List (List UInt8)) :
    ((lastLines (lines.map retained)).map String.utf8ByteSize).sum ≤
      stderrRetainLines * retainedMax := by
  have hlength : ((lastLines (lines.map retained)).map String.utf8ByteSize).length ≤
      stderrRetainLines := by
    rw [List.length_map, lastLines, List.length_drop]
    omega
  have hsize : ∀ size ∈ (lastLines (lines.map retained)).map String.utf8ByteSize,
      size ≤ retainedMax := by
    intro size hsize
    obtain ⟨text, htext, rfl⟩ := List.mem_map.mp hsize
    obtain ⟨line, -, rfl⟩ := List.mem_map.mp (List.mem_of_mem_drop htext)
    exact size_retained_le line
  exact Nat.le_trans (List.sum_le_card_nsmul _ retainedMax hsize)
    (Nat.mul_le_mul_right retainedMax hlength)

/-- **What is kept of stderr are its last lines, and they are bounded**, however the worker writes
them: a cut line ends in the marker. -/
theorem stderr_retained (es : List WireLabel) (h : (wire cfg).run .spawned es = some w) :
    StderrRetained w := by
  obtain ⟨frames, hreturned, htail⟩ := (piped_run h).stderr
  obtain ⟨lines, hlines, hstart, hall⟩ : ∃ lines, frames.filterMap stderrLine = lines.map retained ∧
      lines <+: w.stderr.lines ∧ (w.stderrOpen = false ∨
        w.stderr.unread = [] ∧ w.stderr.ending = none → lines = w.stderr.lines) := by
    by_cases hopen : w.stderrOpen = true
    · obtain ⟨lines, begun, hreads, hframes⟩ := hreturned.going hopen
      obtain ⟨more, hmore⟩ := hreads.lines_eq
      refine ⟨lines, by rw [hframes, filterMap_stderrLine], ⟨more, hmore.symm⟩, ?_⟩
      rintro (hclosed | ⟨hunread, hending⟩)
      · rw [hopen] at hclosed
        cases hclosed
      · have hcaught := hreturned.caught_up hopen hunread hending
        rw [hframes] at hcaught
        have hlength := congrArg List.length hcaught
        rw [List.length_map, List.length_map, hmore, List.length_append] at hlength
        have hnil : more = [] := List.length_eq_zero_iff.mp (by omega)
        rw [hmore, hnil, List.append_nil]
    · obtain ⟨-, hframes⟩ := hreturned.stopped hopen
      refine ⟨w.stderr.lines, ?_, List.prefix_refl _, fun _ => rfl⟩
      rw [hframes, List.filterMap_append, filterMap_stderrLine]
      simp [stderrLine_last]
  rw [hlines] at htail
  exact ⟨⟨lines, hstart, htail, hall⟩, hreturned.retained, htail ▸ size_lastLines_le lines⟩

theorem stderr_retained_echo : ∃ w, (wire echoing).run .spawned echoRun = some w ∧
    w.client.stderrTail = ["warn"] ∧ StderrRetained w :=
  ⟨_, rfl, rfl, @stderr_retained echoing _ echoRun rfl⟩

/-! ## `shutdown` -/

/-- What any number of `shutdown` calls do. -/
structure ShutDownOnce (w : Wire) : Prop where
  asked : w.sent.countP (·.owner.isNone) ≤ 1
  before : w.child = true → w.shutdowns = []
  /-- Only one call waits, kills or fails. -/
  only : ∀ (i j : Nat) (p q : Stopping), w.shutdowns[i]? = some p → w.shutdowns[j]? = some q →
    p ≠ .done (.ok ()) → q ≠ .done (.ok ()) → i = j

/-- **One call of `shutdown` takes the child**, and asks the worker to exit at most once. Every
other call returns `Ok` at once. -/
theorem shutdown_once (es : List WireLabel) (h : (wire cfg).run .spawned es = some w) :
    ShutDownOnce w := by
  have hp := piped_run h
  have hstopped := hp.stopped
  unfold Stopped at hstopped
  refine ⟨Nat.le_trans hp.shutdowns (by split_ifs <;> decide), fun hchild => ?_, ?_⟩
  · rwa [if_pos hchild] at hstopped
  · intro i j p q hi hj hpi hqj
    have hzero : ∀ (k : Nat) (r : Stopping), w.shutdowns[k]? = some r → r ≠ .done (.ok ()) →
        k = 0 := by
      intro k r hk hr
      split at hstopped
      · rw [hstopped] at hk
        cases hk
      · obtain ⟨first, rest, hlist, hrest⟩ := hstopped
        cases k with
        | zero => rfl
        | succ k =>
          rw [hlist, List.getElem?_cons_succ] at hk
          exact absurd (hrest r (List.mem_of_getElem? hk)) hr
    rw [hzero i p hi hpi, hzero j q hj hqj]

theorem shutdown_once_echo : ∃ w, (wire echoing).run .spawned echoRun = some w ∧
    w.shutdowns = [.done (.ok ()), .done (.ok ())] ∧ ShutDownOnce w :=
  ⟨_, rfl, rfl, @shutdown_once echoing _ echoRun rfl⟩

end Cpex.Host.Worker
