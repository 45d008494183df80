import Cpex.Host.Framing

/-!
# Framing does not depend on the chunks

However the buffered reader splits the stream, repeated calls of `read_bounded_line` yield the
lines of the stream, each judged by its own length.

* `Scan.of` — the locals after the bytes of a line that has not ended, computed from them alone
* `Scan.passed_over` — one pass goes to the first newline, or counts the whole chunk
* `scanLoop_line`, `scanLoop_tail` — what one call returns, and where it leaves the reader
* `readLines` — repeated calls, until the stream ends or fails
* `linesOf` — the lines of a stream, by splitting it at the newlines
* `read_bounded_line_frames` — the two agree, call by call and as a whole, and no call retains more
  than the limit
-/

namespace Cpex.Host.Worker

open Cpex.Infra

variable {limit : Nat} {failure : Option String}

/-! ## The lines of a stream -/

/-- The text of a line, or of its first bytes. -/
def lineText (bytes : List UInt8) : String :=
  String.ofList (Utf8.fromUtf8Lossy (trimReturn bytes))

/-- What a line is returned as: whole up to the limit, or as its first bytes and its length. -/
def bounded (limit : Nat) (line : List UInt8) : BoundedLine :=
  if line.length ≤ limit then .line (lineText line)
  else .oversized (lineText (line.take limit)) line.length

/-- The lines of a stream. What stands behind the last newline is a line if the stream ends there
and it is not empty. -/
def linesOf (failure : Option String) (bytes : List UInt8) : List (List UInt8) :=
  let segments := bytes.splitOn newline
  if failure = none ∧ segments.getLast? ≠ some [] then segments else segments.dropLast

theorem linesOf_line (failure : Option String) {line : List UInt8} (h : newline ∉ line)
    (after : List UInt8) :
    linesOf failure (line ++ newline :: after) = line :: linesOf failure after := by
  have hne : after.splitOn newline ≠ [] := List.splitOn_ne_nil newline after
  have hsplit : (line ++ newline :: after).splitOn newline = line :: after.splitOn newline := by
    rw [List.splitOn_append_cons_self, List.splitOn_eq_singleton h, List.singleton_append]
  have hlast : (line :: after.splitOn newline).getLast? = (after.splitOn newline).getLast? := by
    obtain ⟨segment, segments, heq⟩ := List.exists_cons_of_ne_nil hne
    rw [heq, List.getLast?_cons_cons]
  rw [linesOf, linesOf, hsplit, hlast]
  split
  · rfl
  · rw [List.dropLast_cons_of_ne_nil hne]

theorem linesOf_tail (failure : Option String) {tail : List UInt8} (h : newline ∉ tail) :
    linesOf failure tail = if failure = none ∧ tail ≠ [] then [tail] else [] := by
  rw [linesOf, List.splitOn_eq_singleton h]
  simp

/-! ## One call -/

/-- The locals once the bytes `p` of a line have been counted. -/
def Scan.of (limit : Nat) (p : List UInt8) : Scan where
  buffer := p.take limit
  scanned := p.length
  isOver := limit < p.length

theorem Scan.of_nil (limit : Nat) : Scan.of limit [] = .start := by
  simp [Scan.of, Scan.start]

/-- **A chunk takes the locals of the bytes before it to those of the bytes with it.** -/
theorem Scan.absorb_of (limit : Nat) (p chunk : List UInt8) :
    (Scan.of limit p).absorb limit chunk = Scan.of limit (p ++ chunk) := by
  unfold Scan.absorb
  by_cases hover : limit < p.length
  · -- The limit is passed: nothing more is retained.
    have hlong : limit < p.length + chunk.length := by omega
    simp only [Scan.of, hover, decide_true, if_true, List.length_append, hlong,
      List.take_append_of_le_length (Nat.le_of_lt hover)]
  · have hroom : limit - (p.take limit).length = limit - p.length := by
      rw [List.length_take]
      omega
    have htake : p.take limit = p := List.take_of_length_le (by omega)
    have hkeep : chunk.take (min chunk.length (limit - p.length)) =
        chunk.take (limit - p.length) := by
      rw [Nat.min_comm, ← List.take_take, List.take_length]
    simp only [Scan.of, hover, decide_false, hroom, hkeep, List.length_append]
    rw [htake, List.take_append, htake]
    rfl

theorem Scan.finish_of (limit : Nat) (p : List UInt8) :
    (Scan.of limit p).finish = bounded limit p := by
  unfold Scan.finish bounded lineText
  by_cases hlong : limit < p.length
  · have hnot : ¬ p.length ≤ limit := by omega
    simp only [Scan.of, hlong, decide_true, if_true, hnot, if_false]
  · have hle : p.length ≤ limit := by omega
    simp only [Scan.of, hlong, decide_false, hle, if_true, List.take_of_length_le hle]
    rfl

theorem bytes_consume (bytes : List UInt8) (consumed : Nat) (rest : List Chunk) :
    (consume bytes consumed rest).flatMap Chunk.bytes =
      bytes.drop consumed ++ rest.flatMap Chunk.bytes := by
  unfold consume
  split
  · next h => rw [h, List.nil_append]
  · rfl

/-- A chunk with a newline is cut at the first one. -/
theorem findIdx?_newline {bytes : List UInt8} {index : Nat}
    (h : bytes.findIdx? (· = newline) = some index) :
    bytes = bytes.take index ++ newline :: bytes.drop (index + 1) ∧ newline ∉ bytes.take index := by
  obtain ⟨hlt, hat, hbefore⟩ := List.findIdx?_eq_some_iff_getElem.mp h
  have hnew : bytes[index] = newline := by simpa using hat
  constructor
  · rw [← hnew, List.getElem_cons_drop, List.take_append_drop]
  · intro hmem
    obtain ⟨i, hi, hget⟩ := List.mem_take_iff_getElem.mp hmem
    have hi' := hbefore i (by omega)
    simp [hget] at hi'

/-- What a pass over `available` makes of the bytes `p` counted before it. -/
inductive PassedOver (limit : Nat) (p available : List UInt8) : Scan × Nat × Bool → Prop where
  | line (before after : List UInt8) (hcut : available = before ++ newline :: after)
      (hnot : newline ∉ before) (consumed : Nat) (hdrop : available.drop consumed = after) :
      PassedOver limit p available (Scan.of limit (p ++ before), consumed, true)
  | counted (hnot : newline ∉ available) :
      PassedOver limit p available (Scan.of limit (p ++ available), available.length, false)

/-- **One pass** goes to the first newline, or counts the whole chunk. -/
theorem Scan.passed_over (limit : Nat) (p available : List UInt8) :
    PassedOver limit p available ((Scan.of limit p).pass limit available) := by
  rw [Scan.pass]
  cases hfind : available.findIdx? (· = newline) with
  | some index =>
    obtain ⟨hcut, hnot⟩ := findIdx?_newline hfind
    show PassedOver limit p available
      ((Scan.of limit p).absorb limit (available.take index), index + 1, true)
    rw [Scan.absorb_of]
    exact .line _ _ hcut hnot _ rfl
  | none =>
    show PassedOver limit p available
      ((Scan.of limit p).absorb limit available, available.length, false)
    rw [Scan.absorb_of]
    refine .counted fun hmem => ?_
    simpa using List.findIdx?_eq_none_iff.mp hfind newline hmem

/-- A call that comes to a newline returns the line up to it, and leaves what stands behind it. -/
theorem scanLoop_line (limit : Nat) (failure : Option String) {line after : List UInt8}
    (hline : newline ∉ line) :
    ∀ (chunks : List Chunk) (p : List UInt8),
      p ++ chunks.flatMap Chunk.bytes = line ++ newline :: after → newline ∉ p →
      (scanLoop limit failure (Scan.of limit p) chunks).outcome = .ok (bounded limit line) ∧
        (scanLoop limit failure (Scan.of limit p) chunks).rest.flatMap Chunk.bytes = after
  | [], p, heq, hp => by
    rw [List.flatMap_nil, List.append_nil] at heq
    exact absurd (heq ▸ List.mem_append_right line List.mem_cons_self) hp
  | available :: rest, p, heq, hp => by
    rw [List.flatMap_cons] at heq
    rw [scanLoop]
    have hover := Scan.passed_over limit p available.bytes
    generalize (Scan.of limit p).pass limit available.bytes = passed at hover ⊢
    cases hover with
    | line before behind hcut hnot consumed hdrop =>
      have hread : p ++ before ++ newline :: (behind ++ rest.flatMap Chunk.bytes) =
          line ++ newline :: after := by
        rw [hcut] at heq
        simpa only [List.append_assoc, List.cons_append] using heq
      have hbefore : newline ∉ p ++ before :=
        fun hmem => (List.mem_append.mp hmem).elim hp hnot
      obtain ⟨rfl, rfl⟩ := Text.append_cons_inj hbefore hline hread
      show Except.ok (Scan.of limit (p ++ before)).finish = .ok (bounded limit (p ++ before)) ∧
        (consume available.bytes consumed rest).flatMap Chunk.bytes =
          behind ++ rest.flatMap Chunk.bytes
      rw [Scan.finish_of, bytes_consume, hdrop]
      exact ⟨rfl, rfl⟩
    | counted hnot =>
      dsimp only
      refine scanLoop_line limit failure hline rest (p ++ available.bytes)
        (by rw [List.append_assoc, heq]) ?_
      exact fun hmem => (List.mem_append.mp hmem).elim hp hnot

/-- A call that comes to no newline ends with the stream, or fails with it. -/
theorem scanLoop_tail (limit : Nat) (failure : Option String) :
    ∀ (chunks : List Chunk) (p : List UInt8),
      newline ∉ chunks.flatMap Chunk.bytes →
      (scanLoop limit failure (Scan.of limit p) chunks).outcome =
          (Scan.of limit (p ++ chunks.flatMap Chunk.bytes)).ended failure ∧
        (scanLoop limit failure (Scan.of limit p) chunks).rest = []
  | [], p, _ => by
    rw [List.flatMap_nil, List.append_nil]
    exact ⟨rfl, rfl⟩
  | available :: rest, p, h => by
    rw [List.flatMap_cons, List.mem_append, not_or] at h
    rw [scanLoop]
    have hover := Scan.passed_over limit p available.bytes
    generalize (Scan.of limit p).pass limit available.bytes = passed at hover ⊢
    cases hover with
    | line before behind hcut hnot consumed hdrop =>
      exact absurd (hcut ▸ List.mem_append_right before List.mem_cons_self) h.1
    | counted hnot =>
      rw [List.flatMap_cons, ← List.append_assoc]
      exact scanLoop_tail limit failure rest (p ++ available.bytes) h.2

theorem Scan.ended_of (limit : Nat) (failure : Option String) (p : List UInt8) :
    (Scan.of limit p).ended failure =
      match failure with
      | some e => .error e
      | none => if p = [] then .ok .eof else .ok (bounded limit p) := by
  cases failure with
  | some e => rfl
  | none =>
    rw [Scan.ended, Scan.finish_of]
    simp [Scan.of]

/-- No pass of a call retains more than the limit. -/
theorem buffer_le_limit (failure : Option String) : ∀ (chunks : List Chunk) (p : List UInt8),
    ∀ st ∈ (scanLoop limit failure (Scan.of limit p) chunks).states, st.buffer.length ≤ limit
  | [], p, st, hst => by
    rw [scanLoop, List.mem_singleton] at hst
    rw [hst]
    exact List.length_take_le limit p
  | available :: rest, p, st, hst => by
    rw [scanLoop] at hst
    have hover := Scan.passed_over limit p available.bytes
    generalize (Scan.of limit p).pass limit available.bytes = passed at hover hst
    cases hover with
    | line before behind hcut hnot consumed hdrop =>
      rcases List.mem_cons.mp hst with rfl | hst
      · exact List.length_take_le limit p
      · rw [List.mem_singleton.mp hst]
        exact List.length_take_le limit _
    | counted hnot =>
      rcases List.mem_cons.mp hst with rfl | hst
      · exact List.length_take_le limit p
      · exact buffer_le_limit failure rest (p ++ available.bytes) st hst

/-- A line that is returned is made of the locals of the last pass. -/
theorem scanLoop_finish : ∀ (chunks : List Chunk) (st : Scan) {line : BoundedLine},
    (scanLoop limit failure st chunks).outcome = .ok line → line ≠ .eof →
      ∃ last, (scanLoop limit failure st chunks).states.getLast? = some last ∧ line = last.finish
  | [], st, line, h, hne => by
    refine ⟨st, rfl, ?_⟩
    change st.ended failure = .ok line at h
    cases failure with
    | some e => cases h
    | none =>
      rw [Scan.ended] at h
      split at h
      · exact absurd (Except.ok.inj h).symm hne
      · exact (Except.ok.inj h).symm
  | available :: rest, st, line, h, hne => by
    rw [scanLoop] at h ⊢
    generalize st.pass limit available.bytes = passed at h ⊢
    obtain ⟨st', consumed, done⟩ := passed
    cases done with
    | true => exact ⟨st', rfl, (Except.ok.inj h).symm⟩
    | false =>
      obtain ⟨last, hlast, hfinish⟩ := scanLoop_finish rest st' h hne
      refine ⟨last, ?_, hfinish⟩
      show (st :: (scanLoop limit failure st' rest).states).getLast? = some last
      rw [List.getLast?_cons, hlast]
      rfl

/-! ## Every call -/

theorem readBoundedLine_line (limit : Nat) {r : BufReader} {line after : List UInt8}
    (hline : newline ∉ line) (hbytes : r.bytes = line ++ newline :: after) :
    ∃ r', readBoundedLine limit r = (.ok (bounded limit line), r') ∧ r'.bytes = after ∧
      r'.failure = r.failure := by
  obtain ⟨houtcome, hrest⟩ :=
    scanLoop_line limit r.failure hline r.chunks [] hbytes List.not_mem_nil
  rw [Scan.of_nil] at houtcome hrest
  refine ⟨{ r with chunks := (lineRead limit r).rest }, ?_, hrest, rfl⟩
  rw [readBoundedLine, lineRead, houtcome]

theorem readBoundedLine_tail (limit : Nat) {r : BufReader} (h : newline ∉ r.bytes) :
    readBoundedLine limit r =
      (match r.failure with
        | some e => .error e
        | none => if r.bytes = [] then .ok .eof else .ok (bounded limit r.bytes),
        { r with chunks := [] }) := by
  obtain ⟨houtcome, hrest⟩ := scanLoop_tail limit r.failure r.chunks [] h
  rw [Scan.of_nil] at houtcome hrest
  rw [readBoundedLine, lineRead, houtcome, hrest, List.nil_append, Scan.ended_of]
  rfl

/-- A stream has a first newline, or none. -/
theorem cut_at_newline (bytes : List UInt8) :
    (∃ line after, bytes = line ++ newline :: after ∧ newline ∉ line) ∨ newline ∉ bytes := by
  by_cases hmem : newline ∈ bytes
  · obtain ⟨line, after, heq, hnot⟩ := List.eq_append_cons_of_mem hmem
    exact .inl ⟨line, after, heq, hnot⟩
  · exact .inr hmem

/-- A call that returns a line consumes some of the stream. -/
theorem bytes_lt_of_line {r r' : BufReader} {line : BoundedLine}
    (h : readBoundedLine limit r = (.ok line, r')) (hne : line ≠ .eof) :
    r'.bytes.length < r.bytes.length := by
  rcases cut_at_newline r.bytes with ⟨body, after, heq, hnot⟩ | hnot
  · obtain ⟨r'', hread, hafter, -⟩ := readBoundedLine_line limit hnot heq
    rw [h] at hread
    obtain ⟨-, rfl⟩ := Prod.mk.inj hread
    rw [hafter, heq, List.length_append, List.length_cons]
    omega
  · rw [readBoundedLine_tail limit hnot] at h
    obtain ⟨hline, rfl⟩ := Prod.mk.inj h
    cases hfail : r.failure with
    | some e =>
      rw [hfail] at hline
      cases hline
    | none =>
      rw [hfail] at hline
      dsimp only at hline
      split at hline
      · exact absurd (Except.ok.inj hline).symm hne
      · next hbytes => exact List.length_pos_iff.mpr hbytes

/-- Repeated calls: the lines up to the end of the stream, or up to the error. -/
def readLines (limit : Nat) (r : BufReader) : List BoundedLine × Option String :=
  match h : readBoundedLine limit r with
  | (.error e, _) => ([], some e)
  | (.ok line, r') =>
    if hline : line = .eof then ([], none)
    else
      have := bytes_lt_of_line h hline
      let (lines, ending) := readLines limit r'
      (line :: lines, ending)
termination_by r.bytes.length

theorem readLines_line {r r' : BufReader} {line : BoundedLine}
    (h : readBoundedLine limit r = (.ok line, r')) (hne : line ≠ .eof) :
    readLines limit r = (line :: (readLines limit r').1, (readLines limit r').2) := by
  rw [readLines]
  split
  · next hread =>
    rw [h] at hread
    cases hread
  · next hread =>
    rw [h] at hread
    cases hread
    rw [dif_neg hne]

theorem readLines_stop {r r' : BufReader} (h : readBoundedLine limit r = (.ok .eof, r')) :
    readLines limit r = ([], none) := by
  rw [readLines]
  split
  · next hread =>
    rw [h] at hread
    cases hread
  · next hread =>
    rw [h] at hread
    cases hread
    rw [dif_pos rfl]

theorem readLines_fail {r r' : BufReader} {e : String}
    (h : readBoundedLine limit r = (.error e, r')) : readLines limit r = ([], some e) := by
  rw [readLines]
  split
  · next hread =>
    rw [h] at hread
    cases hread
    rfl
  · next hread =>
    rw [h] at hread
    cases hread

theorem bounded_ne_eof (limit : Nat) (line : List UInt8) : bounded limit line ≠ .eof := by
  unfold bounded
  split
  · simp
  · simp

/-- The lines that are read are those of the stream. -/
theorem readLines_eq (limit : Nat) (r : BufReader) :
    readLines limit r = ((linesOf r.failure r.bytes).map (bounded limit), r.failure) := by
  rcases cut_at_newline r.bytes with ⟨line, after, heq, hnot⟩ | hnot
  · obtain ⟨r', hread, hafter, hfail⟩ := readBoundedLine_line limit hnot heq
    have hlt : r'.bytes.length < r.bytes.length := by
      rw [hafter, heq, List.length_append, List.length_cons]
      omega
    rw [readLines_line hread (bounded_ne_eof limit line), readLines_eq limit r', heq,
      linesOf_line r.failure hnot, hafter, hfail, List.map_cons]
  · have hread := readBoundedLine_tail limit hnot
    rw [linesOf_tail r.failure hnot]
    cases hfail : r.failure with
    | some e =>
      rw [hfail] at hread
      rw [readLines_fail hread]
      rfl
    | none =>
      rw [hfail] at hread
      dsimp only at hread
      by_cases hnil : r.bytes = []
      · rw [if_pos hnil] at hread
        rw [readLines_stop hread, hnil]
        rfl
      · rw [if_neg hnil] at hread
        have hend : readLines limit ⟨[], none⟩ = ([], none) := readLines_stop rfl
        rw [readLines_line hread (bounded_ne_eof limit _), hend, if_pos ⟨rfl, hnil⟩]
        rfl
termination_by r.bytes.length

/-- What one call does: where it leaves the stream, what it returns, what it retains meanwhile. The
states are those the call went through, and the line it returns is made of the last one. -/
structure Framed (limit : Nat) (r : BufReader) : Prop where
  line : ∀ line after, newline ∉ line → r.bytes = line ++ newline :: after →
    ∃ r', readBoundedLine limit r = (.ok (bounded limit line), r') ∧ r'.bytes = after ∧
      r'.failure = r.failure
  tail : newline ∉ r.bytes → r.bytes ≠ [] → r.failure = none →
    ∃ r', readBoundedLine limit r = (.ok (bounded limit r.bytes), r') ∧ r'.bytes = []
  ended : r.bytes = [] → r.failure = none →
    ∃ r', readBoundedLine limit r = (.ok .eof, r') ∧ r'.bytes = []
  failed : ∀ e, newline ∉ r.bytes → r.failure = some e →
    ∃ r', readBoundedLine limit r = (.error e, r')
  retained : ∀ st ∈ (lineRead limit r).states, st.buffer.length ≤ limit
  returned : ∀ line, (readBoundedLine limit r).1 = .ok line → line ≠ .eof →
    ∃ last, (lineRead limit r).states.getLast? = some last ∧ line = last.finish

theorem framed (limit : Nat) (r : BufReader) : Framed limit r where
  line := fun _ _ hline hbytes => readBoundedLine_line limit hline hbytes
  tail := by
    intro hnot hne hfail
    have hread := readBoundedLine_tail limit hnot
    rw [hfail] at hread
    dsimp only at hread
    rw [if_neg hne] at hread
    exact ⟨_, hread, rfl⟩
  ended := by
    intro hnil hfail
    have hread := readBoundedLine_tail limit (by rw [hnil]; simp : newline ∉ r.bytes)
    rw [hfail] at hread
    dsimp only at hread
    rw [if_pos hnil] at hread
    exact ⟨_, hread, rfl⟩
  failed := by
    intro e hnot hfail
    have hread := readBoundedLine_tail limit hnot
    rw [hfail] at hread
    exact ⟨_, hread⟩
  retained := by
    rw [lineRead, ← Scan.of_nil limit]
    exact buffer_le_limit r.failure r.chunks []
  returned := fun _ hread hne => scanLoop_finish r.chunks .start hread hne

/--
**Framing does not depend on the chunks.** For every reader, however its stream is split into
chunks, and every limit, repeated calls yield the lines of the stream, each whole when it is within
the limit and as its first bytes and its length when it is not. Every call leaves the stream just
behind the newline of its line, and in none of the states it goes through retains more than the
limit.
-/
theorem read_bounded_line_frames (limit : Nat) (r : BufReader) :
    readLines limit r = ((linesOf r.failure r.bytes).map (bounded limit), r.failure) ∧
      Framed limit r :=
  ⟨readLines_eq limit r, framed limit r⟩

end Cpex.Host.Worker
