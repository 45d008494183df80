import Cpex.Infra.Utf8
import Cpex.Host.Worker

/-!
# Bounded line reading

`read_bounded_line` of `crates/cpex-hosts-python/src/worker.rs`, over a buffered reader. `fill_buf`
yields what is left of the current chunk, or the next one; how the stream is split into chunks is
data of the reader. Behind the last chunk the stream ends, or fails.
-/

namespace Cpex.Host.Worker

open Cpex.Infra

/-- What one `fill_buf` yields before the end of the stream. -/
structure Chunk where
  bytes : List UInt8
  nonempty : bytes ≠ []

/-- A buffered reader: what it will yield, and the error behind it if it does not end. -/
structure BufReader where
  chunks : List Chunk
  failure : Option String

def newline : UInt8 := 0x0A

def carriageReturn : UInt8 := 0x0D

/-- What is left of the chunks when `consumed` bytes of the first one are. -/
def consume (bytes : List UInt8) (consumed : Nat) (rest : List Chunk) : List Chunk :=
  if h : bytes.drop consumed = [] then rest else ⟨bytes.drop consumed, h⟩ :: rest

/-- The locals of `read_bounded_line`. -/
structure Scan where
  buffer : List UInt8
  scanned : Nat
  isOver : Bool

def Scan.start : Scan where
  buffer := []
  scanned := 0
  isOver := false

/-- Counts a chunk, and retains of it what fits under the limit. -/
def Scan.absorb (limit : Nat) (st : Scan) (chunk : List UInt8) : Scan :=
  let scanned := st.scanned + chunk.length
  if st.isOver then { st with scanned }
  else
    let room := limit - st.buffer.length
    let keep := min chunk.length room
    { buffer := st.buffer ++ chunk.take keep
      scanned
      isOver := limit < scanned }

/-- Trims a carriage return, as `lines()` does. -/
def trimReturn (buffer : List UInt8) : List UInt8 :=
  if buffer.getLast? = some carriageReturn then buffer.dropLast else buffer

/-- What the loop returns once a line is complete. -/
def Scan.finish (st : Scan) : BoundedLine :=
  let text := String.ofList (Utf8.fromUtf8Lossy (trimReturn st.buffer))
  if st.isOver then .oversized text st.scanned else .line text

/-- One pass of the loop over what `fill_buf` yielded: the locals behind it, how much of it was
consumed, and whether the line is complete. -/
def Scan.pass (limit : Nat) (st : Scan) (available : List UInt8) : Scan × Nat × Bool :=
  match available.findIdx? (· = newline) with
  | some index => (st.absorb limit (available.take index), index + 1, true)
  | none => (st.absorb limit available, available.length, false)

/-- What the loop returns when `fill_buf` yields nothing. -/
def Scan.ended (st : Scan) : Option String → Except String BoundedLine
  | some e => .error e
  | none => if st.scanned = 0 then .ok .eof else .ok st.finish

/-- A call of `read_bounded_line`: what it returned, what it left, and its locals, first at the
start of the loop and then after each pass. -/
structure LineRead where
  outcome : Except String BoundedLine
  rest : List Chunk
  states : List Scan

/-- The loop of `read_bounded_line`. -/
def scanLoop (limit : Nat) (failure : Option String) (st : Scan) : List Chunk → LineRead
  | [] => { outcome := st.ended failure, rest := [], states := [st] }
  | available :: rest =>
    let (st', consumed, done) := st.pass limit available.bytes
    if done then
      { outcome := .ok st'.finish
        rest := consume available.bytes consumed rest
        states := [st, st'] }
    else
      -- A pass that finds no newline consumes the chunk.
      let call := scanLoop limit failure st' rest
      { call with states := st :: call.states }

/-- A call on the reader `r`. -/
def lineRead (limit : Nat) (r : BufReader) : LineRead := scanLoop limit r.failure .start r.chunks

/-- Reads one line, never retaining more than `limit` bytes of it. -/
def readBoundedLine (limit : Nat) (r : BufReader) : Except String BoundedLine × BufReader :=
  let call := lineRead limit r
  (call.outcome, { r with chunks := call.rest })

/-- What is left to read. -/
def BufReader.bytes (r : BufReader) : List UInt8 := r.chunks.flatMap Chunk.bytes

end Cpex.Host.Worker
