import Cpex.Go.Engine

/-!
# A plain engine behind the C interface

Values for what the interface takes from its dependencies: the types are trivial, the codec knows
two encodings, and a hook allows what it is given.
-/

namespace Cpex.Ffi.Plain

open Cpex.Infra

/-- Extensions are what they were decoded from. -/
abbrev types : Types where
  Extensions := Bytes
  Table := Unit
  Tasks := Unit
  Message := Unit
  IdentityInputs := Unit
  Subject := Unit
  Client := Unit
  Workload := Unit
  Delegation := Unit
  RawCredentials := Unit
  Time := Unit
  KeyFields := Unit
  Foreign := Unit

/-- `nil` in MessagePack. -/
def nilBytes : Bytes := [0xc0]

/-- `{"k": nil}` in MessagePack. -/
def mapBytes : Bytes := [0x81, 0xa1, 0x6b, 0xc0]

/-- A decoder of these two, which refuses anything else. -/
def read {α : Type} (value : α) (bytes : Bytes) : Except String α :=
  if bytes = nilBytes ∨ bytes = mapBytes then .ok value else .error "unexpected end of file"

def library : Library types where
  readValue := read .null
  readMessage := read ()
  readIdentity := read ⟨(), none, none, none, none, none, none, HashMap.empty⟩
  readExtensions bytes := read bytes bytes
  writeValue _ := .ok nilBytes
  writeMessage _ := .ok nilBytes
  identityToValue _ := .ok .null
  writeExtensions _ := .ok nilBytes
  writeResult _ := .ok nilBytes
  writeErrors _ := .ok nilBytes
  defaultExtensions := []
  delegatedTokens _ := none
  toRfc3339 _ := ""
  identityOfResult _ := none
  applyToExtensions _ extensions := extensions

/-- A result that allows, and changes nothing. -/
def allowed : PipelineResult types := ⟨true, none, [], none, none, false, none, ()⟩

def engine : Engine types where
  exposeDelegatedCredentials := false
  hasHooksFor _ := false
  invokeByName _ _ _ _ := .ok (allowed, ())
  waitForBackgroundTasks _ := .ok []

/-- An empty input is an error, as it is for every decoder of MessagePack. -/
def msgpack : Go.Msgpack types where
  unmarshalResult bytes :=
    if bytes.isEmpty then none else some ⟨true, none, [], none, 0, none, false, none, []⟩
  unmarshalPayload bytes := !bytes.isEmpty
  unmarshalExtensions bytes := !bytes.isEmpty
  unmarshalErrors bytes := if bytes.isEmpty then none else some []

/-- A request for the hook `h` with a generic payload. -/
def request : Go.Request where
  hookName := [0x68]
  payloadType := payloadGeneric
  payload := some nilBytes
  extensions := none

/-- The memory after an engine was made. -/
def memory : Memory types := (Heap.empty.alloc .engine).1

/-- The hook `h` with a generic payload. -/
def invokeArgs : InvokeArgs := ⟨⟨some [0x68], 1⟩, payloadGeneric, ⟨some nilBytes, 1⟩, ⟨none, 0⟩⟩

end Cpex.Ffi.Plain
