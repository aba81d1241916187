import PluginRelay.Cbor.Decoding
import PluginRelay.Cbor.Encoding
import PluginRelay.Message.Basic

/-!
# Messages as bytes

A message is a map from field names to fields, in a fixed order when written and in any order when
read. Reading ignores other fields, refuses repeated and missing ones, and leaves what follows the
message alone. A payload that may be an error is a map with the one key Ok or Err.
-/
namespace PluginRelay.Message

open Cbor

/-- How many containers may be nested in a message. -/
def depthLimit : Nat := 256

/-! ## Writing -/

def metaValue (entries : Meta) : Value := .map (entries.map fun (k, v) => (.text k, v))

def Kind.toValue : Kind → Value
  | .other code => .map [(.text "other", Value.ofNat code.toNat)]
  | kind => .text kind.word

def Error.toValue (e : Error) : Value :=
  .map [(.text "kind", e.kind.toValue), (.text "description", .text e.description),
    (.text "detail", e.detail.getD .null)]

def Request.toValue (r : Request) : Value :=
  .map [(.text "id", .bytes r.id.bytes), (.text "meta", metaValue r.entries),
    (.text "fire_and_forget", .bool r.fireAndForget), (.text "endpoint", .text r.endpoint),
    (.text "payload", r.payload)]

def resultValue : Except Error Value → Value
  | .ok payload => .map [(.text "Ok", payload)]
  | .error e => .map [(.text "Err", e.toValue)]

def Response.toValue (r : Response) : Value :=
  .map [(.text "request_id", .bytes r.requestId.bytes), (.text "meta", metaValue r.entries),
    (.text "payload", resultValue r.payload)]

def Request.encode (r : Request) : Bytes := r.toValue.encode

def Response.encode (r : Response) : Bytes := r.toValue.encode

/-! ## Reading -/

/-- Reads a field that must not have been read before. -/
def once {α : Type} (slot : Option α) (field : Reader α) : Reader α :=
  match slot with
  | some _ => fun _ => .error .mismatch
  | none => field

def ignored (depth : Nat) : Reader Unit := fun input =>
  (Reader.value depth input).map fun (_, rest) => ((), rest)

def uuid : Reader Uuid := fun input => do
  let (bytes, rest) ← Reader.shortBytes input
  match Uuid.ofBytes? bytes with
  | some id => return (id, rest)
  | none => .error .mismatch

def metaEntry (depth : Nat) (entries : Meta) : Reader Meta := fun input => do
  let (key, rest) ← Reader.text input
  let (v, rest) ← Reader.value depth rest
  return (Keyed.insert key v entries, rest)

def metaMap (depth : Nat) : Reader Meta := Reader.mapInto depth metaEntry []

def word32 : Reader UInt32 := fun input => do
  let (n, rest) ← Reader.natural input
  if n < UInt32.size then return (UInt32.ofNat n, rest) else .error .mismatch

/-- A kind by its name; what a map holds under one of the three names is left for the next reader. -/
def kindBody (_depth : Nat) (tag : Option String) : Reader Kind := fun input =>
  if tag = some "unknown_endpoint" then .ok (.unknownEndpoint, input)
  else if tag = some "internal_error" then .ok (.internalError, input)
  else if tag = some "serialization_error" then .ok (.serializationError, input)
  else if tag = some "other" then (word32 input).map fun (code, rest) => (.other code, rest)
  else .error .mismatch

def kind (depth : Nat) : Reader Kind := Reader.variant depth kindBody

structure ErrorFields where
  kind : Option Kind
  description : Option String
  detail : Option (Option Value)

def errorField (depth : Nat) (fields : ErrorFields) : Reader ErrorFields := fun input => do
  let (name, rest) ← Reader.name input
  if name = some "kind" then
    let (v, rest) ← once fields.kind (kind depth) rest
    return ({ fields with kind := some v }, rest)
  else if name = some "description" then
    let (v, rest) ← once fields.description Reader.text rest
    return ({ fields with description := some v }, rest)
  else if name = some "detail" then
    let (v, rest) ← once fields.detail (Reader.optional depth) rest
    return ({ fields with detail := some v }, rest)
  else
    let ((), rest) ← ignored depth rest
    return (fields, rest)

def error (depth : Nat) : Reader Error := fun input => do
  let (fields, rest) ← Reader.mapInto depth errorField ⟨none, none, none⟩ input
  match fields.kind, fields.description with
  | some kind, some description => return (⟨kind, description, fields.detail.getD none, none⟩, rest)
  | _, _ => .error .mismatch

def resultBody (depth : Nat) (tag : Option String) : Reader (Except Error Value) := fun input =>
  if tag = some "Ok" then (Reader.value depth input).map fun (v, rest) => (.ok v, rest)
  else if tag = some "Err" then (error depth input).map fun (e, rest) => (.error e, rest)
  else .error .mismatch

def result (depth : Nat) : Reader (Except Error Value) := Reader.variant depth resultBody

structure RequestFields where
  id : Option Uuid
  entries : Option Meta
  fireAndForget : Option Bool
  endpoint : Option String
  payload : Option Value

def requestField (depth : Nat) (fields : RequestFields) : Reader RequestFields := fun input => do
  let (name, rest) ← Reader.name input
  if name = some "id" then
    let (v, rest) ← once fields.id uuid rest
    return ({ fields with id := some v }, rest)
  else if name = some "meta" then
    let (v, rest) ← once fields.entries (metaMap depth) rest
    return ({ fields with entries := some v }, rest)
  else if name = some "fire_and_forget" then
    let (v, rest) ← once fields.fireAndForget Reader.bool rest
    return ({ fields with fireAndForget := some v }, rest)
  else if name = some "endpoint" then
    let (v, rest) ← once fields.endpoint Reader.text rest
    return ({ fields with endpoint := some v }, rest)
  else if name = some "payload" then
    let (v, rest) ← once fields.payload (Reader.value depth) rest
    return ({ fields with payload := some v }, rest)
  else
    let ((), rest) ← ignored depth rest
    return (fields, rest)

def request : Reader Request := fun input => do
  let (f, rest) ← Reader.mapInto depthLimit requestField ⟨none, none, none, none, none⟩ input
  match f.id, f.entries, f.fireAndForget, f.endpoint, f.payload with
  | some id, some entries, some fireAndForget, some endpoint, some payload =>
    return (⟨id, entries, fireAndForget, endpoint, payload⟩, rest)
  | _, _, _, _, _ => .error .mismatch

structure ResponseFields where
  requestId : Option Uuid
  entries : Option Meta
  payload : Option (Except Error Value)

def responseField (depth : Nat) (fields : ResponseFields) : Reader ResponseFields := fun input => do
  let (name, rest) ← Reader.name input
  if name = some "request_id" then
    let (v, rest) ← once fields.requestId uuid rest
    return ({ fields with requestId := some v }, rest)
  else if name = some "meta" then
    let (v, rest) ← once fields.entries (metaMap depth) rest
    return ({ fields with entries := some v }, rest)
  else if name = some "payload" then
    let (v, rest) ← once fields.payload (result depth) rest
    return ({ fields with payload := some v }, rest)
  else
    let ((), rest) ← ignored depth rest
    return (fields, rest)

def response : Reader Response := fun input => do
  let (f, rest) ← Reader.mapInto depthLimit responseField ⟨none, none, none⟩ input
  match f.requestId, f.entries, f.payload with
  | some requestId, some entries, some payload => return (⟨requestId, entries, payload⟩, rest)
  | _, _, _ => .error .mismatch

def Request.decode (input : Bytes) : Except Error Request :=
  match request input with
  | .ok (r, _) => .ok r
  | .error fault => .error (.undecodable .request fault)

def Response.decode (input : Bytes) : Except Error Response :=
  match response input with
  | .ok (r, _) => .ok r
  | .error fault => .error (.undecodable .response fault)

end PluginRelay.Message
