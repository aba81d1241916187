import PluginRelay.Keyed
import PluginRelay.Message.Error
import PluginRelay.Message.Uuid

/-!
# Requests and responses

A request names an endpoint and carries a payload; a response answers one request with a payload or
an error. Both carry further values by key. A builder holds a message until it is built, and is
spent from then on.
-/
namespace PluginRelay.Message

abbrev Meta := List (String × Cbor.Value)

structure Request where
  id : Uuid
  entries : Meta
  fireAndForget : Bool
  endpoint : String
  payload : Cbor.Value

structure Response where
  requestId : Uuid
  entries : Meta
  payload : Except Error Cbor.Value

def Request.equal (a b : Request) : Bool :=
  let equalMeta := Cbor.Value.equalEntries
    (a.entries.map fun (k, v) => (.text k, v)) (b.entries.map fun (k, v) => (.text k, v))
  a.id = b.id && equalMeta && a.fireAndForget == b.fireAndForget && a.endpoint == b.endpoint &&
    a.payload.equal b.payload

/-- A builder must not be used once it is spent. -/
inductive Misuse where
  | changed
  | builtAgain (carrier : Error.Carrier)
  deriving DecidableEq, Repr

def Misuse.message : Misuse → String
  | .changed => "builder is already done"
  | .builtAgain carrier => "can only build " ++ carrier.word ++ " once"

/-- The message under construction; `none` once it is built. -/
abbrev Builder (α : Type) := Option α

namespace Builder

def change {α : Type} (f : α → α) : Builder α → Except Misuse (Builder α)
  | some message => .ok (some (f message))
  | none => .error .changed

def finish {α : Type} (carrier : Error.Carrier) : Builder α → Except Misuse (α × Builder α)
  | some message => .ok (message, none)
  | none => .error (.builtAgain carrier)

end Builder

/-- How a builder's step ended. The value of a payload step is converted before the builder is
touched, so that a failing conversion is reported by a spent builder too. -/
inductive Step (α : Type) where
  | done (builder : Builder α)
  | refused (error : Error) (builder : Builder α)
  | misused (misuse : Misuse) (builder : Builder α)

def Step.ofChange {α : Type} (f : α → α) (builder : Builder α) : Step α :=
  match builder.change f with
  | .ok next => .done next
  | .error misuse => .misused misuse builder

/-- A converted payload, if the conversion succeeded. -/
def Step.ofPayload {α : Type} (set : Cbor.Value → α → α) (converted : Option Cbor.Value)
    (builder : Builder α) : Step α :=
  match converted with
  | none => .refused .inconvertible builder
  | some value => Step.ofChange (set value) builder

namespace Request

def new (id : Uuid) (endpoint : String) : Request := ⟨id, [], false, endpoint, .null⟩

def setId (id : Uuid) (r : Request) : Request := { r with id }
def setPayload (payload : Cbor.Value) (r : Request) : Request := { r with payload }
def setFireAndForget (fireAndForget : Bool) (r : Request) : Request := { r with fireAndForget }
def setMeta (key : String) (value : Cbor.Value) (r : Request) : Request :=
  { r with entries := Keyed.insert key value r.entries }

end Request

namespace Response

def new (requestId : Uuid) : Response := ⟨requestId, [], .ok .null⟩

def setPayload (payload : Cbor.Value) (r : Response) : Response := { r with payload := .ok payload }
def setError (error : Error) (r : Response) : Response := { r with payload := .error error }
def setMeta (key : String) (value : Cbor.Value) (r : Response) : Response :=
  { r with entries := Keyed.insert key value r.entries }

end Response

end PluginRelay.Message
