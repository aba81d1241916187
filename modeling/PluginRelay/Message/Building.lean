import PluginRelay.Message.Basic
import PluginRelay.Payload.Schema

/-!
# Building messages and reading their payloads

A builder takes one step after another. The value of a payload step is converted first; where that fails, the
step is refused and the message stays as it is. A payload is read as data of a schema.
-/
namespace PluginRelay.Message

/-- The builder after a step. -/
def Step.builder {α : Type} : Step α → Builder α
  | .done builder => builder
  | .refused _ builder => builder
  | .misused _ builder => builder

/-- The builder after steps one after another. -/
def Builder.changed {α ε : Type} (step : ε → Builder α → Step α) (builder : Builder α) (changes : List ε) :
    Builder α :=
  changes.foldl (fun builder change => (step change builder).builder) builder

/-- What a payload is as data of a schema. -/
def matching (s : Payload.Schema) (payload : Cbor.Value) : Except Error Payload.Datum :=
  match s.match? payload with
  | some d => .ok d
  | none => .error .schemaMismatch

namespace Request

/-- What a step of the builder asks for; a value to be converted comes as what its conversion gave. -/
inductive Change where
  | requestId (id : Uuid)
  | rawPayload (value : Cbor.Value)
  | payload (converted : Option Cbor.Value)
  | fireAndForget (yes : Bool)
  | entry (key : String) (value : Cbor.Value)

def Change.step : Change → Builder Request → Step Request
  | .requestId id => Step.ofChange (setId id)
  | .rawPayload value => Step.ofChange (setPayload value)
  | .payload converted => Step.ofPayload setPayload converted
  | .fireAndForget yes => Step.ofChange (setFireAndForget yes)
  | .entry key value => Step.ofChange (setMeta key value)

/-- What a new builder gives when it is built after steps. -/
def built (id : Uuid) (endpoint : String) (changes : List Change) : Except Misuse (Request × Builder Request) :=
  (Builder.changed Change.step (some (new id endpoint)) changes).finish .request

def typedPayload (s : Payload.Schema) (r : Request) : Except Error Payload.Datum := matching s r.payload

end Request

namespace Response

inductive Change where
  | rawPayload (value : Cbor.Value)
  | payload (converted : Option Cbor.Value)
  | error (e : Error)
  | entry (key : String) (value : Cbor.Value)

def Change.step : Change → Builder Response → Step Response
  | .rawPayload value => Step.ofChange (setPayload value)
  | .payload converted => Step.ofPayload setPayload converted
  | .error e => Step.ofChange (setError e)
  | .entry key value => Step.ofChange (setMeta key value)

def built (requestId : Uuid) (changes : List Change) : Except Misuse (Response × Builder Response) :=
  (Builder.changed Change.step (some (new requestId)) changes).finish .response

/-- The payload as data, or the error that the response carries. -/
def typedPayload (s : Payload.Schema) (r : Response) : Except Error Payload.Datum := do
  matching s (← r.payload)

end Response

end PluginRelay.Message
