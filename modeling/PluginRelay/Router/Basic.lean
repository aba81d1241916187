import PluginRelay.Log.Event
import PluginRelay.Message.Basic
import PluginRelay.Text.Quoted

/-!
# Routing requests

A router holds one handler for each endpoint. Handlers share a state, which stands for whatever they
keep between requests. Fire-and-forget requests run their handler but have no response; a failure is
only logged.
-/
namespace PluginRelay

open Message (Request Response Error)

abbrev Handler (σ : Type) := Request → σ → Except Error Cbor.Value × σ

/-- Handlers by endpoint, in the order of the endpoints. -/
structure Router (σ : Type) where
  handlers : List (String × Handler σ)

namespace Router

variable {σ : Type}

def empty : Router σ := ⟨[]⟩

/-- Registers a handler, in place of an earlier one for the endpoint. -/
def route (r : Router σ) (endpoint : String) (handler : Handler σ) : Router σ :=
  ⟨Keyed.insert endpoint handler r.handlers⟩

def endpoints (r : Router σ) : List String := r.handlers.map (·.1)

/-- The result of the handler for a request, or that there is none. -/
def dispatch (r : Router σ) (request : Request) (state : σ) : Except Error Cbor.Value × σ :=
  match Keyed.find? request.endpoint r.handlers with
  | some handler => handler request state
  | none => (.error (.noEndpoint request.endpoint), state)

def failureEvent (request : Request) (error : Error) : Log.Event where
  level := .warning
  origin := .router
  message := "fire-and-forget request failed"
  fields := [("endpoint", request.endpoint), ("error", error.message)]

/-- What handling a request gives: perhaps a response, the events, and the next state. -/
structure Outcome (σ : Type) where
  response : Option Response
  events : List Log.Event
  state : σ

def handle (r : Router σ) (request : Request) (state : σ) : Outcome σ :=
  match r.dispatch request state with
  | (result, state) =>
    if request.fireAndForget then
      match result with
      | .ok _ => ⟨none, [], state⟩
      | .error e => ⟨none, [failureEvent request e], state⟩
    else ⟨some ⟨request.id, [], result⟩, [], state⟩

/-- The developer's view: the endpoints. -/
def debug (r : Router σ) : String :=
  "Router \x7b endpoints: " ++ Text.listed (r.endpoints.map Text.quoted) ++ " \x7d"

end Router

end PluginRelay
