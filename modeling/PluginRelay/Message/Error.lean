import PluginRelay.Cbor.Header

/-!
# Errors between host and plugin

An error has a kind, a description and perhaps a detail value; its source stays on the side where it
arose. Each kind has a number, and three numbers have names.
-/
namespace PluginRelay.Message

inductive Kind where
  | unknownEndpoint
  | internalError
  | serializationError
  | other (code : UInt32)
  deriving DecidableEq, Repr, Inhabited

namespace Kind

def code : Kind → UInt32
  | .unknownEndpoint => 404
  | .internalError => 500
  | .serializationError => 999
  | .other code => code

def ofCode (code : UInt32) : Kind :=
  if code = 404 then .unknownEndpoint
  else if code = 500 then .internalError
  else if code = 999 then .serializationError
  else .other code

/-- The word under which a kind travels and is shown. -/
def word : Kind → String
  | .unknownEndpoint => "unknown_endpoint"
  | .internalError => "internal_error"
  | .serializationError => "serialization_error"
  | .other _ => "other"

def label : Kind → String
  | .other code => "error " ++ toString code.toNat
  | kind => kind.word

/-- The name in developer output. -/
def debug : Kind → String
  | .unknownEndpoint => "UnknownEndpoint"
  | .internalError => "InternalError"
  | .serializationError => "SerializationError"
  | .other code => "Other(" ++ toString code.toNat ++ ")"

/-- Named kinds come before numbered ones. -/
def rank : Kind → Nat
  | .unknownEndpoint => 0
  | .internalError => 1
  | .serializationError => 2
  | .other code => 3 + code.toNat

/-- Puts a kind in its place in the order of ranks, unless it is there already. -/
def insertSorted (kind : Kind) : List Kind → List Kind
  | [] => [kind]
  | k :: rest =>
    if kind.rank < k.rank then kind :: k :: rest
    else if kind = k then k :: rest
    else k :: insertSorted kind rest

def sorted (kinds : List Kind) : List Kind :=
  kinds.foldl (fun ks k => insertSorted k ks) []

end Kind

/-- What an error was made from. -/
inductive Source where
  | decoding (fault : Cbor.Fault)
  /-- A payload did not convert to or from a value. -/
  | conversion
  | text (s : String)
  deriving DecidableEq, Repr

structure Error where
  kind : Kind
  description : String
  detail : Option Cbor.Value
  source : Option Source
  deriving Repr

namespace Error

def new (kind : Kind) (description : String) : Error := ⟨kind, description, none, none⟩

def withSource (e : Error) (source : Source) : Error := { e with source := some source }

/-- Kind and description, and the detail on a line of its own if it is a text. -/
def message (e : Error) : String :=
  let head := e.kind.label ++ ": " ++ e.description
  match e.detail with
  | some (.text detail) => head ++ "\n" ++ detail
  | _ => head

/-- The two messages that travel. -/
inductive Carrier where
  | request
  | response
  deriving DecidableEq, Repr

def Carrier.word : Carrier → String
  | .request => "request"
  | .response => "response"

def undecodable (carrier : Carrier) (fault : Cbor.Fault) : Error :=
  (new .serializationError ("failed to deserialize " ++ carrier.word)).withSource (.decoding fault)

def inconvertible : Error :=
  (new .serializationError "failed to convert payload").withSource .conversion

def schemaMismatch : Error :=
  (new .serializationError "failed to match payload against schema").withSource .conversion

def noEndpoint (endpoint : String) : Error :=
  new .unknownEndpoint ("no endpoint named '" ++ endpoint ++ "'")

def streamFailed (reason : String) : Error :=
  (new .internalError "bridge i/o failed").withSource (.text reason)

end Error

end PluginRelay.Message
