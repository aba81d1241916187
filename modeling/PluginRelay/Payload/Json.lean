import PluginRelay.Cbor.Value
import PluginRelay.Json.Printer
import PluginRelay.Json.Reader

/-!
# Payloads as JSON

Every JSON value is a CBOR value. The other direction is partial: byte strings, tags, integers below
`-1 <<< 63` and keys that are no texts have no JSON form, and floats that are no finite numbers become
null. Tags in front of a key are dropped.
-/
namespace PluginRelay.Payload

open Cbor (Value Integer)

def ofNumber : Json.Number → Value
  | .natural n => .integer (.natural n)
  | .negative n => Value.ofInt n.toInt
  | .double x => .float x

mutual

def ofJson : Json.Value → Value
  | .null => .null
  | .bool b => .bool b
  | .number n => ofNumber n
  | .string s => .text s
  | .array items => .array (ofJsonItems items)
  | .object members => .map (ofJsonMembers members)

def ofJsonItems : List Json.Value → List Value
  | [] => []
  | v :: rest => ofJson v :: ofJsonItems rest

def ofJsonMembers : List (String × Json.Value) → List (Value × Value)
  | [] => []
  | (k, v) :: rest => (.text k, ofJson v) :: ofJsonMembers rest

end

def integerJson? : Integer → Option Json.Value
  | .natural n => some (.number (.natural n))
  | .negative n =>
    if n.toNat < 1 <<< 63 then some (.number (.negative (Int64.ofInt (-1 - (n.toNat : Int))))) else none

/-- The text of a key, tags aside. -/
def keyText? : Value → Option String
  | .text s => some s
  | .tag _ item => keyText? item
  | _ => none

mutual

def toJson? : Value → Option Json.Value
  | .null => some .null
  | .bool b => some (.bool b)
  | .integer n => integerJson? n
  | .float x => some (if x.isFinite then .number (.double x) else .null)
  | .text s => some (.string s)
  | .bytes _ => none
  | .array items => (toJsonItems? items).map .array
  | .map entries => (toJsonMembers? entries).map fun ms => .object (Keyed.ofList ms)
  | .tag _ _ => none

def toJsonItems? : List Value → Option (List Json.Value)
  | [] => some []
  | v :: rest => do
    let v ← toJson? v
    let rest ← toJsonItems? rest
    return v :: rest

def toJsonMembers? : List (Value × Value) → Option (List (String × Json.Value))
  | [] => some []
  | (k, v) :: rest => do
    let k ← keyText? k
    let v ← toJson? v
    let rest ← toJsonMembers? rest
    return (k, v) :: rest

end

/-- Why a payload did not pass between the command line and a message. -/
inductive Fault where
  | notJson
  | noJsonForm
  deriving DecidableEq, Repr

def Fault.message : Fault → String
  | .notJson => "payload is not valid JSON"
  | .noJsonForm => "response payload has no JSON representation"

/-- The payload that a JSON text writes. -/
def parse (text : String) : Except Fault Value :=
  match Json.parse? text with
  | some v => .ok (ofJson v)
  | none => .error .notJson

/-- The JSON text of a payload. -/
def render (v : Value) : Except Fault String :=
  match toJson? v with
  | some v => .ok v.render
  | none => .error .noJsonForm

end PluginRelay.Payload
