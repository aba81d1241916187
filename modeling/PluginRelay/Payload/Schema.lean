import PluginRelay.Cbor.Value
import PluginRelay.Json.Basic
import PluginRelay.Keyed
import PluginRelay.Message.Uuid

/-!
# Typed payloads

A schema describes the data that two sides exchange, a datum is one of them. `Datum.toValue` writes
a datum as a payload, `Schema.match?` reads one back and is more lenient: tags are dropped except in
front of integers and of nothing, further items of a tuple and further fields of a record are ignored, and missing fields may
have a fallback.
-/
namespace PluginRelay.Payload

open Cbor (Value)

inductive Datum where
  | integer (n : Int)
  | double (x : Binary64)
  | bool (b : Bool)
  | char (c : Char)
  | text (s : String)
  | unit
  | uuid (id : Uuid)
  | list (items : List Datum)
  | absent
  | present (item : Datum)
  | map (entries : List (String × Datum))
  | record (fields : List (String × Datum))
  | choice (name : String) (body : Option Datum)
  | value (v : Value)
  deriving Inhabited

namespace Datum

mutual

def toValue : Datum → Value
  | .integer n => Value.ofInt n
  | .double x => .float x
  | .bool b => .bool b
  | .char c => .text (String.singleton c)
  | .text s => .text s
  | .unit => .null
  | .uuid id => .bytes id.bytes
  | .list items => .array (toValues items)
  | .absent => .null
  | .present item => toValue item
  | .map entries => .map (toEntries entries)
  | .record fields => .map (toEntries fields)
  | .choice name none => .text name
  | .choice name (some body) => .map [(.text name, toValue body)]
  | .value v => v

def toValues : List Datum → List Value
  | [] => []
  | d :: rest => toValue d :: toValues rest

def toEntries : List (String × Datum) → List (Value × Value)
  | [] => []
  | (k, d) :: rest => (.text k, toValue d) :: toEntries rest

end

end Datum

inductive Schema where
  | integer (low high : Int)
  | single
  | double
  | bool
  | char
  | text
  | unit
  | uuid
  | list (item : Schema)
  | option (item : Schema)
  | map (item : Schema)
  | tuple (items : List Schema)
  /-- Fields by name, with what stands for a missing one. -/
  | record (fields : List (String × Schema × Option Datum))
  | choice (variants : List (String × Option Schema))
  | value
  deriving Inhabited

namespace Schema

def unsigned (width : Nat) : Schema := .integer 0 ((1 <<< width : Nat) - 1)
def signed (width : Nat) : Schema := .integer (-(1 <<< (width - 1) : Nat)) ((1 <<< (width - 1) : Nat) - 1)

/-- The value behind all tags. -/
def untagged : Value → Value
  | .tag _ item => untagged item
  | v => v

/-- The number of a byte string of at most 16 digits, zeros in front aside. -/
def bigNatural? : Value → Option Nat
  | .bytes b => if (Bytes.dropZeros b).length ≤ 16 then some (Bytes.toNat b) else none
  | _ => none

def integer? : Value → Option Int
  | .integer n => some n.toInt
  | .tag number item =>
    if number = Value.positiveTag then (bigNatural? item).map Int.ofNat
    else if number = Value.negativeTag then (bigNatural? item).map fun n => -1 - (n : Int)
    else none
  | _ => none

def text? (v : Value) : Option String :=
  match untagged v with
  | .text s => some s
  | _ => none

/-- The entries of a map with their keys as texts. -/
def textEntries? : List (Value × Value) → Option (List (String × Value))
  | [] => some []
  | (k, v) :: rest => do
    let k ← text? k
    let rest ← textEntries? rest
    return (k, v) :: rest

/-- The only value under a name; `none` if there are several, `some none` if there is none. -/
def only? {α : Type} (name : String) (entries : List (String × α)) : Option (Option α) :=
  match entries.filter (·.1 = name) with
  | [] => some none
  | [(_, v)] => some (some v)
  | _ => none

mutual

def match? (s : Schema) (v : Value) : Option Datum :=
  match s with
  | .integer low high => do
    let n ← integer? v
    if low ≤ n ∧ n ≤ high then some (.integer n) else none
  | .single =>
    match untagged v with
    | .float x => some (.double x.toSingle)
    | _ => none
  | .double =>
    match untagged v with
    | .float x => some (.double x)
    | _ => none
  | .bool =>
    match untagged v with
    | .bool b => some (.bool b)
    | _ => none
  | .char => do
    match (← text? v).toList with
    | [c] => some (.char c)
    | _ => none
  | .text => (text? v).map .text
  | .unit =>
    match v with
    | .null => some .unit
    | _ => none
  | .uuid =>
    match untagged v with
    | .bytes b => (Uuid.ofBytes? b).map .uuid
    | _ => none
  | .list item =>
    match untagged v with
    | .array items => (items.mapM (match? item)).map .list
    | _ => none
  | .option item =>
    match v with
    | .null => some .absent
    | v => (match? item v).map .present
  | .map item =>
    match untagged v with
    | .map entries => do
      let entries ← textEntries? entries
      let entries ← entries.mapM fun e => (match? item e.2).map fun d => (e.1, d)
      return .map (Keyed.ofList entries)
    | _ => none
  | .tuple items =>
    match untagged v with
    | .array values => (matchTuple? items values).map .list
    | _ => none
  | .record fields =>
    match untagged v with
    | .map entries => do
      let entries ← textEntries? entries
      (matchFields? fields entries).map .record
    | _ => none
  | .choice variants =>
    match untagged v with
    | .text name => matchVariant? variants name none
    | .map [(k, body)] => do
      let name ← text? k
      matchVariant? variants name (some body)
    | _ => none
  | .value => some (.value v)

def matchTuple? : List Schema → List Value → Option (List Datum)
  | [], _ => some []
  | s :: ss, v :: vs => do
    let d ← match? s v
    let ds ← matchTuple? ss vs
    return d :: ds
  | _ :: _, [] => none

def matchFields? : List (String × Schema × Option Datum) → List (String × Value) →
    Option (List (String × Datum))
  | [], _ => some []
  | (name, s, fallback) :: fields, entries => do
    let d ← match ← only? name entries with
      | some v => match? s v
      | none => fallback
    let ds ← matchFields? fields entries
    return (name, d) :: ds

/-- A variant without a body stands alone or goes with null. -/
def matchVariant? : List (String × Option Schema) → String → Option Value → Option Datum
  | [], _, _ => none
  | (name, schema) :: variants, wanted, body =>
    if name = wanted then
      match schema, body with
      | none, none => some (.choice name none)
      | none, some .null => some (.choice name none)
      | some s, some v => (match? s v).map fun d => .choice name (some d)
      | _, _ => none
    else matchVariant? variants wanted body

end

/-! ## Data from JSON -/

def integerOfJson? : Json.Value → Option Int
  | .number (.natural n) => some n.toNat
  | .number (.negative n) => some n.toInt
  | _ => none

def doubleOfJson? : Json.Value → Option Binary64
  | .number (.natural n) => some (Binary64.ofNat n.toNat)
  | .number (.negative n) => some (Binary64.ofInt n.toInt)
  | .number (.double x) => some x
  | _ => none

mutual

def ofJson? (s : Schema) (v : Json.Value) : Option Datum :=
  match s, v with
  | .integer low high, v => do
    let n ← integerOfJson? v
    if low ≤ n ∧ n ≤ high then some (.integer n) else none
  | .single, v => (doubleOfJson? v).map fun x => .double x.toSingle
  | .double, v => (doubleOfJson? v).map .double
  | .bool, .bool b => some (.bool b)
  | .char, .string t =>
    match t.toList with
    | [c] => some (.char c)
    | _ => none
  | .text, .string t => some (.text t)
  | .unit, .null => some .unit
  | .uuid, .string t => (Uuid.ofText? t).map .uuid
  | .list item, .array items => (items.mapM (ofJson? item)).map .list
  | .option _, .null => some .absent
  | .option item, v => (ofJson? item v).map .present
  | .map item, .object members =>
    (members.mapM fun m => (ofJson? item m.2).map fun d => (m.1, d)).map .map
  | .tuple items, .array values => (ofJsonTuple? items values).map .list
  | .record fields, .object members => (ofJsonFields? fields members).map .record
  | .choice variants, .string name => ofJsonVariant? variants name none
  | .choice variants, .object [(name, body)] => ofJsonVariant? variants name (some body)
  | _, _ => none

def ofJsonTuple? : List Schema → List Json.Value → Option (List Datum)
  | [], [] => some []
  | s :: ss, v :: vs => do
    let d ← ofJson? s v
    let ds ← ofJsonTuple? ss vs
    return d :: ds
  | _, _ => none

def ofJsonFields? : List (String × Schema × Option Datum) → List (String × Json.Value) →
    Option (List (String × Datum))
  | [], _ => some []
  | (name, s, fallback) :: fields, members => do
    let d ← match Keyed.find? name members with
      | some v => ofJson? s v
      | none => fallback
    let ds ← ofJsonFields? fields members
    return (name, d) :: ds

def ofJsonVariant? : List (String × Option Schema) → String → Option Json.Value → Option Datum
  | [], _, _ => none
  | (name, schema) :: variants, wanted, body =>
    if name = wanted then
      match schema, body with
      | none, none => some (.choice name none)
      | none, some .null => some (.choice name none)
      | some s, some v => (ofJson? s v).map fun d => .choice name (some d)
      | _, _ => none
    else ofJsonVariant? variants wanted body

end

end Schema

end PluginRelay.Payload
