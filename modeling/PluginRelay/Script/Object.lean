import PluginRelay.Script.Code
import PluginRelay.Script.Regexp.Basic
import Std.Data.HashMap

/-!
# Objects

An object has properties, a prototype and a payload: what makes it an array, a function or a map.
Properties remember in which order they were made.
-/
namespace PluginRelay.Script

abbrev RealmId := Nat

/-! ### Properties -/

inductive Content where
  | data (v : Value)
  /-- Missing functions are `undefined`. -/
  | accessor (getter setter : Value)
  deriving Repr, Inhabited, DecidableEq

structure Property where
  content : Content
  writable : Bool
  enumerable : Bool
  configurable : Bool
  deriving Repr, Inhabited, DecidableEq

namespace Property

/-- A property as assignments make it. -/
def plain (v : Value) : Property := ⟨.data v, true, true, true⟩

/-- A property as built-in methods have it. -/
def hidden (v : Value) : Property := ⟨.data v, true, false, true⟩

/-- A property that cannot be changed. -/
def fixed (v : Value) : Property := ⟨.data v, false, false, false⟩

def isData (p : Property) : Bool :=
  match p.content with
  | .data _ => true
  | .accessor _ _ => false

def value (p : Property) : Value :=
  match p.content with
  | .data v => v
  | .accessor _ _ => .undefined

end Property

/-- A change of a property: what is absent stays as it is. -/
structure Change where
  value : Option Value
  getter : Option Value
  setter : Option Value
  writable : Option Bool
  enumerable : Option Bool
  configurable : Option Bool
  deriving Repr, Inhabited

namespace Change

def none : Change := ⟨.none, .none, .none, .none, .none, .none⟩

def ofProperty (p : Property) : Change :=
  match p.content with
  | .data v => ⟨some v, .none, .none, some p.writable, some p.enumerable, some p.configurable⟩
  | .accessor g s => ⟨.none, some g, some s, .none, some p.enumerable, some p.configurable⟩

def isAccessor (c : Change) : Bool := c.getter.isSome || c.setter.isSome

def isData (c : Change) : Bool := c.value.isSome || c.writable.isSome

/-- The property that the change makes where there is none. -/
def fresh (c : Change) : Property :=
  if c.isAccessor then
    ⟨.accessor (c.getter.getD .undefined) (c.setter.getD .undefined), false, c.enumerable.getD false,
      c.configurable.getD false⟩
  else
    ⟨.data (c.value.getD .undefined), c.writable.getD false, c.enumerable.getD false,
      c.configurable.getD false⟩

/-- The property after the change. -/
def applyTo (c : Change) (old : Property) : Property :=
  let enumerable := c.enumerable.getD old.enumerable
  let configurable := c.configurable.getD old.configurable
  if c.isAccessor then
    let (g, s) : Value × Value := match old.content with
      | .accessor g s => (g, s)
      | .data _ => (.undefined, .undefined)
    ⟨.accessor (c.getter.getD g) (c.setter.getD s), false, enumerable, configurable⟩
  else
    match old.content with
    | .data v => ⟨.data (c.value.getD v), c.writable.getD old.writable, enumerable, configurable⟩
    | .accessor g s =>
      if c.isData then
        ⟨.data (c.value.getD .undefined), c.writable.getD false, enumerable, configurable⟩
      else ⟨.accessor g s, false, enumerable, configurable⟩

end Change

/-! ### Running functions -/

/-- A function in the middle of its run. -/
structure Frame where
  codes : CodeTable
  code : Code
  position : Nat
  stack : List Value
  slots : Array CellId
  captured : Array CellId
  /-- Where exceptions go, with the stack as it was. -/
  handlers : List (Label × List Value)
  function : Value
  arguments : Array Value
  deriving Inhabited

/-- A function made from code. -/
structure Closure where
  codes : CodeTable
  code : Code
  captured : Array CellId
  home : Value
  /-- The function that adds the fields of a class. -/
  fields : Value
  realm : RealmId
  /-- Whether the object for its instances is made only when somebody asks for it. -/
  isLazy : Bool
  deriving Inhabited

/-- Functions that the engine makes for its own use, with what they hold. -/
inductive Internal where
  /-- Resolves or rejects a promise, once: a promise and a cell that says whether it is done. -/
  | settle (rejects : Bool)
  /-- Takes the two functions of a promise that is made by a constructor. -/
  | executor
  /-- Goes on with a function that waits. -/
  | resume (rejects : Bool)
  | resumeGenerator (rejects : Bool)
  /-- One element of several promises. -/
  | element (which : Nat)
  | revoke
  | finallyThen (rejects : Bool)
  | constant
  | thrower
  /-- Wraps the outcome of a plain iterator for an asynchronous loop. -/
  | unwrapped
  deriving DecidableEq, Repr, Inhabited

/-! ### Payloads -/

inductive Iteration where
  | keys | values | entries
  deriving DecidableEq, Repr, Inhabited

inductive Settlement where
  | pending
  | fulfilled (v : Value)
  | rejected (v : Value)
  deriving DecidableEq, Repr, Inhabited

/-- The promise that a reaction settles, by its two functions. -/
structure Capability where
  promise : Value
  resolve : Value
  reject : Value
  deriving DecidableEq, Repr, Inhabited

/-- What to do when a promise is settled. -/
structure Reaction where
  capability : Option Capability
  onFulfilled : Value
  onRejected : Value
  deriving DecidableEq, Repr, Inhabited

inductive Resumption where
  | next | throw | return
  deriving DecidableEq, Repr, Inhabited

/-- Where a generator stands. -/
inductive Suspension where
  | atStart (frame : Frame)
  | atYield (frame : Frame)
  /-- It waits for a promise. -/
  | waiting (frame : Frame)
  | running
  | finished
  deriving Inhabited

structure Request where
  mode : Resumption
  value : Value
  capability : Capability
  deriving Inhabited

inductive ElementKind where
  | int8 | uint8 | uint8Clamped | int16 | uint16 | int32 | uint32 | bigInt64 | bigUint64
  | float32 | float64
  deriving DecidableEq, Repr, Inhabited, Hashable

/-- Entries in the order in which they were made; places of removed ones stay empty. -/
structure Table where
  entries : Array (Option (Value × Value))
  places : Std.HashMap Value Nat
  deriving Inhabited

inductive Payload where
  | ordinary
  /-- `isFixed` says that the length cannot be changed. -/
  | array (length : Nat) (isFixed : Bool)
  | function (f : Closure)
  /-- `constructs` says that it can be called by `new`. -/
  | builtin (index : Nat) (constructs : Bool) (realm : RealmId)
  | internal (which : Internal) (data : Array Value) (realm : RealmId)
  /-- A function from outside; it runs in the context of its caller. -/
  | host (id : Nat)
  | bound (target : ObjectId) (this : Value) (arguments : Array Value)
  | error
  | primitive (v : Value)
  | date (time : Value)
  | regexp (source flags : Units) (program : Regexp.Program)
  | map (table : Table) (isWeak : Bool)
  | set (table : Table) (isWeak : Bool)
  | promise (state : Settlement) (reactions : List Reaction)
  /-- Nothing is left of a proxy that has been revoked. -/
  | proxy (parts : Option (ObjectId × ObjectId)) (callable constructible : Bool)
  | generator (state : Suspension)
  | asyncGenerator (state : Suspension) (queue : List Request)
  /-- An asynchronous function and the promise for its result. -/
  | routine (state : Suspension) (capability : Capability)
  | arrayIterator (target : Value) (next : Nat) (kind : Iteration)
  | tableIterator (target : Value) (next : Nat) (kind : Iteration) (isMap : Bool)
  | stringIterator (text : Units) (next : Nat)
  | regexpIterator (matcher : Value) (text : Text) (isGlobal isUnicode isDone : Bool)
  | asyncFromSync (iterator next : Value)
  | enumeration (target : Value) (keys : List PropertyKey)
  | arguments
  | typedArray (kind : ElementKind) (buffer : ObjectId) (offset length : Nat)
  | dataView (buffer : ObjectId) (offset length : Nat)
  | arrayBuffer (bytes : Array UInt8)
  deriving Inhabited

/-! ### Objects -/

structure Object where
  prototype : Option ObjectId
  isExtensible : Bool
  payload : Payload
  /-- Each property with its stamp: later ones have higher stamps. -/
  properties : Std.HashMap PropertyKey (Nat × Property)
  nextStamp : Nat
  deriving Inhabited

namespace Object

def new (prototype : Option ObjectId) (payload : Payload) : Object :=
  ⟨prototype, true, payload, ∅, 0⟩

def find? (o : Object) (key : PropertyKey) : Option Property := (o.properties[key]?).map (·.2)

/-- Puts a property; one that is there already keeps its place in the order. -/
def put (o : Object) (key : PropertyKey) (p : Property) : Object :=
  match o.properties[key]? with
  | some (stamp, _) => { o with properties := o.properties.insert key (stamp, p) }
  | none =>
    { o with
      properties := o.properties.insert key (o.nextStamp, p)
      nextStamp := o.nextStamp + 1 }

def erase (o : Object) (key : PropertyKey) : Object :=
  { o with properties := o.properties.erase key }

/-- The order of keys: indices by number, then names and then symbols, each by their stamps. -/
def keyRank : PropertyKey × Nat → Nat × Nat
  | (.index n, _) => (0, n)
  | (.name _, stamp) => (1, stamp)
  | (.symbol _, stamp) => (2, stamp)

def keyLess (a b : PropertyKey × Nat) : Bool :=
  let (i, m) := keyRank a
  let (j, n) := keyRank b
  i < j || (i = j && m ≤ n)

def ownKeys (o : Object) : List PropertyKey :=
  ((o.properties.toList.map fun (key, stamp, _) => (key, stamp)).mergeSort keyLess).map (·.1)

def isCallable (o : Object) : Bool :=
  match o.payload with
  | .function _ | .builtin _ _ _ | .internal _ _ _ | .host _ | .bound _ _ _ => true
  | .proxy _ callable _ => callable
  | _ => false

theorem find?_put_self (o : Object) (key : PropertyKey) (p : Property) :
    (o.put key p).find? key = some p := by
  unfold put find?
  split <;> simp

theorem find?_put_other {key other : PropertyKey} (h : other ≠ key) (o : Object) (p : Property) :
    (o.put other p).find? key = o.find? key := by
  unfold put find?
  split <;> simp [Std.HashMap.getElem?_insert, h]

@[simp]
theorem payload_put (o : Object) (key : PropertyKey) (p : Property) : (o.put key p).payload = o.payload := by
  unfold put
  split <;> rfl

@[simp]
theorem prototype_put (o : Object) (key : PropertyKey) (p : Property) :
    (o.put key p).prototype = o.prototype := by
  unfold put
  split <;> rfl

@[simp]
theorem isExtensible_put (o : Object) (key : PropertyKey) (p : Property) :
    (o.put key p).isExtensible = o.isExtensible := by
  unfold put
  split <;> rfl

end Object

namespace Table

def empty : Table := ⟨#[], ∅⟩

/-- Keys that a table holds the same: numbers count by their value, and both zeros are one. -/
def keyOf : Value → Value
  | .double x => if x.isNaN then .nan else if x.isZero then .int 0 else .ofDouble x
  | v => v.unnumbered

def find? (t : Table) (key : Value) : Option Value := do
  let i ← t.places[keyOf key]?
  let entry ← t.entries[i]?
  entry.map (·.2)

def contains (t : Table) (key : Value) : Bool := t.places.contains (keyOf key)

def insert (t : Table) (key value : Value) : Table :=
  match t.places[keyOf key]? with
  | some i => { t with entries := t.entries.modify i fun e => e.map fun (k, _) => (k, value) }
  | none =>
    let key := match key with
      | .double x => if x.isZero then .int 0 else key
      | k => k
    ⟨t.entries.push (some (key, value)), t.places.insert (keyOf key) t.entries.size⟩

def erase (t : Table) (key : Value) : Table :=
  match t.places[keyOf key]? with
  | some i => ⟨t.entries.set! i none, t.places.erase (keyOf key)⟩
  | none => t

/-- Removes everything; iterators that are under way find nothing more. -/
def clear (t : Table) : Table := ⟨t.entries.map fun _ => none, ∅⟩

def size (t : Table) : Nat := t.places.size

end Table

end PluginRelay.Script
