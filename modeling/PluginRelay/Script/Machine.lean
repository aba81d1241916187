import PluginRelay.Script.Object

/-!
# The machine

All that scripts can reach: objects, cells of variables, symbols, and the contexts with their global
objects.
-/
namespace PluginRelay.Script

/-! ### Symbols -/

structure SymbolInfo where
  description : Option Units
  /-- Hidden names of classes are symbols too, but no key of an object shows them. -/
  isHidden : Bool
  isRegistered : Bool
  deriving Repr, Inhabited

/-- The symbols that are there from the start, in the order of their numbers. -/
inductive WellKnown where
  | iterator | asyncIterator | hasInstance | toPrimitive | toStringTag | species
  | isConcatSpreadable | unscopables | match | matchAll | replace | search | split
  deriving DecidableEq, Repr, Inhabited

namespace WellKnown

def all : List WellKnown :=
  [iterator, asyncIterator, hasInstance, toPrimitive, toStringTag, species, isConcatSpreadable,
    unscopables, .match, matchAll, replace, search, split]

def name : WellKnown → String
  | iterator => "iterator"
  | asyncIterator => "asyncIterator"
  | hasInstance => "hasInstance"
  | toPrimitive => "toPrimitive"
  | toStringTag => "toStringTag"
  | species => "species"
  | isConcatSpreadable => "isConcatSpreadable"
  | unscopables => "unscopables"
  | .match => "match"
  | matchAll => "matchAll"
  | replace => "replace"
  | search => "search"
  | split => "split"

def id (w : WellKnown) : SymbolId := all.idxOf w

def key (w : WellKnown) : PropertyKey := .symbol w.id

end WellKnown

/-! ### Contexts -/

/-- Objects that every context has for itself. -/
inductive Intrinsic where
  | objectPrototype | functionPrototype | arrayPrototype | stringPrototype | numberPrototype
  | booleanPrototype | symbolPrototype | bigintPrototype | iteratorPrototype
  | asyncIteratorPrototype | arrayIteratorPrototype | mapIteratorPrototype | setIteratorPrototype
  | stringIteratorPrototype | regexpIteratorPrototype | asyncFromSyncPrototype
  | generatorFunctionPrototype | generatorPrototype | asyncFunctionPrototype
  | asyncGeneratorFunctionPrototype | asyncGeneratorPrototype | promisePrototype | regexpPrototype
  | datePrototype | mapPrototype | setPrototype | weakMapPrototype | weakSetPrototype
  | arrayBufferPrototype | sharedBufferPrototype | dataViewPrototype | typedArrayPrototype | elementsPrototype (kind : ElementKind)
  | errorPrototype (kind : ErrorKind) | constructor (name : String)
  /-- An object like `Math`. -/
  | module (name : String)
  | evaluate | throwTypeError | arrayValues
  deriving DecidableEq, Repr, Inhabited, Hashable

structure Realm where
  global : ObjectId
  intrinsics : Std.HashMap Intrinsic ObjectId
  /-- Names that scripts declare by `let`, `const` and `class`; whether they are constant. -/
  lexical : Std.HashMap String (CellId × Bool)
  deriving Inhabited

/-! ### Traces -/

/-- A function that is running, as traces show it. -/
structure Activation where
  function : Value
  /-- The file of a script; none for built-in functions. -/
  file : Option String
  /-- The place of its last call, if it has called anything yet. -/
  place : Option Position
  /-- The place of its last instruction. -/
  last : Position
  deriving Inhabited

/-! ### Jobs -/

inductive Job where
  /-- Runs a reaction to a promise that has been settled. -/
  | react (reaction : Reaction) (rejected : Bool) (value : Value) (realm : RealmId)
  /-- Lets a promise follow another object that can be waited for. -/
  | follow (promise thenable method : Value) (realm : RealmId)
  /-- Looks for a module. -/
  | load (promise : ObjectId) (name : Value) (realm : RealmId)
  deriving Inhabited

/-! ### The machine -/

/-- All state of an engine. `host` is the state of what lies outside of it. -/
structure Machine (σ : Type) where
  host : σ
  objects : Array (Option Object)
  /-- Variables; one without a value has not been initialized. -/
  cells : Array (Option Value)
  symbols : Array SymbolInfo
  registry : List (Units × SymbolId)
  realms : Array Realm
  realm : RealmId
  /-- The functions that are running, the innermost first. -/
  trace : List Activation
  jobs : List Job
  /-- How many texts and large integers have left the engine, counted from 1. -/
  nextSerial : Nat

instance {σ : Type} [Inhabited σ] : Inhabited (Machine σ) :=
  ⟨⟨default, #[], #[], #[], [], #[], 0, [], [], 1⟩⟩

namespace Machine

variable {σ : Type}

/-- A value as it leaves the engine. A text or a large integer gets the number of its cell if it has none yet; `place`
says which one that is for the `n`-th of them. -/
def numbered (m : Machine σ) (place : Nat → Nat) : Value → Value × Machine σ
  | .string ⟨units, 0⟩ => (.string ⟨units, place m.nextSerial⟩, { m with nextSerial := m.nextSerial + 1 })
  | .bigint ⟨n, 0⟩ => (.bigint ⟨n, place m.nextSerial⟩, { m with nextSerial := m.nextSerial + 1 })
  | v => (v, m)

theorem host_numbered (m : Machine σ) (place : Nat → Nat) (v : Value) : (m.numbered place v).2.host = m.host := by
  unfold numbered
  split
  · rfl
  · rfl
  · rfl

theorem objects_numbered (m : Machine σ) (place : Nat → Nat) (v : Value) :
    (m.numbered place v).2.objects = m.objects := by
  unfold numbered
  split
  · rfl
  · rfl
  · rfl

/-- It is still the same value. -/
theorem unnumbered_numbered (m : Machine σ) (place : Nat → Nat) (v : Value) :
    (m.numbered place v).1.unnumbered = v.unnumbered := by
  unfold numbered
  split
  · rfl
  · rfl
  · rfl

end Machine

end PluginRelay.Script
