import PluginRelay.Embedding.Exception
import PluginRelay.Embedding.Primitive

/-!
# Values seen from outside

What kind a value is of, and what a host program can read from it. Numbers are read exactly or not at
all.
-/
namespace PluginRelay.Embedding

open Script

variable {κ τ ε : Type} [Holding τ]

inductive ValueKind where
  | undefined | null | number | bigint | boolean | string | symbol | object
  deriving DecidableEq, Repr, Inhabited

namespace ValueKind

def name : ValueKind → String
  | undefined => "Undefined"
  | null => "Null"
  | number => "Number"
  | bigint => "BigInt"
  | boolean => "Boolean"
  | string => "String"
  | symbol => "Symbol"
  | object => "Object"

/-- Values of these kinds may have a length. -/
def mayHaveLength : ValueKind → Bool
  | string | symbol | object => true
  | _ => false

def of : Value → ValueKind
  | .undefined => undefined
  | .null => null
  | .int _ | .double _ => number
  | .bigint _ => bigint
  | .bool _ => boolean
  | .string _ => string
  | .symbol _ => symbol
  | .object _ => object

end ValueKind

/-! ### Numbers -/

namespace Exact

/-- The least and the greatest integer of 64 bits. -/
def low : Int := -9223372036854775808

def high : Int := 9223372036854775807

/-- An integer modulo `2 ^ 64`, as a signed one. -/
def wrap (n : Int) : Int := Int.bmod n UInt64.size

/-- The nearest integer of 64 bits to the integer part of a double. -/
def saturated (x : Binary64) : Int :=
  match x.truncate? with
  | some n => max low (min high n)
  | none => if x.isNaN then 0 else if x.isNegative then low else high

/-- The double nearest to the least integer, and the one nearest to the greatest, which is beyond it. -/
def lowDouble : Binary64 := .ofInt low

def highDouble : Binary64 := .ofInt high

/-- The integer of 64 bits that a double stands for. -/
def ofDouble? (x : Binary64) : Option Int :=
  if x.trunc.equal x && lowDouble.le x && x.lt highDouble then some (saturated x) else none

/-- An integer as a double, if it comes back from there. -/
def asDouble? (n : Int) : Option Binary64 :=
  let x := Binary64.ofInt n
  if saturated x = n then some x else none

end Exact

/-- The value as an integer of 64 bits. Larger integers of scripts are cut to that width. -/
def asLong? : Value → Option Int
  | .int n => some n
  | .double x => Exact.ofDouble? x
  | .bigint n => some (Exact.wrap n.value)
  | _ => none

/-- The value as an integer of 32 bits. -/
def asShort? : Value → Option Int
  | .int n => some n
  | v => (asLong? v).filter Value.isShort

def asDouble? : Value → Option Binary64
  | .int n => some (.ofInt n)
  | .double x => some x
  | v => (asLong? v).bind Exact.asDouble?

/-- A length is no negative number. -/
def asLength? (v : Value) : Option Nat := ((asLong? v).filter (0 ≤ ·)).map Int.toNat

/-- The number by which the engine itself tells kinds of values apart. -/
def tagNumber : Value → Int
  | .bigint _ => -10
  | .symbol _ => -8
  | .string _ => -7
  | .object _ => -1
  | .int _ => 0
  | .bool _ => 1
  | .null => 2
  | .undefined => 3
  | .double _ => 7

/-- A value in one of the forms in which the program can pass one on. -/
inductive Given where
  /-- A value that the program gives up. -/
  | moved (h : Handle)
  /-- A value that the program keeps. -/
  | lent (h : Handle)
  | primitive (p : Primitive)
  deriving Inhabited

/-- What the program gives up. -/
def Given.handles : Given → List Handle
  | moved h => [h]
  | lent _ | primitive _ => []

namespace Operation

/-! ### Texts -/

def units (h : Handle) : Operation κ τ Units :=
  perform h.context fun env => Convert.toUnits env h.value

theorem units_keeps (h : Handle) : (units h : Operation κ τ Units).Keeps [] fun _ => [] := perform_keeps _ _

/-- The text of a value. A text with a lone surrogate has none. -/
def text (h : Handle) : Operation κ τ String := do
  let u ← units h
  match Utf8.decode? u.toBytes with
  | some s => return s
  | none => throw (.illFormed (Utf8.validUpTo 0 0 u.toBytes))

theorem text_keeps (h : Handle) : (text h : Operation κ τ String).Keeps [] fun _ => [] := by
  unfold text
  refine Task.Keeps.bind (units_keeps h) fun u => ?_
  split
  · exact .pure rfl
  · exact .throw _

/-- The text of a value, with something in place of what has no text; what cannot be converted has an
empty one. -/
def lossyText (h : Handle) : Task ε κ τ String := do
  match ← attempt (units h) with
  | .ok u => return u.toStringLossy
  | .error _ => return ""

theorem lossyText_sure (h : Handle) : (lossyText h : Task ε κ τ String).Sure [] fun _ => [] := by
  unfold lossyText
  refine Task.Sure.bind (attempt_sure (units_keeps h)) fun result => ?_
  cases result with
  | ok u => exact .pure rfl
  | error f => exact .pure rfl

/-! ### Members -/

/-- The place of the first NUL in a text, counted in bytes. -/
def nulPosition? (s : String) : Option Nat := (Utf8.encode s).findIdx? (· = 0)

def checkNul (s : String) : Operation κ τ Unit := do
  match nulPosition? s with
  | some position => throw (.nul position)
  | none => return

theorem checkNul_keeps (s : String) : (checkNul s : Operation κ τ Unit).Keeps [] fun _ => [] := by
  unfold checkNul
  split
  · exact .throw _
  · exact .pure rfl

def getProperty (h : Handle) (key : String) : Operation κ τ Handle := do
  checkNul key
  performValue h.context fun env => Convert.getMember env h.value (.ofString key)

theorem getProperty_keeps (h : Handle) (key : String) :
    (getProperty h key : Operation κ τ Handle).Keeps [] fun h => [h] := by
  unfold getProperty
  exact Task.Keeps.bind (checkNul_keeps key) fun _ => performValue_keeps _ _

/-- Indices that fit into 32 bits. -/
def indexLimit : Nat := UInt32.size

def getIndex (h : Handle) (index : Nat) : Operation κ τ Handle := do
  if indexLimit ≤ index then throw .indexOverflow
  performValue h.context fun env => Convert.getMember env h.value (.ofNat index)

theorem getIndex_keeps (h : Handle) (index : Nat) :
    (getIndex h index : Operation κ τ Handle).Keeps [] fun h => [h] := by
  unfold getIndex
  split
  · have hthrow : (throw .indexOverflow : Operation κ τ PUnit).Keeps [] fun _ => [] := .throw _
    exact Task.Keeps.bind hthrow fun _ => performValue_keeps _ _
  · exact performValue_keeps _ _

/-! ### Primitives -/

def asPrimitive? (h : Handle) : Task ε κ τ (Option Primitive) := do
  match h.value with
  | .undefined => return some .undefined
  | .null => return some .null
  | .bool b => return some (.bool b)
  | .int n => return some (.i32 (Int32.ofInt n))
  | .double x => return some (.f64 x)
  | .bigint _ => return (asLong? h.value).map fun n => .i64 (Int64.ofInt n)
  | .string _ => return some (.str (← lossyText h))
  | .symbol _ =>
    match ← attempt (getProperty h "description") with
    | .ok d => thenDrop d do return some (.symbol (← lossyText d))
    | .error _ => return some (.symbol "")
  | .object _ => return none

theorem asPrimitive?_sure (h : Handle) : (asPrimitive? h : Task ε κ τ (Option Primitive)).Sure [] fun _ => [] := by
  unfold asPrimitive?
  split
  case h_7 => exact Task.Sure.bind (lossyText_sure h) fun _ => .pure rfl
  case h_8 =>
    refine Task.Sure.bind (attempt_sure (getProperty_keeps h _)) fun result => ?_
    cases result with
    | ok d => exact thenDrop_sure (Task.Sure.bind (lossyText_sure d) fun _ => .pure rfl)
    | error f => exact .pure rfl
  all_goals exact .pure rfl

/-- A value for a primitive. Symbols cannot be made. -/
def ofPrimitive (id : ContextId) (p : Primitive) : Operation κ τ Handle := do
  match p with
  | .undefined => receive id .undefined
  | .null => receive id .null
  | .bool b => receive id (.bool b)
  | .i32 n => receive id (.int n.toInt)
  | .i64 n => receive id (.ofInt n.toInt)
  | .f64 x => receive id (.double x)
  | .str s => receive id (.ofString s)
  | .symbol _ => throw (.unsupported "cannot create symbols")

theorem ofPrimitive_keeps (id : ContextId) (p : Primitive) :
    (ofPrimitive id p : Operation κ τ Handle).Keeps [] fun h => [h] := by
  unfold ofPrimitive
  split
  case h_8 => exact .throw _
  all_goals exact (receive_sure _ _).keeps

/-- A value that is the program's to give up. -/
def intoValue (id : ContextId) : Given → Operation κ τ Handle
  | .moved h => return h
  | .lent h => clone h
  | .primitive p => ofPrimitive id p

theorem intoValue_keeps (id : ContextId) (g : Given) :
    (intoValue id g : Operation κ τ Handle).Keeps g.handles fun h => [h] := by
  cases g with
  | moved h => exact .pure rfl
  | lent h => exact (clone_sure h).keeps
  | primitive p => exact ofPrimitive_keeps id p

/-- What becomes of a value that is not passed on. -/
def discard : Given → Task ε κ τ Unit
  | .moved h => drop h
  | .lent _ | .primitive _ => return

theorem discard_sure (g : Given) : (discard g : Task ε κ τ Unit).Sure g.handles fun _ => [] := by
  cases g with
  | moved h => exact drop_sure h
  | lent h => exact .pure rfl
  | primitive p => exact .pure rfl

/-! ### Questions -/

def isTrue (v : Value) : Bool := Access.truthy v

def isFunction (h : Handle) : Task ε κ τ Bool := do
  match ← within h.context fun _ => Access.isCallable h.value with
  | .ok b => return b
  | .error _ => return false

theorem isFunction_sure (h : Handle) : (isFunction h : Task ε κ τ Bool).Sure [] fun _ => [] := by
  unfold isFunction
  refine Task.Sure.bind (within_sure _ _) fun result => ?_
  cases result with
  | ok b => exact .pure rfl
  | error e => exact .pure rfl

def isArray (h : Handle) : Task ε κ τ Bool := do
  match ← within h.context fun _ => Builtin.ObjectFunctions.isArray 64 h.value with
  | .ok b => return b
  | .error _ => return false

theorem isArray_sure (h : Handle) : (isArray h : Task ε κ τ Bool).Sure [] fun _ => [] := by
  unfold isArray
  refine Task.Sure.bind (within_sure _ _) fun result => ?_
  cases result with
  | ok b => exact .pure rfl
  | error e => exact .pure rfl

/-- The length that an object or a text claims to have. -/
def length? (h : Handle) : Task ε κ τ (Option Nat) := do
  if !(ValueKind.of h.value).mayHaveLength then return none
  match ← attempt (getProperty h "length") with
  | .ok n => thenDrop n do return asLength? n.value
  | .error _ => return none

theorem length?_sure (h : Handle) : (length? h : Task ε κ τ (Option Nat)).Sure [] fun _ => [] := by
  unfold length?
  split
  · exact .pure rfl
  · refine Task.Sure.bind (attempt_sure (getProperty_keeps h _)) fun result => ?_
    cases result with
    | ok n => exact thenDrop_sure (.pure rfl)
    | error f => exact .pure rfl

/-! ### Developer output -/

/-- The name to show for a value, and the name of a function if it has one. -/
def debugHead (h : Handle) : Task ε κ τ (String × Option String) := do
  match ValueKind.of h.value with
  | .object =>
    if ← isArray h then return ("Array", none)
    else if ← isFunction h then
      match ← attempt (getProperty h "name") with
      | .ok name => thenDrop name do
        if name.value.isUndefined then return ("Function", none)
        else return ("Function", some (← lossyText name))
      | .error _ => return ("Function", none)
    else return ("Object", none)
  | kind => return (kind.name, none)

theorem debugHead_sure (h : Handle) :
    (debugHead h : Task ε κ τ (String × Option String)).Sure [] fun _ => [] := by
  unfold debugHead
  split
  · refine Task.Sure.bind (isArray_sure h) fun array => ?_
    split
    · exact .pure rfl
    · refine Task.Sure.bind (isFunction_sure h) fun function => ?_
      split
      · refine Task.Sure.bind (attempt_sure (getProperty_keeps h _)) fun result => ?_
        cases result with
        | ok name =>
          refine thenDrop_sure ?_
          split
          · exact .pure rfl
          · exact Task.Sure.bind (lossyText_sure name) fun _ => .pure rfl
        | error f => exact .pure rfl
      · exact .pure rfl
  · exact .pure rfl

def debug (h : Handle) : Task ε κ τ String := do
  let (head, name) ← debugHead h
  let primitive ← asPrimitive? h
  let fields := (name.toList.map fun n => "name: " ++ Text.quoted n) ++
    (primitive.toList.map fun p => "as_primitive: " ++ p.debug) ++
    ["to_string: " ++ Text.quoted (← lossyText h)]
  return head ++ " \x7b " ++ String.intercalate ", " fields ++ " \x7d"

theorem debug_sure (h : Handle) : (debug h : Task ε κ τ String).Sure [] fun _ => [] := by
  unfold debug
  refine Task.Sure.bind (debugHead_sure h) fun _ => ?_
  refine Task.Sure.bind (asPrimitive?_sure h) fun _ => ?_
  exact Task.Sure.bind (lossyText_sure h) fun _ => .pure rfl

end Operation

end PluginRelay.Embedding
