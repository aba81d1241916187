import PluginRelay.Script.Builtin.Basic
import PluginRelay.Script.Calendar

/-!
# Date

Local time is universal time.
-/
namespace PluginRelay.Script.Builtin.DateFunctions

open Script.Action Script.Access Script.Convert

variable {σ : Type} [Evolving σ]

/-- A time as a value; no time is no number. -/
def ofTime (t : Option Int) : Value :=
  match t with
  | some t => .ofDouble (.ofInt t)
  | none => .nan

/-- The time that a number stands for. -/
def timeOf (x : Binary64) : Option Int :=
  if x.isFinite then (x.truncate?).bind Calendar.clip else none

def thisTime (c : Call) : Action σ (ObjectId × Option Int) := do
  match c.this with
  | .object id =>
    match ← payload id with
    | .date v => return (id, (v.number?).bind timeOf)
    | _ => throwType "not a Date object"
  | _ => throwType "not a Date object"

/-- Whole numbers for parts of a time; `none` if one of them is no finite number. -/
def fields (env : Env σ) : List Value → Action σ (Option (List Int))
  | [] => return some []
  | v :: rest => do
    let x ← toDouble env v
    let more ← fields env rest
    return do
      let n ← if x.isFinite then x.truncate? else none
      return n :: (← more)

/-- The parts of a time with some of them replaced, from the given one on. -/
def replaceFields (p : Calendar.Parts) (first : Nat) (values : List Int) : Calendar.Parts :=
  let old := [p.year, p.month, p.day, p.hour, p.minute, p.second, p.millisecond]
  let new := old.take first ++ values ++ old.drop (first + values.length)
  match new with
  | year :: month :: day :: hour :: minute :: second :: ms :: _ =>
    ⟨year, month, day, hour, minute, second, ms, 0⟩
  | _ => p

/-- Years below one hundred mean those of the twentieth century. -/
def fullYear (values : List Int) : List Int :=
  match values with
  | year :: rest => (if 0 ≤ year && year < 100 then year + 1900 else year) :: rest
  | [] => []

def startOfYear : Calendar.Parts := ⟨0, 0, 1, 0, 0, 0, 0, 0⟩

/-- Years and months beyond this stand for no time. -/
def fieldLimit : Int := 100000000000000000

def timeOfFields (p : Calendar.Parts) : Option Int :=
  if p.year.natAbs < fieldLimit.natAbs then Calendar.clip (Calendar.toTime p) else none

def ofArguments (env : Env σ) (args : List Value) : Action σ (Option Int) := do
  match ← fields env (args.take 7) with
  | some values => return timeOfFields (replaceFields startOfYear 0 (fullYear values))
  | none => return none

def parseUnits (s : Units) : Option Int := Calendar.parse? s.toChars

def construct : Native σ := fun env c => do
  if !c.isNew then return .ofString (Calendar.text .plain true true 0)
  let t ← match c.arguments.toList with
    | [] => pure (some 0)
    | [v] =>
      let own ← match v with
        | .object id =>
          match ← payload id with
          | .date d => pure (some d)
          | _ => pure none
        | _ => pure none
      match own with
      | some d => pure ((d.number?).bind timeOf)
      | none =>
        match ← toPrimitive env v .none with
        | .string s => pure (parseUnits s.units)
        | p => pure (timeOf (((← simpleToNumber p).number?).getD .nan))
    | args => ofArguments env args
  return .object (← create env c .datePrototype (.date (ofTime t)))

def now : Native σ := fun _ _ => return .int 0

def parse : Native σ := fun env c => do return ofTime (parseUnits (← toUnits env (c.arg 0)))

def utc : Native σ := fun env c => do
  if c.arguments.isEmpty then return .nan
  return ofTime (← ofArguments env c.arguments.toList)

/-! ### Texts -/

def text (style : Calendar.Style) (date time : Bool) : Native σ := fun _ c => do
  match (← thisTime c).2 with
  | some t => return .ofString (Calendar.text style date time t)
  | none =>
    if style = .standard then throwRange "Date value is NaN" else return .ofString "Invalid Date"

def toJson : Native σ := fun env c => do
  let id ← thisObject c
  let v ← toPrimitive env (.object id) .number
  if (v.number?).any (!·.isFinite) then return .null
  let f ← Access.get env id (named "toISOString") (.object id)
  if !(← isCallable f) then throwType "object needs toISOString method"
  env.call f (.object id) #[]

def symbolToPrimitive : Native σ := fun env c => do
  let _ ← mustBeObject c.this
  match c.arg 0 with
  | .string t =>
    match t.units.toStringLossy with
    | "number" | "integer" => byMethods env c.this ["valueOf", "toString"]
    | "string" | "default" => byMethods env c.this ["toString", "valueOf"]
    | _ => throwType "invalid hint"
  | _ => throwType "invalid hint"

/-! ### Parts -/

def get (select : Calendar.Parts → Int) : Native σ := fun _ c => do
  match (← thisTime c).2 with
  | some t => return .ofInt (select (Calendar.ofTime t))
  | none => return .nan

def getTime : Native σ := fun _ c => do return ofTime (← thisTime c).2

def setTo (id : ObjectId) (t : Option Int) : Action σ Value := do
  setPayload id (.date (ofTime t))
  return ofTime t

def setTime : Native σ := fun env c => do
  let (id, _) ← thisTime c
  setTo id (timeOf (← toDouble env (c.arg 0)))

/-- Sets up to `count` parts from the given one on. -/
def set (first count : Nat) : Native σ := fun env c => do
  let (id, t) ← thisTime c
  let values ← fields env (c.arguments.toList.take count)
  let old := if first = 0 then some (t.getD 0) else t
  match old, values with
  | some t, some values =>
    if values.isEmpty then setTo id none
    else setTo id (timeOfFields (replaceFields (Calendar.ofTime t) first values))
  | _, _ => setTo id none

def setYear : Native σ := fun env c => do
  let (id, t) ← thisTime c
  match ← fields env [c.arg 0] with
  | some values => setTo id (timeOfFields (replaceFields (Calendar.ofTime (t.getD 0)) 0 (fullYear values)))
  | none => setTo id none

/-- The parts that can be read, with those that can be set along with them. -/
def parts : List (String × (Calendar.Parts → Int) × Nat × Nat) :=
  [("FullYear", (·.year), 0, 3), ("Month", (·.month), 1, 2), ("Date", (·.day), 2, 1),
    ("Hours", (·.hour), 3, 4), ("Minutes", (·.minute), 4, 3), ("Seconds", (·.second), 5, 2),
    ("Milliseconds", (·.millisecond), 6, 1)]

def table : List (Builtin σ) :=
  let static := Owner.intrinsic (.constructor "Date")
  let proto := Owner.intrinsic .datePrototype
  [constructor "Date" 7 .datePrototype construct,
    method static "now" 0 now,
    method static "parse" 1 parse,
    method static "UTC" 7 utc,
    method proto "valueOf" 0 getTime,
    method proto "toString" 0 (text .plain true true),
    symbolMethod proto .toPrimitive 1 symbolToPrimitive,
    method proto "toUTCString" 0 (text .universal true true),
    method proto "toISOString" 0 (text .standard true true),
    method proto "toDateString" 0 (text .plain true false),
    method proto "toTimeString" 0 (text .plain false true),
    method proto "toLocaleString" 0 (text .short true true),
    method proto "toLocaleDateString" 0 (text .short true false),
    method proto "toLocaleTimeString" 0 (text .short false true),
    method proto "getTimezoneOffset" 0 (get fun _ => 0),
    method proto "getTime" 0 getTime,
    method proto "getYear" 0 (get fun p => p.year - 1900)] ++
    parts.flatMap (fun (name, select, _, _) =>
      [method proto ("get" ++ name) 0 (get select), method proto ("getUTC" ++ name) 0 (get select)]) ++
    [method proto "getDay" 0 (get (·.weekday)), method proto "getUTCDay" 0 (get (·.weekday)),
      method proto "setTime" 1 setTime] ++
    parts.reverse.flatMap (fun (name, _, first, count) =>
      [method proto ("set" ++ name) count (set first count),
        method proto ("setUTC" ++ name) count (set first count)]) ++
    [method proto "setYear" 1 setYear, method proto "toJSON" 1 toJson]

end PluginRelay.Script.Builtin.DateFunctions
