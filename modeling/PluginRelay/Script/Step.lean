import PluginRelay.Script.Arithmetic
import PluginRelay.Script.Iterate
import PluginRelay.Script.Promise
import PluginRelay.Script.Regexp.Reader
import PluginRelay.Script.Source

/-!
# One instruction

`step` performs the next instruction of a frame. The frame goes on, returns, or waits: for somebody to
ask for the next value, or for a promise.
-/
namespace PluginRelay.Script

open Script.Action Script.Access Script.Convert
open Evolution (update)

variable {σ : Type} [Evolving σ]

/-- How a frame leaves off. -/
inductive Outcome where
  | returned (v : Value)
  /-- A generator is ready to start. -/
  | started (frame : Frame)
  | yielded (v : Value) (frame : Frame)
  | awaiting (v : Value) (frame : Frame)

inductive Progress where
  | next (frame : Frame)
  | left (outcome : Outcome)

namespace Frame

/-- Goes on with the next instruction and another stack. -/
def withStack (f : Frame) (stack : List Value) : Frame :=
  { f with position := f.position + 1, stack := stack }

def jumpTo (f : Frame) (label : Label) (stack : List Value) : Frame :=
  { f with position := (f.code.labels[label]?).getD 0, stack := stack }

def cellOf (f : Frame) : Slot → CellId
  | .own i => (f.slots[i]?).getD 0
  | .captured i => (f.captured[i]?).getD 0

/-- What traces show for the next instruction. -/
def place (f : Frame) : Position := (f.code.places[f.position]?).getD f.code.lastPlace

/-- The top of the stack and the rest; a missing value counts as `undefined`. -/
def top (f : Frame) : Value := f.stack.headD .undefined

/-- The values below the top, as far as instructions need them. -/
def pop2 (f : Frame) : Value × Value × List Value :=
  match f.stack with
  | b :: a :: rest => (a, b, rest)
  | _ => (.undefined, .undefined, [])

def pop3 (f : Frame) : Value × Value × Value × List Value :=
  match f.stack with
  | c :: b :: a :: rest => (a, b, c, rest)
  | _ => (.undefined, .undefined, .undefined, [])

def pop4 (f : Frame) : Value × Value × Value × Value × List Value :=
  match f.stack with
  | d :: c :: b :: a :: rest => (a, b, c, d, rest)
  | _ => (.undefined, .undefined, .undefined, .undefined, [])

/-- The last `count` values, the first of them first, and the rest. -/
def popMany (f : Frame) (count : Nat) : Array Value × List Value :=
  ((f.stack.take count).reverse.toArray, f.stack.drop count)

end Frame

namespace Step

/-! ### Variables -/

def uninitialized {α : Type} (name : String) : Action σ α :=
  throwKind .referenceError (name ++ " is not initialized")

def getSlot (f : Frame) (slot : Slot) (name : String) : Action σ Value := do
  match ← cell (f.cellOf slot) with
  | some v => return v
  | none => uninitialized name

def getGlobal (env : Env σ) (name : String) (isQuiet : Bool) : Action σ Value := do
  let realm ← currentRealm
  match realm.lexical[name]? with
  | some (id, _) =>
    match ← cell id with
    | some v => return v
    | none => uninitialized name
  | none =>
    let key := PropertyKey.ofString name
    if ← Access.has env realm.global key then
      Access.get env realm.global key (.object realm.global)
    else if isQuiet then return .undefined
    else throwKind .referenceError ("'" ++ name ++ "' is not defined")

def setGlobal (env : Env σ) (name : String) (v : Value) (strict : Bool) : Action σ Unit := do
  let realm ← currentRealm
  match realm.lexical[name]? with
  | some (id, isConstant) =>
    if (← cell id).isNone then uninitialized name
    if isConstant then throwType ("'" ++ name ++ "' is read-only")
    setCell id (some v)
  | none =>
    let key := PropertyKey.ofString name
    if strict && !(← Access.has env realm.global key) then
      throwKind .referenceError ("'" ++ name ++ "' is not defined")
    setMember env (.object realm.global) key v strict

def initializeGlobal (name : String) (v : Value) : Action σ Unit := do
  match (← currentRealm).lexical[name]? with
  | some (id, _) => setCell id (some v)
  | none => return

def modifyRealm (change : Realm → Realm) : Action σ Unit :=
  update fun m => { m with realms := m.realms.modify m.realm change }

def redeclared {α : Type} (name : String) : Action σ α :=
  throwKind .syntaxError ("redeclaration of '" ++ name ++ "'")

def checkDeclaration (realm : Realm) (name : String) (isLexical isFunction : Bool) : Action σ Unit := do
  let own ← plainOwn realm.global (.ofString name)
  match own with
  | some p =>
    if isLexical && !p.configurable then redeclared name
    if isFunction && !p.configurable && !(p.isData && p.writable && p.enumerable) then
      throwType ("cannot define variable '" ++ name ++ "'")
  | none =>
    if !isLexical && !(← object realm.global).isExtensible then
      throwType ("cannot define variable '" ++ name ++ "'")
  if realm.lexical.contains name then redeclared name

/-- Checks all names that a script declares before it makes any of them. -/
def declareGlobals (vars functions : List String) (lexical : List (String × Bool))
    (isErasable : Bool) : Action σ Unit := do
  let realm ← currentRealm
  for name in functions do checkDeclaration realm name false true
  for name in vars do checkDeclaration realm name false false
  for (name, _) in lexical do checkDeclaration realm name true false
  for name in vars do
    let key := PropertyKey.ofString name
    if (← plainOwn realm.global key).isNone then
      putProperty realm.global key ⟨.data .undefined, true, true, isErasable⟩
  for (name, isConstant) in lexical do
    let id ← newCell none
    modifyRealm fun r => { r with lexical := r.lexical.insert name (id, isConstant) }

def defineGlobalFunction (name : String) (f : Value) (isErasable : Bool) : Action σ Unit := do
  let realm ← currentRealm
  let key := PropertyKey.ofString name
  match ← plainOwn realm.global key with
  | some p =>
    if p.configurable then putProperty realm.global key ⟨.data f, true, true, isErasable⟩
    else putProperty realm.global key { p with content := .data f }
  | none => putProperty realm.global key ⟨.data f, true, true, isErasable⟩

def deleteGlobal (env : Env σ) (name : String) : Action σ Value := do
  let realm ← currentRealm
  if realm.lexical.contains name then return .bool false
  return .bool (← Access.delete env realm.global (.ofString name)).isNone

/-! ### Members -/

def deleteIndex (env : Env σ) (target key : Value) (strict : Bool) : Action σ Value := do
  let id ← toObject target
  match ← Access.delete env id (← toKey env key) with
  | none => return .bool true
  | some message => if strict then throwType message else return .bool false

def superParent (env : Env σ) (home : Value) : Action σ (Option ObjectId) := do
  match home with
  | .object id => Access.getPrototype env id
  | _ => return none

def getSuper (env : Env σ) (this home key : Value) : Action σ Value := do
  let k ← toKey env key
  match ← superParent env home with
  | some proto => Access.get env proto k this
  | none => return .undefined

def setSuper (env : Env σ) (this home key v : Value) (strict : Bool) : Action σ Unit := do
  let k ← toKey env key
  match ← superParent env home with
  | some proto =>
    match ← Access.set env proto k v this with
    | some message => if strict then throwType message
    | none => return
  | none => setMember env this k v strict

def hiddenOwn (target : Value) (s : Value) : Action σ (Option (ObjectId × SymbolId × Property)) := do
  match target, s with
  | .object id, .symbol sym =>
    return ((← object id).find? (.symbol sym)).map fun p => (id, sym, p)
  | .object _, _ => return none
  | _, _ => throwType "not an object"

def getHidden (env : Env σ) (target s : Value) (name : String) : Action σ Value := do
  match ← hiddenOwn target s with
  | some (_, _, p) =>
    match p.content with
    | .data v => return v
    | .accessor g _ =>
      if g.isUndefined then return .undefined else env.call g target #[]
  | none => throwType ("private class field '#" ++ name ++ "' does not exist")

def setHidden (env : Env σ) (target s v : Value) (name : String) : Action σ Unit := do
  match ← hiddenOwn target s with
  | some (id, sym, p) =>
    match p.content with
    | .data _ =>
      if p.writable then putProperty id (.symbol sym) { p with content := .data v }
      else throwType ("'#" ++ name ++ "' is read-only")
    | .accessor _ setter =>
      if setter.isUndefined then throwType ("'#" ++ name ++ "' is read-only")
      else
        let _ ← env.call setter target #[v]
        return
  | none => throwType ("private class field '#" ++ name ++ "' does not exist")

def addHidden (target s v : Value) : Action σ Unit := do
  match target, s with
  | .object id, .symbol sym =>
    if ((← object id).find? (.symbol sym)).isSome then
      let name := ((← symbol sym).description).getD #[]
      throwUnits .typeError (Units.ofString "private class field '" ++ name ++
        Units.ofString "' already exists")
    putProperty id (.symbol sym) ⟨.data v, true, false, false⟩
  | _, _ => throwType "not an object"

def isHiddenKey (key : PropertyKey) : Action σ Bool := do
  match key with
  | .symbol id => return (← symbol id).isHidden
  | _ => return false

/-- Defines a method, a getter or a setter of an object, which becomes its home. -/
def defineMethod (env : Env σ) (target key f : Value) (role : MemberRole) (enumerable : Bool) :
    Action σ Unit := do
  let k ← toKey env key
  let hidden ← isHiddenKey k
  let name ← Function.nameOfKey k
  Function.modifyClosure f fun c => { c with home := target }
  match target with
  | .object id =>
    let change : Change ← match role with
      | .getter =>
        Function.setName f (Units.ofString "get " ++ name)
        pure ⟨none, some f, none, none, some enumerable, some (!hidden)⟩
      | .setter =>
        Function.setName f (Units.ofString "set " ++ name)
        pure ⟨none, none, some f, none, some enumerable, some (!hidden)⟩
      | _ =>
        Function.setName f name
        pure ⟨some f, none, none, some (!hidden), some enumerable, some (!hidden)⟩
    if hidden then
      let old := (← object id).find? k
      putProperty id k ((old.map change.applyTo).getD change.fresh)
    else must (Convert.define env id k change)
  | _ => throwType "not an object"

/-- Copies all own members that loops visit, but those with the given keys. -/
def copyMembers (env : Env σ) (target : ObjectId) (source : Value) (without : List PropertyKey) :
    Action σ Unit := do
  if source.isNullish then return
  let from_ ← toObject source
  for key in ← Access.ownKeys env from_ do
    if !without.contains key then
      match ← Access.getOwn env from_ key with
      | some p =>
        if p.enumerable then
          let v ← Access.get env from_ key source
          must (Convert.define env target key (.ofProperty (.plain v)))
      | none => continue

/-- Adds a value at the end of a list that is being made. -/
def append (list v : Value) : Action σ Unit := do
  match list with
  | .object id =>
    modifyObject id fun o =>
      match o.payload with
      | .array n isFixed => { o.put (.index n) (.plain v) with payload := .array (n + 1) isFixed }
      | _ => o
  | _ => return

def appendHole (list : Value) : Action σ Unit := do
  match list with
  | .object id =>
    modifyObject id fun o =>
      match o.payload with
      | .array n isFixed => { o with payload := .array (n + 1) isFixed }
      | _ => o
  | _ => return

/-- The elements of a list that has been made for a call. -/
def listItems (list : Value) : Action σ (Array Value) := do
  match list with
  | .object id =>
    let o ← object id
    match o.payload with
    | .array n _ =>
      return ((List.range n).map fun i => ((o.find? (.index i)).map (·.value)).getD .undefined).toArray
    | _ => return #[]
  | _ => return #[]

/-- A regular expression as an object. -/
def newRegexp (source flags : Units) : Action σ Value := do
  match Regexp.Program.ofUnits? source flags with
  | .ok program =>
    let id ← newObject .regexpPrototype (.regexp source flags program)
    putProperty id (named "lastIndex") ⟨.data (.int 0), true, false, false⟩
    return .object id
  | .error message => throwKind .syntaxError message

def freeze (id : ObjectId) : Action σ Unit :=
  modifyObject id fun o =>
    { o with
      isExtensible := false
      payload := match o.payload with
        | .array n _ => .array n true
        | p => p
      properties := o.properties.map fun _ (stamp, p) =>
        (stamp, { p with writable := false, configurable := false }) }

/-- The strings of a tagged template, with the raw ones beside them. -/
def templateStrings (strings : List (Option Units × Units)) : Action σ Value := do
  let cooked ← newArray (strings.map fun (c, _) => (c.map Value.text).getD .undefined)
  let raw ← newArray (strings.map fun (_, r) => .text r)
  freeze raw
  putProperty cooked (named "raw") (.fixed (.object raw))
  freeze cooked
  return .object cooked

/-! ### Calls -/

def capture (f : Frame) (code : Code) : Array CellId := code.captured.map f.cellOf

/-- Code that a script evaluates in the middle of a function. -/
def evaluateHere (env : Env σ) (f : Frame) (arg : Value) (isGlobal : Bool) (scope : List Visible) :
    Action σ Value := do
  match arg with
  | .string t =>
    let codes ← Source.read t.units.toChars Source.inputFile (.evaluated isGlobal scope)
      (Source.surroundingsOf scope) f.code.strict
    let code := (codes.back?).getD default
    let id ← Function.newClosure codes code (scope.map fun v => f.cellOf v.slot).toArray
    env.call (.object id) .undefined #[]
  | v => return v

def callSuper (env : Env σ) (f newTarget list : Value) : Action σ Value := do
  let parent ← match f with
    | .object id =>
      match ← Access.getPrototype env id with
      | some p => pure (Value.object p)
      | none => pure .null
    | _ => pure .null
  if !(← isConstructor parent) then throwType "not a constructor"
  env.construct parent (← listItems list) newTarget

def addFields (env : Env σ) (this f : Value) : Action σ Unit := do
  match f with
  | .object id =>
    match ← payload id with
    | .function c =>
      if !c.fields.isUndefined then
        let _ ← env.call c.fields this #[]
        return
    | _ => return
  | _ => return

/-! ### Iteration -/

/-- Hands a value, an exception or a return on to another iterator; `true` with the result says that
there is nothing more to hand on to. -/
def delegate (env : Env σ) (received mode iterator next : Value) (isAsync : Bool) :
    Action σ (Value × Bool) := do
  match mode with
  | .int 1 =>
    match ← getMethod env iterator (named "throw") with
    | some f => return (← env.call f iterator #[received], false)
    | none =>
      if !isAsync then Iterate.closeQuietly env iterator
      throwType "iterator does not have a throw method"
  | .int 2 =>
    match ← getMethod env iterator (named "return") with
    | some f => return (← env.call f iterator #[received], false)
    | none => return (received, true)
  | _ => return (← env.call next iterator #[received], false)

def ofOption (found : Option Value) : Value × Value :=
  match found with
  | some v => (v, .bool false)
  | none => (.undefined, .bool true)

end Step

open Step in
/-- Performs the next instruction. -/
def step (env : Env σ) (f : Frame) : Action σ Progress := do
  let go (stack : List Value) : Action σ Progress := return .next (f.withStack stack)
  let push (v : Value) (stack : List Value) : Action σ Progress := go (v :: stack)
  match (f.code.instructions[f.position]?).getD .return with
  | .push v => push v f.stack
  | .pop => go f.stack.tail
  | .dup => push f.top f.stack
  | .swap =>
    let (a, b, rest) := f.pop2
    go (a :: b :: rest)
  | .pick depth => push ((f.stack[depth]?).getD .undefined) f.stack
  | .pull depth =>
    push ((f.stack[depth]?).getD .undefined) (f.stack.take depth ++ f.stack.drop (depth + 1))
  | .bury depth =>
    let rest := f.stack.tail
    go (rest.take depth ++ f.top :: rest.drop depth)
  | .get slot name => push (← getSlot f slot name) f.stack
  | .set slot name =>
    let id := f.cellOf slot
    if (← cell id).isNone then uninitialized name
    setCell id (some f.top)
    go f.stack.tail
  | .bindSlot slot =>
    setCell (f.cellOf slot) (some f.top)
    go f.stack.tail
  | .fresh i =>
    let id ← newCell none
    return .next { f with position := f.position + 1, slots := f.slots.set! i id }
  | .renew i =>
    let id ← newCell (← cell (f.cellOf (.own i)))
    return .next { f with position := f.position + 1, slots := f.slots.set! i id }
  | .getGlobal name isQuiet => push (← getGlobal env name isQuiet) f.stack
  | .setGlobal name strict =>
    setGlobal env name f.top strict
    go f.stack.tail
  | .initializeGlobal name =>
    initializeGlobal name f.top
    go f.stack.tail
  | .deleteGlobal name => push (← deleteGlobal env name) f.stack
  | .declareGlobals vars functions lexical isErasable =>
    declareGlobals vars functions lexical isErasable
    go f.stack
  | .defineGlobalFunction name isErasable =>
    defineGlobalFunction name f.top isErasable
    go f.stack.tail
  | .getMember key => push (← getMember env f.top key) f.stack.tail
  | .setMember key strict =>
    let (o, v, rest) := f.pop2
    setMember env o key v strict
    go rest
  | .getIndex =>
    let (o, k, rest) := f.pop2
    if o.isNullish then
      let key ← toKey env k
      push (← getMember env o key) rest
    else push (← getMember env o (← toKey env k)) rest
  | .setIndex strict =>
    let (o, k, v, rest) := f.pop3
    setMember env o (← toKey env k) v strict
    go rest
  | .deleteIndex strict =>
    let (o, k, rest) := f.pop2
    push (← deleteIndex env o k strict) rest
  | .toKey => push (← toKey env f.top).toValue f.stack.tail
  | .getSuper =>
    let (this, home, k, rest) := f.pop3
    push (← getSuper env this home k) rest
  | .setSuper strict =>
    let (this, home, k, v, rest) := f.pop4
    setSuper env this home k v strict
    go rest
  | .getHidden name =>
    let (o, s, rest) := f.pop2
    push (← getHidden env o s name) rest
  | .setHidden name =>
    let (o, s, v, rest) := f.pop3
    setHidden env o s v name
    go rest
  | .addHidden =>
    let (o, s, v, rest) := f.pop3
    addHidden o s v
    push o rest
  | .hasHidden =>
    let (o, s, rest) := f.pop2
    if !o.isObject then throwType "invalid 'in' operand"
    push (.bool (← hiddenOwn o s).isSome) rest
  | .newHidden name =>
    push (.symbol (← newSymbol ⟨some (Units.ofString name), true, false⟩)) f.stack
  | .newObject => push (.object (← newPlain)) f.stack
  | .newArray => push (.object (← newArray [])) f.stack
  | .define key =>
    let (o, v, rest) := f.pop2
    if let .object id := o then must (Convert.define env id key (.ofProperty (.plain v)))
    push o rest
  | .defineIndex =>
    let (o, k, v, rest) := f.pop3
    let key ← toKey env k
    if let .object id := o then must (Convert.define env id key (.ofProperty (.plain v)))
    push o rest
  | .defineMethod role enumerable =>
    let (o, k, m, rest) := f.pop3
    defineMethod env o k m role enumerable
    push o rest
  | .nameFunction =>
    let (k, m, _) := f.pop2
    Function.nameIfMissing m (← Function.nameOfKey (← toKey env k))
    go f.stack
  | .setPrototype =>
    let (o, p, rest) := f.pop2
    match o, p with
    | .object id, .object proto => must (Access.setPrototype env id (some proto))
    | .object id, .null => must (Access.setPrototype env id none)
    | _, _ => pure ()
    push o rest
  | .copyMembers =>
    let (o, source, rest) := f.pop2
    if let .object id := o then copyMembers env id source []
    push o rest
  | .restMembers count =>
    let (keys, rest) := f.popMany count
    let without ← keys.toList.mapM (toKey env)
    let id ← newPlain
    copyMembers env id (rest.headD .undefined) without
    push (.object id) rest.tail
  | .append =>
    let (a, v, rest) := f.pop2
    append a v
    push a rest
  | .appendAll =>
    let (a, source, rest) := f.pop2
    for v in ← Iterate.toList env source do append a v
    push a rest
  | .appendHole =>
    appendHole f.top
    go f.stack
  | .regexp body flags => push (← newRegexp body flags) f.stack
  | .templateStrings strings => push (← templateStrings strings) f.stack
  | .unary op => push (← Arithmetic.unary env op f.top) f.stack.tail
  | .binary op =>
    let (a, b, rest) := f.pop2
    push (← Arithmetic.binary env op a b) rest
  | .typeof => push (.ofString (← typeText f.top)) f.stack.tail
  | .toNumeric => push (← toNumeric env f.top) f.stack.tail
  | .increment => push (Arithmetic.stepped true f.top) f.stack.tail
  | .decrement => push (Arithmetic.stepped false f.top) f.stack.tail
  | .toText => push (← toText env f.top) f.stack.tail
  | .isNullish => push (.bool f.top.isNullish) f.stack.tail
  | .isUndefined => push (.bool f.top.isUndefined) f.stack.tail
  | .jump target => return .next (f.jumpTo target f.stack)
  | .jumpIf target =>
    if truthy f.top then return .next (f.jumpTo target f.stack.tail) else go f.stack.tail
  | .jumpIfNot target =>
    if truthy f.top then go f.stack.tail else return .next (f.jumpTo target f.stack.tail)
  | .here _ => go f.stack
  | .return => return .left (.returned f.top)
  | .checkReturn slot =>
    match f.top with
    | .object _ => go f.stack
    | .undefined => push (← getSlot f slot "this") f.stack.tail
    | _ => throwType "derived class constructor must return an object or undefined"
  | .throw => throw f.top
  | .fail kind message => throwKind kind message
  | .handle target =>
    return .next { f with position := f.position + 1, handlers := (target, f.stack) :: f.handlers }
  | .unhandle => return .next { f with position := f.position + 1, handlers := f.handlers.tail }
  | .enter target => return .next (f.jumpTo target (.int (f.position + 1) :: f.stack))
  | .leave =>
    match f.top with
    | .int n => return .next { f with position := n.toNat, stack := f.stack.tail }
    | _ => go f.stack.tail
  | .call count =>
    markPlace f.place
    let (args, below) := f.popMany count
    match below with
    | this :: g :: rest => push (← env.call g this args) rest
    | _ => go below
  | .callWith =>
    markPlace f.place
    let (g, this, list, rest) := f.pop3
    push (← env.call g this (← listItems list)) rest
  | .construct count =>
    markPlace f.place
    let (args, below) := f.popMany count
    let g := below.headD .undefined
    push (← env.construct g args g) below.tail
  | .constructWith =>
    markPlace f.place
    let (g, list, rest) := f.pop2
    push (← env.construct g (← listItems list) g) rest
  | .evaluate count isGlobal scope =>
    markPlace f.place
    let (args, below) := f.popMany count
    let g := below.headD .undefined
    if g = .object (← intrinsic .evaluate) then
      push (← evaluateHere env f ((args[0]?).getD .undefined) isGlobal scope) below.tail
    else push (← env.call g .undefined args) below.tail
  | .callSuper =>
    markPlace f.place
    let (g, newTarget, list, rest) := f.pop3
    push (← callSuper env g newTarget list) rest
  | .bindThis slot =>
    let id := f.cellOf slot
    if (← cell id).isSome then throwKind .referenceError "'this' can be initialized only once"
    setCell id (some f.top)
    go f.stack.tail
  | .addFields =>
    let (this, g, rest) := f.pop2
    addFields env this g
    push this rest
  | .closure index =>
    let code := (f.codes[index]?).getD default
    push (.object (← Function.newClosure f.codes code (capture f code))) f.stack
  | .newClass index hasParent =>
    let code := (f.codes[index]?).getD default
    let parent := if hasParent then some f.top else none
    let rest := if hasParent then f.stack.tail else f.stack
    let (g, proto) ← Function.newClass env f.codes code (capture f code) parent
    go (.object proto :: .object g :: rest)
  | .setFields =>
    let (g, proto, fields, rest) := f.pop3
    Function.modifyClosure fields fun c => { c with home := proto }
    Function.modifyClosure g fun c => { c with fields := fields }
    go (proto :: g :: rest)
  | .runStatic =>
    let (g, proto, statics, rest) := f.pop3
    Function.modifyClosure statics fun c => { c with home := g }
    let _ ← env.call statics g #[]
    go (proto :: g :: rest)
  | .argument i => push ((f.arguments[i]?).getD .undefined) f.stack
  | .restArguments i => push (.object (← newArray (f.arguments.toList.drop i))) f.stack
  | .requireObject =>
    if f.top.isNullish then throwType "cannot convert to object"
    go f.stack.tail
  | .iterate isAsync =>
    let (iterator, next) ←
      if isAsync then Iterate.startAsync env f.top else Iterate.start env f.top
    go (next :: iterator :: f.stack.tail)
  | .advance =>
    let (iterator, next, rest) := f.pop2
    let (v, done) := ofOption (← Iterate.advance env iterator next)
    go (done :: v :: rest)
  | .callNext =>
    let (iterator, next, rest) := f.pop2
    push (← env.call next iterator #[]) rest
  | .unpack =>
    if !f.top.isObject then throwType "iterator must return an object"
    let isDone := truthy (← getMember env f.top (named "done"))
    let v ← getMember env f.top (named "value")
    go (.bool isDone :: v :: f.stack.tail)
  | .close =>
    Iterate.close env f.top
    go f.stack.tail
  | .closeQuietly =>
    Iterate.closeQuietly env f.top
    go f.stack.tail
  | .callReturn =>
    match ← getMethod env f.top (named "return") with
    | some g => go (.bool true :: (← env.call g f.top #[]) :: f.stack.tail)
    | none => go (.bool false :: .undefined :: f.stack.tail)
  | .checkObject =>
    if !f.top.isObject then throwType "iterator must return an object"
    go f.stack
  | .enumerate => push (← Iterate.enumerate env f.top) f.stack.tail
  | .nextKey =>
    match f.top with
    | .object id =>
      match ← payload id with
      | .enumeration target keys =>
        let (v, done) := ofOption (← Iterate.nextKey env id target keys)
        go (done :: v :: f.stack.tail)
      | _ => go (.bool true :: .undefined :: f.stack.tail)
    | _ => go (.bool true :: .undefined :: f.stack.tail)
  | .start => return .left (.started (f.withStack f.stack))
  | .yield => return .left (.yielded f.top (f.withStack f.stack.tail))
  | .resumed =>
    let (v, mode, rest) := f.pop2
    match mode with
    | .int 1 => throw v
    | .int 2 => go (.bool true :: v :: rest)
    | _ => go (.bool false :: v :: rest)
  | .await => return .left (.awaiting f.top (f.withStack f.stack.tail))
  | .importModule => push (← Promise.requestModule f.top) f.stack.tail
  | .delegate isAsync =>
    let (received, mode, iterator, next, rest) := f.pop4
    let (result, isOver) ← delegate env received mode iterator next isAsync
    go (.bool isOver :: result :: rest)

end PluginRelay.Script
