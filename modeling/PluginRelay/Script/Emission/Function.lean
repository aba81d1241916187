import PluginRelay.Script.Emission.Pattern

/-!
# Functions and classes

A function starts by binding its parameters. The fields of a class are added by a function of their own,
which runs when `this` is there; another one runs what belongs to the class itself.
-/
namespace PluginRelay.Script.Emission

/-! ### Blocks -/

/-- The function and its name, if the statement declares one. -/
def declaredFunction? : Statement → Option (Expression × String)
  | .function f name _ => some (f, name)
  | .labeled _ body => declaredFunction? body
  | _ => none

/-- The names that a statement declares for its block: no plain functions, which have a value from the
start. -/
def lexicalNames : Statement → List (String × VariableKind)
  | .declare .letting names _ => names.map (·, .letting)
  | .declare .const names _ => names.map (·, .const)
  | .class _ name => [(name, .letting)]
  | _ => []

/-- Declares what the statements of a block declare for it. -/
def declareLexical (body : List Statement) : Emit Unit := do
  for (name, kind) in body.flatMap lexicalNames do declareFresh name kind

/-- Statements in a block of their own; functions among them have their values from the start. -/
def blockBody (em : Emitter) (body : List Statement) : Emit Unit := do
  declareLexical body
  let functions := body.filterMap declaredFunction?
  for name in (functions.map (·.2)).eraseDups do declareFresh name .var
  for (f, name) in functions do
    em.named name f
    initializeName name default
  for s in body do em.statement s

/-! ### Functions -/

/-- The number of parameters before the first that may be missing. -/
def parameterCount (params : List Expression) : Nat :=
  (params.takeWhile fun
    | .initialized _ _ _ | .spread _ _ => false
    | _ => true).length

def bindParameters (em : Emitter) (params : List Expression) : Emit Unit := do
  for (p, i) in params.zipIdx do
    match p with
    | .spread target _ =>
      emit (.restArguments i)
      em.pattern false target
    | e =>
      emit (.argument i)
      em.pattern false e

/-- The end of a function that is reached without a return. -/
def returnNothing : Emit Unit := do
  push .undefined
  returnTop

def functionBody (em : Emitter) (info : FunctionInfo) (params : List Expression)
    (body : List Statement) : Emit Unit := do
  for name in info.parameters.eraseDups do
    let _ ← declare name .var
  for name in info.hoisted do
    if !info.parameters.contains name then
      let _ ← declare name .var
  bindParameters em params
  if info.isGenerator then emit .start
  declareLexical body
  for (f, name) in body.filterMap declaredFunction? do
    em.named name f
    setName name default
  for s in body do em.statement s
  returnNothing

/-- Emits a function; gives its number. A function expression can call itself by its name. -/
def functionCode (em : Emitter) (info : FunctionInfo) (params : List Expression)
    (body : List Statement) (name : String) : Emit Nat := do
  let draft := Draft.new info.kind info.isAsync info.isGenerator info.strict
  nested draft info name (parameterCount params) do
    if info.kind = .normal && !info.name.isEmpty then
      let n ← declare info.name .functionName
      getPseudo .function
      emit (.bindSlot (.own n))
      modifyCurrent fun p => { p with scopes := [] :: p.scopes }
    functionBody em info params body

/-- A function on the stack. -/
def functionValue (em : Emitter) (f : Expression) (hint : String) : Emit Unit := do
  match f with
  | .function info params body =>
    let name := if info.name.isEmpty then hint else info.name
    emit (.closure (← functionCode em info params body name))
  | e => em.expression e

/-! ### Classes -/

/-- A member of a class with what its key leaves for later. -/
structure ClassMember where
  role : MemberRole
  isStatic : Bool
  key : Expression
  value : Expression
  place : Position
  /-- Where a computed key or the function of a hidden method is kept. -/
  slot : Option Nat

/-- The name that a key gives to a function. -/
def keyName : Expression → String
  | .fixedKey (.name units) => units.toStringLossy
  | .fixedKey (.index n) => String.ofList (Nat.toDigits 10 n)
  | .hiddenKey name => "#" ++ name
  | _ => ""

def isHidden : Expression → Bool
  | .hiddenKey _ => true
  | _ => false

def isMethod : MemberRole → Bool
  | .method | .getter | .setter => true
  | _ => false

/-- The hidden names that the members declare. -/
def hiddenNames (members : List Member) : List String :=
  (members.filterMap fun
    | .mk _ _ (.hiddenKey name) _ _ => some name
    | _ => none).eraseDups

/-- Defines a method on the class or its prototype, which lie on the stack. -/
def defineMethod (em : Emitter) (m : ClassMember) : Emit Unit := do
  emit (.pick (if m.isStatic then 1 else 0))
  key em m.key
  emit .toKey
  functionValue em m.value (keyName m.key)
  emitAt m.place (.defineMethod m.role false)
  emit .pop

/-- Adds a field or a hidden method to `this`. -/
def addField (em : Emitter) (m : ClassMember) : Emit Unit := do
  match m.role with
  | .staticBlock =>
    em.expression m.value
    getPseudo .this
    emit (.call 0)
    emit .pop
  | _ =>
    getPseudo .this
    match m.key, m.slot with
    | .hiddenKey name, some slot =>
      getHiddenName name
      match ← look ("method " ++ toString slot) with
      | some (s, _) => emit (.get s name)
      | none => push .undefined
      if isMethod m.role then emitAt m.place (.defineMethod m.role false)
      else emitAt m.place .addHidden
    | .hiddenKey name, none =>
      getHiddenName name
      if m.value.isAbsent then push .undefined else em.named ("#" ++ name) m.value
      emitAt m.place .addHidden
    | .fixedKey k, _ =>
      if m.value.isAbsent then push .undefined else em.named (keyName m.key) m.value
      emitAt m.place (.define k)
    | _, some slot =>
      match ← look ("key " ++ toString slot) with
      | some (s, _) => emit (.get s "key")
      | none => push .undefined
      if m.value.isAbsent then push .undefined
      else
        em.expression m.value
        if m.value.isAnonymousFunction then emit .nameFunction
      emitAt m.place .defineIndex
    | _, none => push .undefined
    emit .pop

/-- The function that adds the given members to `this`. -/
def fieldsCode (em : Emitter) (members : List ClassMember) (place : Position) : Emit Nat := do
  let info : FunctionInfo :=
    ⟨"<class_fields_init>", .fields, false, false, true, #[], place, [], []⟩
  nested (Draft.new .fields false false true) info info.name 0 do
    for m in members do addField em m
    push .undefined
    emit .return

/-- Makes ready what the members need before fields are added: computed keys of fields are evaluated,
methods without hidden names are defined, hidden ones are made. -/
def prepareMember (em : Emitter) (m : Member) : Emit ClassMember := do
  match m with
  | .mk role isStatic k value place =>
    let plain : ClassMember := ⟨role, isStatic, k, value, place, none⟩
    if isMethod role && !isHidden k then
      defineMethod em plain
      return plain
    else if isMethod role then
      let slot ← newSlot
      modifyCurrent fun p =>
        match p.scopes with
        | scope :: rest =>
          { p with scopes := (⟨"method " ++ toString slot, .const, slot⟩ :: scope) :: rest }
        | [] => p
      functionValue em value (keyName k)
      emit (.bindSlot (.own slot))
      return { plain with slot := some slot }
    else
      match k with
      | .fixedKey _ | .hiddenKey _ | .absent => return plain
      | e =>
        let slot ← newSlot
        modifyCurrent fun p =>
          match p.scopes with
          | scope :: rest =>
            { p with scopes := (⟨"key " ++ toString slot, .const, slot⟩ :: scope) :: rest }
          | [] => p
        push .undefined
        em.expression e
        emit .toKey
        emit (.bindSlot (.own slot))
        emit .pop
        return { plain with slot := some slot }

/-- The constructor of a class that has none: it passes its arguments on. -/
def defaultConstructor (isDerived : Bool) (name : String) (source : Units) (place : Position) :
    Emit Nat := do
  let kind := if isDerived then FunctionKind.derivedConstructor else .constructor
  let info : FunctionInfo := ⟨name, kind, false, false, true, source, place, [], []⟩
  nested (Draft.new kind false false true) info name 0 do
    if isDerived then
      getPseudo .function
      getPseudo .newTarget
      emit (.restArguments 0)
      emitAt place .callSuper
      match ← pseudoSlot .this with
      | some slot =>
        emit .dup
        emit (.bindThis slot)
        getPseudo .function
        emit .addFields
        emit .return
      | none => emit .return
    else
      push .undefined
      emit .return

def constructorCode (em : Emitter) (constructor : Expression) (isDerived : Bool) (name : String)
    (source : Units) (place : Position) : Emit Nat := do
  match constructor with
  | .function info params body =>
    functionCode em { info with source := source, name := "" } params body name
  | _ => defaultConstructor isDerived name source place

/-- A class on the stack. -/
def classValue (em : Emitter) (own : String) (parent constructor : Expression) (members : List Member)
    (source : Units) (place : Position) (hint : String) : Emit Unit := do
  let name := if own.isEmpty then hint else own
  let isDerived := !parent.isAbsent
  let wasStrict := (← get).current.strict
  modifyCurrent fun p => { p with strict := true }
  inBlock do
    if !own.isEmpty then declareFresh own .const
    for hidden in hiddenNames members do
      let n ← declare ("#" ++ hidden) .const
      emit (.newHidden ("#" ++ hidden))
      emit (.bindSlot (.own n))
    if isDerived then em.expression parent
    let index ← constructorCode em constructor isDerived name source place
    emitAt place (.newClass index isDerived)
    let prepared ← members.mapM (prepareMember em)
    let later := prepared.filter fun m => !isMethod m.role || isHidden m.key
    let inFront (m : ClassMember) : Bool := isMethod m.role
    let ordered (ms : List ClassMember) := ms.filter inFront ++ ms.filter (!inFront ·)
    let fields := ordered (later.filter (!·.isStatic))
    let statics := ordered (later.filter (·.isStatic))
    if !fields.isEmpty then
      emit (.closure (← fieldsCode em fields place))
      emit .setFields
    if !own.isEmpty then
      emit (.pick 1)
      initializeName own place
    if !statics.isEmpty then
      emit (.closure (← fieldsCode em statics place))
      emitAt place .runStatic
    emit .pop
  modifyCurrent fun p => { p with strict := wasStrict }

end PluginRelay.Script.Emission
