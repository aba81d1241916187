import PluginRelay.Script.Emission.Function

/-!
# Expressions

Each expression leaves one value on the stack.
-/
namespace PluginRelay.Script.Emission

/-! ### Members and calls -/

/-- Leaves the optional chain if the top is nothing; `below` values lie under it in the chain. -/
def shortcut (below : Nat) : Emit Unit := do
  match (← get).current.chains with
  | [] => return
  | short :: _ =>
    let go ← newLabel
    emit (.pick below)
    emit .isNullish
    emit (.jumpIfNot go)
    for _ in List.range below do emit .pop
    emit (.jump short)
    put go

def inChain (e : Emit Unit) (missing : Emit Unit) : Emit Unit := do
  let short ← newLabel
  let out ← newLabel
  modifyCurrent fun p => { p with chains := short :: p.chains }
  e
  modifyCurrent fun p => { p with chains := p.chains.tail }
  emit (.jump out)
  put short
  emit .pop
  missing
  put out

/-- A function to call and its `this`. -/
def callee (em : Emitter) (e : Expression) : Emit Unit := do
  match e with
  | .member t k optional place =>
    em.expression t
    if optional then shortcut 0
    emit .dup
    emitAt place (.getMember (.ofString k))
    emit .swap
  | .index t k optional place =>
    em.expression t
    if optional then shortcut 0
    emit .dup
    em.expression k
    emitAt place .getIndex
    emit .swap
  | .hidden t k optional place =>
    em.expression t
    if optional then shortcut 0
    emit .dup
    getHiddenName k
    emitAt place (.getHidden k)
    emit .swap
  | .superMember k place =>
    getPseudo .this
    emit .dup
    getPseudo .home
    em.expression k
    emitAt place .getSuper
    emit .swap
  | _ =>
    em.expression e
    push .undefined

/-- The function and `this` of a call whose function is written in brackets. -/
def groupedCallee (em : Emitter) (e : Expression) : Emit Unit := do
  match ungrouped e with
  | .chain inside => inChain (callee em inside) do push .undefined; push .undefined
  | e => callee em e

def hasSpread (items : List Expression) : Bool :=
  items.any fun
    | .spread _ _ => true
    | _ => false

/-- A list of the items. -/
def list (em : Emitter) (items : List Expression) : Emit Unit := do
  emit .newArray
  for item in items do
    match item with
    | .absent => emit .appendHole
    | .spread e place =>
      em.expression e
      emitAt place .appendAll
    | e =>
      em.expression e
      emit .append

def call (em : Emitter) (f : Expression) (args : List Expression) (optional : Bool)
    (place : Position) : Emit Unit := do
  let isEval := match ungrouped f with
    | .name "eval" _ => !optional && !hasSpread args
    | _ => false
  if isEval then
    em.expression f
    for a in args do em.expression a
    emitAt place (.evaluate args.length (← get).current.isGlobal (← visible))
  else
    groupedCallee em f
    if optional then shortcut 1
    if hasSpread args then
      list em args
      emitAt place .callWith
    else
      for a in args do em.expression a
      emitAt place (.call args.length)

def construct (em : Emitter) (f : Expression) (args : List Expression) (place : Position) :
    Emit Unit := do
  em.expression f
  if hasSpread args then
    list em args
    emitAt place .constructWith
  else
    for a in args do em.expression a
    emitAt place (.construct args.length)

def superCall (em : Emitter) (args : List Expression) (place : Position) : Emit Unit := do
  getPseudo .function
  getPseudo .newTarget
  list em args
  emitAt place .callSuper
  match ← pseudoSlot .this with
  | some slot =>
    emit .dup
    emit (.bindThis slot)
    getPseudo .function
    emit .addFields
  | none => return

/-! ### Literals -/

def template (em : Emitter) (strings : List Units) (values : List Expression) (place : Position) :
    Emit Unit := do
  push (.text (strings.headD #[]))
  for (value, s) in values.zip strings.tail do
    em.expression value
    emitAt place .toText
    emit (.binary .add)
    if s.size ≠ 0 then
      push (.text s)
      emit (.binary .add)

def member (em : Emitter) (m : Member) : Emit Unit := do
  match m with
  | .mk .spread _ _ value place =>
    em.expression value
    emitAt place .copyMembers
  | .mk .prototype _ _ value place =>
    em.expression value
    emitAt place .setPrototype
  | .mk .value _ (.fixedKey k) value place =>
    em.named (keyName (.fixedKey k)) value
    emitAt place (.define k)
  | .mk .value _ k value place =>
    key em k
    emit .toKey
    em.expression value
    if value.isAnonymousFunction then emit .nameFunction
    emitAt place .defineIndex
  | .mk role _ k value place =>
    key em k
    emit .toKey
    functionValue em value (keyName k)
    emitAt place (.defineMethod role true)

/-! ### Operators -/

def logical (op : LogicalOperator) (right : Emit Unit) : Emit Unit := do
  let out ← newLabel
  emit .dup
  match op with
  | .and => emit (.jumpIfNot out)
  | .or => emit (.jumpIf out)
  | .nullish =>
    emit .isNullish
    emit (.jumpIfNot out)
  emit .pop
  right
  put out

/-- Reads a target and writes it again, with `change` between: it works on the old value on the top.
`keepsOld` says that the old value, as a number, is left as the result. -/
def modifyTarget (em : Emitter) (target : Expression) (keepsOld : Bool) (place : Position)
    (change : Emit Unit) : Emit Unit := do
  let strict := (← get).current.strict
  let changed (depth : Nat) : Emit Unit := do
    if keepsOld then
      emitAt place .toNumeric
      emit .dup
      emit (.bury (depth + 1))
      change
    else
      change
      emit .dup
      emit (.bury (depth + 1))
  match target with
  | .name n at_ =>
    getName n at_ false
    changed 0
    setName n place
  | .member t k _ at_ =>
    em.expression t
    emit .dup
    emitAt at_ (.getMember (.ofString k))
    changed 1
    emitAt place (.setMember (.ofString k) strict)
  | .index t k _ at_ =>
    em.expression t
    em.expression k
    emit .toKey
    emit (.pick 1)
    emit (.pick 1)
    emitAt at_ .getIndex
    changed 2
    emitAt place (.setIndex strict)
  | .hidden t k _ at_ =>
    em.expression t
    getHiddenName k
    emit (.pick 1)
    emit (.pick 1)
    emitAt at_ (.getHidden k)
    changed 2
    emitAt place (.setHidden k)
  | .superMember k at_ =>
    getPseudo .this
    getPseudo .home
    em.expression k
    emit .toKey
    emit (.pick 2)
    emit (.pick 2)
    emit (.pick 2)
    emitAt at_ .getSuper
    changed 3
    emitAt place (.setSuper strict)
  | _ => throw "invalid assignment left-hand side"

/-- Assigns a value to a target; the value stays as the result. -/
def assign (em : Emitter) (target value : Expression) (place : Position) : Emit Unit := do
  let strict := (← get).current.strict
  match target with
  | .name n _ =>
    em.named n value
    emit .dup
    setName n place
  | .member t k _ _ =>
    em.expression t
    em.expression value
    emit .dup
    emit (.bury 2)
    emitAt place (.setMember (.ofString k) strict)
  | .index t k _ _ =>
    em.expression t
    em.expression k
    em.expression value
    emit .dup
    emit (.bury 3)
    emitAt place (.setIndex strict)
  | .hidden t k _ _ =>
    em.expression t
    getHiddenName k
    em.expression value
    emit .dup
    emit (.bury 3)
    emitAt place (.setHidden k)
  | .superMember k _ =>
    getPseudo .this
    getPseudo .home
    em.expression k
    em.expression value
    emit .dup
    emit (.bury 4)
    emitAt place (.setSuper strict)
  | _ =>
    em.expression value
    emit .dup
    em.pattern false target

/-- An assignment that happens only if the old value asks for it. -/
def assignLogical (em : Emitter) (op : LogicalOperator) (target value : Expression)
    (place : Position) : Emit Unit := do
  let strict := (← get).current.strict
  let keep ← newLabel
  let out ← newLabel
  let test : Emit Unit := do
    emit .dup
    match op with
    | .and => emit (.jumpIfNot keep)
    | .or => emit (.jumpIf keep)
    | .nullish =>
      emit .isNullish
      emit (.jumpIfNot keep)
    emit .pop
  let cleared (depth : Nat) : Emit Unit := do
    emit (.jump out)
    put keep
    for _ in List.range depth do
      emit .swap
      emit .pop
    put out
  match target with
  | .name n at_ =>
    getName n at_ false
    test
    em.named n value
    emit .dup
    setName n place
    cleared 0
  | .member t k _ at_ =>
    em.expression t
    emit .dup
    emitAt at_ (.getMember (.ofString k))
    test
    em.expression value
    emit .dup
    emit (.bury 2)
    emitAt place (.setMember (.ofString k) strict)
    cleared 1
  | .index t k _ at_ =>
    em.expression t
    em.expression k
    emit .toKey
    emit (.pick 1)
    emit (.pick 1)
    emitAt at_ .getIndex
    test
    em.expression value
    emit .dup
    emit (.bury 3)
    emitAt place (.setIndex strict)
    cleared 2
  | .hidden t k _ at_ =>
    em.expression t
    getHiddenName k
    emit (.pick 1)
    emit (.pick 1)
    emitAt at_ (.getHidden k)
    test
    em.expression value
    emit .dup
    emit (.bury 3)
    emitAt place (.setHidden k)
    cleared 2
  | _ => throw "invalid assignment left-hand side"

def unary (em : Emitter) (op : UnaryOperator) (e : Expression) (place : Position) : Emit Unit := do
  match op, ungrouped e with
  | .typeof, .name n at_ =>
    getName n at_ true
    emit .typeof
  | .typeof, e =>
    em.expression e
    emit .typeof
  | .void, e =>
    em.expression e
    emit .pop
    push .undefined
  | .negate, .literal (.int n) =>
    if n = 0 then
      em.expression e
      emitAt place (.unary .negate)
    else push (.int (-n))
  | _, _ =>
    em.expression e
    emitAt place (.unary op)

def removeTarget (em : Emitter) (target : Expression) (place : Position) : Emit Unit := do
  let strict := (← get).current.strict
  match target with
  | .member t k optional _ =>
    em.expression t
    if optional then shortcut 0
    push (.ofString k)
    emitAt place (.deleteIndex strict)
  | .index t k optional _ =>
    em.expression t
    if optional then shortcut 0
    em.expression k
    emitAt place (.deleteIndex strict)
  | .superMember _ _ => emitAt place (.fail .referenceError "unsupported reference to 'super'")
  | .name n _ =>
    match ← look n with
    | some _ => push (.bool false)
    | none => emitAt place (.deleteGlobal n)
  | e =>
    em.expression e
    emit .pop
    push (.bool true)

def remove (em : Emitter) (target : Expression) (place : Position) : Emit Unit :=
  match target with
  | .chain inside => inChain (removeTarget em inside place) (push (.bool true))
  | e => removeTarget em e place

/-! ### Suspension -/

def await (place : Position) : Emit Unit := emitAt place .await

/-- Goes on after a suspension: with the value, by throwing, or by returning. -/
def resume (place : Position) : Emit Unit := do
  let go ← newLabel
  emitAt place .resumed
  emit (.jumpIfNot go)
  if (← get).current.isAsync then await place
  returnTop
  put go

/-- Hands all values of another iterator on. -/
def yieldAll (em : Emitter) (value : Expression) (place : Position) : Emit Unit := do
  let isAsync := (← get).current.isAsync
  let iterator ← hiddenSlot
  let next ← hiddenSlot
  let mode ← hiddenSlot
  let again ← newLabel
  let goOn ← newLabel
  let ended ← newLabel
  em.expression value
  emitAt place (.iterate isAsync)
  emit (.bindSlot next)
  emit (.bindSlot iterator)
  push .undefined
  push (.int 0)
  put again
  emit .dup
  emit (.bindSlot mode)
  emit (.get iterator "iterator")
  emit (.get next "next")
  emitAt place (.delegate isAsync)
  emit (.jumpIfNot goOn)
  if isAsync then await place
  returnTop
  put goOn
  if isAsync then await place
  emitAt place .unpack
  emit (.jumpIf ended)
  emitAt place .yield
  emit (.jump again)
  put ended
  let out ← newLabel
  emit (.get mode "mode")
  push (.int 2)
  emit (.binary .same)
  emit (.jumpIfNot out)
  returnTop
  put out

def yield (em : Emitter) (value : Expression) (delegate : Bool) (place : Position) : Emit Unit := do
  if delegate then yieldAll em value place
  else
    if value.isAbsent then push .undefined else em.expression value
    if (← get).current.isAsync then await place
    emitAt place .yield
    resume place

/-! ### All expressions -/

def named (em : Emitter) (hint : String) (e : Expression) : Emit Unit := do
  match ungrouped e with
  | .function info params body =>
    if info.name.isEmpty then functionValue em (.function info params body) hint else em.expression e
  | .class own parent constructor members source place =>
    if own.isEmpty then classValue em own parent constructor members source place hint
    else em.expression e
  | _ => em.expression e

def expression (em : Emitter) (e : Expression) : Emit Unit := do
  match e with
  | .absent => push .undefined
  | .literal v => push v
  | .template strings values place => template em strings values place
  | .tagged tag strings values place =>
    groupedCallee em tag
    emit (.templateStrings strings)
    for v in values do em.expression v
    emitAt place (.call (values.length + 1))
  | .regexp body flags place => emitAt place (.regexp body flags)
  | .name n place => getName n place false
  | .this place =>
    match ← pseudoSlot .this with
    | some slot => emitAt place (.get slot "this")
    | none => push .undefined
  | .superMember k place =>
    getPseudo .this
    getPseudo .home
    em.expression k
    emitAt place .getSuper
  | .superCall args place => superCall em args place
  | .newTarget => getPseudo .newTarget
  | .array items _ => list em items
  | .object members _ =>
    emit .newObject
    for m in members do member em m
  | .function _ _ _ => functionValue em e ""
  | .class own parent constructor members source place =>
    classValue em own parent constructor members source place ""
  | .unary op operand place => unary em op operand place
  | .remove target place => remove em target place
  | .update isIncrement isPrefixed target place =>
    modifyTarget em target (!isPrefixed) place do
      if isPrefixed then emitAt place .toNumeric
      emitAt place (if isIncrement then .increment else .decrement)
  | .binary op left right place =>
    em.expression left
    em.expression right
    emitAt place (.binary op)
  | .logical op left right =>
    em.expression left
    logical op (em.expression right)
  | .assign target value place => assign em target value place
  | .assignOperator op target value place =>
    modifyTarget em target false place do
      em.expression value
      emitAt place (.binary op)
  | .assignLogical op target value place => assignLogical em op target value place
  | .conditional test yes no =>
    let other ← newLabel
    let out ← newLabel
    em.expression test
    emit (.jumpIfNot other)
    em.expression yes
    emit (.jump out)
    put other
    em.expression no
    put out
  | .call f args optional place => call em f args optional place
  | .new f args place => construct em f args place
  | .member t k optional place =>
    em.expression t
    if optional then shortcut 0
    emitAt place (.getMember (.ofString k))
  | .index t k optional place =>
    em.expression t
    if optional then shortcut 0
    em.expression k
    emitAt place .getIndex
  | .hidden t k optional place =>
    em.expression t
    if optional then shortcut 0
    getHiddenName k
    emitAt place (.getHidden k)
  | .hiddenIn k t place =>
    em.expression t
    getHiddenName k
    emitAt place .hasHidden
  | .chain inside => inChain (em.expression inside) (push .undefined)
  | .group inside => em.expression inside
  | .sequence first second =>
    em.expression first
    emit .pop
    em.expression second
  | .importCall name place =>
    em.expression name
    emitAt place .importModule
  | .yield value delegate place => yield em value delegate place
  | .await value place =>
    em.expression value
    await place
  | .spread inner _ => em.expression inner
  | .initialized _ value _ => em.expression value
  | .arrayPattern _ _ | .objectPattern _ _ => throw "invalid destructuring target"
  | .fixedKey k => push k.toValue
  | .hiddenKey name => getHiddenName name

end PluginRelay.Script.Emission
