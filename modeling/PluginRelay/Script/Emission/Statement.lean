import PluginRelay.Script.Emission.Expression

/-!
# Statements

Statements leave nothing on the stack. Scripts keep the value of the last statement that has one.
-/
namespace PluginRelay.Script.Emission

/-- The statement has no value, unless a part of it has one. -/
def resetCompletion : Emit Unit := do
  match (← get).current.completion with
  | some slot =>
    push .undefined
    emit (.bindSlot slot)
  | none => return

/-- The labels in front of the statement, which now belong to it. -/
def takeLabels : Emit (List String) := do
  let names := (← get).current.pending
  modifyCurrent fun p => { p with pending := [] }
  return names

/-! ### Declarations -/

def declaration (em : Emitter) (kind : DeclarationKind) (part : Expression) : Emit Unit := do
  let declares := kind ≠ .var
  match part with
  | .initialized (.name n place) value _ =>
    em.named n value
    if declares then initializeName n place else setName n place
  | .initialized target value _ =>
    em.expression value
    em.pattern declares target
  | .name n place =>
    if declares then
      push .undefined
      initializeName n place
  | target => em.pattern declares target

/-- Assigns the top of the stack to a name outside of the block that declares it again. -/
def setOuter (name : String) : Emit Unit := do
  let scopes := (← get).current.scopes
  let outer := (scopes.dropWhile fun scope => !scope.any (·.name = name)).tail
  modifyCurrent fun p => { p with scopes := outer }
  setName name default
  modifyCurrent fun p => { p with scopes := scopes }

/-! ### Loops -/

def loop (names : List String) (exit again : Label) (body : Emit Unit) : Emit Unit :=
  within (.target names true exit (some again)) body

def whileLoop (em : Emitter) (test : Expression) (body : Statement) : Emit Unit := do
  let names ← takeLabels
  resetCompletion
  let again ← newLabel
  let exit ← newLabel
  put again
  em.expression test
  emit (.jumpIfNot exit)
  loop names exit again (em.statement body)
  emit (.jump again)
  put exit

def doLoop (em : Emitter) (body : Statement) (test : Expression) : Emit Unit := do
  let names ← takeLabels
  resetCompletion
  let again ← newLabel
  let next ← newLabel
  let exit ← newLabel
  put again
  loop names exit next (em.statement body)
  put next
  em.expression test
  emit (.jumpIf again)
  put exit

/-- The variables of a block by number. -/
def renewAll (names : List String) : Emit Unit := do
  for name in names do
    match ← look name with
    | some (.own n, .letting) => emit (.renew n)
    | _ => continue

def countingLoop (em : Emitter) (initial : Statement) (test step : Expression) (body : Statement) :
    Emit Unit := do
  let names ← takeLabels
  resetCompletion
  inBlock do
    declareLexical [initial]
    let own := (lexicalNames initial).map (·.1)
    match initial with
    | .expression e =>
      em.expression e
      emit .pop
    | s => em.statement s
    renewAll own
    let again ← newLabel
    let next ← newLabel
    let exit ← newLabel
    put again
    if !test.isAbsent then
      em.expression test
      emit (.jumpIfNot exit)
    loop names exit next (em.statement body)
    put next
    renewAll own
    if !step.isAbsent then
      em.expression step
      emit .pop
    emit (.jump again)
    put exit

/-- Gives the value on the top to the head of a loop over keys or elements. -/
def bindHead (em : Emitter) (head : Statement) : Emit Unit := do
  match head with
  | .declare kind names [target] =>
    if kind ≠ .var then
      for name in names do
        declareFresh name (if kind = .const then .const else .letting)
    em.pattern (kind ≠ .var) target
  | .expression target => em.pattern false target
  | _ => throw "invalid for in/of left hand-side"

def keyLoop (em : Emitter) (head : Statement) (source : Expression) (body : Statement)
    (place : Position) : Emit Unit := do
  let names ← takeLabels
  resetCompletion
  let keys ← hiddenSlot
  let again ← newLabel
  let ended ← newLabel
  let exit ← newLabel
  em.expression source
  emitAt place .enumerate
  emit (.bindSlot keys)
  put again
  emit (.get keys "keys")
  emitAt place .nextKey
  emit (.jumpIf ended)
  inBlock do
    bindHead em head
    loop names exit again (em.statement body)
  emit (.jump again)
  put ended
  emit .pop
  put exit

def elementLoop (em : Emitter) (head : Statement) (source : Expression) (body : Statement)
    (isAsync : Bool) (place : Position) : Emit Unit := do
  let names ← takeLabels
  resetCompletion
  let iterator ← hiddenSlot
  let next ← hiddenSlot
  let element ← hiddenSlot
  let again ← newLabel
  let goOn ← newLabel
  let broken ← newLabel
  let failed ← newLabel
  let ended ← newLabel
  let out ← newLabel
  em.expression source
  emitAt place (.iterate isAsync)
  emit (.bindSlot next)
  emit (.bindSlot iterator)
  put again
  emit (.get iterator "iterator")
  emit (.get next "next")
  if isAsync then
    emitAt place .callNext
    await place
    emit .unpack
  else emitAt place .advance
  emit (.jumpIf ended)
  emit (.bindSlot element)
  emit (.handle failed)
  within (.iterator iterator isAsync) do
    loop names broken goOn do
      inBlock do
        emit (.get element "element")
        bindHead em head
        em.statement body
  put goOn
  emit .unhandle
  emit (.jump again)
  put broken
  emit .unhandle
  closeIterator iterator isAsync
  emit (.jump out)
  put failed
  emit (.get iterator "iterator")
  emit .closeQuietly
  emit .throw
  put ended
  emit .pop
  put out

/-! ### Choices -/

def choice (em : Emitter) (test : Expression) (yes no : Statement) : Emit Unit := do
  resetCompletion
  let other ← newLabel
  let out ← newLabel
  em.expression test
  emit (.jumpIfNot other)
  inBlock (blockBody em [yes])
  emit (.jump out)
  put other
  inBlock (blockBody em [no])
  put out

def switch (em : Emitter) (subject : Expression) (cases : List Statement) : Emit Unit := do
  let names ← takeLabels
  resetCompletion
  let slot ← hiddenSlot
  let exit ← newLabel
  em.expression subject
  emit (.bindSlot slot)
  inBlock do
    let bodies := cases.flatMap fun
      | .case _ body => body
      | _ => []
    declareLexical bodies
    let functions := bodies.filterMap declaredFunction?
    for name in (functions.map (·.2)).eraseDups do declareFresh name .var
    for (f, name) in functions do
      em.named name f
      initializeName name default
    let mut labels : List (Label × List Statement) := []
    let mut other := exit
    for c in cases do
      match c with
      | .case test body =>
        let label ← newLabel
        labels := labels ++ [(label, body)]
        if test.isAbsent then other := label
        else
          emit (.get slot "subject")
          em.expression test
          emit (.binary .same)
          emit (.jumpIf label)
      | _ => continue
    emit (.jump other)
    within (.target names true exit none) do
      for (label, body) in labels do
        put label
        for s in body do em.statement s
  put exit

def handler (em : Emitter) (parameter : Expression) (names : List String) (body : List Statement) :
    Emit Unit := do
  inBlock do
    for name in names do declareFresh name .letting
    if parameter.isAbsent then emit .pop else em.pattern true parameter
    inBlock (blockBody em body)

/-- A guarded part with a handler for its exceptions. -/
def caught (em : Emitter) (body : Statement) (h : Statement) : Emit Unit := do
  match h with
  | .handler parameter names list =>
    let failed ← newLabel
    let out ← newLabel
    emit (.handle failed)
    within .handler (em.statement body)
    emit .unhandle
    emit (.jump out)
    put failed
    handler em parameter names list
    put out
  | _ => em.statement body

/-- A part that is followed by a last part, however it is left. The last part does not change the value
of a script. -/
def finalized (em : Emitter) (body : Emit Unit) (last : Statement) : Emit Unit := do
  let failed ← newLabel
  let final ← newLabel
  let out ← newLabel
  emit (.handle failed)
  within (.finalizer final) body
  emit .unhandle
  emit (.enter final)
  emit (.jump out)
  put failed
  emit (.enter final)
  emit .throw
  put final
  within .finalizing do
    match (← get).current.completion with
    | some slot =>
      let saved ← hiddenSlot
      emit (.get slot "completion")
      emit (.bindSlot saved)
      em.statement last
      emit (.get saved "completion")
      emit (.bindSlot slot)
    | none => em.statement last
  emit .leave
  put out

def guarded (em : Emitter) (body h last : Statement) : Emit Unit := do
  resetCompletion
  if last.isEmpty then caught em body h else finalized em (caught em body h) last

def isLoop : Statement → Bool
  | .while _ _ | .doWhile _ _ | .for _ _ _ _ | .forIn _ _ _ _ | .forOf _ _ _ _ _ | .switch _ _
  | .labeled _ _ => true
  | _ => false

def labeled (em : Emitter) (label : String) (body : Statement) : Emit Unit := do
  if isLoop body then
    modifyCurrent fun p => { p with pending := label :: p.pending }
    em.statement body
  else
    let names ← takeLabels
    let exit ← newLabel
    within (.target (label :: names) false exit none) (em.statement body)
    put exit

/-! ### All statements -/

def statement (em : Emitter) (s : Statement) : Emit Unit := do
  match s with
  | .empty => return
  | .expression e =>
    em.expression e
    match (← get).current.completion with
    | some slot => emit (.bindSlot slot)
    | none => emit .pop
  | .declare kind _ parts => for part in parts do declaration em kind part
  | .function _ name isShared =>
    if isShared then
      getName name default false
      setOuter name
  | .class c name =>
    em.expression c
    initializeName name default
  | .block body => inBlock (blockBody em body)
  | .choose test yes no => choice em test yes no
  | .while test body => whileLoop em test body
  | .doWhile body test => doLoop em body test
  | .for initial test step body => countingLoop em initial test step body
  | .forIn head source body place => keyLoop em head source body place
  | .forOf head source body isAwait place => elementLoop em head source body isAwait place
  | .switch subject cases => switch em subject cases
  | .case _ _ | .handler _ _ _ => return
  | .guarded body h last => guarded em body h last
  | .throw e place =>
    em.expression e
    emitAt place .throw
  | .return e place =>
    if e.isAbsent then push .undefined else em.expression e
    let p := (← get).current
    if p.isAsync && p.isGenerator then await place
    returnTop
  | .break label => jumpOut false label
  | .continue label => jumpOut true label
  | .labeled label body => labeled em label body

end PluginRelay.Script.Emission
