import PluginRelay.Script.Emission.Control

/-!
# Patterns

Lists are taken apart through their iterator, which is closed if it has not come to its end; objects by
their members.
-/
namespace PluginRelay.Script.Emission

/-- An expression without the brackets around it. -/
def ungrouped : Expression → Expression
  | .group e => ungrouped e
  | e => e

/-- The hidden name of a class, as a variable. -/
def getHiddenName (name : String) : Emit Unit := do
  match ← look ("#" ++ name) with
  | some (slot, _) => emit (.get slot ("#" ++ name))
  | none => throw ("undefined private field '#" ++ name ++ "'")

/-- Puts a key on the stack. -/
def key (em : Emitter) : Expression → Emit Unit
  | .fixedKey k => push k.toValue
  | .hiddenKey name => getHiddenName name
  | e => em.expression e

/-- Assigns the top of the stack to a simple target. -/
def assignTop (em : Emitter) (declares : Bool) (target : Expression) : Emit Unit := do
  let strict := (← get).current.strict
  match target with
  | .name n place => if declares then initializeName n place else setName n place
  | .member t k _ place =>
    em.expression t
    emit .swap
    emitAt place (.setMember (.ofString k) strict)
  | .index t k _ place =>
    em.expression t
    em.expression k
    emit (.pull 2)
    emitAt place (.setIndex strict)
  | .hidden t k _ place =>
    em.expression t
    getHiddenName k
    emit (.pull 2)
    emitAt place (.setHidden k)
  | .superMember k place =>
    getPseudo .this
    getPseudo .home
    em.expression k
    emit (.pull 3)
    emitAt place (.setSuper strict)
  | _ => throw "invalid assignment left-hand side"

/-- The next element of a list that is taken apart; nothing more is asked after the end. -/
def nextElement (iterator next done : Slot) (place : Position) : Emit Unit := do
  let ended ← newLabel
  let out ← newLabel
  emit (.get done "done")
  emit (.jumpIf ended)
  push (.bool true)
  emit (.bindSlot done)
  emit (.get iterator "iterator")
  emit (.get next "next")
  emitAt place .advance
  emit .dup
  emit (.bindSlot done)
  emit (.jumpIfNot out)
  emit .pop
  put ended
  push .undefined
  put out

/-- All elements that are left, as a list. -/
def remainingElements (iterator next done : Slot) (place : Position) : Emit Unit := do
  let again ← newLabel
  let ended ← newLabel
  let out ← newLabel
  emit .newArray
  put again
  emit (.get done "done")
  emit (.jumpIf out)
  push (.bool true)
  emit (.bindSlot done)
  emit (.get iterator "iterator")
  emit (.get next "next")
  emitAt place .advance
  emit .dup
  emit (.bindSlot done)
  emit (.jumpIf ended)
  emit .append
  emit (.jump again)
  put ended
  emit .pop
  put out

/-- Takes the list on the top apart. -/
def listPattern (em : Emitter) (declares : Bool) (items : List Expression) (place : Position) :
    Emit Unit := do
  let iterator ← hiddenSlot
  let next ← hiddenSlot
  let done ← hiddenSlot
  let failed ← newLabel
  let rethrow ← newLabel
  let closed ← newLabel
  let out ← newLabel
  emitAt place (.iterate false)
  emit (.bindSlot next)
  emit (.bindSlot iterator)
  push (.bool false)
  emit (.bindSlot done)
  emit (.handle failed)
  within .handler do
    for item in items do
      match item with
      | .absent =>
        nextElement iterator next done place
        emit .pop
      | .spread target _ =>
        remainingElements iterator next done place
        em.pattern declares target
      | e =>
        nextElement iterator next done place
        em.pattern declares e
  emit .unhandle
  emit (.get done "done")
  emit (.jumpIf closed)
  emit (.get iterator "iterator")
  emit .close
  put closed
  emit (.jump out)
  put failed
  emit (.get done "done")
  emit (.jumpIf rethrow)
  emit (.get iterator "iterator")
  emit .closeQuietly
  put rethrow
  emit .throw
  put out

/-- One member of an object pattern; gives what puts its key on the stack again. -/
def memberPattern (em : Emitter) (declares keepsKey : Bool) (k value : Expression)
    (place : Position) : Emit (Emit Unit) := do
  emit .dup
  match k with
  | .fixedKey k =>
    emitAt place (.getMember k)
    em.pattern declares value
    return push k.toValue
  | _ =>
    key em k
    emit .toKey
    if keepsKey then
      let slot ← hiddenSlot
      emit .dup
      emit (.bindSlot slot)
      emitAt place .getIndex
      em.pattern declares value
      return emit (.get slot "key")
    else
      emitAt place .getIndex
      em.pattern declares value
      return pure ()

/-- Takes the object on the top apart. -/
def objectPattern (em : Emitter) (declares : Bool) (members : List Member) (place : Position) :
    Emit Unit := do
  let hasRest := members.any fun | .mk role _ _ _ _ => role = .spread
  emit .dup
  emitAt place .requireObject
  let mut keys : List (Emit Unit) := []
  for m in members do
    match m with
    | .mk .spread _ _ target _ =>
      emit .dup
      for k in keys do k
      emit (.restMembers keys.length)
      em.pattern declares target
    | .mk _ _ k value here =>
      let again ← memberPattern em declares hasRest k value here
      keys := keys ++ [again]
  emit .pop

/-- Assigns the top of the stack to a target or pattern. -/
def pattern (em : Emitter) (declares : Bool) (target : Expression) : Emit Unit := do
  match target with
  | .initialized inner value _ =>
    let given ← newLabel
    emit .dup
    emit .isUndefined
    emit (.jumpIfNot given)
    emit .pop
    match inner with
    | .name n _ => em.named n value
    | _ => em.expression value
    put given
    em.pattern declares inner
  | .arrayPattern items place => listPattern em declares items place
  | .objectPattern members place => objectPattern em declares members place
  | .group inner => em.pattern declares inner
  | e => assignTop em declares e

end PluginRelay.Script.Emission
