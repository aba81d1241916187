import PluginRelay.Script.Emission.Basic

/-!
# Leaving constructs

A jump out of constructs undoes them from the inside outwards: handlers are removed, last parts are
run, and iterators are closed.
-/
namespace PluginRelay.Script.Emission

/-- Closes an iterator, waiting for the outcome if it is asynchronous. -/
def closeIterator (slot : Slot) (isAsync : Bool) : Emit Unit := do
  emit (.get slot "iterator")
  if isAsync then
    let skip ← newLabel
    let done ← newLabel
    emit .callReturn
    emit (.jumpIfNot skip)
    emit .await
    emit .checkObject
    emit (.jump done)
    put skip
    put done
    emit .pop
  else emit .close

/-- Undoes a construct; `held` says that a value to keep lies on the stack. -/
def undo (held : Bool) : Construct → Emit Unit
  | .target _ _ _ _ => return
  | .handler => emit .unhandle
  | .finalizer label => do
    emit .unhandle
    emit (.enter label)
  | .finalizing => do
    if held then emit .swap
    emit .pop
  | .iterator slot isAsync => do
    emit .unhandle
    closeIterator slot isAsync

/-- Returns the top of the stack from the function. -/
def returnTop : Emit Unit := do
  let p := (← get).current
  for c in p.constructs do undo true c
  if p.kind = .derivedConstructor then
    match ← pseudoSlot .this with
    | some slot => emit (.checkReturn slot)
    | none => return
  emit .return

/-- The constructs inside the target of a jump, and where it goes. -/
def exits (isContinue : Bool) (name : String) : List Construct → Option (List Construct × Label)
  | [] => none
  | .target names isPlain exit again :: rest =>
    let matching := if name.isEmpty then isPlain else names.contains name
    match matching, isContinue, again with
    | true, false, _ => some ([], exit)
    | true, true, some label => some ([], label)
    | _, _, _ => (exits isContinue name rest).map fun (inside, label) => (inside, label)
  | c :: rest => (exits isContinue name rest).map fun (inside, label) => (c :: inside, label)

def jumpOut (isContinue : Bool) (name : String) : Emit Unit := do
  match exits isContinue name (← get).current.constructs with
  | some (inside, label) =>
    for c in inside do undo false c
    emit (.jump label)
  | none => throw "break/continue label not found"

end PluginRelay.Script.Emission
