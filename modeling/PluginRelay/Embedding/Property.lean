import PluginRelay.Embedding.Value

/-!
# Members from outside

Members are defined, not assigned: setters do not run, and what refuses a definition silently stays as
it is.
-/
namespace PluginRelay.Embedding.Operation

open Script

variable {κ τ ε : Type} [Holding τ]

/-- Defines a plain member in place of what was there, unless the object refuses. The engine takes the value
over in any case. -/
def define (target : Handle) (key : PropertyKey) (h : Handle) : Operation κ τ Unit := do
  settle
  let v ← handOver h
  perform target.context fun env => do
    match target.value with
    | .object o =>
      let _ ← Convert.define env o key (.ofProperty (.plain v))
      return
    | _ => Action.throwType "not an object"

theorem define_keeps (target : Handle) (key : PropertyKey) (h : Handle) :
    (define target key h : Operation κ τ Unit).Keeps [h] fun _ => [] := by
  unfold define
  refine Task.Keeps.bind (settle_sure.frame [h]).keeps fun _ => ?_
  exact Task.Keeps.bind (handOver_sure h).keeps fun _ => perform_keeps _ _

/-- A value that is not passed on goes, and the operation fails. -/
def refuse (g : Given) (f : Failure) : Operation κ τ Unit := do
  discard g
  throw f

theorem refuse_keeps (g : Given) (f : Failure) : (refuse g f : Operation κ τ Unit).Keeps g.handles fun _ => [] := by
  unfold refuse
  exact Task.Keeps.bind (discard_sure g).keeps fun _ => .throw f

/-- Sets a member; the value is made only once the key is known to be good. -/
def setProperty (target : Handle) (key : String) (g : Given) : Operation κ τ Unit := do
  match nulPosition? key with
  | some position => refuse g (.nul position)
  | none => define target (.ofString key) (← intoValue target.context g)

theorem setProperty_keeps (target : Handle) (key : String) (g : Given) :
    (setProperty target key g : Operation κ τ Unit).Keeps g.handles fun _ => [] := by
  unfold setProperty
  split
  · exact refuse_keeps g _
  · exact Task.Keeps.bind (intoValue_keeps _ g) fun h => define_keeps _ _ h

def setIndex (target : Handle) (index : Nat) (g : Given) : Operation κ τ Unit := do
  if indexLimit ≤ index then refuse g .badLength
  else define target (.ofNat index) (← intoValue target.context g)

theorem setIndex_keeps (target : Handle) (index : Nat) (g : Given) :
    (setIndex target index g : Operation κ τ Unit).Keeps g.handles fun _ => [] := by
  unfold setIndex
  split
  · exact refuse_keeps g _
  · exact Task.Keeps.bind (intoValue_keeps _ g) fun h => define_keeps _ _ h

/-- Sets the member behind the last one. -/
def append (target : Handle) (g : Given) : Operation κ τ Unit := do
  match ← attempt (getProperty target "length") with
  | .ok length =>
    match ← thenDrop length (return asLength? length.value) with
    | some n => setIndex target n g
    | none => refuse g .badLength
  | .error f => refuse g f

theorem append_keeps (target : Handle) (g : Given) :
    (append target g : Operation κ τ Unit).Keeps g.handles fun _ => [] := by
  unfold append
  refine Task.Keeps.bind ((attempt_sure (getProperty_keeps target _)).frame g.handles).keeps fun result => ?_
  cases result with
  | ok length =>
    have hlength : (thenDrop length (return asLength? length.value) : Operation κ τ (Option Nat)).Sure [length]
        fun _ => [] := thenDrop_sure (.pure rfl)
    refine Task.Keeps.bind (hlength.frame g.handles).keeps fun n => ?_
    cases n with
    | some n => exact setIndex_keeps target n g
    | none => exact refuse_keeps g _
  | error f => exact refuse_keeps g f

def newObject (id : ContextId) : Operation κ τ Handle :=
  performValue id fun _ => return .object (← Action.newPlain)

theorem newObject_keeps (id : ContextId) : (newObject id : Operation κ τ Handle).Keeps [] fun h => [h] :=
  performValue_keeps _ _

def newArray (id : ContextId) : Operation κ τ Handle :=
  performValue id fun _ => return .object (← Action.newArray [])

theorem newArray_keeps (id : ContextId) : (newArray id : Operation κ τ Handle).Keeps [] fun h => [h] :=
  performValue_keeps _ _

/-- What a list gives up. -/
def givenUp (items : List Given) : List Handle := items.flatMap Given.handles

def discardAll (items : List Given) : Task ε κ τ Unit := items.forM discard

theorem discardAll_sure (items : List Given) :
    (discardAll items : Task ε κ τ Unit).Sure (givenUp items) fun _ => [] :=
  (forM_sure discard_sure items).congr (fun _ => rfl) fun _ r => Handle.total_flatMap_nil items r

/-- Sets members from an index on. Where one fails the others are given up. -/
def fill (list : Handle) : (index : Nat) → List Given → Operation κ τ Unit
  | _, [] => return
  | index, g :: rest => do
    match ← attempt (intoValue list.context g) with
    | .ok h =>
      onFailure (setIndex list index (.moved h)) (discardAll rest)
      fill list (index + 1) rest
    | .error f =>
      discardAll rest
      throw f

theorem fill_keeps (list : Handle) (index : Nat) (items : List Given) :
    (fill list index items : Operation κ τ Unit).Keeps (givenUp items) fun _ => [] := by
  induction items generalizing index with
  | nil => exact .pure rfl
  | cons g rest ih =>
    unfold fill
    refine Task.Keeps.bind ((attempt_sure (intoValue_keeps _ g)).frame (givenUp rest)).keeps fun made => ?_
    cases made with
    | ok h =>
      refine Task.Keeps.bind (onFailure_keeps (setIndex_keeps list index (.moved h)) (discardAll_sure rest))
        fun _ => ?_
      exact ih (index + 1)
    | error f => exact Task.Keeps.bind (discardAll_sure rest).keeps fun _ => .throw f

/-- An array of values, each of which may fail to be made. -/
def arrayOf (id : ContextId) (items : List Given) : Operation κ τ Handle := do
  let list ← onFailure (newArray id) (discardAll items)
  orDrop list (fill list 0 items)

theorem arrayOf_keeps (id : ContextId) (items : List Given) :
    (arrayOf id items : Operation κ τ Handle).Keeps (givenUp items) fun h => [h] := by
  unfold arrayOf
  refine Task.Keeps.bind (onFailure_keeps (newArray_keeps id) (discardAll_sure items)) fun list => ?_
  exact orDrop_keeps (fill_keeps list 0 items)

/-! ### Listing -/

/-- The keys of own enumerable members, without symbols. -/
def ownKeys (env : Env (World κ τ)) (target : Value) : Action (World κ τ) (List Units) := do
  match target with
  | .object o =>
    let mut keys := #[]
    for key in ← Access.ownKeys env o do
      if let some units := key.units? then
        if let some p ← Access.getOwn env o key then
          if p.enumerable then keys := keys.push units
    return keys.toList
  | _ => Action.throwType "not an object"

/-- The names of an object's members. -/
def propertyNames (target : Handle) : Operation κ τ (List String) :=
  return (← perform target.context fun env => ownKeys env target.value).map Units.toStringLossy

theorem propertyNames_keeps (target : Handle) :
    (propertyNames target : Operation κ τ (List String)).Keeps [] fun _ => [] := by
  unfold propertyNames
  exact Task.Keeps.bind (perform_keeps _ _) fun _ => .pure rfl

/-- Looks up members, each of which may fail. -/
def lookUp (target : Handle) : List String → Task ε κ τ (List (Except Failure (String × Handle)))
  | [] => return []
  | name :: rest => do
    let found ← attempt (getProperty target name)
    return found.map (name, ·) :: (← lookUp target rest)

/-- The values that were found. -/
def valuesOf (members : List (Except Failure (String × Handle))) : List Handle :=
  members.flatMap (givenBy fun member => [member.2])

theorem lookUp_sure (target : Handle) (names : List String) :
    (lookUp target names : Task ε κ τ (List (Except Failure (String × Handle)))).Sure [] valuesOf := by
  induction names with
  | nil => exact .pure rfl
  | cons name rest ih =>
    unfold lookUp
    refine Task.Sure.bind (attempt_sure (getProperty_keeps target name)) fun found => ?_
    refine Task.Sure.bind (ih.frame (givenBy (fun h => [h]) found)) fun members => ?_
    refine (Task.Sure.pure rfl).congr (fun r => ?_) fun _ _ => rfl
    cases found <;> simp [valuesOf, givenBy, Except.map]
    omega

/-- The members of an object. The values are looked up one after the other, by their names; each may
fail. -/
def properties (target : Handle) : Operation κ τ (List (Except Failure (String × Handle))) := do
  let names ← propertyNames target
  let target ← clone target
  thenDrop target (lookUp target names)

theorem properties_keeps (target : Handle) :
    (properties target : Operation κ τ (List (Except Failure (String × Handle)))).Keeps [] valuesOf := by
  unfold properties
  refine Task.Keeps.bind (propertyNames_keeps target) fun names => ?_
  exact Task.Keeps.bind (clone_sure target).keeps fun h => (thenDrop_sure (lookUp_sure h names)).keeps

end PluginRelay.Embedding.Operation
