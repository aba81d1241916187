import PluginRelay.Embedding.Context

/-!
# Functions by name

The functions that host programs offer to scripts under a name of their own, and the things that these
functions put aside.
-/
namespace PluginRelay.Embedding

open Script

/-- Ways to fail that scripts can ask for. -/
inductive FailureKind where
  | engineStart | contextStart | nul | indexOverflow | badLength | unsupported
  deriving DecidableEq, Repr, Inhabited

inductive Offer where
  | noop
  /-- The sum of the arguments that are integers of 32 bits. -/
  | sum
  | double
  | const (p : Primitive)
  | this
  | thisGet (key : String)
  | thisSet (key : String)
  | argument (n : Nat)
  | count
  | kinds
  | list
  | debug
  | text
  | raise (message : String) (times : Nat)
  | raiseKind (kind : FailureKind)
  | panic (message : Option String)
  /-- Calls the first argument with the others. -/
  | call
  /-- The same, where a failure becomes its text. -/
  | callMessage
  /-- Calls the first argument, and the second one, if any, after a failure. -/
  | callTwo
  /-- Calls the first argument and puts its exception aside. -/
  | save
  | raiseSaved
  | eval
  /-- Puts the arguments aside. -/
  | stash
  | collect
  /-- Makes a function that adds to the first argument. -/
  | adder
  | add (x : Binary64)
  deriving DecidableEq, Repr, Inhabited

/-- What functions have put aside. -/
structure Shelf where
  stash : List Handle
  saved : Option Thrown
  deriving Inhabited

instance : Holding Shelf := ⟨Shelf.stash⟩

@[simp]
theorem Invocation.handles_argument (i : Invocation) (n : Nat) : (i.argument n).handles = [] := by
  unfold argument
  split <;> rfl

namespace Offer

open Operation

abbrev Op (α : Type) := Operation Offer Shelf α

/-- The first argument, or `undefined` if there is none, as a value to give up. -/
def takeFirst (i : Invocation) : Op Handle := intoValue i.context (i.argument 0)

theorem takeFirst_keeps (i : Invocation) : (takeFirst i).Keeps [] fun h => [h] := by
  have h := intoValue_keeps (κ := Offer) (τ := Shelf) i.context (i.argument 0)
  rwa [i.handles_argument] at h

/-- Does something with the first argument, or with `undefined` if there is none. -/
def withFirst {α : Type} (i : Invocation) (use : Handle → Op α) : Op α := do
  let first ← takeFirst i
  thenDrop first (use first)

theorem withFirst_keeps {α : Type} {use : Handle → Op α} {gives : α → List Handle}
    (h : ∀ first, (use first).Keeps [] gives) (i : Invocation) : (withFirst i use).Keeps [] gives :=
  Task.Keeps.bind (takeFirst_keeps i) fun first => thenDrop_keeps (h first)

/-- The first argument where values are only read. -/
def first (i : Invocation) : Value := (i.arguments.head?.map Handle.value).getD .undefined

def answer (id : ContextId) (p : Primitive) : Op Answer := return .value (← ofPrimitive id p)

theorem answer_keeps (id : ContextId) (p : Primitive) : (answer id p).Keeps [] Answer.handles :=
  Task.Keeps.bind (ofPrimitive_keeps id p) fun _ => .pure rfl

def give (h : Op Handle) : Op Answer := return .value (← h)

theorem give_keeps {op : Op Handle} (h : op.Keeps [] fun h => [h]) : (give op).Keeps [] Answer.handles :=
  Task.Keeps.bind h fun _ => .pure rfl

/-- Sets a member of `this`. -/
def setOwn (i : Invocation) (key : String) : Op Unit := setProperty i.this key (i.argument 0)

theorem setOwn_keeps (i : Invocation) (key : String) : (setOwn i key).Keeps [] fun _ => [] := by
  have h := setProperty_keeps (κ := Offer) (τ := Shelf) i.this key (i.argument 0)
  rwa [i.handles_argument] at h

def fail (this : Handle) (id : ContextId) : FailureKind → Op Handle
  | .engineStart => throw .engineStart
  | .contextStart => throw .contextStart
  | .nul => getProperty this "a\x00b"
  | .indexOverflow => getIndex this UInt32.size
  | .badLength => do
    setIndex this UInt32.size (.primitive (.i32 1))
    ofPrimitive id .undefined
  | .unsupported => ofPrimitive id (.symbol "s")

theorem fail_keeps (this : Handle) (id : ContextId) (kind : FailureKind) :
    (fail this id kind).Keeps [] fun h => [h] := by
  unfold fail
  cases kind with
  | engineStart => exact .throw _
  | contextStart => exact .throw _
  | nul => exact getProperty_keeps this _
  | indexOverflow => exact getIndex_keeps this _
  | badLength =>
    exact Task.Keeps.bind (setIndex_keeps this _ (.primitive _)) fun _ => ofPrimitive_keeps id _
  | unsupported => exact ofPrimitive_keeps id _

/-! ### Calling -/

/-- Calls a value on the global object. -/
def callOnGlobal (id : ContextId) (f : Handle) (args : List Handle) : Op Handle := do
  let global ← global id
  thenDrop global (Operation.call f global args)

theorem callOnGlobal_keeps (id : ContextId) (f : Handle) (args : List Handle) :
    (callOnGlobal id f args).Keeps [] fun h => [h] :=
  Task.Keeps.bind (global_sure id).keeps fun global => thenDrop_keeps (call_keeps f global args)

def callFirst (i : Invocation) (args : List Handle) : Op Handle :=
  withFirst i fun f => callOnGlobal i.context f args

theorem callFirst_keeps (i : Invocation) (args : List Handle) : (callFirst i args).Keeps [] fun h => [h] :=
  withFirst_keeps (fun f => callOnGlobal_keeps i.context f args) i

/-- Calls a value for what it does. -/
def callAside (id : ContextId) (f : Handle) : Op Unit := do
  match ← attempt (callOnGlobal id f []) with
  | .ok h => drop h
  | .error _ => return

theorem callAside_keeps (id : ContextId) (f : Handle) : (callAside id f).Keeps [] fun _ => [] := by
  unfold callAside
  refine Task.Keeps.bind (attempt_sure (callOnGlobal_keeps id f [])).keeps fun outcome => ?_
  cases outcome with
  | ok h => exact (drop_sure h).keeps
  | error _ => exact .pure rfl

/-- The text by which a failure is told to a script. -/
def shownFailure : Failure → String
  | .thrown e => e.message
  | f => f.message

def callMessaging (i : Invocation) : Op Answer := do
  match ← attempt (callFirst i (i.arguments.drop 1)) with
  | .ok h => return .value h
  | .error f => answer i.context (.str (shownFailure f))

theorem callMessaging_keeps (i : Invocation) : (callMessaging i).Keeps [] Answer.handles := by
  unfold callMessaging
  refine Task.Keeps.bind (attempt_sure (callFirst_keeps i _)).keeps fun outcome => ?_
  cases outcome with
  | ok h => exact .pure rfl
  | error f => exact answer_keeps _ _

def callBoth (i : Invocation) : Op Answer := do
  match ← attempt (callFirst i []) with
  | .ok h => return .value h
  | .error f =>
    match i.arguments[1]? with
    | some second =>
      callAside i.context second
      throw f
    | none => throw f

theorem callBoth_keeps (i : Invocation) : (callBoth i).Keeps [] Answer.handles := by
  unfold callBoth
  refine Task.Keeps.bind (attempt_sure (callFirst_keeps i [])).keeps fun outcome => ?_
  cases outcome with
  | ok h => exact .pure rfl
  | error f =>
    dsimp only
    split
    · exact Task.Keeps.bind (callAside_keeps _ _) fun _ => .throw f
    · exact .throw f

/-! ### Putting aside -/

def saveThrown (e : Thrown) : Op Unit := modifyOwn fun s => { s with saved := some e }

theorem saveThrown_keeps (e : Thrown) : (saveThrown e).Keeps [] fun _ => [] :=
  Task.Sure.keeps (modifyOwn_sure fun _ _ => rfl)

def callSaving (i : Invocation) : Op Answer := do
  match ← attempt (callFirst i (i.arguments.drop 1)) with
  | .ok h =>
    drop h
    answer i.context .undefined
  | .error (.thrown e) =>
    saveThrown e
    answer i.context .undefined
  | .error f => throw f

theorem callSaving_keeps (i : Invocation) : (callSaving i).Keeps [] Answer.handles := by
  unfold callSaving
  refine Task.Keeps.bind (attempt_sure (callFirst_keeps i _)).keeps fun outcome => ?_
  cases outcome with
  | ok h => exact Task.Keeps.bind (drop_sure h).keeps fun _ => answer_keeps _ _
  | error f =>
    cases f with
    | thrown e => exact Task.Keeps.bind (saveThrown_keeps e) fun _ => answer_keeps _ _
    | _ => exact .throw _

def raiseSavedOne (i : Invocation) : Op Answer := do
  match (← own).saved with
  | some e => throw (.thrown e)
  | none => answer i.context .undefined

theorem raiseSavedOne_keeps (i : Invocation) : (raiseSavedOne i).Keeps [] Answer.handles := by
  unfold raiseSavedOne
  refine Task.Keeps.bind own_sure.keeps fun s => ?_
  split
  · exact .throw _
  · exact answer_keeps _ _

def putOnShelf (h : Handle) : Op Unit :=
  modifyOwn fun s => { s with stash := s.stash ++ [h] }

theorem putOnShelf_sure (h : Handle) : (putOnShelf h).Sure [h] fun _ => [] :=
  modifyOwn_sure fun _ r => Handle.total_append _ [h] r

/-- Puts a copy of a value aside. -/
def putAside (h : Handle) : Op Unit := do
  putOnShelf (← clone h)

theorem putAside_sure (h : Handle) : (putAside h).Sure [] fun _ => [] :=
  Task.Sure.bind (clone_sure h) putOnShelf_sure

/-- Everything that was put aside goes. -/
def clearStash : Op Unit := do
  (← modifyOwnGet fun s => (s.stash, { s with stash := [] })).forM drop

/-! ### Answering -/

def sumOf (values : List Value) : Int := (values.filterMap asShort?).foldl (· + ·) 0

def asDoubleOrZero (v : Value) : Binary64 := (asDouble? v).getD .zero

def answerTo (offer : Offer) (i : Invocation) : Op Answer := do
  let id := i.context
  match offer with
  | noop => answer id .undefined
  | sum => answer id (.i64 (Int64.ofInt (sumOf (i.arguments.map Handle.value))))
  | double => answer id (.i64 (Int64.ofInt (((asShort? (first i)).getD 0) * 2)))
  | const p => answer id p
  | this => give (clone i.this)
  | thisGet key => give (getProperty i.this key)
  | thisSet key =>
    setOwn i key
    answer id .undefined
  | argument n => give (intoValue id (i.argument n))
  | count => answer id (.ofSize i.arguments.length)
  | kinds =>
    let names := i.arguments.map fun h => (ValueKind.of h.value).name
    answer id (.str (String.intercalate "," names))
  | list => give (arrayOf id (i.arguments.map .lent))
  | debug => answer id (.str (Text.listed (← i.arguments.mapM Operation.debug)))
  | text => answer id (.str (← withFirst i Operation.text))
  | raise message times => throw (.refused (String.join (List.replicate times message)))
  | raiseKind kind => give (fail i.this id kind)
  | panic message => return .panic message
  | Offer.call => give (callFirst i (i.arguments.drop 1))
  | callMessage => callMessaging i
  | callTwo => callBoth i
  | save => callSaving i
  | raiseSaved => raiseSavedOne i
  | Offer.eval => give (Operation.eval id scriptName (← withFirst i Operation.text))
  | stash =>
    i.arguments.forM putAside
    answer id .undefined
  | Offer.collect =>
    Operation.collect
    answer id .undefined
  | adder => give (newFunction id "add" (.custom (add (asDoubleOrZero (first i)))))
  | add x => answer id (.f64 (x.add (asDoubleOrZero (first i))))

theorem answerTo_keeps (offer : Offer) (i : Invocation) : (answerTo offer i).Keeps [] Answer.handles := by
  cases offer with
  | this => exact give_keeps (clone_sure i.this).keeps
  | thisGet key => exact give_keeps (getProperty_keeps i.this key)
  | thisSet key => exact Task.Keeps.bind (setOwn_keeps i key) fun _ => answer_keeps _ _
  | argument n =>
    have h := intoValue_keeps (κ := Offer) (τ := Shelf) i.context (i.argument n)
    rw [i.handles_argument] at h
    exact give_keeps h
  | list =>
    refine give_keeps ((arrayOf_keeps i.context _).congr (fun r => ?_) fun _ _ => rfl)
    rw [givenUp, List.flatMap_map]
    exact (Handle.total_flatMap_nil i.arguments r).symm
  | debug => exact Task.Keeps.bind (mapM_sure debug_sure i.arguments).keeps fun _ => answer_keeps _ _
  | text => exact Task.Keeps.bind (withFirst_keeps text_keeps i) fun _ => answer_keeps _ _
  | raise message times => exact .throw _
  | raiseKind kind => exact give_keeps (fail_keeps _ _ kind)
  | panic message => exact .pure rfl
  | call => exact give_keeps (callFirst_keeps i _)
  | callMessage => exact callMessaging_keeps i
  | callTwo => exact callBoth_keeps i
  | save => exact callSaving_keeps i
  | raiseSaved => exact raiseSavedOne_keeps i
  | eval =>
    exact Task.Keeps.bind (withFirst_keeps text_keeps i) fun _ => give_keeps (eval_keeps _ _ _)
  | stash =>
    have hall : (i.arguments.forM putAside).Sure [] fun _ => [] :=
      (forM_sure putAside_sure i.arguments).congr (fun r => (Handle.total_flatMap_nil _ r).symm)
        fun _ r => Handle.total_flatMap_nil _ r
    exact Task.Keeps.bind hall.keeps fun _ => answer_keeps _ _
  | collect => exact Task.Keeps.bind collect_sure.keeps fun _ => answer_keeps _ _
  | adder => exact give_keeps (newFunction_keeps _ _ _)
  | _ => exact answer_keeps _ _

def respond : Respond Offer Shelf := ⟨answerTo, answerTo_keeps⟩

end Offer

end PluginRelay.Embedding
