import Mathlib.Data.List.Nodup
import PluginRelay.Embedding.Context

/-!
# References balance

However operations, scripts and functions of the program call each other, every reference that the program was given or
has duplicated is in one place: it was freed, the engine took it over, a value of the program stands for it, or a context
keeps it with an exception. So the header of a cell counts the values that the program has for it, the exceptions that
contexts keep, and what the engine has for itself, whatever that is.
-/
namespace PluginRelay.Embedding

open Script

variable {κ τ ε : Type}

theorem World.balanced_new (config : Config) (own : τ) : (World.new config own : World κ τ).Balanced [] := by
  rw [Balanced, World.new, Exceptions.references_none]
  exact Ledger.balanced_none

variable [Holding τ]

/-! ### Runs -/

/-- What the program does with an engine between two points at which its values are counted. -/
inductive Command (κ : Type) where
  | emptyContext
  | primedContext (console : StreamId)
  | dropContext (id : ContextId)
  | global (id : ContextId)
  | setGlobal (id : ContextId) (name : String) (g : Given)
  | registerConsole (id : ContextId) (out err : StreamId)
  | registerVersion (id : ContextId)
  | newObject (id : ContextId)
  | newArray (id : ContextId)
  | arrayOf (id : ContextId) (items : List Given)
  | newFunction (id : ContextId) (name : String) (code : HostCode κ)
  | intoValue (id : ContextId) (g : Given)
  | clone (h : Handle)
  | drop (h : Handle)
  | getProperty (h : Handle) (key : String)
  | getIndex (h : Handle) (index : Nat)
  | setProperty (h : Handle) (key : String) (g : Given)
  | setIndex (h : Handle) (index : Nat) (g : Given)
  | append (h : Handle) (g : Given)
  | propertyNames (h : Handle)
  | properties (h : Handle)
  | call (f this : Handle) (args : List Handle)
  | eval (id : ContextId) (name code : String)
  | runPending (id : ContextId)
  | text (h : Handle)
  | asPrimitive (h : Handle)
  | isArray (h : Handle)
  | isFunction (h : Handle)
  | length (h : Handle)
  | debug (h : Handle)
  | take (id : ContextId) (v : Value)
  | collect
  /-- The engine has a share of the references for itself when they are counted. -/
  | refCount (share : Nat) (h : Handle)

namespace Command

/-- The values that the program gives up for it. -/
def takes : Command κ → List Handle
  | drop h => [h]
  | setGlobal _ _ g | intoValue _ g | setProperty _ _ g | setIndex _ _ g | append _ g => g.handles
  | arrayOf _ items => Operation.givenUp items
  | _ => []

/-- Something that gives the program one value. -/
def giving (t : Operation κ τ Handle) : Operation κ τ (List Handle) := return [← t]

/-- Something that gives the program no values. -/
def doing {α : Type} (t : Operation κ τ α) : Operation κ τ (List Handle) := do
  let _ ← t
  return []

/-- What the program does, with the values that it gets. -/
def task : Command κ → Operation κ τ (List Handle)
  | emptyContext => doing Operation.emptyContext
  | primedContext console => doing (Operation.primedContext console)
  | dropContext id => doing (Operation.dropContext id)
  | global id => giving (Operation.global id)
  | setGlobal id name g => doing (Operation.setGlobal id name g)
  | registerConsole id out err => doing (Operation.registerConsole id out err)
  | registerVersion id => doing (Operation.registerVersion id)
  | newObject id => giving (Operation.newObject id)
  | newArray id => giving (Operation.newArray id)
  | arrayOf id items => giving (Operation.arrayOf id items)
  | newFunction id name code => giving (Operation.newFunction id name code)
  | intoValue id g => giving (Operation.intoValue id g)
  | clone h => giving (Operation.clone h)
  | drop h => doing (Operation.drop h)
  | getProperty h key => giving (Operation.getProperty h key)
  | getIndex h index => giving (Operation.getIndex h index)
  | setProperty h key g => doing (Operation.setProperty h key g)
  | setIndex h index g => doing (Operation.setIndex h index g)
  | append h g => doing (Operation.append h g)
  | propertyNames h => doing (Operation.propertyNames h)
  | properties h => return Operation.valuesOf (← Operation.properties h)
  | call f this args => giving (Operation.call f this args)
  | eval id name code => giving (Operation.eval id name code)
  | runPending id => doing (Operation.runPending id)
  | text h => doing (Operation.text h)
  | asPrimitive h => doing (Operation.asPrimitive? h)
  | isArray h => doing (Operation.isArray h)
  | isFunction h => doing (Operation.isFunction h)
  | length h => doing (Operation.length? h)
  | debug h => doing (Operation.debug h)
  | take id v => doing (Operation.take id v)
  | collect => doing Operation.collect
  | refCount share h => doing (Operation.refCount share h)

theorem giving_keeps {t : Operation κ τ Handle} {takes : List Handle} (h : t.Keeps takes fun h => [h]) :
    (giving t).Keeps takes fun hs => hs := Task.Keeps.bind h fun _ => .pure rfl

theorem doing_keeps {α : Type} {t : Operation κ τ α} {takes : List Handle} (h : t.Keeps takes fun _ => []) :
    (doing t).Keeps takes fun hs => hs := Task.Keeps.bind h fun _ => .pure rfl

/-- What the program gives up is gone afterwards, and what it gets it has, and nothing else changes. -/
theorem task_keeps (c : Command κ) : (c.task : Operation κ τ (List Handle)).Keeps c.takes fun hs => hs := by
  cases c with
  | emptyContext => exact doing_keeps Operation.emptyContext_keeps
  | primedContext console => exact doing_keeps (Operation.primedContext_keeps console)
  | dropContext id => exact doing_keeps (Operation.dropContext_sure id).keeps
  | global id => exact giving_keeps (Operation.global_sure id).keeps
  | setGlobal id name g => exact doing_keeps (Operation.setGlobal_keeps id name g)
  | registerConsole id out err => exact doing_keeps (Operation.registerConsole_keeps id out err)
  | registerVersion id => exact doing_keeps (Operation.registerVersion_keeps id)
  | newObject id => exact giving_keeps (Operation.newObject_keeps id)
  | newArray id => exact giving_keeps (Operation.newArray_keeps id)
  | arrayOf id items => exact giving_keeps (Operation.arrayOf_keeps id items)
  | newFunction id name code => exact giving_keeps (Operation.newFunction_keeps id name code)
  | intoValue id g => exact giving_keeps (Operation.intoValue_keeps id g)
  | clone h => exact giving_keeps (Operation.clone_sure h).keeps
  | drop h => exact doing_keeps (Operation.drop_sure h).keeps
  | getProperty h key => exact giving_keeps (Operation.getProperty_keeps h key)
  | getIndex h index => exact giving_keeps (Operation.getIndex_keeps h index)
  | setProperty h key g => exact doing_keeps (Operation.setProperty_keeps h key g)
  | setIndex h index g => exact doing_keeps (Operation.setIndex_keeps h index g)
  | append h g => exact doing_keeps (Operation.append_keeps h g)
  | propertyNames h => exact doing_keeps (Operation.propertyNames_keeps h)
  | properties h => exact Task.Keeps.bind (Operation.properties_keeps h) fun _ => .pure rfl
  | call f this args => exact giving_keeps (Operation.call_keeps f this args)
  | eval id name code => exact giving_keeps (Operation.eval_keeps id name code)
  | runPending id => exact doing_keeps (Operation.runPending_keeps id)
  | text h => exact doing_keeps (Operation.text_keeps h)
  | asPrimitive h => exact doing_keeps (Operation.asPrimitive?_sure h).keeps
  | isArray h => exact doing_keeps (Operation.isArray_sure h).keeps
  | isFunction h => exact doing_keeps (Operation.isFunction_sure h).keeps
  | length h => exact doing_keeps (Operation.length?_sure h).keeps
  | debug h => exact doing_keeps (Operation.debug_sure h).keeps
  | take id v => exact doing_keeps (Operation.take_sure id v).keeps
  | collect => exact doing_keeps Operation.collect_sure.keeps
  | refCount share h => exact doing_keeps (Operation.refCount_sure share h).keeps

end Command

/-- The points between the operations of a program, with the values that it has in its hands there. The program
also runs in the middle of a script: the script goes up to the call of a function (`script`), the function is
called, gets copies of `this` and of the arguments, does commands of its own, concludes, gives its copies up and
returns, and the script goes on. In the same way an exception is described before it is kept. -/
inductive Run : Engine κ τ → List Handle → Prop
  | start (config : Config) (own : τ) (hown : Holding.values own = []) : Run (.start (.new config own)) []
  | done {m m' : Engine κ τ} {hands given : List Handle} (c : Command κ) (env : Env (World κ τ)) :
      Run m (c.takes ++ hands) → c.task env m = .ok given m' → Run m' (given ++ hands)
  | failed {m m' : Engine κ τ} {hands : List Handle} {f : Failure} (c : Command κ) (env : Env (World κ τ)) :
      Run m (c.takes ++ hands) → c.task env m = .error f m' → Run m' hands
  | script {m : Engine κ τ} {hands : List Handle} {α : Type} (a : Action (World κ τ) α) :
      Run m hands → Run (a m).machine hands
  | called {m : Engine κ τ} {hands : List Handle} (id : ContextId) :
      Run m hands → Run { m with host := m.host.enterContext id } hands
  | counted {m : Engine κ τ} {hands : List Handle} (depth : Nat) :
      Run m hands → Run { m with host := { m.host with depth := depth } } hands
  | concluded {m m' : Engine κ τ} {hands : List Handle} {conclusion : Conclusion} (id : ContextId)
      (outcome : Except Failure Answer) (env : Env (World κ τ)) :
      Run m (Operation.givenBy Answer.handles outcome ++ hands) →
      (conclude id outcome : Operation κ τ Conclusion) env m = .ok conclusion m' → Run m' hands
  | returned {m : Engine κ τ} {hands : List Handle} (id : ContextId) :
      Run m hands → Run { m with host := m.host.leaveContext id } hands
  | numbered {m : Engine κ τ} {hands : List Handle} :
      Run m hands → Run { m with host := m.host.number } hands
  /-- Other engines of the process use up numbers. -/
  | lent {m : Engine κ τ} {hands : List Handle} (next : UInt64) :
      Run m hands → Run { m with host := m.host.lend next } hands
  | kept {m : Engine κ τ} {hands : List Handle} (serial : UInt64) (h : Handle) :
      Run m (h :: hands) → Run { m with host := m.host.keep serial h } hands
  /-- The engine takes references to a cell for itself, or frees some. -/
  | worked {m : Engine κ τ} {hands : List Handle} (r : Reference) (share : Nat) :
      Run m hands → Run { m with host := m.host.work r share } hands
  /-- The program puts values into its state, or takes some out. -/
  | stored {m : Engine κ τ} {hands hands' : List Handle} (own : τ)
      (htotal : ∀ r, Handle.total (Holding.values own) r + Handle.total hands' r =
        Handle.total (Holding.values m.host.own) r + Handle.total hands r) :
      Run m hands → Run { m with host := { m.host with own := own } } hands'

namespace Run

variable {m : Engine κ τ} {hands : List Handle}

theorem balanced_of_run {ε α : Type} {t : Task ε κ τ α} {env : Env (World κ τ)}
    {ending : Ending ε (World κ τ) α} (hm : m.host.Balanced []) (hrun : t env m = ending) :
    ending.machine.host.Balanced [] := by
  rw [← hrun]
  exact ((t env).evolves m).balanced [] hm

theorem balanced (h : Run m hands) : m.host.Balanced [] := by
  induction h with
  | start config own hown => exact World.balanced_new config own
  | done c env _ hrun ih => exact balanced_of_run ih hrun
  | failed c env _ hrun ih => exact balanced_of_run ih hrun
  | script a _ ih => exact (a.evolves _).balanced [] ih
  | called id _ ih => exact ih
  | counted depth _ ih => exact ih
  | concluded id outcome env _ hrun ih => exact balanced_of_run ih hrun
  | returned id _ ih => exact (World.continues_lessen _ id rfl).balanced [] ih
  | numbered _ ih => exact ih
  | lent next _ ih => exact ih
  | kept serial h _ ih => exact World.balanced_keep ih serial h
  | worked r share _ ih => exact (World.evolves_work _ r share).balanced [] ih
  | stored own htotal _ ih => exact ih

/-- The program has exactly the values that it has in its state and in its hands. -/
theorem tidy (h : Run m hands) : m.host.Tidy hands := by
  induction h with
  | start config own hown =>
    intro r
    simp [World.new, Machine.start, Ledger.none, hown]
  | done c env _ hrun ih =>
    have hkeeps := c.task_keeps.run env _ _ ih
    rwa [hrun] at hkeeps
  | failed c env _ hrun ih =>
    have hkeeps := c.task_keeps.run env _ _ ih
    rwa [hrun] at hkeeps
  | script a _ ih => exact (a.evolves _).tidy _ ih
  | called id _ ih => exact ih
  | counted depth _ ih => exact ih
  | concluded id outcome env _ hrun ih =>
    have hkeeps := (conclude_sure (ε := Failure) id outcome).keeps.run env _ _ ih
    rwa [hrun] at hkeeps
  | returned id _ ih => exact ih.lessen id _
  | numbered _ ih => exact ih
  | lent next _ ih => exact ih
  | kept serial h _ ih => exact ih.keep serial
  | worked r share _ ih => exact ih.of_eq rfl rfl
  | stored own htotal _ ih =>
    intro r
    have hr := ih r
    have hmoved := htotal r
    dsimp only
    omega

end Run

end PluginRelay.Embedding
