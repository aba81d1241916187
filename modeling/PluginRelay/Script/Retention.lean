import PluginRelay.Script.Machine
import Std.Data.HashSet

/-!
# What the heap retains

Objects, variables and contexts refer to each other. `references` lists what each of them holds, every
reference as often as it is held. From these lists follow how often something is held, what goes away when
nothing holds it any more (`release`), and what no holder can reach (`collect`).
-/
namespace PluginRelay.Script

/-- What can be held. Texts and large integers are known by the numbers of their cells; those that have never left
the engine have none, and count as one. -/
inductive Reference where
  | object (id : ObjectId)
  | cell (id : CellId)
  | realm (id : RealmId)
  | text (serial : Nat)
  | symbol (id : SymbolId)
  | bigint (serial : Nat)
  deriving DecidableEq, Hashable, Repr, Inhabited

/-! ### What each thing holds -/

namespace Value

/-- The value as something that is held; numbers and the like are not. -/
def reference? : Value → Option Reference
  | object id => some (.object id)
  | string t => some (.text t.serial)
  | symbol id => some (.symbol id)
  | bigint n => some (.bigint n.serial)
  | _ => none

def references (v : Value) : List Reference := v.reference?.toList

end Value

def Content.references : Content → List Reference
  | .data v => v.references
  | .accessor g s => g.references ++ s.references

def Frame.references (f : Frame) : List Reference :=
  f.stack.flatMap Value.references ++ f.slots.toList.map .cell ++ f.captured.toList.map .cell ++
    f.handlers.flatMap (fun h => h.2.flatMap Value.references) ++ f.function.references ++
    f.arguments.toList.flatMap Value.references

/-- A function holds the object of its method only if it needs it. -/
def Closure.references (c : Closure) : List Reference :=
  let home := if c.code.pseudos.any (·.1 = .home) then c.home.references else []
  c.captured.toList.map .cell ++ home ++ c.fields.references ++ [.realm c.realm]

def Capability.references (c : Capability) : List Reference :=
  c.promise.references ++ c.resolve.references ++ c.reject.references

def Reaction.references (r : Reaction) : List Reference :=
  r.capability.toList.flatMap Capability.references ++ r.onFulfilled.references ++
    r.onRejected.references

def Settlement.references : Settlement → List Reference
  | .pending => []
  | .fulfilled v | .rejected v => v.references

def Suspension.references : Suspension → List Reference
  | .atStart f | .atYield f | .waiting f => f.references
  | .running | .finished => []

def Request.references (r : Request) : List Reference :=
  r.value.references ++ r.capability.references

namespace Table

/-- Weak tables do not hold their keys. -/
def references (t : Table) (isWeak : Bool) : List Reference :=
  t.entries.toList.flatMap fun e =>
    match e with
    | some (k, v) => if isWeak then v.references else k.references ++ v.references
    | none => []

end Table

def Payload.references : Payload → List Reference
  | .function c => c.references
  | .builtin _ _ realm => [.realm realm]
  | .internal _ data realm => .realm realm :: data.toList.flatMap Value.references
  | .bound target this args =>
    .object target :: this.references ++ args.toList.flatMap Value.references
  | .primitive v | .date v => v.references
  | .map table isWeak | .set table isWeak => table.references isWeak
  | .promise state reactions => state.references ++ reactions.flatMap Reaction.references
  | .proxy parts _ _ =>
    match parts with
    | some (target, handler) => [.object target, .object handler]
    | none => []
  | .generator state => state.references
  | .asyncGenerator state queue => state.references ++ queue.flatMap Request.references
  | .routine state c => state.references ++ c.references
  | .arrayIterator target _ _ | .tableIterator target _ _ _ => target.references
  | .regexpIterator matcher _ _ _ _ => matcher.references
  | .asyncFromSync iterator next => iterator.references ++ next.references
  | .enumeration target _ => target.references
  | .typedArray _ buffer _ _ => [.object buffer]
  | .dataView buffer _ _ => [.object buffer]
  | _ => []

def PropertyKey.references : PropertyKey → List Reference
  | .symbol id => [.symbol id]
  | _ => []

def Object.references (o : Object) : List Reference :=
  (o.prototype.toList.map .object) ++ o.payload.references ++
    o.properties.fold (fun rs key (_, p) => key.references ++ p.content.references ++ rs) []

def Realm.references (r : Realm) : List Reference :=
  .object r.global :: r.intrinsics.fold (fun rs _ id => .object id :: rs)
    (r.lexical.fold (fun rs _ (id, _) => .cell id :: rs) [])

def Job.references : Job → List Reference
  | .react r _ v realm => .realm realm :: r.references ++ v.references
  | .follow promise thenable method realm =>
    .realm realm :: promise.references ++ thenable.references ++ method.references
  | .load promise name realm => .realm realm :: .object promise :: name.references

namespace Machine

variable {σ : Type}

def references (m : Machine σ) : Reference → List Reference
  | .object id => ((m.objects[id]?).join.map Object.references).getD []
  | .cell id => ((m.cells[id]?).join.map Value.references).getD []
  | .realm id => ((m.realms[id]?).map Realm.references).getD []
  | _ => []

/-- Everything that may hold something. -/
def nodes (m : Machine σ) : List Reference :=
  (List.range m.objects.size).map .object ++ (List.range m.cells.size).map .cell ++
    (List.range m.realms.size).map .realm

/-- What is held by jobs that have not run yet. -/
def jobReferences (m : Machine σ) : List Reference := m.jobs.flatMap Job.references

/-! ### Counting -/

abbrev Counts := Std.HashMap Reference Nat

def Counts.add (c : Counts) (r : Reference) : Counts := c.insert r (c.getD r 0 + 1)

/-- How often each thing is held: by the `holders` outside, by jobs, and by what is in the heap. -/
def counts (m : Machine σ) (holders : List Reference) : Counts :=
  m.nodes.foldl (fun c n => (m.references n).foldl Counts.add c)
    ((holders ++ m.jobReferences).foldl Counts.add ∅)

/-- How often something is held in the heap, and for jobs that have not run yet. -/
def held (m : Machine σ) (r : Reference) : Nat := (m.jobReferences ++ m.nodes.flatMap m.references).count r

/-! ### Taking things away -/

/-- Empties the place of something that is gone. -/
def remove (m : Machine σ) : Reference → Machine σ
  | .object id => { m with objects := m.objects.set! id none }
  | .cell id => { m with cells := m.cells.set! id none }
  | .realm id => { m with realms := m.realms.set! id ⟨0, ∅, ∅⟩ }
  | _ => m

def isPresent (m : Machine σ) : Reference → Bool
  | .object id => ((m.objects[id]?).join).isSome
  | .cell id => ((m.cells[id]?).join).isSome
  | .realm id => ((m.realms[id]?).map fun r => !r.intrinsics.isEmpty).getD false
  | _ => false

/-- The tables that do not hold their keys. -/
def weakTables (m : Machine σ) : List ObjectId :=
  (List.range m.objects.size).filter fun id =>
    match (m.objects[id]?).join with
    | some o =>
      match o.payload with
      | .map _ isWeak | .set _ isWeak => isWeak
      | _ => false
    | none => false

/-- Takes an object out of a weak table; gives what the table held for it. -/
def forget (m : Machine σ) (key table : ObjectId) : Machine σ × List Reference :=
  match (m.objects[table]?).join with
  | some o =>
    match o.payload with
    | .map t isWeak =>
      let held := ((t.find? (.object key)).map Value.references).getD []
      let o := { o with payload := .map (t.erase (.object key)) isWeak }
      ({ m with objects := m.objects.set! table (some o) }, held)
    | .set t isWeak =>
      let o := { o with payload := .set (t.erase (.object key)) isWeak }
      ({ m with objects := m.objects.set! table (some o) }, [])
    | _ => (m, [])
  | none => (m, [])

/-- Takes an object out of all weak tables. -/
def forgetAll (m : Machine σ) (tables : List ObjectId) : Reference → Machine σ × List Reference
  | .object key =>
    tables.foldl (fun (m, held) table =>
      let (m, more) := m.forget key table
      (m, more ++ held)) (m, [])
  | _ => (m, [])

/-- Gives up references one by one; those that were the last ones take with them what they held. -/
def dropReferences (tables : List ObjectId) : (fuel : Nat) → List Reference → Counts → Machine σ →
    Machine σ
  | 0, _, _, m => m
  | _, [], _, m => m
  | fuel + 1, r :: rest, c, m =>
    let n := c.getD r 0 - 1
    let c := c.insert r n
    if n = 0 && m.isPresent r then
      let held := m.references r
      let (m, more) := (m.remove r).forgetAll tables r
      dropReferences tables fuel (held ++ more ++ rest) c m
    else dropReferences tables fuel rest c m

/-- How many references there are in all. -/
def referenceTotal (c : Counts) : Nat := c.fold (fun total _ n => total + n) 0

/-- Takes away what nothing holds, and then what only that held. Cycles stay. -/
def release (m : Machine σ) (holders : List Reference) : Machine σ :=
  let c := m.counts holders
  let idle := m.nodes.filter fun n => m.isPresent n && c.getD n 0 = 0
  let c := idle.foldl (fun c n => c.insert n 1) c
  dropReferences m.weakTables (2 * referenceTotal c + 2 * idle.length + 1) idle c m

/-- What lies outside of the engine is not touched. -/
theorem host_remove (m : Machine σ) (r : Reference) : (m.remove r).host = m.host := by
  cases r <;> rfl

theorem host_forget (m : Machine σ) (key table : ObjectId) : (m.forget key table).1.host = m.host := by
  unfold forget
  split
  · split <;> rfl
  · rfl

theorem host_forgetAll (m : Machine σ) (tables : List ObjectId) (r : Reference) :
    (m.forgetAll tables r).1.host = m.host := by
  cases r with
  | object key =>
    suffices h : ∀ start : Machine σ × List Reference,
        (tables.foldl (fun (m, held) table =>
          let (m, more) := m.forget key table
          (m, more ++ held)) start).1.host = start.1.host from h (m, [])
    induction tables with
    | nil => exact fun _ => rfl
    | cons table rest ih => exact fun start => (ih _).trans (host_forget start.1 key table)
  | _ => rfl

theorem host_dropReferences (tables : List ObjectId) (fuel : Nat) (rs : List Reference) (c : Counts)
    (m : Machine σ) : (dropReferences tables fuel rs c m).host = m.host := by
  induction fuel generalizing rs c m with
  | zero => cases rs <;> rfl
  | succ fuel ih =>
    cases rs with
    | nil => rfl
    | cons r rest =>
      rw [dropReferences]
      dsimp only
      split
      · rw [ih, host_forgetAll, host_remove]
      · exact ih _ _ _

@[simp]
theorem host_release (m : Machine σ) (holders : List Reference) : (m.release holders).host = m.host :=
  host_dropReferences _ _ _ _ m

/-! ### Reaching -/

/-- All that can be reached from some references, beside what has been seen already. -/
def reach (m : Machine σ) : (fuel : Nat) → List Reference → Std.HashSet Reference →
    Std.HashSet Reference
  | 0, _, seen => seen
  | _, [], seen => seen
  | fuel + 1, r :: rest, seen =>
    if seen.contains r then reach m fuel rest seen
    else reach m fuel (m.references r ++ rest) (seen.insert r)

/-- Takes away all that cannot be reached from the holders and the jobs, cycles included. -/
def collect (m : Machine σ) (holders : List Reference) : Machine σ :=
  let roots := holders ++ m.jobReferences
  let fuel := referenceTotal (m.counts holders) + roots.length + 1
  let seen := m.reach fuel roots ∅
  (m.nodes.filter fun n => !seen.contains n).foldl remove m

@[simp]
theorem host_collect (m : Machine σ) (holders : List Reference) : (m.collect holders).host = m.host := by
  unfold collect
  dsimp only
  generalize m.nodes.filter _ = idle
  induction idle generalizing m with
  | nil => rfl
  | cons r rest ih => exact (ih (m.remove r)).trans (m.host_remove r)

end Machine

end PluginRelay.Script
