import PluginRelay.Embedding.Config
import PluginRelay.Embedding.Kept
import PluginRelay.Embedding.Ledger
import PluginRelay.Log.Event
import PluginRelay.Script.Evolution

/-!
# The host program's side of an engine

A host program holds contexts and values, and offers functions to scripts. The `World` has the references to what it
holds, so that the engine keeps exactly that. `κ` are the functions that the program adds to those of this
library, and `τ` is its own state.
-/
namespace PluginRelay.Embedding

open Script

abbrev StreamId := Nat

abbrev FunctionId := Nat

/-- Where functions write to, with all that has been written. A stream that has failed takes nothing. -/
structure Stream where
  text : String
  fault : Option String
  deriving DecidableEq, Repr, Inhabited

namespace Stream

/-- The stream with more written to it. -/
def print (s : Stream) (text : String) : Stream := { s with text := s.text ++ text }

@[simp]
theorem print_empty (s : Stream) : s.print "" = s := by
  simp [print]

@[simp]
theorem print_print (s : Stream) (text more : String) : (s.print text).print more = s.print (text ++ more) := by
  simp [print, String.append_assoc]

end Stream

inductive HostCode (κ : Type) where
  /-- Writes its arguments as a line. -/
  | write (stream : StreamId)
  | version
  | custom (code : κ)
  deriving Inhabited

structure Context where
  /-- How many handles lead to the context, those of its values included. -/
  handles : Nat
  /-- How many calls of its scripts are running. Each has one more handle for itself. -/
  calls : Nat
  deriving DecidableEq, Inhabited

/-- A context that nothing leads to any more. -/
def Context.gone : Context := ⟨0, 0⟩

/-- A value that the program has, with its context. -/
structure Handle where
  context : ContextId
  value : Value
  deriving Repr, Inhabited

structure World (κ τ : Type) where
  config : Config
  contexts : Array Context
  functions : Array (HostCode κ)
  streams : Array Stream
  ledger : Ledger
  exceptions : Exceptions
  /-- Functions that are in the middle of writing. -/
  writing : List FunctionId
  /-- How many of the program's functions are running. -/
  depth : Nat
  /-- A collection was asked for while functions were running. -/
  collectLater : Bool
  events : List Log.Event
  own : τ

variable {κ τ : Type}

namespace World

def new (config : Config) (own : τ) : World κ τ :=
  ⟨config, #[], #[], #[], .none, .none, [], 0, false, [], own⟩

/-- The contexts that something leads to. -/
def contextHolders (w : World κ τ) : List Reference :=
  w.contexts.toList.zipIdx.flatMap fun (c, id) => if c = .gone then [] else [.realm id]

/-- What the program holds, and with it its contexts. -/
def holders (w : World κ τ) : List Reference := w.ledger.holders ++ w.contextHolders

/-- Whether something still leads to a context. -/
def manages (w : World κ τ) (id : ContextId) : Bool :=
  match w.contexts[id]? with
  | some c => c ≠ .gone
  | none => false

/-- How many calls of a context's scripts are running. -/
def calls (w : World κ τ) (id : ContextId) : Nat := (w.contexts[id]?.map Context.calls).getD 0

/-! ### Going on -/

/-- A context that the program has given up; it cannot get it back. -/
def Gone (w : World κ τ) (id : ContextId) : Prop := w.contexts[id]? = some .gone

instance (w : World κ τ) (id : ContextId) : Decidable (w.Gone id) := inferInstanceAs (Decidable (_ = _))

theorem calls_of_not_manages {w : World κ τ} {id : ContextId} (h : w.manages id = false) :
    w.calls id = 0 := by
  unfold manages at h
  unfold calls
  cases hc : w.contexts[id]? with
  | none => rfl
  | some c =>
    obtain rfl : c = .gone := by simpa [hc] using h
    rfl

/-- How a state has come about, as far as exceptions go. Only contexts that are gone forget what they kept. -/
structure Reached (w : World κ τ) (used : Nat) (pending : List Nat) (record : List Occurrence) : Prop where
  exceptions : Exceptions.Reached used pending record w.exceptions
  gone : ∀ id, .forgotten id ∈ record → w.Gone id

/-- More has happened since, and exceptions that were taken had their turns behind those that were used up before. -/
structure Follows (w : World κ τ) (used : Nat) (pending : List Nat) (record since : List Occurrence) (used' : Nat) :
    Prop where
  reached : w.Reached used' pending (since ++ record)
  le : used ≤ used'
  later : ∀ turn ∈ turnsOf since, used ≤ turn

theorem Reached.follows {w : World κ τ} {used : Nat} {pending : List Nat} {record : List Occurrence}
    (h : w.Reached used pending record) : w.Follows used pending record [] used := ⟨h, Nat.le_refl used, nofun⟩

theorem Follows.append {w : World κ τ} {used used' used'' : Nat} {pending : List Nat}
    {record first second : List Occurrence} (hle : used ≤ used') (hlater : ∀ turn ∈ turnsOf first, used ≤ turn)
    (h : w.Follows used' pending (first ++ record) second used'') :
    w.Follows used pending record (second ++ first) used'' := by
  refine ⟨by simpa using h.reached, Nat.le_trans hle h.le, fun turn hturn => ?_⟩
  rw [turnsOf_append, List.mem_append] at hturn
  exact hturn.elim (fun hmem => Nat.le_trans hle (h.later turn hmem)) (hlater turn)

/-- The references of the program are in order, but for some that are in transit. -/
def Balanced (w : World κ τ) (transit : List Reference) : Prop :=
  w.ledger.Balanced (transit ++ w.exceptions.references)

/-- Exceptions keep their history, and references stay in order. -/
structure Continues (w w' : World κ τ) : Prop where
  reached : ∀ used pending record, w.Reached used pending record →
    ∃ since used', w'.Follows used pending record since used'
  balanced : ∀ transit, w.Balanced transit → w'.Balanced transit

/-- What was written stays, and functions that are in the middle of writing still are. -/
structure Prints (w w' : World κ τ) : Prop where
  writing : w'.writing = w.writing
  streams : ∀ (id : StreamId) (s : Stream), w.streams[id]? = some s → ∃ more, w'.streams[id]? = some (s.print more)

/-- Moreover, calls that are running still are. -/
structure Evolves (w w' : World κ τ) : Prop extends Continues w w', Prints w w' where
  calls : ∀ id, w'.calls id = w.calls id

theorem Continues.refl (w : World κ τ) : Continues w w := ⟨fun _ _ _ h => ⟨_, _, h.follows⟩, fun _ hb => hb⟩

theorem Continues.trans {u v w : World κ τ} (h : Continues u v) (h' : Continues v w) : Continues u w := by
  refine ⟨fun used pending record hu => ?_, fun transit hb => h'.balanced transit (h.balanced transit hb)⟩
  obtain ⟨first, used', hv⟩ := h.reached used pending record hu
  obtain ⟨second, used'', hw⟩ := h'.reached used' pending _ hv.reached
  exact ⟨_, _, .append hv.le hv.later hw⟩

theorem prints_of_eq {w w' : World κ τ} (hwriting : w'.writing = w.writing) (hstreams : w'.streams = w.streams) :
    Prints w w' :=
  ⟨hwriting, fun _ s h => ⟨"", by rw [hstreams, h, Stream.print_empty]⟩⟩

theorem Prints.trans {u v w : World κ τ} (h : Prints u v) (h' : Prints v w) : Prints u w := by
  refine ⟨h'.writing.trans h.writing, fun id s hs => ?_⟩
  obtain ⟨first, hv⟩ := h.streams id s hs
  obtain ⟨second, hw⟩ := h'.streams id _ hv
  exact ⟨first ++ second, by rw [hw, Stream.print_print]⟩

theorem Evolves.refl (w : World κ τ) : Evolves w w := ⟨.refl w, prints_of_eq rfl rfl, fun _ => rfl⟩

theorem Evolves.trans {u v w : World κ τ} (h : Evolves u v) (h' : Evolves v w) : Evolves u w :=
  ⟨h.toContinues.trans h'.toContinues, h.toPrints.trans h'.toPrints, fun id => (h'.calls id).trans (h.calls id)⟩

/-- How the program itself goes on with the world. -/
@[reducible]
def operating (κ τ : Type) : Evolving (World κ τ) := ⟨Evolves, Evolves.refl, Evolves.trans⟩

/-- References may move, and contexts come and go, as long as none comes back. -/
theorem continues_of_ledger {w w' : World κ τ} (hexceptions : w'.exceptions = w.exceptions)
    (hgone : ∀ id, w.Gone id → w'.Gone id)
    (hledger : ∀ aside, w.ledger.Balanced aside → w'.ledger.Balanced aside) : Continues w w' := by
  refine ⟨fun used pending record h => ⟨[], used, Reached.follows ⟨?_, fun id hid => hgone id (h.gone id hid)⟩⟩,
    fun transit h => ?_⟩
  · rw [hexceptions]
    exact h.exceptions
  · rw [Balanced, hexceptions]
    exact hledger _ h

/-- Whatever else changes. -/
theorem evolves_of_eq {w w' : World κ τ} (hexceptions : w'.exceptions = w.exceptions)
    (hcontexts : w'.contexts = w.contexts) (hledger : w'.ledger = w.ledger) (hprints : Prints w w') :
    Evolves w w' := by
  refine ⟨continues_of_ledger hexceptions (fun id h => ?_) fun aside h => ?_, hprints, fun id => ?_⟩
  · rwa [Gone, hcontexts]
  · rwa [hledger]
  · rw [calls, calls, hcontexts]

/-! ### Holding -/

def modifyContext (w : World κ τ) (id : ContextId) (f : Context → Context) : World κ τ :=
  { w with contexts := w.contexts.modify id f }

/-- The program gets a new context. -/
def addContext (w : World κ τ) : World κ τ := { w with contexts := w.contexts.push ⟨1, 0⟩ }

/-- Another handle to a context, unless it is gone. -/
def holdContext (w : World κ τ) (id : ContextId) : World κ τ :=
  w.modifyContext id fun c => if c = .gone then c else { c with handles := c.handles + 1 }

/-- A script of a context makes a call. -/
def enterContext (w : World κ τ) (id : ContextId) : World κ τ :=
  w.modifyContext id fun c => if c = .gone then c else { c with calls := c.calls + 1 }

/-- Frees the exception that a context keeps. -/
def freeKept (w : World κ τ) (id : ContextId) : World κ τ :=
  match w.exceptions.kept[id]? with
  | some (_, v) => { w with
      exceptions := w.exceptions.clear id
      ledger := w.ledger.free v }
  | none => w

/-- Lets less lead to a context. If nothing does then, the context goes, and the exception that it keeps. -/
def lessen (w : World κ τ) (id : ContextId) (f : Context → Context) : World κ τ :=
  let w := w.modifyContext id f
  if w.Gone id then w.freeKept id else w

/-- One handle less. -/
def dropContext (w : World κ τ) (id : ContextId) : World κ τ :=
  w.lessen id fun c => { c with handles := c.handles - 1 }

/-- A call is over. -/
def leaveContext (w : World κ τ) (id : ContextId) : World κ τ :=
  w.lessen id fun c => { c with calls := c.calls - 1 }

/-- The engine hands a value out. The value keeps its context. -/
def receive (w : World κ τ) (h : Handle) : World κ τ :=
  { w with ledger := (w.ledger.receive h.value).wrap h.value }.holdContext h.context

/-- The program gets another value, with a reference that it makes. -/
def hold (w : World κ τ) (h : Handle) : World κ τ :=
  { w with ledger := (w.ledger.duplicate h.value).wrap h.value }.holdContext h.context

/-- A value of the program goes and frees its reference. -/
def drop (w : World κ τ) (h : Handle) : World κ τ :=
  { w with ledger := (w.ledger.unwrap h.value).free h.value }.dropContext h.context

/-- A reference for somebody else is made, and the value of the program goes. -/
def unwrap (w : World κ τ) (h : Handle) : World κ τ :=
  { w with ledger := w.ledger.duplicate h.value }.drop h

/-- The engine takes a value over. -/
def handOver (w : World κ τ) (h : Handle) : World κ τ :=
  let w := w.unwrap h
  { w with ledger := w.ledger.consume h.value }

/-- A context keeps a value of the program as the exception with a number, and frees the one before. -/
def keep (w : World κ τ) (serial : UInt64) (h : Handle) : World κ τ :=
  let w := w.unwrap h
  let previous := w.exceptions.kept[h.context]?
  let w := { w with exceptions := w.exceptions.keep h.context serial h.value }
  match previous with
  | some (_, v) => { w with ledger := w.ledger.free v }
  | none => w

/-- The exception of a context becomes a value of the program again. -/
def unkeep (w : World κ τ) (h : Handle) : World κ τ :=
  { w with
    exceptions := w.exceptions.clear h.context
    ledger := w.ledger.wrap h.value }.holdContext h.context

/-- Uses up a number for an exception. -/
def number (w : World κ τ) : World κ τ := { w with exceptions := w.exceptions.number }

/-- The process hands out other numbers from now on. -/
def lend (w : World κ τ) (next : UInt64) : World κ τ := { w with exceptions := w.exceptions.lend next }

/-- The engine is at work on its own references to a cell. -/
def work (w : World κ τ) (r : Reference) (share : Nat) : World κ τ := { w with ledger := w.ledger.work r share }

/-- The value behind a description, if its context still keeps it; then it does no longer. -/
def takeThrown (w : World κ τ) (id : ContextId) (e : Thrown) : Option Handle × World κ τ :=
  match w.exceptions.kept[id]? with
  | some (serial, v) => if serial = e.serial then (some ⟨id, v⟩, w.unkeep ⟨id, v⟩) else (none, w)
  | none => (none, w)

/-! ### Nothing is lost -/

theorem gone_modifyContext {w : World κ τ} {id other : ContextId} {f : Context → Context}
    (hf : f .gone = .gone) (h : w.Gone other) : (w.modifyContext id f).Gone other := by
  unfold Gone modifyContext at *
  rw [Array.getElem?_modify]
  split
  · rw [h, Option.map_some, hf]
  · exact h

theorem calls_modifyContext {f : Context → Context} (hf : ∀ c, (f c).calls = c.calls) (w : World κ τ)
    (id other : ContextId) : (w.modifyContext id f).calls other = w.calls other := by
  unfold calls modifyContext
  rw [Array.getElem?_modify]
  split
  · cases w.contexts[other]? <;> simp [hf]
  · rfl

@[simp]
theorem calls_freeKept (w : World κ τ) (id other : ContextId) : (w.freeKept id).calls other = w.calls other := by
  unfold freeKept
  split <;> rfl

@[simp]
theorem calls_lessen (w : World κ τ) (id other : ContextId) (f : Context → Context) :
    (w.lessen id f).calls other = (w.modifyContext id f).calls other := by
  unfold lessen
  dsimp only
  split
  · exact calls_freeKept _ id other
  · rfl

theorem evolves_addContext (w : World κ τ) : Evolves w w.addContext := by
  refine ⟨continues_of_ledger rfl (fun id hgone => ?_) fun _ hb => hb, prints_of_eq rfl rfl, fun id => ?_⟩
  · have hlt : id < w.contexts.size := (Array.getElem?_eq_some_iff.mp hgone).1
    unfold Gone addContext at *
    rwa [Array.getElem?_push_lt hlt, ← Array.getElem?_eq_getElem hlt]
  · unfold calls addContext
    rw [Array.getElem?_push]
    split
    · next h => simp [h]
    · rfl

theorem continues_freeKept {w : World κ τ} {id : ContextId} (hgone : w.Gone id) :
    Continues w (w.freeKept id) := by
  unfold freeKept
  cases hkept : w.exceptions.kept[id]? with
  | none => exact Continues.refl w
  | some kept =>
    obtain ⟨n, v⟩ := kept
    refine ⟨fun used pending record h => ⟨[.forgotten id], used, ⟨h.exceptions.forget id, ?_⟩, Nat.le_refl used, nofun⟩,
      fun transit h => ?_⟩
    · intro other hother
      obtain heq | hother := List.mem_cons.mp hother
      · obtain rfl := Occurrence.forgotten.inj heq
        exact hgone
      · exact h.gone other hother
    · refine Ledger.Balanced.free (h.perm ?_)
      have hperm := w.exceptions.references_clear id
      rw [Exceptions.referencesOf_some hkept] at hperm
      exact (hperm.append_left transit).trans (List.perm_append_comm_assoc _ _ _)

theorem continues_lessen (w : World κ τ) (id : ContextId) {f : Context → Context} (hf : f .gone = .gone) :
    Continues w (w.lessen id f) := by
  unfold lessen
  have h : Continues w (w.modifyContext id f) :=
    continues_of_ledger rfl (fun _ => gone_modifyContext hf) fun _ hb => hb
  dsimp only
  split
  · next hgone => exact h.trans (continues_freeKept hgone)
  · exact h

theorem prints_freeKept (w : World κ τ) (id : ContextId) : Prints w (w.freeKept id) := by
  unfold freeKept
  split
  · exact prints_of_eq rfl rfl
  · exact prints_of_eq rfl rfl

theorem prints_lessen (w : World κ τ) (id : ContextId) (f : Context → Context) : Prints w (w.lessen id f) := by
  have h : Prints w (w.modifyContext id f) := prints_of_eq rfl rfl
  unfold lessen
  dsimp only
  split
  · exact h.trans (prints_freeKept _ id)
  · exact h

theorem evolves_dropContext (w : World κ τ) (id : ContextId) : Evolves w (w.dropContext id) := by
  refine ⟨continues_lessen w id rfl, prints_lessen w id _, fun other => ?_⟩
  rw [dropContext, calls_lessen, calls_modifyContext]
  exact fun _ => rfl

theorem calls_enterContext (w : World κ τ) (id other : ContextId) :
    (w.enterContext id).calls other = w.calls other + if id = other ∧ w.manages id then 1 else 0 := by
  unfold calls enterContext modifyContext manages
  rw [Array.getElem?_modify]
  split
  · next h =>
    subst h
    cases w.contexts[id]? with
    | none => simp
    | some c => by_cases hc : c = .gone <;> simp [hc]
  · next h => simp [h]

theorem calls_leaveContext (w : World κ τ) (id other : ContextId) :
    (w.leaveContext id).calls other = w.calls other - if id = other then 1 else 0 := by
  rw [leaveContext, calls_lessen]
  unfold calls modifyContext
  rw [Array.getElem?_modify]
  split
  · cases w.contexts[other]? <;> simp
  · rfl

/-- What happens during a call. -/
theorem evolves_call {w w' : World κ τ} {id : ContextId} (h : Evolves (w.enterContext id) w') :
    Evolves w (w'.leaveContext id) := by
  have henter : Continues w (w.enterContext id) :=
    continues_of_ledger rfl (fun _ => gone_modifyContext rfl) fun _ hb => hb
  have hprints : Prints w (w.enterContext id) := prints_of_eq rfl rfl
  refine ⟨henter.trans (h.toContinues.trans (continues_lessen w' id rfl)),
    hprints.trans (h.toPrints.trans (prints_lessen w' id _)), fun other => ?_⟩
  rw [calls_leaveContext, h.calls, calls_enterContext]
  by_cases hid : id = other
  · subst hid
    cases hmanages : w.manages id with
    | true => simp
    | false => simp [calls_of_not_manages hmanages]
  · simp [hid]

/-- A value comes to the program, however it is counted, and has a handle to its context. -/
theorem evolves_holding {w : World κ τ} {l : Ledger} (h : Handle)
    (hledger : ∀ aside, w.ledger.Balanced aside → l.Balanced aside) :
    Evolves w ({ w with ledger := l }.holdContext h.context) := by
  refine ⟨continues_of_ledger rfl (fun _ => gone_modifyContext rfl) hledger, prints_of_eq rfl rfl, ?_⟩
  refine fun id => calls_modifyContext (fun c => ?_) _ h.context id
  split <;> rfl

theorem evolves_receive (w : World κ τ) (h : Handle) : Evolves w (w.receive h) :=
  evolves_holding h fun _ hb => (hb.receive h.value).wrap

theorem evolves_hold (w : World κ τ) (h : Handle) : Evolves w (w.hold h) :=
  evolves_holding h fun _ hb => (hb.duplicate h.value).wrap

theorem evolves_drop (w : World κ τ) (h : Handle) : Evolves w (w.drop h) := by
  refine Evolves.trans ?_ (evolves_dropContext _ h.context)
  refine ⟨continues_of_ledger rfl (fun _ hgone => hgone) fun _ hb => ?_, prints_of_eq rfl rfl, fun _ => rfl⟩
  exact (hb.unwrap h.value).free

theorem evolves_work (w : World κ τ) (r : Reference) (share : Nat) : Evolves w (w.work r share) :=
  ⟨continues_of_ledger rfl (fun _ hgone => hgone) fun _ hb => hb.work r share, prints_of_eq rfl rfl, fun _ => rfl⟩

theorem balanced_unwrap {w : World κ τ} {transit : List Reference} (hb : w.Balanced transit) (h : Handle) :
    (w.unwrap h).Balanced (h.value.references ++ transit) := by
  refine (evolves_drop _ h).balanced _ ?_
  rw [Balanced, List.append_assoc]
  exact Ledger.Balanced.duplicate hb h.value

theorem follows_unwrap {w : World κ τ} {used : Nat} {pending : List Nat} {record : List Occurrence}
    (hw : w.Reached used pending record) (h : Handle) :
    ∃ since used', (w.unwrap h).Follows used pending record since used' :=
  (evolves_drop { w with ledger := w.ledger.duplicate h.value } h).reached used pending record ⟨hw.exceptions, hw.gone⟩

theorem calls_unwrap (w : World κ τ) (h : Handle) (id : ContextId) : (w.unwrap h).calls id = w.calls id :=
  (evolves_drop { w with ledger := w.ledger.duplicate h.value } h).calls id

theorem Reached.number {w : World κ τ} {used : Nat} {pending : List Nat} {record : List Occurrence}
    (h : w.Reached used pending record) : w.number.Reached (used + 1) (used :: pending) record :=
  ⟨h.exceptions.number, h.gone⟩

theorem Reached.lend {w : World κ τ} {used later : Nat} {pending : List Nat} {record : List Occurrence}
    (h : w.Reached used pending record) (hlater : used ≤ later) :
    (w.lend (serialOf later)).Reached later pending record :=
  ⟨h.exceptions.lend hlater, h.gone⟩

theorem exceptions_keep (w : World κ τ) (serial : UInt64) (h : Handle) :
    (w.keep serial h).exceptions = (w.unwrap h).exceptions.keep h.context serial h.value := by
  unfold keep
  dsimp only
  split
  · rfl
  · rfl

/-- An exception that has been described comes to be kept, and its turn goes into the record. -/
theorem Reached.keep {w : World κ τ} {used turn : Nat} {pending : List Nat} {record : List Occurrence}
    (hw : w.Reached used (turn :: pending) record) (h : Handle) {e : Thrown} (he : e.serial = serialOf turn) :
    ∃ since used', (w.keep e.serial h).Reached used' pending (.taken h.context turn e h.value :: (since ++ record)) ∧
      used ≤ used' ∧ ∀ later ∈ turnsOf since, used ≤ later := by
  obtain ⟨since, used', hu⟩ := follows_unwrap hw h
  have hkept := hu.reached.exceptions.keep h.context e h.value he
  refine ⟨since, used', ⟨?_, fun id hid => ?_⟩, hu.le, hu.later⟩
  · rw [exceptions_keep]
    exact hkept
  · have hgone : (w.unwrap h).Gone id := by
      refine hu.reached.gone id ?_
      simpa using hid
    unfold World.keep
    dsimp only
    split
    · exact hgone
    · exact hgone

/-- The same, after all that happened while it was described. -/
theorem follows_keep {w w' : World κ τ} (h : Handle) {e : Thrown} (he : e.serial = w.exceptions.next)
    (hdescribed : Evolves w.number w') {used : Nat} {pending : List Nat} {record : List Occurrence}
    (hw : w.Reached used pending record) :
    ∃ inner used', (w'.keep w.exceptions.next h).Follows used pending record
      (.taken h.context used e h.value :: inner) used' := by
  obtain ⟨inner, used₁, hw'⟩ := hdescribed.reached _ _ _ hw.number
  have hserial : e.serial = serialOf used := by rw [he, hw.exceptions.fits.next]
  obtain ⟨last, used₂, hkept, hle, hlast⟩ := hw'.reached.keep h hserial
  have hused : used ≤ used₁ := Nat.le_of_succ_le hw'.le
  rw [← he]
  refine ⟨last ++ inner, used₂, by simpa using hkept, Nat.le_trans hused hle, fun turn hturn => ?_⟩
  rw [turnsOf_cons, turnsOf_append, Occurrence.turns, List.mem_append, List.mem_append, List.mem_singleton] at hturn
  obtain rfl | hturn | hturn := hturn
  · exact Nat.le_refl turn
  · exact Nat.le_trans hused (hlast turn hturn)
  · exact Nat.le_of_succ_le (hw'.later turn hturn)

theorem prints_unwrap (w : World κ τ) (h : Handle) : Prints w (w.unwrap h) := by
  have hduplicate : Prints w { w with ledger := w.ledger.duplicate h.value } := prints_of_eq rfl rfl
  exact hduplicate.trans (evolves_drop _ h).toPrints

theorem prints_keep (w : World κ τ) (serial : UInt64) (h : Handle) : Prints w (w.keep serial h) := by
  refine (prints_unwrap w h).trans ?_
  unfold keep
  dsimp only
  split
  · exact prints_of_eq rfl rfl
  · exact prints_of_eq rfl rfl

theorem calls_keep (w : World κ τ) (serial : UInt64) (h : Handle) (id : ContextId) :
    (w.keep serial h).calls id = w.calls id := by
  rw [← calls_unwrap w h]
  unfold keep
  dsimp only
  split <;> rfl

theorem balanced_keep {w : World κ τ} {transit : List Reference} (hb : w.Balanced transit) (serial : UInt64)
    (h : Handle) : (w.keep serial h).Balanced transit := by
  have hunwrapped := balanced_unwrap hb h
  unfold keep
  generalize w.unwrap h = u at hunwrapped
  have hbefore := u.exceptions.references_clear h.context
  have hafter := u.exceptions.references_keep h.context serial h.value
  -- The value stands in for what was kept, and that is in transit until it is freed.
  have hswap : u.ledger.Balanced (u.exceptions.referencesOf h.context ++
      (transit ++ (u.exceptions.keep h.context serial h.value).references)) := by
    have hperm := (hbefore.append_left (h.value.references ++ transit)).trans (List.perm_append_comm_assoc _ _ _)
    refine Ledger.Balanced.perm hunwrapped (hperm.trans ?_)
    refine List.Perm.append_left _ ?_
    rw [List.append_assoc]
    exact (List.perm_append_comm_assoc _ _ _).trans (hafter.symm.append_left transit)
  dsimp only
  split
  · next hkept =>
    rw [Exceptions.referencesOf_some hkept] at hswap
    exact hswap.free
  · next hkept =>
    rw [Exceptions.referencesOf_none hkept] at hswap
    exact hswap

theorem evolves_unkeep {w : World κ τ} {h : Handle} {serial : UInt64}
    (hkept : w.exceptions.kept[h.context]? = some (serial, h.value)) : Evolves w (w.unkeep h) := by
  refine ⟨⟨fun used pending record hw => ?_, fun transit hb => ?_⟩, prints_of_eq rfl rfl, fun id => ?_⟩
  · obtain ⟨turn, hafter, -⟩ := hw.exceptions.fits.turn_of_kept hkept
    refine ⟨[.rethrown h.context turn], used, ⟨hw.exceptions.rethrow hafter, fun id hid => ?_⟩, Nat.le_refl used, nofun⟩
    obtain heq | hid := List.mem_cons.mp hid
    · nomatch heq
    · exact gone_modifyContext rfl (hw.gone id hid)
  · refine Ledger.Balanced.wrap (hb.perm ?_)
    have hperm := w.exceptions.references_clear h.context
    rw [Exceptions.referencesOf_some hkept] at hperm
    exact (hperm.append_left transit).trans (List.perm_append_comm_assoc _ _ _)
  · refine calls_modifyContext (fun c => ?_) _ h.context id
    split <;> rfl

theorem evolves_takeThrown (w : World κ τ) (id : ContextId) (e : Thrown) :
    Evolves w (w.takeThrown id e).2 := by
  unfold takeThrown
  split
  · next hkept =>
    split
    · exact evolves_unkeep (h := ⟨id, _⟩) hkept
    · exact Evolves.refl w
  · exact Evolves.refl w

theorem evolves_handOver (w : World κ τ) (h : Handle) : Evolves w (w.handOver h) := by
  have hprints : Prints (w.unwrap h) (w.handOver h) := prints_of_eq rfl rfl
  refine ⟨⟨fun used pending record hw => ?_, fun transit hb => ?_⟩, (prints_unwrap w h).trans hprints, ?_⟩
  · obtain ⟨since, used', hu⟩ := follows_unwrap hw h
    exact ⟨since, used', ⟨hu.reached.exceptions, hu.reached.gone⟩, hu.le, hu.later⟩
  · have hunwrapped := balanced_unwrap hb h
    rw [Balanced, List.append_assoc] at hunwrapped
    exact hunwrapped.consume
  · exact calls_unwrap w h

/-! ### Writing -/

/-- A stream that nothing has been written to. -/
def addStream (w : World κ τ) (fault : Option String) : World κ τ :=
  { w with streams := w.streams.push ⟨"", fault⟩ }

theorem evolves_addStream (w : World κ τ) (fault : Option String) : Evolves w (w.addStream fault) := by
  refine evolves_of_eq rfl rfl rfl ⟨rfl, fun id s hs => ⟨"", ?_⟩⟩
  have hlt : id < w.streams.size := (Array.getElem?_eq_some_iff.mp hs).1
  unfold addStream
  rw [Array.getElem?_push_lt hlt, ← Array.getElem?_eq_getElem hlt, hs, Stream.print_empty]

/-- More is written to a stream. -/
def print (w : World κ τ) (id : StreamId) (text : String) : World κ τ :=
  { w with streams := w.streams.modify id (·.print text) }

theorem streams_print (w : World κ τ) {id : StreamId} {s : Stream} (hs : w.streams[id]? = some s) (text : String) :
    (w.print id text).streams[id]? = some (s.print text) := by
  unfold print
  rw [Array.getElem?_modify, if_pos rfl, hs, Option.map_some]

theorem evolves_print (w : World κ τ) (id : StreamId) (text : String) : Evolves w (w.print id text) := by
  refine evolves_of_eq rfl rfl rfl ⟨rfl, fun other s hs => ?_⟩
  by_cases heq : id = other
  · subst heq
    exact ⟨text, streams_print w hs text⟩
  · refine ⟨"", ?_⟩
    unfold print
    rw [Array.getElem?_modify, if_neg heq, hs, Stream.print_empty]

/-- A function starts writing. -/
def mark (w : World κ τ) (f : FunctionId) : World κ τ := { w with writing := f :: w.writing }

/-- A function is done with writing. -/
def unmark (w : World κ τ) (f : FunctionId) : World κ τ := { w with writing := w.writing.erase f }

/-- What happens while a function writes. -/
theorem evolves_marked {w w' : World κ τ} {f : FunctionId} (h : Evolves (w.mark f) w') : Evolves w (w'.unmark f) := by
  have hmark : Continues w (w.mark f) := continues_of_ledger rfl (fun _ hgone => hgone) fun _ hb => hb
  have hunmark : Continues w' (w'.unmark f) := continues_of_ledger rfl (fun _ hgone => hgone) fun _ hb => hb
  refine ⟨hmark.trans (h.toContinues.trans hunmark), ⟨?_, h.streams⟩, h.calls⟩
  rw [unmark, h.writing, mark, List.erase_cons_head]

end World

end PluginRelay.Embedding
