import PluginRelay.Embedding.Ownership
import PluginRelay.Script.Engine

/-!
# Operations

What the program does with an engine. `Keeps` says whose the values are: what an operation takes over from the
program and what it gives to it. All others it leaves alone, also where it fails.
-/
namespace PluginRelay.Embedding

open Script

variable {κ τ : Type} [Holding τ]

/-- An engine with the program's side of it. -/
abbrev Engine (κ τ : Type) := Machine (World κ τ)

/-- What the program does with an engine, with an `ε` if it does not succeed. -/
abbrev Task (ε κ τ : Type) [Holding τ] := ReaderT (Env (World κ τ)) (Evolution (World.operating κ τ) ε)

/-- What the program does with an engine; it may fail. -/
abbrev Operation (κ τ : Type) [Holding τ] := Task Failure κ τ

namespace Task

variable {ε α β : Type} {env : Env (World κ τ)} {m m' : Engine κ τ}

theorem run_bind_ok {t : Task ε κ τ α} {x : α} (h : t env m = .ok x m') (f : α → Task ε κ τ β) :
    (t >>= f) env m = f x env m' := Evolution.run_bind_ok h _

theorem run_bind_error {t : Task ε κ τ α} {e : ε} (h : t env m = .error e m') (f : α → Task ε κ τ β) :
    (t >>= f) env m = .error e m' := Evolution.run_bind_error h _

/-! ### Whose the values are -/

/-- The task takes over some values and gives others for them. It cannot fail. -/
def Sure (t : Task ε κ τ α) (takes : List Handle) (gives : α → List Handle) : Prop :=
  ∀ env (m : Engine κ τ) others, m.host.Tidy (takes ++ others) →
    ∃ x m', t env m = .ok x m' ∧ m'.host.Tidy (gives x ++ others)

/-- The task takes over some values and gives others for them. If it fails, they are gone. -/
structure Keeps (t : Task ε κ τ α) (takes : List Handle) (gives : α → List Handle) : Prop where
  run : ∀ env (m : Engine κ τ) others, m.host.Tidy (takes ++ others) →
    match t env m with
    | .ok x m' => m'.host.Tidy (gives x ++ others)
    | .error _ m' => m'.host.Tidy others

variable {t : Task ε κ τ α} {f : α → Task ε κ τ β} {takes takes' : List Handle}
variable {gives gives' : α → List Handle} {results : β → List Handle}

theorem Sure.keeps (h : t.Sure takes gives) : t.Keeps takes gives := by
  refine ⟨fun env m others htidy => ?_⟩
  obtain ⟨x, m', hrun, htidy'⟩ := h env m others htidy
  rw [hrun]
  exact htidy'

theorem Sure.congr (h : t.Sure takes gives) (htakes : ∀ r, Handle.total takes' r = Handle.total takes r)
    (hgives : ∀ x r, Handle.total (gives x) r = Handle.total (gives' x) r) : t.Sure takes' gives' := by
  intro env m others htidy
  obtain ⟨x, m', hrun, htidy'⟩ := h env m others (htidy.congr fun r => by simp [htakes r])
  exact ⟨x, m', hrun, htidy'.congr fun r => by simp [hgives x r]⟩

theorem Keeps.congr (h : t.Keeps takes gives) (htakes : ∀ r, Handle.total takes' r = Handle.total takes r)
    (hgives : ∀ x r, Handle.total (gives x) r = Handle.total (gives' x) r) : t.Keeps takes' gives' := by
  refine ⟨fun env m others htidy => ?_⟩
  have hrun := h.run env m others (htidy.congr fun r => by simp [htakes r])
  cases hr : t env m with
  | ok x m' =>
    rw [hr] at hrun
    exact hrun.congr fun r => by simp [hgives x r]
  | error e m' =>
    rw [hr] at hrun
    exact hrun

/-- What a task that cannot fail does not take over may as well go through it. -/
theorem Sure.frame (h : t.Sure takes gives) (more : List Handle) :
    t.Sure (takes ++ more) fun x => gives x ++ more := by
  intro env m others htidy
  rw [List.append_assoc] at htidy
  obtain ⟨x, m', hrun, htidy'⟩ := h env m _ htidy
  exact ⟨x, m', hrun, by rwa [List.append_assoc]⟩

theorem Sure.pure {x : α} (h : takes = gives x) : (Pure.pure x : Task ε κ τ α).Sure takes gives :=
  fun _ m _ htidy => ⟨x, m, rfl, h ▸ htidy⟩

theorem Keeps.pure {x : α} (h : takes = gives x) : (Pure.pure x : Task ε κ τ α).Keeps takes gives :=
  (Sure.pure h).keeps

theorem Sure.bind (h : t.Sure takes gives) (hf : ∀ x, (f x).Sure (gives x) results) :
    (t >>= f).Sure takes results := by
  intro env m others htidy
  obtain ⟨x, m', hrun, htidy'⟩ := h env m others htidy
  rw [run_bind_ok hrun]
  exact hf x env m' others htidy'

theorem Keeps.bind (h : t.Keeps takes gives) (hf : ∀ x, (f x).Keeps (gives x) results) :
    (t >>= f).Keeps takes results := by
  refine ⟨fun env m others htidy => ?_⟩
  have hrun := h.run env m others htidy
  cases hr : t env m with
  | ok x m' =>
    rw [hr] at hrun
    rw [run_bind_ok hr]
    exact (hf x).run env m' others hrun
  | error e m' =>
    rw [hr] at hrun
    rw [run_bind_error hr]
    exact hrun

theorem Keeps.throw (e : ε) : (MonadExcept.throw e : Task ε κ τ α).Keeps [] gives :=
  ⟨fun _ _ _ htidy => htidy⟩

end Task

namespace Operation

variable {ε δ α : Type}

/-! ### State -/

def machine : Task ε κ τ (Engine κ τ) := fun _ => Evolution.machine

theorem machine_sure : (machine : Task ε κ τ (Engine κ τ)).Sure [] fun _ => [] :=
  fun _ m _ htidy => ⟨m, m, rfl, htidy⟩

def world : Task ε κ τ (World κ τ) := return (← machine).host

def modifyWorld (f : World κ τ → World κ τ)
    (h : ∀ w, World.Evolves w (f w) := by
      exact fun _ => PluginRelay.Embedding.World.evolves_of_eq rfl rfl rfl
        (PluginRelay.Embedding.World.prints_of_eq rfl rfl)) :
    Task ε κ τ Unit :=
  fun _ => Evolution.update (fun m => { m with host := f m.host }) fun m => h m.host

theorem world_sure : (world : Task ε κ τ (World κ τ)).Sure [] fun _ => [] :=
  fun _ m _ htidy => ⟨m.host, m, rfl, htidy⟩

theorem modifyWorld_sure {f : World κ τ → World κ τ} {hf : ∀ w, World.Evolves w (f w)}
    {takes gives : List Handle} (h : ∀ w others, w.Tidy (takes ++ others) → (f w).Tidy (gives ++ others)) :
    (modifyWorld f hf : Task ε κ τ Unit).Sure takes fun _ => gives :=
  fun _ _ others htidy => ⟨(), _, rfl, h _ others htidy⟩

/-- The program's values are as before. -/
theorem modifyWorld_sure_of_eq {f : World κ τ → World κ τ} {hf : ∀ w, World.Evolves w (f w)}
    (hlive : ∀ w, (f w).ledger.live = w.ledger.live) (hown : ∀ w, (f w).own = w.own) :
    (modifyWorld f hf : Task ε κ τ Unit).Sure [] fun _ => [] :=
  modifyWorld_sure fun w _ htidy => htidy.of_eq (hlive w) (hown w)

def own : Task ε κ τ τ := return (← world).own

theorem own_sure : (own : Task ε κ τ τ).Sure [] fun _ => [] := fun _ m _ htidy => ⟨m.host.own, m, rfl, htidy⟩

def modifyOwnGet (f : τ → α × τ) : Task ε κ τ α := fun _ =>
  Evolution.updateGet (fun m =>
    let (x, own) := f m.host.own
    (x, { m with host := { m.host with own := own } })) fun _ =>
      World.evolves_of_eq rfl rfl rfl (World.prints_of_eq rfl rfl)

/-- The program may put values into its state, and take some out. -/
theorem modifyOwnGet_sure {f : τ → α × τ} {takes : List Handle} {gives : α → List Handle}
    (h : ∀ s r, Handle.total (Holding.values (f s).2) r + Handle.total (gives (f s).1) r =
      Handle.total (Holding.values s) r + Handle.total takes r) :
    (modifyOwnGet f : Task ε κ τ α).Sure takes gives := by
  refine fun env m others htidy => ⟨_, _, rfl, fun r => ?_⟩
  have hr := htidy r
  have hmoved := h m.host.own r
  simp only [Handle.total_append] at hr ⊢
  omega

def modifyOwn (f : τ → τ) : Task ε κ τ Unit := modifyOwnGet fun s => ((), f s)

theorem modifyOwn_sure {f : τ → τ} {takes : List Handle}
    (h : ∀ s r, Handle.total (Holding.values (f s)) r = Handle.total (Holding.values s) r + Handle.total takes r) :
    (modifyOwn f : Task ε κ τ Unit).Sure takes fun _ => [] :=
  modifyOwnGet_sure fun s r => h s r

def log (e : Log.Event) : Task ε κ τ Unit :=
  modifyWorld fun w => { w with events := w.events ++ [e] }

theorem log_sure (e : Log.Event) : (log e : Task ε κ τ Unit).Sure [] fun _ => [] :=
  modifyWorld_sure_of_eq (fun _ => rfl) fun _ => rfl

/-- The failure of a task, if it fails. -/
def attempt (op : Task ε κ τ α) : Task δ κ τ (Except ε α) := fun env => (op env).attempt

/-- What a task has given, if it has not failed. -/
def givenBy (gives : α → List Handle) : Except ε α → List Handle
  | .ok x => gives x
  | .error _ => []

theorem attempt_sure {op : Task ε κ τ α} {takes : List Handle} {gives : α → List Handle}
    (h : op.Keeps takes gives) : (attempt op : Task δ κ τ (Except ε α)).Sure takes (givenBy gives) := by
  intro env m others htidy
  have hrun := h.run env m others htidy
  unfold attempt Evolution.attempt
  dsimp only
  split
  · next x m' heq =>
    rw [heq] at hrun
    exact ⟨_, m', rfl, hrun⟩
  · next e m' heq =>
    rw [heq] at hrun
    exact ⟨_, m', rfl, hrun⟩

/-! ### Holding -/

/-- One handle to a context less. -/
def dropContext (id : ContextId) : Task ε κ τ Unit :=
  modifyWorld (·.dropContext id) fun w => w.evolves_dropContext id

theorem dropContext_sure (id : ContextId) : (dropContext id : Task ε κ τ Unit).Sure [] fun _ => [] :=
  modifyWorld_sure fun _ _ htidy => htidy.lessen _ _

def hold (h : Handle) : Task ε κ τ Unit := modifyWorld (·.hold h) fun w => w.evolves_hold h

theorem hold_sure (h : Handle) : (hold h : Task ε κ τ Unit).Sure [] fun _ => [h] :=
  modifyWorld_sure fun _ _ htidy => htidy.hold h

/-- Another value like one that the program has. -/
def clone (h : Handle) : Task ε κ τ Handle := do
  hold h
  return h

theorem clone_sure (h : Handle) : (clone h : Task ε κ τ Handle).Sure [] fun h => [h] :=
  (hold_sure h).bind fun _ => .pure rfl

def drop (h : Handle) : Task ε κ τ Unit := modifyWorld (·.drop h) fun w => w.evolves_drop h

theorem drop_sure (h : Handle) : (drop h : Task ε κ τ Unit).Sure [h] fun _ => [] :=
  modifyWorld_sure fun _ _ htidy => htidy.drop

theorem forM_sure {f : α → Task ε κ τ Unit} {takes gives : α → List Handle}
    (hf : ∀ x, (f x).Sure (takes x) fun _ => gives x) (xs : List α) :
    (xs.forM f).Sure (xs.flatMap takes) fun _ => xs.flatMap gives := by
  induction xs with
  | nil => exact .pure rfl
  | cons x rest ih =>
    refine Task.Sure.bind ((hf x).frame (rest.flatMap takes)) fun _ => ?_
    refine (ih.frame (gives x)).congr (fun r => ?_) fun _ r => ?_
    · simp only [Handle.total_append]
      omega
    · simp only [List.flatMap_cons, Handle.total_append]
      omega

theorem forM_hold_sure (hs : List Handle) : (hs.forM hold : Task ε κ τ Unit).Sure [] fun _ => hs :=
  (forM_sure hold_sure hs).congr (fun r => (Handle.total_flatMap_nil hs r).symm) fun _ _ => by simp

theorem forM_drop_sure (hs : List Handle) : (hs.forM drop : Task ε κ τ Unit).Sure hs fun _ => [] :=
  (forM_sure drop_sure hs).congr (fun _ => by simp) fun _ r => Handle.total_flatMap_nil hs r

theorem mapM_sure {β : Type} {f : α → Task ε κ τ β} (hf : ∀ x, (f x).Sure [] fun _ => []) (xs : List α) :
    (xs.mapM f).Sure [] fun _ => [] := by
  have hloop : ∀ done, (List.mapM.loop f xs done).Sure [] fun _ => [] := by
    induction xs with
    | nil => exact fun _ => .pure rfl
    | cons x rest ih => exact fun done => Task.Sure.bind (hf x) fun y => ih (y :: done)
  exact hloop []

/-- The engine takes a value over, and the program has it no longer. -/
def handOver (h : Handle) : Task ε κ τ Value := do
  modifyWorld (·.handOver h) fun w => w.evolves_handOver h
  return h.value

theorem handOver_sure (h : Handle) : (handOver h : Task ε κ τ Value).Sure [h] fun _ => [] :=
  (modifyWorld_sure fun _ _ htidy => htidy.handOver).bind fun _ => .pure rfl

/-- The engine hands a value over. -/
def receive (id : ContextId) (v : Value) : Task ε κ τ Handle := fun env => do
  let v ← Evolution.numbered env.place v
  modifyWorld (·.receive ⟨id, v⟩) (fun w => w.evolves_receive _) env
  return ⟨id, v⟩

theorem receive_sure (id : ContextId) (v : Value) : (receive id v : Task ε κ τ Handle).Sure [] fun h => [h] := by
  intro env m others htidy
  refine ⟨⟨id, (m.numbered env.place v).1⟩, _, rfl, World.Tidy.receive ?_ _⟩
  rwa [m.host_numbered]

/-- Does something before a value goes, which it does in any case. -/
def thenDrop (h : Handle) (op : Task ε κ τ α) : Task ε κ τ α := do
  try op finally drop h

theorem thenDrop_ok {h : Handle} {op : Task ε κ τ α} {env : Env (World κ τ)} {m m' : Engine κ τ} {x : α}
    (hrun : op env m = .ok x m') : (thenDrop h op) env m = .ok x { m' with host := m'.host.drop h } := by
  unfold thenDrop
  change (Evolution.map Prod.fst (Evolution.tryFinally (op env) fun _ => drop h env)).run m = _
  simp only [Evolution.map, Evolution.tryFinally]
  rw [hrun]
  rfl

theorem thenDrop_error {h : Handle} {op : Task ε κ τ α} {env : Env (World κ τ)} {m m' : Engine κ τ} {e : ε}
    (hrun : op env m = .error e m') : (thenDrop h op) env m = .error e { m' with host := m'.host.drop h } := by
  unfold thenDrop
  change (Evolution.map Prod.fst (Evolution.tryFinally (op env) fun _ => drop h env)).run m = _
  simp only [Evolution.map, Evolution.tryFinally]
  rw [hrun]
  rfl

theorem thenDrop_keeps {h : Handle} {op : Task ε κ τ α} {takes : List Handle} {gives : α → List Handle}
    (hop : op.Keeps takes gives) : (thenDrop h op).Keeps (h :: takes) gives := by
  refine ⟨fun env m others htidy => ?_⟩
  have hrun := hop.run env m (h :: others) (htidy.congr fun r => by
    simp only [List.cons_append, Handle.total_append, Handle.total_cons]
    omega)
  cases hr : op env m with
  | ok x m' =>
    rw [hr] at hrun
    rw [thenDrop_ok hr]
    refine World.Tidy.drop (hrun.congr fun r => ?_)
    simp only [Handle.total_append, Handle.total_cons]
    omega
  | error e m' =>
    rw [hr] at hrun
    rw [thenDrop_error hr]
    exact hrun.drop

theorem thenDrop_sure {h : Handle} {op : Task ε κ τ α} {gives : α → List Handle} (hop : op.Sure [] gives) :
    (thenDrop h op).Sure [h] gives := by
  intro env m others htidy
  obtain ⟨x, m', hrun, htidy'⟩ := hop env m (h :: others) htidy
  refine ⟨x, _, thenDrop_ok hrun, World.Tidy.drop (htidy'.congr fun r => ?_)⟩
  simp only [Handle.total_append, Handle.total_cons]
  omega

/-- Does something more where a task fails. -/
def onFailure (op : Task ε κ τ α) (after : Task ε κ τ Unit) : Task ε κ τ α :=
  tryCatch op fun e => do
    after
    throw e

/-- What a task leaves alone goes afterwards, if it fails. -/
theorem onFailure_keeps {op : Task ε κ τ α} {after : Task ε κ τ Unit} {takes left : List Handle}
    {gives : α → List Handle} (hop : op.Keeps takes gives) (hafter : after.Sure left fun _ => []) :
    (onFailure op after).Keeps (takes ++ left) fun x => gives x ++ left := by
  refine ⟨fun env m others htidy => ?_⟩
  rw [List.append_assoc] at htidy
  have hrun := hop.run env m (left ++ others) htidy
  change match (Evolution.tryCatch (op env) fun e => (do after; throw e : Task ε κ τ α) env).run m with
    | .ok x m' => m'.host.Tidy (gives x ++ left ++ others)
    | .error _ m' => m'.host.Tidy others
  simp only [Evolution.tryCatch]
  cases hr : op env m with
  | ok x m' =>
    rw [hr] at hrun
    dsimp only at hrun ⊢
    rwa [List.append_assoc]
  | error e m' =>
    rw [hr] at hrun
    obtain ⟨_, m'', hrun', htidy'⟩ := hafter env m' others hrun
    dsimp only
    rw [Task.run_bind_ok hrun']
    exact htidy'

/-- Makes something of a value, which goes if that fails. -/
def orDrop (h : Handle) (op : Task ε κ τ Unit) : Task ε κ τ Handle := do
  onFailure op (drop h)
  return h

theorem orDrop_keeps {h : Handle} {op : Task ε κ τ Unit} {takes : List Handle} (hop : op.Keeps takes fun _ => []) :
    (orDrop h op).Keeps (h :: takes) fun h => [h] := by
  unfold orDrop
  refine Task.Keeps.bind ((onFailure_keeps hop (drop_sure h)).congr (fun r => ?_) fun _ _ => rfl)
    fun _ => .pure rfl
  simp only [Handle.total_append, Handle.total_cons, Handle.total_nil]
  omega

/-! ### What is still there -/

/-- Does now what was put off while functions were running. -/
def settle : Task ε κ τ Unit := do
  let w ← world
  if w.collectLater && w.depth = 0 then
    fun _ => Evolution.update (fun m => m.collect m.host.holders) fun m => by
      rw [Machine.host_collect]
      exact World.Evolves.refl m.host
    modifyWorld fun w => { w with collectLater := false }

theorem settle_sure : (settle : Task ε κ τ Unit).Sure [] fun _ => [] := by
  unfold settle
  refine world_sure.bind fun w => ?_
  split
  · intro env m others htidy
    refine ⟨(), { m.collect m.host.holders with
      host := { (m.collect m.host.holders).host with collectLater := false } }, rfl, ?_⟩
    rw [Machine.host_collect]
    exact htidy.of_eq rfl rfl
  · exact .pure rfl

/-- Lets the engine forget all that cannot be reached. While functions are running this has to wait. -/
def collect : Task ε κ τ Unit := do
  modifyWorld fun w => { w with collectLater := true }
  settle

theorem collect_sure : (collect : Task ε κ τ Unit).Sure [] fun _ => [] := by
  unfold collect
  exact Task.Sure.bind (modifyWorld_sure_of_eq (fun _ => rfl) fun _ => rfl) fun _ => settle_sure

/-- Takes away what nothing holds. -/
def release : Task ε κ τ Unit := do
  settle
  fun _ => Evolution.update (fun m => m.release m.host.holders) fun m => by
    rw [Machine.host_release]
    exact World.Evolves.refl m.host

/-- How many references there are to a value, as the header of its cell says; values without a cell have none. Before,
the engine has been at work and has a `share` of them for itself. -/
def refCount (share : Nat) (h : Handle) : Task ε κ τ Int := do
  match h.value.reference? with
  | some r =>
    modifyWorld (·.work r share) fun w => w.evolves_work r share
    return (← world).ledger.count.of r
  | none => return 0

theorem refCount_sure (share : Nat) (h : Handle) : (refCount share h : Task ε κ τ Int).Sure [] fun _ => [] := by
  unfold refCount
  split
  · refine Task.Sure.bind (modifyWorld_sure fun _ _ htidy => htidy.of_eq rfl rfl) fun _ => ?_
    exact Task.Sure.bind world_sure fun _ => .pure rfl
  · exact .pure rfl

/-- How many references there are to a value of an engine that holds nothing but what its heap shows. -/
def holderCount (h : Handle) : Task ε κ τ Int := do
  release
  let m ← machine
  refCount ((h.value.reference?.map m.held).getD 0) h

/-- The program's functions that the engine still has. -/
def presentFunctions : Task ε κ τ (List (HostCode κ)) := do
  release
  let m ← machine
  return m.objects.toList.filterMap fun o => do
    match (← o).payload with
    | .host id => m.host.functions[id]?
    | _ => none

end Operation

end PluginRelay.Embedding
