import PluginRelay.Script.Machine

/-!
# What happens to a machine

A run leaves a result or an exception, and a machine in both cases. The state of what lies outside of the
engine belongs to others. They say how it can go on, and nothing that happens to a machine sets it back.
-/
namespace PluginRelay.Script

/-- How the state of what lies outside of the engine can go on. -/
@[nospecialize]
class Evolving (σ : Type) where
  Evolves : σ → σ → Prop
  refl (s : σ) : Evolves s s
  trans {s t u : σ} : Evolves s t → Evolves t u → Evolves s u

export Evolving (Evolves)

theorem Evolving.host_refl {σ : Type} (R : Evolving σ) (m : Machine σ) : R.Evolves m.host m.host :=
  R.refl m.host

/-- How a run ends: with a result or with an exception, and with a machine in both cases. -/
abbrev Ending (ε σ α : Type) := EStateM.Result ε (Machine σ) α

def Ending.machine {ε σ α : Type} : Ending ε σ α → Machine σ
  | .ok _ m | .error _ m => m

/-- What happens to a machine, with an `ε` if it ends with an exception. -/
structure Evolution {σ : Type} (R : Evolving σ) (ε α : Type) where
  run : Machine σ → Ending ε σ α
  evolves : ∀ m, R.Evolves m.host (run m).machine.host

namespace Evolution

variable {ε δ σ α β : Type} {R : Evolving σ}

instance : CoeFun (Evolution R ε α) fun _ => Machine σ → Ending ε σ α := ⟨run⟩

@[always_inline, inline]
protected def pure (x : α) : Evolution R ε α := ⟨fun m => .ok x m, fun m => R.refl m.host⟩

@[always_inline, inline]
protected def bind (a : Evolution R ε α) (f : α → Evolution R ε β) : Evolution R ε β where
  run m :=
    match a.run m with
    | .ok x m => (f x).run m
    | .error e m => .error e m
  evolves m := by
    have h := a.evolves m
    split <;> rename_i heq <;> rw [heq] at h
    · exact R.trans h ((f _).evolves _)
    · exact h

@[always_inline, inline]
protected def map (f : α → β) (a : Evolution R ε α) : Evolution R ε β where
  run m :=
    match a.run m with
    | .ok x m => .ok (f x) m
    | .error e m => .error e m
  evolves m := by
    have h := a.evolves m
    split <;> rename_i heq <;> rw [heq] at h <;> exact h

@[always_inline, inline]
protected def throw (e : ε) : Evolution R ε α := ⟨fun m => .error e m, fun m => R.refl m.host⟩

@[always_inline, inline]
protected def tryCatch (a : Evolution R ε α) (handle : ε → Evolution R ε α) : Evolution R ε α where
  run m :=
    match a.run m with
    | .ok x m => .ok x m
    | .error e m => (handle e).run m
  evolves m := by
    have h := a.evolves m
    split <;> rename_i heq <;> rw [heq] at h
    · exact h
    · exact R.trans h ((handle _).evolves _)

@[always_inline, inline]
protected def tryFinally (a : Evolution R ε α) (after : Option α → Evolution R ε β) :
    Evolution R ε (α × β) where
  run m :=
    match a.run m with
    | .ok x m =>
      match (after (some x)).run m with
      | .ok y m => .ok (x, y) m
      | .error e m => .error e m
    | .error e m =>
      match (after none).run m with
      | .ok _ m => .error e m
      | .error e m => .error e m
  evolves m := by
    have h := a.evolves m
    split <;> rename_i x m' heq <;> rw [heq] at h
    · have h' := (after (some x)).evolves m'
      split <;> rename_i heq <;> rw [heq] at h' <;> exact R.trans h h'
    · have h' := (after none).evolves m'
      split <;> rename_i heq <;> rw [heq] at h' <;> exact R.trans h h'

@[always_inline]
instance : Monad (Evolution R ε) where
  pure := Evolution.pure
  bind := Evolution.bind
  map := Evolution.map

@[always_inline]
instance : MonadExceptOf ε (Evolution R ε) := ⟨Evolution.throw, Evolution.tryCatch⟩

@[always_inline]
instance : MonadFinally (Evolution R ε) := ⟨Evolution.tryFinally⟩

instance [Inhabited ε] : Inhabited (Evolution R ε α) := ⟨Evolution.throw default⟩

@[always_inline, inline]
def machine : Evolution R ε (Machine σ) := ⟨fun m => .ok m m, fun m => R.refl m.host⟩

@[always_inline]
instance : MonadReaderOf (Machine σ) (Evolution R ε) := ⟨machine⟩

/-- Changes the machine in a way that gives a result. -/
@[always_inline, inline]
def updateGet (f : Machine σ → α × Machine σ)
    (h : ∀ m, R.Evolves m.host (f m).2.host := by exact fun m => Evolving.host_refl _ m) : Evolution R ε α where
  run m :=
    let r := f m
    .ok r.1 r.2
  evolves := h

@[always_inline, inline]
def update (f : Machine σ → Machine σ)
    (h : ∀ m, R.Evolves m.host (f m).host := by exact fun m => Evolving.host_refl _ m) : Evolution R ε Unit :=
  updateGet (fun m => ((), f m)) h

/-- The exception, if it ends with one. -/
@[always_inline, inline]
def attempt (a : Evolution R ε α) : Evolution R δ (Except ε α) where
  run m :=
    match a.run m with
    | .ok x m => .ok (.ok x) m
    | .error e m => .ok (.error e) m
  evolves m := by
    have h := a.evolves m
    split <;> rename_i heq <;> rw [heq] at h <;> exact h

/-- A value leaves the engine. -/
def numbered (place : Nat → Nat) (v : Value) : Evolution R ε Value :=
  updateGet (·.numbered place v) fun m => by
    rw [m.host_numbered]
    exact R.refl m.host

/-! ### Running one after the other -/

theorem run_bind_ok {a : Evolution R ε α} {x : α} {m m' : Machine σ} (h : a.run m = .ok x m')
    (f : α → Evolution R ε β) : (a >>= f).run m = (f x).run m' := by
  change (match a.run m with | .ok x m => (f x).run m | .error e m => .error e m) = _
  rw [h]

theorem run_bind_error {a : Evolution R ε α} {e : ε} {m m' : Machine σ} (h : a.run m = .error e m')
    (f : α → Evolution R ε β) : (a >>= f).run m = .error e m' := by
  change (match a.run m with | .ok x m => (f x).run m | .error e m => .error e m) = _
  rw [h]

end Evolution

end PluginRelay.Script
