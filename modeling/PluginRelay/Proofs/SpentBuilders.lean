import PluginRelay.Proofs.BuilderHistory

/-!
# Spent builders

A builder is spent from the first build on, and every later use of it is a misuse. The one exception is a payload
step whose value does not convert: the conversion comes before the builder is asked, so its error is reported
instead, although the builder stays spent.
-/
namespace PluginRelay.Message

/-- A use of a builder. -/
inductive Use (ε : Type) where
  | change (change : ε)
  | build

/-- What a use comes back with. -/
inductive Reply (α : Type) where
  | changed
  | built (message : α)
  | refused (error : Error)
  | panicked (misuse : Misuse)

def Step.reply {α : Type} : Step α → Reply α
  | .done _ => .changed
  | .refused error _ => .refused error
  | .misused misuse _ => .panicked misuse

/-- The misuse that the use of a spent builder is. -/
def Use.misuse {ε : Type} (carrier : Error.Carrier) : Use ε → Misuse
  | .change _ => .changed
  | .build => .builtAgain carrier

section

variable {α ε : Type} (step : ε → Builder α → Step α) (carrier : Error.Carrier)

/-- What the use comes back with, and the builder after it. -/
def Use.run (builder : Builder α) : Use ε → Reply α × Builder α
  | .change c => ((step c builder).reply, (step c builder).builder)
  | .build =>
    match builder.finish carrier with
    | .ok (message, rest) => (.built message, rest)
    | .error misuse => (.panicked misuse, builder)

/-- The builder after uses one after another. -/
def Builder.used (builder : Builder α) (uses : List (Use ε)) : Builder α :=
  uses.foldl (fun builder use => (Use.run step carrier builder use).2) builder

end

/-- Every step finds a spent builder out, except for the one that fails before it gets there. -/
structure SpentBy {α ε : Type} (step : ε → Builder α → Step α) (failing : ε) : Prop where
  misused : ∀ c, c ≠ failing → step c none = .misused .changed none
  refused : step failing none = .refused .inconvertible none

namespace SpentBy

variable {α ε : Type} {step : ε → Builder α → Step α} {failing : ε} {carrier : Error.Carrier}

theorem run_of_ne (h : SpentBy step failing) {u : Use ε} (hu : u ≠ .change failing) :
    u.run step carrier none = (.panicked (u.misuse carrier), none) := by
  cases u with
  | change c =>
    have hc : c ≠ failing := fun hc => hu (congrArg Use.change hc)
    rw [Use.run, h.misused c hc]
    rfl
  | build => rfl

theorem run_failing (h : SpentBy step failing) :
    (Use.change failing).run step carrier none = (.refused .inconvertible, none) := by
  rw [Use.run, h.refused]
  rfl

/-- A spent builder stays spent, whatever it is used for. -/
theorem run_none (h : SpentBy step failing) (u : Use ε) : (u.run step carrier none).2 = none := by
  by_cases hu : u = .change failing
  · rw [hu, h.run_failing]
  · rw [h.run_of_ne hu]

theorem used_none (h : SpentBy step failing) (uses : List (Use ε)) :
    Builder.used step carrier none uses = none := by
  induction uses with
  | nil => rfl
  | cons u uses ih => rwa [Builder.used, List.foldl_cons, h.run_none]

/-- Only a build spends the builder. -/
theorem used_eq_none_iff (h : SpentBy step failing) {next : α → ε → α}
    (hnext : ∀ a c, (step c (some a)).builder = some (next a c)) (a : α) (uses : List (Use ε)) :
    Builder.used step carrier (some a) uses = none ↔ .build ∈ uses := by
  induction uses generalizing a with
  | nil => simp [Builder.used]
  | cons u uses ih =>
    rw [Builder.used, List.foldl_cons]
    cases u with
    | change c =>
      rw [Use.run, hnext]
      exact (ih (next a c)).trans (by simp)
    | build => exact iff_of_true (h.used_none uses) List.mem_cons_self

theorem used (h : SpentBy step failing) {next : α → ε → α}
    (hnext : ∀ a c, (step c (some a)).builder = some (next a c)) (a : α) (uses : List (Use ε)) :
    let builder := Builder.used step carrier (some a) uses
    (builder = none ↔ .build ∈ uses) ∧ (builder = none → ∀ u : Use ε,
      (u ≠ .change failing → u.run step carrier builder = (.panicked (u.misuse carrier), none)) ∧
      (u = .change failing → u.run step carrier builder = (.refused .inconvertible, none))) := by
  intro builder
  refine ⟨h.used_eq_none_iff hnext a uses, fun hspent u => ?_⟩
  rw [hspent]
  refine ⟨h.run_of_ne, ?_⟩
  rintro rfl
  exact h.run_failing

end SpentBy

theorem Request.spentBy : SpentBy Change.step (.payload none) where
  misused c hc := by
    rcases c with _ | _ | (_ | _) | _ | _
    case payload.none => exact absurd rfl hc
    all_goals rfl
  refused := rfl

theorem Response.spentBy : SpentBy Change.step (.payload none) where
  misused c hc := by
    rcases c with _ | (_ | _) | _ | _
    case payload.none => exact absurd rfl hc
    all_goals rfl
  refused := rfl

/-- A builder is spent exactly if it has been built. Each use of a spent builder leaves it spent and panics with the
message for that use, unless it is a payload step whose value does not convert, which reports that error. -/
theorem spent_builders (id requestId : Uuid) (endpoint : String) (requestUses : List (Use Request.Change))
    (responseUses : List (Use Response.Change)) :
    let request := Builder.used Request.Change.step .request (some (Request.new id endpoint)) requestUses
    let response := Builder.used Response.Change.step .response (some (Response.new requestId)) responseUses
    ((request = none ↔ .build ∈ requestUses) ∧ (request = none → ∀ u : Use Request.Change,
      (u ≠ .change (.payload none) →
        u.run Request.Change.step .request request = (.panicked (u.misuse .request), none)) ∧
      (u = .change (.payload none) →
        u.run Request.Change.step .request request = (.refused .inconvertible, none)))) ∧
    ((response = none ↔ .build ∈ responseUses) ∧ (response = none → ∀ u : Use Response.Change,
      (u ≠ .change (.payload none) →
        u.run Response.Change.step .response response = (.panicked (u.misuse .response), none)) ∧
      (u = .change (.payload none) →
        u.run Response.Change.step .response response = (.refused .inconvertible, none)))) :=
  ⟨Request.spentBy.used Request.builder_step (Request.new id endpoint) requestUses,
    Response.spentBy.used Response.builder_step (Response.new requestId) responseUses⟩

/-- It is not so that every use after a build panics, for requests as little as for responses: a payload that does
not convert is reported. -/
theorem spent_builder_answers :
    (¬ ∀ id endpoint uses (u : Use Request.Change), .build ∈ uses → ∃ misuse,
      u.run Request.Change.step .request
        (Builder.used Request.Change.step .request (some (Request.new id endpoint)) uses) =
          (.panicked misuse, none)) ∧
    ¬ ∀ requestId uses (u : Use Response.Change), .build ∈ uses → ∃ misuse,
      u.run Response.Change.step .response
        (Builder.used Response.Change.step .response (some (Response.new requestId)) uses) =
          (.panicked misuse, none) := by
  constructor
  · intro hall
    obtain ⟨misuse, h⟩ := hall .zero "x" [.build] (.change (.payload none)) List.mem_cons_self
    exact nomatch congrArg Prod.fst h
  · intro hall
    obtain ⟨misuse, h⟩ := hall .zero [.build] (.change (.payload none)) List.mem_cons_self
    exact nomatch congrArg Prod.fst h

end PluginRelay.Message
