import Mathlib.Tactic.SplitIfs
import PluginRelay.Proofs.Invocation

/-!
# Fuel only cuts runs short

A limit is looked at when a function is entered and when a loop starts a round, and all that it does there
is to end the run. So two runs under different limits go the same way, step by step, until the tighter
limit ends one of them. Start function, initializer and handler of a plugin share one limit.
-/
namespace PluginRelay

open Message (Request Response)

namespace Wasm

/-- Whenever `other` is reached, `limit` is reached too. -/
def Tighter (limit other : Option Nat) : Prop :=
  ∀ consumed, other.any (· ≤ consumed) → limit.any (· ≤ consumed)

theorem tighter_none (limit : Option Nat) : Tighter limit none := by simp [Tighter]

theorem tighter_of_le {n m : Nat} (h : n ≤ m) : Tighter (some n) (some m) := by
  intro consumed hm
  simp only [Option.any_some, decide_eq_true_eq] at hm ⊢
  omega

variable {σ : Type}

def Environment.withFuel (e : Environment σ) (fuel : Option Nat) : Environment σ := { e with fuel := fuel }

def Instance.withFuel (i : Instance σ) (fuel : Option Nat) : Instance σ :=
  { i with environment := i.environment.withFuel fuel }

/-! ## One step -/

/-- The first of two runs has just come to its limit, or both stand at the same point. -/
def Progress.Cut (p q : Progress σ) : Prop :=
  (∃ world, p = .ended world (.error (.trap .outOfFuel))) ∨ p = q

theorem Progress.Cut.refl (p : Progress σ) : p.Cut p := .inr rfl

variable (e : Environment σ) {limit other : Option Nat}

theorem Environment.exhausted_of_tighter (h : Tighter limit other) {w : World σ}
    (hw : (e.withFuel other).exhausted w) : (e.withFuel limit).exhausted w := h w.consumed hw

/-- What happens where the limit is looked at. -/
theorem cut_of_exhausted (h : Tighter limit other) (world : World σ) (p : Progress σ) :
    (if (e.withFuel limit).exhausted world then .ended world (.error (.trap .outOfFuel)) else p :
      Progress σ).Cut
      (if (e.withFuel other).exhausted world then .ended world (.error (.trap .outOfFuel)) else p) := by
  by_cases hlimit : (e.withFuel limit).exhausted world
  · exact .inl ⟨world, if_pos hlimit⟩
  · have hother : ¬ (e.withFuel other).exhausted world := fun hw => hlimit (e.exhausted_of_tighter h hw)
    rw [if_neg hlimit, if_neg hother]
    exact .refl p

namespace Machine

theorem enterFunction_cut (h : Tighter limit other) (world : World σ) (callers : List Frame)
    (depth index : Nat) (arguments : List Value) :
    (enterFunction (e.withFuel limit) world callers depth index arguments).Cut
      (enterFunction (e.withFuel other) world callers depth index arguments) := by
  simp only [enterFunction, Environment.withFuel]
  cases e.functions[index - e.hosts.size]? with
  | none => exact .refl _
  | some f =>
    dsimp only
    split
    · exact .refl _
    · exact cut_of_exhausted e h world _

theorem callFunction_cut (h : Tighter limit other) (world : World σ) (callers : List Frame)
    (depth index : Nat) (arguments : List Value) :
    (callFunction (e.withFuel limit) world callers depth index arguments).Cut
      (callFunction (e.withFuel other) world callers depth index arguments) := by
  have hhosts (fuel : Option Nat) : (e.withFuel fuel).hosts = e.hosts := rfl
  simp only [callFunction, hhosts]
  cases e.hosts[index]? with
  | none => exact enterFunction_cut e h _ _ _ _ _
  | some function => exact .refl _

theorem callOn_cut (h : Tighter limit other) (m : Machine σ) (waiting : List Value → List Frame)
    (depth index : Nat) (stack : List Value) :
    (m.callOn (e.withFuel limit) waiting depth index stack).Cut
      (m.callOn (e.withFuel other) waiting depth index stack) := by
  have htypes (fuel : Option Nat) : (e.withFuel fuel).types = e.types := rfl
  simp only [callOn, htypes]
  cases e.types[index]? with
  | none => exact .refl _
  | some type => exact callFunction_cut e h _ _ _ _ _

/-- The same for what a place of a table refers to. -/
theorem callAt_cut (h : Tighter limit other) (m : Machine σ) (waiting : List Value → List Frame)
    (depth table place : Nat) (type : FunctionType) (stack : List Value) :
    (match indirect (e.withFuel limit) m.world table place type with
      | .ok index => m.callOn (e.withFuel limit) waiting depth index stack
      | .error reason => m.stop reason : Progress σ).Cut
    (match indirect (e.withFuel other) m.world table place type with
      | .ok index => m.callOn (e.withFuel other) waiting depth index stack
      | .error reason => m.stop reason) := by
  have hindirect (fuel : Option Nat) :
      indirect (e.withFuel fuel) m.world table place type = indirect e m.world table place type := rfl
  rw [hindirect, hindirect]
  cases indirect e m.world table place type with
  | ok index => exact callOn_cut e h _ _ _ _ _
  | error reason => exact .refl _

theorem step_cut (h : Tighter limit other) (m : Machine σ) :
    (m.step (e.withFuel limit)).Cut (m.step (e.withFuel other)) := by
  unfold step
  dsimp only
  split
  · exact .refl _
  · next i rest hcode =>
    split
    · exact .refl _
    · exact .refl _
    · exact cut_of_exhausted e h _ _
    · exact .refl _
    · exact .refl _
    · exact .refl _
    · exact .refl _
    · exact .refl _
    · exact callOn_cut e h _ _ _ _ _
    · exact callAt_cut e h ⟨m.world.charge _, m.frame, m.callers, m.depth⟩ _ _ _ _ _ _
    · exact callOn_cut e h _ _ _ _ _
    · exact callAt_cut e h ⟨m.world.charge _, m.frame, m.callers, m.depth⟩ _ _ _ _ _ _
    · exact .refl _

/-! ## Runs -/

end Machine

/-- The first of two results is that there is no fuel left, or they are the same. -/
def CutShort {α : Type} (a b : World σ × Except Stop α) : Prop :=
  a.2 = .error (.trap .outOfFuel) ∨ a = b

theorem Machine.run_cutShort (h : Tighter limit other) (steps : Nat) {p q : Progress σ} (hp : p.Cut q) :
    CutShort (run (e.withFuel limit) steps p) (run (e.withFuel other) steps q) := by
  induction steps generalizing p q with
  | zero =>
    obtain ⟨world, rfl⟩ | rfl := hp
    · exact .inl rfl
    · cases p <;> exact .inr rfl
  | succ steps ih =>
    obtain ⟨world, rfl⟩ | rfl := hp
    · exact .inl rfl
    · cases p with
      | ended world results => exact .inr rfl
      | running m => exact ih (step_cut e h m)

theorem Environment.invoke_cutShort (h : Tighter limit other) (world : World σ) (index : Nat)
    (arguments : List Value) :
    CutShort ((e.withFuel limit).invoke world index arguments)
      ((e.withFuel other).invoke world index arguments) :=
  Machine.run_cutShort e h _ (Machine.callFunction_cut e h _ _ _ _ _)

namespace Instance

theorem new?_withFuel (m : Module) (linker : Linker σ) (host : σ) (fuel : Option Nat) :
    new? m linker fuel host = (new? m linker none host).map (·.withFuel fuel) := by
  unfold new?
  cases m.imports.mapM (linker.resolve? m.imports) with
  | none => rfl
  | some hosts =>
    cases (initialGlobals m).toOption with
    | none => rfl
    | some globals =>
      cases hmade : (m.elements.mapM (passiveTargets globals)).toOption with
      | none => simp [hmade]
      | some elements => simp [hmade]; rfl

theorem start_cutShort (h : Tighter limit other) (i : Instance σ) :
    CutShort (i.withFuel limit).start (i.withFuel other).start := by
  have hsource (fuel : Option Nat) : (i.withFuel fuel).source = i.source := rfl
  have hworld (fuel : Option Nat) : (i.withFuel fuel).world = i.world := rfl
  simp only [start, hsource, hworld]
  cases i.source.elements.foldlM placeElements i.world >>= i.source.datas.foldlM placeData with
  | error reason => exact .inr rfl
  | ok world =>
    dsimp only
    cases i.source.start with
    | none => exact .inr rfl
    | some f =>
      obtain hout | hsame := i.environment.invoke_cutShort h world f []
      · refine .inl ?_
        simp only [withFuel, hout, Except.map]
      · refine .inr ?_
        simp only [withFuel, hsame]

end Instance

end Wasm

namespace Plugin

open Wasm (Instance Tighter CutShort)

/-- The same module under another limit. -/
def withFuel (p : Plugin) (fuel : Option Nat) : Plugin := { p with config := { p.config with fuel := fuel } }

/-- The limit was reached, in the start function or in a call. -/
inductive Failure.OutOfFuel : Failure → Prop
  | unlinkable : OutOfFuel (.unlinkable (.trap .outOfFuel))
  | interrupted : OutOfFuel (.interrupted (.trap .outOfFuel))

/-! ## Calls -/

/-- The first of two stages failed for want of fuel, or they went the same way. -/
def CutStage {α β : Type} (a b : α × Except Failure β) : Prop :=
  (∃ failure, a.2 = .error failure ∧ failure.OutOfFuel) ∨ a = b

variable {limit other : Option Nat}

theorem callPlain_cut (h : Tighter limit other) (i : Instance Streams) (world : State) (index : Nat) :
    CutStage (callPlain (i.withFuel limit) world index) (callPlain (i.withFuel other) world index) := by
  have htypes (fuel : Option Nat) : (i.withFuel fuel).environment.types = i.environment.types := rfl
  simp only [callPlain, htypes]
  rcases i.environment.types[index]? with _ | ⟨_ | _, _ | _⟩
  · exact .inr rfl
  · obtain hout | hsame := i.environment.invoke_cutShort h world index []
    · refine .inl ⟨_, ?_, .interrupted⟩
      simp only [Instance.withFuel, hout]
      rfl
    · refine .inr ?_
      simp only [Instance.withFuel, hsame]
  all_goals exact .inr rfl

theorem prepare_cut (h : Tighter limit other) (i : Instance Streams) (world : State) :
    CutStage (prepare (i.withFuel limit) world) (prepare (i.withFuel other) world) := by
  have hsource (fuel : Option Nat) : (i.withFuel fuel).source = i.source := rfl
  simp only [prepare, hsource]
  cases i.source.exportedFunction? initializer with
  | none => exact .inr rfl
  | some index => exact callPlain_cut h i world index

theorem callHandler_cut (h : Tighter limit other) (handler : String) (i : Instance Streams)
    (world : State) :
    CutStage (callHandler handler (i.withFuel limit) world)
      (callHandler handler (i.withFuel other) world) := by
  have hsource (fuel : Option Nat) : (i.withFuel fuel).source = i.source := rfl
  simp only [callHandler, hsource]
  cases i.source.exportedFunction? handler with
  | none => exact .inr rfl
  | some index => exact callPlain_cut h i world index

/-- Stages after one another: the second one runs only if the first did not fail. -/
theorem CutStage.andThen {a b : State × Except Failure Unit}
    {f g : State → Streams × Except Failure Unit} (hfg : ∀ world, CutStage (f world) (g world)) :
    CutStage a b → CutStage
      (match a with
        | (world, .error failure) => (world.host, .error failure)
        | (world, .ok ()) => f world)
      (match b with
        | (world, .error failure) => (world.host, .error failure)
        | (world, .ok ()) => g world) := by
  rintro (⟨failure, hfailure, hout⟩ | rfl)
  · obtain ⟨world, result⟩ := a
    obtain rfl : result = .error failure := hfailure
    exact .inl ⟨failure, rfl, hout⟩
  · obtain ⟨world, failure | _⟩ := a
    · exact .inr rfl
    · exact hfg world

/-- A start that fails leaves nothing to call. -/
theorem CutStage.afterStart {a b : State × Except Wasm.Stop Unit}
    {f g : State → Streams × Except Failure Unit} (hfg : ∀ world, CutStage (f world) (g world)) :
    CutShort a b → CutStage
      (match a with
        | (world, .error reason) => (world.host, .error (.unlinkable reason))
        | (world, .ok ()) => f world)
      (match b with
        | (world, .error reason) => (world.host, .error (.unlinkable reason))
        | (world, .ok ()) => g world) := by
  rintro (hout | rfl)
  · obtain ⟨world, result⟩ := a
    obtain rfl : result = .error (.trap .outOfFuel) := hout
    exact .inl ⟨_, rfl, .unlinkable⟩
  · obtain ⟨world, reason | _⟩ := a
    · exact .inr rfl
    · exact hfg world

theorem call_cut (h : Tighter limit other) (p : Plugin) (streams : Streams) :
    CutStage ((p.withFuel limit).call streams) ((p.withFuel other).call streams) := by
  simp only [call, withFuel, Instance.new?_withFuel p.module (linker p.system) streams limit,
    Instance.new?_withFuel p.module (linker p.system) streams other]
  cases Instance.new? p.module (linker p.system) none streams with
  | none => exact .inr rfl
  | some i =>
    refine .afterStart (fun world => ?_) (i.start_cutShort h)
    refine .andThen (fun world => ?_) (prepare_cut h i world)
    obtain ⟨failure, hfailure, hout⟩ | hhandler := callHandler_cut h p.config.handler i world
    · exact .inl ⟨failure, hfailure, hout⟩
    · exact .inr (by simp only [hhandler])

/-! ## Invocations -/

/-- Under a tighter limit a plugin fails for want of fuel, or it does what it does under the wider one. -/
theorem invoke_cut (h : Tighter limit other) (p : Plugin) (request : Request) :
    (∃ failure, ((p.withFuel limit).invoke request).1 = .error failure ∧ failure.OutOfFuel) ∨
      (p.withFuel limit).invoke request = (p.withFuel other).invoke request := by
  have hcapacity (fuel : Option Nat) : (p.withFuel fuel).config.logCapacity = p.config.logCapacity := rfl
  simp only [invoke, hcapacity]
  obtain ⟨failure, hfailure, hout⟩ | hsame :=
    call_cut h p ⟨request.encode, [], .empty p.config.logCapacity, 0⟩
  · exact .inl ⟨failure, by simp only [hfailure], hout⟩
  · exact .inr (by rw [hsame])

/-- An invocation that does not fail for want of fuel comes out the same under every wider limit, with the
same events; and one that ends well comes out the same without a limit. -/
theorem invoke_of_enough_fuel {p : Plugin} {request : Request} {n : Nat}
    (hn : ∀ failure, ((p.withFuel (some n)).invoke request).1 = .error failure → ¬ failure.OutOfFuel) :
    (∀ m, n ≤ m → (p.withFuel (some m)).invoke request = (p.withFuel (some n)).invoke request) ∧
    ∀ answer, ((p.withFuel (some n)).invoke request).1 = .ok answer →
      (p.withFuel none).invoke request = (p.withFuel (some n)).invoke request := by
  have hsame {other : Option Nat} (h : Tighter (some n) other) :
      (p.withFuel other).invoke request = (p.withFuel (some n)).invoke request := by
    obtain ⟨failure, hfailure, hout⟩ | hsame := invoke_cut h p request
    · exact absurd hout (hn failure hfailure)
    · exact hsame.symm
  exact ⟨fun m hm => hsame (Wasm.tighter_of_le hm), fun _ _ => hsame (Wasm.tighter_none _)⟩

/-- A start function that calls, and a handler that logs and then goes round a loop: 38 units of fuel are just
enough, and more of it changes nothing. -/
theorem invoke_of_enough_fuel_logging_loop :
    let round : List Wasm.Instruction :=
      [.localGet 0, .const (.i32 1), .numeric (.binary .word .add), .localTee 0, .const (.i32 5),
        .numeric (.compare .word .ltU), .branchIf 0]
    let handler : List Wasm.Instruction :=
      [.const (.i32 2), .const (.i32 0), .const (.i32 1), .const (.i32 12), .call 0, .drop,
        .loop ⟨[], []⟩ round]
    let m : Wasm.Module :=
      { Wasm.Module.empty with
        imports := [⟨"wasi_unstable", "fd_write", .function transferType⟩]
        functions := [⟨⟨[], []⟩, [], [.nop]⟩, ⟨⟨[], []⟩, [], [.call 1]⟩, ⟨⟨[], []⟩, [.i32], handler⟩]
        memories := [⟨1, none⟩]
        exports := [⟨"memory", .memory, 0⟩, ⟨"wl_bridge_handle", .function, 3⟩]
        start := some 2
        datas := [⟨.active 0 [.const (.i32 0)], [8, 0, 0, 0, 3, 0, 0, 0] ++ Utf8.encode "hi\n"⟩] }
    let p : Plugin := ⟨.default, m, .bare⟩
    let request : Request := ⟨.zero, [], true, "notify", .null⟩
    let enough := (p.withFuel (some 38)).invoke request
    (∀ failure, enough.1 = .error failure → ¬ failure.OutOfFuel) ∧
      enough.2 = [LogBuffer.event .info "notify" "hi"] ∧
      (∀ more, 38 ≤ more → (p.withFuel (some more)).invoke request = enough) ∧
      (p.withFuel none).invoke request = enough := by
  intro round handler m p request enough
  have hevents : enough.2 = [LogBuffer.event .info "notify" "hi"] := by decide +kernel
  have hruns : enough.1.toOption.any Option.isNone := by decide +kernel
  have hok : enough.1 = .ok none := by
    generalize enough.1 = result at hruns
    rcases result with _ | _ | _
    · simp [Except.toOption] at hruns
    · rfl
    · simp [Except.toOption] at hruns
  have hn : ∀ failure, enough.1 = .error failure → ¬ failure.OutOfFuel := by
    intro failure hfailure
    simp [hok] at hfailure
  obtain ⟨hmore, hnone⟩ := invoke_of_enough_fuel hn
  exact ⟨hn, hevents, hmore, hnone none hok⟩

end Plugin

end PluginRelay
