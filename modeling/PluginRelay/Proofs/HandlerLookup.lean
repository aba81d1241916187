import PluginRelay.Proofs.Invocation
import PluginRelay.Proofs.OutsideCalls

/-!
# Where a missing handler shows

Loading asks whether anything is exported under the name of the handler, an invocation whether a function
is. The two differ for modules that export something else under the name: these load, and every invocation
that gets as far as the handler finds it missing.
-/
namespace PluginRelay.Plugin

open Message (Request Response)
open Wasm (Module Instance)

theorem of_ofModule {system : System} {config : Config} {m : Module} {p : Plugin}
    (h : ofModule system config m = .ok p) : p = ⟨config, m, system⟩ ∧ (m.export? config.handler).isSome := by
  unfold ofModule at h
  split at h
  · next hsome => exact ⟨(Except.ok.inj h).symm, hsome⟩
  · simp at h

theorem of_load {system : System} {config : Config} {bytes : Bytes} {p : Plugin}
    (h : load system config bytes = .ok p) : p.config = config ∧ (p.module.export? config.handler).isSome := by
  unfold load at h
  split at h
  · obtain ⟨rfl, hsome⟩ := of_ofModule h
    exact ⟨rfl, hsome⟩
  · simp at h

/-- Calls find nothing under a name exactly if what is exported under it is no function. -/
theorem exportedFunction?_eq_none_iff {m : Module} {name : String} :
    m.exportedFunction? name = none ↔ ∀ x, m.export? name = some x → x.kind ≠ .function := by
  unfold Module.exportedFunction?
  cases m.export? name with
  | none => simp
  | some x =>
    obtain ⟨name, kind, index⟩ := x
    cases kind <;> simp

theorem callNamed_eq_absent_iff {i : Instance Streams} {world : State} {name : String} :
    (callNamed i world name).2 = .absent ↔ i.source.exportedFunction? name = none := by
  unfold callNamed
  cases i.source.exportedFunction? name with
  | none => simp
  | some index =>
    dsimp only
    rcases i.environment.types[index]? with _ | ⟨_ | _, _ | _⟩
    · simp
    · dsimp only
      cases (i.environment.invoke world index []).2 <;> simp [Course.ofResult]
    all_goals simp

section

variable {p : Plugin} {request : Request}

theorem source_of_instantiation {streams : Streams} {i : Instance Streams} {world : State}
    (h : p.instantiation streams = .ok (i, world)) : i.source = p.module := by
  unfold instantiation at h
  cases hnew : Instance.new? p.module (linker p.system) p.config.fuel streams with
  | none => simp [hnew] at h
  | some j =>
    simp only [hnew] at h
    split at h
    · simp at h
    · obtain ⟨rfl, -⟩ := Prod.mk.inj (Except.ok.inj h)
      exact (Instance.of_new? hnew).1

theorem source_of_ready {i : Instance Streams} {world : State} (h : p.Ready request i world) :
    i.source = p.module := by
  obtain ⟨_, _, hi, -⟩ := h
  exact source_of_instantiation hi

theorem fails_missing_iff {name : String} :
    p.Fails request (.missingExport name) ↔
      name = p.config.handler ∧ p.module.exportedFunction? p.config.handler = none ∧
        ∃ i world, p.Ready request i world := by
  constructor
  · intro h
    cases h with
    | missing hr h => exact ⟨rfl, source_of_ready hr ▸ callNamed_eq_absent_iff.mp h, _, _, hr⟩
  · rintro ⟨rfl, hnone, i, world, hr⟩
    exact .missing hr (callNamed_eq_absent_iff.mpr (source_of_ready hr ▸ hnone))

end

/-- A plugin that has loaded exports something under the name of its handler. Its invocations miss the handler
exactly if that is no function and they get as far as calling it. -/
theorem invoke_missing_iff_of_load {system : System} {config : Config} {bytes : Bytes} {p : Plugin}
    (h : load system config bytes = .ok p) :
    ∃ x, p.module.export? config.handler = some x ∧ ∀ (request : Request) (name : String),
      (p.invoke request).1 = .error (.missingExport name) ↔
        name = config.handler ∧ x.kind ≠ .function ∧ ∃ i world, p.Ready request i world := by
  obtain ⟨rfl, hsome⟩ := of_load h
  obtain ⟨x, hx⟩ := Option.isSome_iff_exists.mp hsome
  refine ⟨x, hx, fun request name => ?_⟩
  rw [invoke_eq_error_iff, fails_missing_iff, exportedFunction?_eq_none_iff, hx]
  simp

/-- A module whose memory stands under the name of the handler, in the binary format. -/
def memoryAsHandler : Bytes :=
  Wasm.Binary.magic ++ Wasm.Binary.version ++ [5, 3, 1, 0, 1] ++ [7, 20, 1, 16] ++
    Utf8.encode Config.default.handler ++ [2, 0]

theorem load_memoryAsHandler (system : System) :
    load system .default memoryAsHandler = .ok ⟨.default, { Module.empty with
      memories := [⟨1, none⟩]
      exports := [⟨Config.default.handler, .memory, 0⟩] }, system⟩ := by
  rfl

/-- It loads, and then every invocation misses the handler: nothing runs that could fail before. -/
theorem invoke_missing_iff_of_load_memory :
    ∃ p, load .bare .default memoryAsHandler = .ok p ∧ ∀ (request : Request) (name : String),
      (p.invoke request).1 = .error (.missingExport name) ↔ name = "wl_bridge_handle" := by
  refine ⟨_, load_memoryAsHandler .bare, fun request name => ?_⟩
  obtain ⟨x, hx, h⟩ := invoke_missing_iff_of_load (load_memoryAsHandler .bare)
  obtain rfl := Option.some.inj hx
  rw [h]
  constructor
  · exact fun h => h.1
  · exact fun h => ⟨h, by decide, _, _, _, _, rfl, rfl, .inl rfl⟩

/-- So a plugin that has loaded can still miss its handler. -/
theorem missing_despite_load :
    ¬ ∀ (system : System) (config : Config) (bytes : Bytes) (p : Plugin), load system config bytes = .ok p →
      ∀ (request : Request) (name : String), (p.invoke request).1 ≠ .error (.missingExport name) := by
  intro hfound
  refine hfound .bare _ _ _ (load_memoryAsHandler _) ⟨.zero, [], false, "ping", .null⟩ Config.default.handler ?_
  rw [invoke_eq_error_iff, fails_missing_iff]
  exact ⟨rfl, rfl, _, _, _, _, rfl, rfl, .inl rfl⟩

end PluginRelay.Plugin
