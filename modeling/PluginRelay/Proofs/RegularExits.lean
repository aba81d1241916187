import PluginRelay.Proofs.Invocation

/-!
# Leaving with code zero

A plugin may leave with code zero instead of returning. Of the initializer and of the handler this is a
regular end. A start function that leaves so ends instantiation, which makes no difference between codes.
-/
namespace PluginRelay.Plugin

open Message (Request Response)
open Wasm (Environment Export Frame Machine Memory Module)

section

variable {p : Plugin} {request : Request}

theorem not_breaks_exit_zero (c : Course) : ¬ c.Breaks (.exited 0) := by
  intro h
  cases h with
  | stopped h => exact h rfl

theorem not_fails_interrupted_exit_zero : ¬ p.Fails request (.interrupted (.exited 0)) := by
  intro h
  cases h with
  | initializer _ h => exact not_breaks_exit_zero _ h
  | handler _ h => exact not_breaks_exit_zero _ h

theorem fails_unlinkable_iff {reason : Wasm.Stop} :
    p.Fails request (.unlinkable reason) ↔ p.instantiation (p.streamsFor request) = .error reason := by
  constructor
  · intro h
    cases h with
    | instantiation h => exact h
  · exact .instantiation

/-- Output is refused as a matter of the protocol only. -/
theorem judge_ne_call_failure (output : Bytes) (reason : Wasm.Stop) :
    judge request output ≠ .error (.unlinkable reason) ∧
      judge request output ≠ .error (.interrupted reason) := by
  obtain ⟨-, hj⟩ | ⟨-, ⟨-, hj⟩ | ⟨e, -, -, hj⟩ | ⟨response, -, -, hj⟩ | ⟨response, -, -, hj⟩⟩ :=
    judge_cases request output
  all_goals simp [hj]

end

/-- Leaving ends the whole run, however many calls wait for each other. -/
theorem callFunction_procExit {e : Environment Streams} {world : State} {index shared : Nat}
    {memory : Memory} (hfunction : e.hosts[index]? = some (some procExit))
    (hshared : e.sharedMemory = some shared) (hmemory : world.memories[shared]? = some memory)
    (callers : List Frame) (depth : Nat) :
    ∃ last, Machine.callFunction e world callers depth index [.i32 0] =
      .ended last (.error (.exited 0)) := by
  simp only [Machine.callFunction, hfunction, Machine.callHost, hshared, hmemory]
  exact ⟨_, rfl⟩

/-- Leaving with code zero ends a run so that no call fails for it. After an initializer that leaves so comes the
handler, as after one that returns; of a handler that leaves so the output is judged, and nothing is asked of
it if the request is only fired. It is instantiation that fails, exactly if the start function leaves so. -/
theorem invoke_of_exit_zero (p : Plugin) (request : Request) :
    (∀ (e : Environment Streams) (world : State) (index shared : Nat) (memory : Memory),
      e.hosts[index]? = some (some procExit) → e.sharedMemory = some shared →
      world.memories[shared]? = some memory → ∀ (callers : List Frame) (depth : Nat), ∃ last,
        Machine.callFunction e world callers depth index [.i32 0] = .ended last (.error (.exited 0))) ∧
    (p.invoke request).1 ≠ .error (.interrupted (.exited 0)) ∧
    (∀ i fresh world, p.instantiation (p.streamsFor request) = .ok (i, fresh) →
      callNamed i fresh initializer = (world, .stopped (.exited 0)) → p.Ready request i world) ∧
    (∀ i world last, p.Ready request i world →
      callNamed i world p.config.handler = (last, .stopped (.exited 0)) →
        (p.invoke request).1 = judge request last.host.output ∧
        (∀ reason, (p.invoke request).1 ≠ .error (.unlinkable reason) ∧
          (p.invoke request).1 ≠ .error (.interrupted reason)) ∧
        (request.fireAndForget = true → (p.invoke request).1 = .ok none)) ∧
    ((p.invoke request).1 = .error (.unlinkable (.exited 0)) ↔
      p.instantiation (p.streamsFor request) = .error (.exited 0)) := by
  refine ⟨?_, ?_, ?_, ?_, ?_⟩
  · intro e world index shared memory hfunction hshared hmemory callers depth
    exact callFunction_procExit hfunction hshared hmemory callers depth
  · rw [Ne, invoke_eq_error_iff]
    exact not_fails_interrupted_exit_zero
  · intro i fresh world hi hcall
    exact ⟨fresh, _, hi, hcall, .inr (.inr rfl)⟩
  · intro i world last hready hcall
    have hc : p.Completes request last.host.output := ⟨i, world, last, _, hready, hcall, .inr rfl, rfl⟩
    have hjudge := invoke_of_completes hc
    refine ⟨hjudge, fun reason => hjudge ▸ judge_ne_call_failure _ reason, fun hf => ?_⟩
    rw [hjudge, judge, if_pos hf]
  · rw [invoke_eq_error_iff, fails_unlinkable_iff]

/-- A plugin whose function 1 leaves with code zero and whose function 2 returns. One of them is the handler;
one may be started, and more may be exported. -/
def leaving (start : Option Nat) (more : List Export) (handler : Nat) : Plugin :=
  { config := .default
    module := { Module.empty with
      imports := [⟨"wasi_snapshot_preview1", "proc_exit", .function ⟨[.i32], []⟩⟩]
      functions := [⟨⟨[], []⟩, [], [.const (.i32 0), .call 0]⟩, ⟨⟨[], []⟩, [], []⟩]
      memories := [⟨1, none⟩]
      exports := ⟨"memory", .memory, 0⟩ :: ⟨Config.default.handler, .function, handler⟩ :: more
      start }
    system := .bare }

/-- Initializer and handler both leave with code zero. -/
theorem invoke_of_exit_zero_twice :
    let p := leaving none [⟨initializer, .function, 1⟩] 1
    let request : Request := ⟨.zero, [], true, "notify", .null⟩
    (∃ i world last, p.Ready request i world ∧
      callNamed i world p.config.handler = (last, .stopped (.exited 0))) ∧
    (p.invoke request).1 = .ok none := by
  intro p request
  obtain ⟨-, -, hinitializer, hhandler, -⟩ := invoke_of_exit_zero p request
  have hready := hinitializer _ _ _ rfl rfl
  exact ⟨⟨_, _, _, hready, rfl⟩, (hhandler _ _ _ hready rfl).2.2 rfl⟩

/-- A start function that leaves with code zero makes the invocation fail, though the module is valid and its handler
would only have to return. -/
theorem start_exit_zero_unlinkable :
    ¬ ∀ (p : Plugin) (request : Request), p.module.valid = true → request.fireAndForget = true →
      p.instantiation (p.streamsFor request) = .error (.exited 0) → (p.invoke request).1 = .ok none := by
  intro hregular
  have h := hregular (leaving (some 1) [] 2) ⟨.zero, [], true, "notify", .null⟩ (by decide +kernel) rfl rfl
  rw [fails_unlinkable_iff.mpr rfl |>.invoke_eq] at h
  simp at h

end PluginRelay.Plugin
