import PluginRelay.Proofs.Invocation
import PluginRelay.Proofs.OutsideCalls

/-!
# What is kept of a plugin's log

Whatever a plugin writes, and in whatever pieces, its buffer holds the front of it that the capacity has
room for. The events of an invocation are made of that buffer, however the invocation ends.
-/
namespace PluginRelay.Plugin

open Message (Request)
open Wasm (Import Memory Value Module Outcall Instance Environment Stop HostFunction)

namespace LogBuffer

example : (["hello ", "world", "!"].map Utf8.encode).foldl write (empty 8) =
    ⟨8, Utf8.encode "hello wo", true⟩ := by decide +kernel

/-- A text is these lines, each with its ending: a line feed, perhaps with a carriage return before it. Only the last
line may go without, if it is not empty. No line has a line feed in it, and a carriage return at the end of a line
belongs to its ending. -/
inductive IsLines : List Char → List String → Prop
  | none : IsLines [] []
  | last {line : List Char} (hline : line ≠ []) (hfeed : '\n' ∉ line) : IsLines line [String.ofList line]
  | feed {line text : List Char} {more : List String} (hfeed : '\n' ∉ line) (hreturn : line.getLast? ≠ some '\r')
      (hmore : IsLines text more) : IsLines (line ++ '\n' :: text) (String.ofList line :: more)
  | returnFeed {line text : List Char} {more : List String} (hfeed : '\n' ∉ line) (hmore : IsLines text more) :
      IsLines (line ++ '\r' :: '\n' :: text) (String.ofList line :: more)

theorem linesFrom_append {line : List Char} (h : '\n' ∉ line) (reversed text : List Char) :
    linesFrom reversed (line ++ text) = linesFrom (line.reverse ++ reversed) text := by
  induction line generalizing reversed with
  | nil => rfl
  | cons c rest ih =>
    rw [List.mem_cons, not_or] at h
    rw [List.cons_append, linesFrom, ih h.2, List.reverse_cons, List.append_assoc, List.singleton_append]
    exact fun hc => h.1 hc.symm

theorem dropReturn_of_getLast? {line : List Char} (h : line.getLast? ≠ some '\r') : dropReturn line.reverse = line := by
  unfold dropReturn
  split
  · next rest hrest => simp [List.reverse_eq_cons_iff.mp hrest] at h
  · exact line.reverse_reverse

theorem isLines_linesFrom {reversed : List Char} (h : '\n' ∉ reversed) (text : List Char) :
    IsLines (reversed.reverse ++ text) (linesFrom reversed text) := by
  induction text generalizing reversed with
  | nil =>
    rw [List.append_nil, linesFrom]
    cases reversed with
    | nil => exact .none
    | cons c rest => exact .last (by simp) (by simpa [and_comm] using h)
  | cons c rest ih =>
    by_cases hc : c = '\n'
    · subst hc
      have hmore : IsLines rest (linesFrom [] rest) := ih List.not_mem_nil
      rw [linesFrom]
      unfold dropReturn
      split
      · next line =>
        rw [List.reverse_cons, List.append_assoc]
        exact .returnFeed (by simpa using fun hm => h (List.mem_cons_of_mem _ hm)) hmore
      · next hline =>
        refine .feed (by simpa using h) (fun hlast => ?_) hmore
        rw [List.getLast?_reverse] at hlast
        obtain ⟨line, rfl⟩ := List.head?_eq_some_iff.mp hlast
        exact hline line rfl
    · have hcons : '\n' ∉ c :: reversed := by simpa [Ne.symm hc] using h
      rw [linesFrom]
      · simpa using ih hcons
      · exact hc

/-- The lines of a text are just those that make it up. -/
theorem isLines_iff (text : String) (ls : List String) : IsLines text.toList ls ↔ ls = lines text := by
  constructor
  · unfold lines
    generalize text.toList = cs
    intro h
    induction h with
    | none => rfl
    | @last line hline hfeed =>
      rw [← List.append_nil line, linesFrom_append hfeed, List.append_nil, linesFrom]
      simp [hline]
    | feed hfeed hreturn _ ih =>
      rw [linesFrom_append hfeed, List.append_nil, linesFrom, dropReturn_of_getLast? hreturn, ← ih]
    | @returnFeed line text more hfeed _ ih =>
      rw [linesFrom_append hfeed, linesFrom, linesFrom, List.append_nil, dropReturn, List.reverse_reverse, ← ih]
      decide
  · rintro rfl
    exact isLines_linesFrom List.not_mem_nil text.toList

end LogBuffer

/-! ## Calls that log -/

/-- The calls to the outside of what is exported under a name. -/
def namedOutcalls (i : Instance Streams) (world : State) (name : String) : List Outcall :=
  match i.source.exportedFunction? name with
  | none => []
  | some index =>
    match i.environment.types[index]? with
    | some ⟨[], []⟩ => i.environment.outcalls world index []
    | _ => []

/-- The calls to the outside of all that a plugin does for a request, in order: those of the start
function, of the initializer and of the handler, as far as it gets. -/
def outcalls (p : Plugin) (streams : Streams) : List Outcall :=
  match Instance.new? p.module (linker p.system) p.config.fuel streams with
  | none => []
  | some i =>
    i.startOutcalls ++
      match i.start with
      | (_, .error _) => []
      | (fresh, .ok ()) =>
        namedOutcalls i fresh initializer ++
          match prepare i fresh with
          | (_, .error _) => []
          | (world, .ok ()) => namedOutcalls i world p.config.handler

end PluginRelay.Plugin
