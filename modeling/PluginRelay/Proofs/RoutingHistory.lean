import Mathlib.Data.List.Induction
import PluginRelay.Proofs.KeyedOrder
import PluginRelay.Proofs.Utf8Order
import PluginRelay.Router.Basic

/-!
# Routers through their history

A router is told where handlers belong and is handed requests, in any order. Handlers go by names here, so that
a run can note which of them ran. Of its history a router knows only the handler that was registered last for
each endpoint.
-/
namespace PluginRelay

open Message (Request Response Error)

/-! ## Registering -/

namespace Keyed

variable {α : Type}

theorem mem_keys_insert {key other : String} {value : α} {entries : List (String × α)} :
    other ∈ (insert key value entries).map (·.1) ↔ other = key ∨ other ∈ entries.map (·.1) := by
  induction entries with
  | nil => simp [insert]
  | cons e rest ih =>
    obtain ⟨k, v⟩ := e
    simp only [insert]
    split_ifs with hlt heq
    · simp
    · simp [heq]
    · simp only [List.map_cons, List.mem_cons, ih]
      exact or_left_comm

theorem insert_of_lt {key k : String} (h : key < k) (value v : α) (rest : List (String × α)) :
    insert key value ((k, v) :: rest) = (key, value) :: (k, v) :: rest := by
  rw [insert, if_pos h]

theorem insert_of_gt {key k : String} (h : k < key) (value v : α) (rest : List (String × α)) :
    insert key value ((k, v) :: rest) = (k, v) :: insert key value rest := by
  rw [insert, if_neg h.not_gt, if_neg h.ne']

theorem insert_self (key : String) (value v : α) (rest : List (String × α)) :
    insert key value ((key, v) :: rest) = (key, value) :: rest := by
  rw [insert, if_neg (lt_irrefl key), if_pos rfl]

theorem insert_comm_of_lt {key other : String} (h : key < other) (a b : α)
    (entries : List (String × α)) :
    insert key a (insert other b entries) = insert other b (insert key a entries) := by
  induction entries with
  | nil =>
    rw [insert, insert, insert_of_lt h, insert_of_gt h, insert]
  | cons e rest ih =>
    obtain ⟨k, v⟩ := e
    rcases lt_trichotomy other k with ho | rfl | ho
    · rw [insert_of_lt ho, insert_of_lt h, insert_of_lt (h.trans ho), insert_of_gt h, insert_of_lt ho]
    · rw [insert_self, insert_of_lt h, insert_of_lt h, insert_of_gt h, insert_self]
    · rcases lt_trichotomy key k with hk | rfl | hk
      · rw [insert_of_gt ho, insert_of_lt hk, insert_of_lt hk, insert_of_gt h, insert_of_gt ho]
      · rw [insert_of_gt ho, insert_self, insert_self, insert_of_gt ho]
      · rw [insert_of_gt ho, insert_of_gt hk, insert_of_gt hk, insert_of_gt ho, ih]

theorem insert_comm {key other : String} (h : key ≠ other) (a b : α) (entries : List (String × α)) :
    insert key a (insert other b entries) = insert other b (insert key a entries) := by
  rcases lt_or_gt_of_ne h with hlt | hlt
  · exact insert_comm_of_lt hlt a b entries
  · exact (insert_comm_of_lt hlt b a entries).symm

end Keyed

namespace Router

variable {σ ν : Type}

theorem route_comm {endpoint other : String} (h : endpoint ≠ other) (r : Router σ) (f g : Handler σ) :
    (r.route endpoint f).route other g = (r.route other g).route endpoint f := by
  rw [route, route, route, route, Keyed.insert_comm (Ne.symm h)]

/-! ## Histories -/

/-- What is done with a router. -/
inductive Move (ν : Type) where
  | route (endpoint : String) (name : ν)
  | handle (request : Request)

/-- The name under which a move registers a handler for the endpoint, if it does. -/
def Move.name? (endpoint : String) : Move ν → Option ν
  | .route e name => if e = endpoint then some name else none
  | .handle _ => none

/-- The handler that was registered last for an endpoint. -/
def owner? (endpoint : String) (past : List (Move ν)) : Option ν :=
  (past.filterMap (Move.name? endpoint)).getLast?

theorem owner?_route_self (endpoint : String) (name : ν) (past : List (Move ν)) :
    owner? endpoint (past ++ [.route endpoint name]) = some name := by
  simp [owner?, Move.name?]

theorem owner?_route_other {endpoint other : String} (h : other ≠ endpoint) (name : ν)
    (past : List (Move ν)) : owner? endpoint (past ++ [.route other name]) = owner? endpoint past := by
  simp [owner?, Move.name?, h]

theorem owner?_eq_none {endpoint : String} {past : List (Move ν)}
    (h : ∀ name, Move.route endpoint name ∉ past) : owner? endpoint past = none := by
  rw [owner?, List.getLast?_eq_none_iff, List.filterMap_eq_nil_iff]
  intro m hm
  cases m with
  | route e name =>
    refine if_neg ?_
    rintro rfl
    exact h name hm
  | handle request => rfl

theorem owner?_handle (endpoint : String) (request : Request) (past : List (Move ν)) :
    owner? endpoint (past ++ [.handle request]) = owner? endpoint past := by
  simp [owner?, Move.name?]

/-- A router with the state of its handlers. -/
structure Course (σ : Type) where
  router : Router σ
  state : σ

/-- One move, with the handlers that the names stand for. -/
def Course.next (code : ν → Handler σ) (c : Course σ) : Move ν → Course σ
  | .route endpoint name => { c with router := c.router.route endpoint (code name) }
  | .handle request => { c with state := (c.router.handle request c.state).state }

/-- What a history makes of a new router. -/
def after (code : ν → Handler σ) (s : σ) (past : List (Move ν)) : Course σ :=
  past.foldl (Course.next code) ⟨.empty, s⟩

section

variable (code : ν → Handler σ) (s : σ)

theorem after_append (past later : List (Move ν)) :
    after code s (past ++ later) = later.foldl (Course.next code) (after code s past) := by
  rw [after, List.foldl_append, after]

theorem after_concat (past : List (Move ν)) (m : Move ν) :
    after code s (past ++ [m]) = (after code s past).next code m := by
  rw [after_append, List.foldl_cons, List.foldl_nil]

theorem find?_after (endpoint : String) (past : List (Move ν)) :
    Keyed.find? endpoint (after code s past).router.handlers = (owner? endpoint past).map code := by
  induction past using List.reverseRecOn with
  | nil => rfl
  | append_singleton past m ih =>
    rw [after_concat]
    cases m with
    | route other name =>
      by_cases h : other = endpoint
      · subst h
        rw [owner?_route_self]
        exact Keyed.find?_insert_self _ _ _
      · rw [owner?_route_other h, ← ih]
        exact Keyed.find?_insert_other (Ne.symm h) _ _
    | handle request => rw [owner?_handle, ← ih, Course.next]

theorem sorted_after (past : List (Move ν)) : Keyed.Sorted (after code s past).router.handlers := by
  induction past using List.reverseRecOn with
  | nil => exact Keyed.sorted_nil
  | append_singleton past m ih =>
    rw [after_concat]
    cases m with
    | route endpoint name => exact Keyed.sorted_insert _ _ ih
    | handle request => exact ih

theorem endpoints_after (past : List (Move ν)) :
    (after code s past).router.endpoints.Pairwise fun a b => Utf8.encode a < Utf8.encode b :=
  (Keyed.sorted_iff_keys.mp (sorted_after code s past)).imp Utf8.encode_lt

theorem mem_endpoints_after (endpoint : String) (past : List (Move ν)) :
    endpoint ∈ (after code s past).router.endpoints ↔ ∃ name, Move.route endpoint name ∈ past := by
  induction past using List.reverseRecOn with
  | nil => simp [after, empty, endpoints]
  | append_singleton past m ih =>
    rw [after_concat]
    cases m with
    | route other name =>
      rw [Course.next, endpoints, route, Keyed.mem_keys_insert, ← endpoints, ih]
      simp only [List.mem_append, List.mem_singleton, Move.route.injEq, exists_or]
      rw [or_comm]
      simp
    | handle request =>
      rw [Course.next, ih]
      simp

theorem after_swap {endpoint other : String} (h : endpoint ≠ other) (f g : ν)
    (past later : List (Move ν)) :
    after code s (past ++ .route endpoint f :: .route other g :: later) =
      after code s (past ++ .route other g :: .route endpoint f :: later) := by
  simp only [after_append, List.foldl_cons, Course.next, route_comm h]

/-! ## Handling -/

theorem dispatch_after (past : List (Move ν)) (request : Request) (state : σ) :
    (after code s past).router.dispatch request state =
      match owner? request.endpoint past with
      | some name => code name request state
      | none => (.error (.noEndpoint request.endpoint), state) := by
  rw [dispatch, find?_after]
  cases owner? request.endpoint past <;> rfl

theorem state_handle (r : Router σ) (request : Request) (state : σ) :
    (r.handle request state).state = (r.dispatch request state).2 := by
  unfold handle
  obtain ⟨_ | _, state'⟩ := r.dispatch request state
  · dsimp only
    split <;> rfl
  · dsimp only
    split <;> rfl

/-- What comes out of a request whose handling has that result: a response, unless the request is only fired; then
a failure is logged. -/
inductive Concludes (request : Request) (result : Except Error Cbor.Value) (o : Outcome σ) : Prop
  | answered (hf : request.fireAndForget = false) (hr : o.response = some ⟨request.id, [], result⟩)
      (he : o.events = [])
  | done {v : Cbor.Value} (hf : request.fireAndForget = true) (h : result = .ok v)
      (hr : o.response = none) (he : o.events = [])
  | failed {e : Error} (hf : request.fireAndForget = true) (h : result = .error e)
      (hr : o.response = none)
      (he : o.events = [⟨.warning, .router, "fire-and-forget request failed",
        [("endpoint", request.endpoint), ("error", e.message)]⟩])

theorem concludes_handle (r : Router σ) (request : Request) (state : σ) :
    Concludes request (r.dispatch request state).1 (r.handle request state) := by
  unfold handle
  cases hf : request.fireAndForget with
  | false => exact .answered hf rfl rfl
  | true =>
    obtain ⟨e | v, state'⟩ := r.dispatch request state
    · exact .failed hf rfl rfl rfl
    · exact .done hf rfl rfl rfl

end

/-! ## Runs -/

/-- A handler that notes when it runs, and for which request. -/
def noted (code : ν → Handler σ) (name : ν) : Handler (σ × List (ν × Request)) :=
  fun request (state, runs) =>
    ((code name request state).1, (code name request state).2, runs ++ [(name, request)])

/-- The runs that a history asks for, behind what was done before: one for each request whose endpoint has a
handler by then. -/
def runsOf (past : List (Move ν)) : List (Move ν) → List (ν × Request)
  | [] => []
  | .route endpoint name :: later => runsOf (past ++ [.route endpoint name]) later
  | .handle request :: later =>
    (owner? request.endpoint past).toList.map (·, request) ++ runsOf (past ++ [.handle request]) later

theorem runsOf_append (past front back : List (Move ν)) :
    runsOf past (front ++ back) = runsOf past front ++ runsOf (past ++ front) back := by
  induction front generalizing past with
  | nil => simp [runsOf]
  | cons m front ih =>
    cases m with
    | route endpoint name => simp [runsOf, ih]
    | handle request => simp [runsOf, ih]

/-- Noting changes nothing else, and what is noted are the runs that the history asks for. -/
theorem state_after_noted (code : ν → Handler σ) (s : σ) (past : List (Move ν)) :
    (after (noted code) (s, []) past).state = ((after code s past).state, runsOf [] past) := by
  induction past using List.reverseRecOn with
  | nil => rfl
  | append_singleton past m ih =>
    rw [after_concat, after_concat, runsOf_append, List.nil_append]
    cases m with
    | route endpoint name => simp [Course.next, ih, runsOf]
    | handle request =>
      simp only [Course.next, state_handle, dispatch_after, ih, runsOf]
      cases owner? request.endpoint past with
      | none => simp
      | some name => simp [noted]

example :
    let ping : Request := ⟨.zero, [], false, "ping", .null⟩
    let stray : Request := ⟨.zero, [], true, "pong", .null⟩
    runsOf [] [.handle ping, .route "ping" 1, .handle ping, .route "ping" 2, .handle stray, .handle ping] =
      [(1, ping), (2, ping)] := rfl

/-- A request runs the handler registered last for its endpoint, once, and no other handler; without one nothing
runs and the endpoint is reported as unknown. What comes out follows from the result, fired or not.
Registrations of different endpoints may be swapped, and the endpoints are listed in the order of their bytes. -/
theorem handle_after_history (code : ν → Handler σ) (s : σ) (past : List (Move ν)) :
    (∀ request : Request, ∃ result,
      Concludes request result ((after code s past).router.handle request (after code s past).state) ∧
      (∀ name, owner? request.endpoint past = some name →
        result = (code name request (after code s past).state).1 ∧
        (after code s (past ++ [.handle request])).state =
          (code name request (after code s past).state).2) ∧
      ((∀ name, Move.route request.endpoint name ∉ past) →
        result = .error (.new .unknownEndpoint ("no endpoint named '" ++ request.endpoint ++ "'")) ∧
        (after code s (past ++ [.handle request])).state = (after code s past).state)) ∧
    (after (noted code) (s, []) past).state = ((after code s past).state, runsOf [] past) ∧
    (∀ endpoint other f g later, endpoint ≠ other →
      after code s (past ++ .route endpoint f :: .route other g :: later) =
        after code s (past ++ .route other g :: .route endpoint f :: later)) ∧
    ((after code s past).router.endpoints.Pairwise fun a b => Utf8.encode a < Utf8.encode b) ∧
    ∀ endpoint, endpoint ∈ (after code s past).router.endpoints ↔
      ∃ name, Move.route endpoint name ∈ past := by
  refine ⟨fun request => ⟨_, concludes_handle _ _ _, ?_, ?_⟩, state_after_noted code s past, ?_,
    endpoints_after code s past, fun endpoint => mem_endpoints_after code s endpoint past⟩
  · intro name hname
    rw [after_concat, Course.next, state_handle, dispatch_after, hname]
    exact ⟨rfl, rfl⟩
  · intro hnever
    rw [after_concat, Course.next, state_handle, dispatch_after, owner?_eq_none hnever]
    exact ⟨rfl, rfl⟩
  · intro endpoint other f g later h
    exact after_swap code s h f g past later

end Router

end PluginRelay
