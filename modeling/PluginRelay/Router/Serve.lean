import PluginRelay.Message.Wire
import PluginRelay.Router.Basic

/-!
# Serving one request from a stream

`serve` reads its input to the end, answers it and writes the answer. Input that is no request is
answered by an error under the zero identifier. A source delivers chunks and then ends or fails; a
sink takes a number of bytes before it fails, and may fail on the flush.
-/
namespace PluginRelay

open Message (Request Response Error)

structure Source where
  chunks : List Bytes
  failure : Option String

structure Sink where
  /-- How many bytes are taken, and why no more are. -/
  limit : Option (Nat × String)
  flushFailure : Option String

/-- Everything a source delivers, or why it broke. -/
def Source.readToEnd (s : Source) : Except String Bytes :=
  match s.failure with
  | some reason => .error reason
  | none => .ok s.chunks.flatten

/-- The bytes that a sink takes of a text, and how writing and flushing it ended. -/
def Sink.writeAll (s : Sink) (bytes : Bytes) : Bytes × Except String Unit :=
  let flushed : Except String Unit :=
    match s.flushFailure with
    | some reason => .error reason
    | none => .ok ()
  match s.limit with
  | none => (bytes, flushed)
  | some (n, reason) => if bytes.length ≤ n then (bytes, flushed) else (bytes.take n, .error reason)

namespace Router

variable {σ : Type}

structure Served (σ : Type) where
  written : Bytes
  result : Except Error Unit
  events : List Log.Event
  state : σ

/-- The response to the bytes of a request. -/
def answer (r : Router σ) (input : Bytes) (state : σ) : Outcome σ :=
  match Request.decode input with
  | .ok request => r.handle request state
  | .error e => ⟨some ⟨.zero, [], .error e⟩, [], state⟩

def serve (r : Router σ) (source : Source) (sink : Sink) (state : σ) : Served σ :=
  match source.readToEnd with
  | .error reason => ⟨[], .error (.streamFailed reason), [], state⟩
  | .ok input =>
    let outcome := r.answer input state
    match outcome.response with
    | none => ⟨[], .ok (), outcome.events, outcome.state⟩
    | some response =>
      match sink.writeAll response.encode with
      | (written, .ok ()) => ⟨written, .ok (), outcome.events, outcome.state⟩
      | (written, .error reason) =>
        ⟨written, .error (.streamFailed reason), outcome.events, outcome.state⟩

end Router

end PluginRelay
