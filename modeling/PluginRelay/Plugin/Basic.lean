import PluginRelay.Message.Wire
import PluginRelay.Plugin.Streams

/-!
# Plugins

A plugin is a module that exports a handler without parameters and results. Each request runs in a
new instance, so plugins keep nothing between requests. Output is judged only after the calls have
ended well; what was logged is reported in any case.
-/
namespace PluginRelay

open Message (Request Response Error)
open Wasm (Module Stop Instance World)

namespace Plugin

structure Config where
  /-- The name of the handler. -/
  handler : String
  /-- Fuel for each request; without it plugins run as long as they like. -/
  fuel : Option Nat
  /-- How many bytes of log are kept for each request. -/
  logCapacity : Nat
  deriving DecidableEq, Repr

def Config.default : Config := ⟨"wl_bridge_handle", none, 1 <<< 20⟩

inductive Failure where
  | unloadable
  | unlinkable (reason : Stop)
  | interrupted (reason : Stop)
  | missingExport (name : String)
  | protocol (error : Error)

namespace Failure

def message : Failure → String
  | unloadable => "WASM module load failed"
  | unlinkable _ => "WASM module linking failed"
  | interrupted _ => "WASM invocation failed"
  | missingExport name => "plugin does not export `" ++ name ++ "`"
  | protocol _ => "protocol error"

/-- Whether another error is behind the failure. -/
def hasCause : Failure → Bool
  | missingExport _ => false
  | _ => true

end Failure

end Plugin

/-- A module that exports something under the name of the handler, and the system that it runs on. -/
structure Plugin where
  config : Plugin.Config
  module : Module
  system : Plugin.System

namespace Plugin

/-- A module as a plugin, if it exports anything under the name of the handler. -/
def ofModule (system : System) (config : Config) (m : Module) : Except Failure Plugin :=
  if (m.export? config.handler).isSome then .ok ⟨config, m, system⟩
  else .error (.missingExport config.handler)

def load (system : System) (config : Config) (bytes : Bytes) : Except Failure Plugin :=
  match Module.load? bytes with
  | some m => ofModule system config m
  | none => .error .unloadable

/-- Leaving with code zero is a regular way to finish. -/
def finish {α : Type} (result : Except Stop α) : Except Failure Unit :=
  match result with
  | .ok _ => .ok ()
  | .error (.exited 0) => .ok ()
  | .error reason => .error (.interrupted reason)

abbrev State := World Streams

/-- Calls a function that must have neither parameters nor results. -/
def callPlain (i : Instance Streams) (world : State) (index : Nat) : State × Except Failure Unit :=
  match i.environment.types[index]? with
  | some ⟨[], []⟩ =>
    let (world, result) := i.environment.invoke world index []
    (world, finish result)
  | _ => (world, .error (.interrupted .refused))

def initializer : String := "_initialize"

/-- Calls the initializer, if the module exports one. -/
def prepare (i : Instance Streams) (world : State) : State × Except Failure Unit :=
  match i.source.exportedFunction? initializer with
  | some index => callPlain i world index
  | none => (world, .ok ())

def callHandler (handler : String) (i : Instance Streams) (world : State) :
    State × Except Failure Unit :=
  match i.source.exportedFunction? handler with
  | some index => callPlain i world index
  | none => (world, .error (.missingExport handler))

/-- Starts an instance, initializes it and calls its handler, as far as nothing fails. -/
def call (p : Plugin) (streams : Streams) : Streams × Except Failure Unit :=
  match Instance.new? p.module (linker p.system) p.config.fuel streams with
  | none => (streams, .error (.unlinkable .refused))
  | some i =>
    match i.start with
    | (world, .error reason) => (world.host, .error (.unlinkable reason))
    | (world, .ok ()) =>
      match prepare i world with
      | (world, .error failure) => (world.host, .error failure)
      | (world, .ok ()) =>
        let (world, result) := callHandler p.config.handler i world
        (world.host, result)

def silent : Error := .new .internalError "plugin did not write a response"

def strayResponse (request : Request) (response : Response) : Error :=
  .new .internalError ("response belongs to request " ++ response.requestId.toText ++ " instead of " ++
    request.id.toText)

/-- What the output of a call that ended well means for the request. -/
def judge (request : Request) (output : Bytes) : Except Failure (Option Response) :=
  if request.fireAndForget then .ok none
  else if output.isEmpty then .error (.protocol silent)
  else
    match Response.decode output with
    | .error e => .error (.protocol e)
    | .ok response =>
      if response.requestId = request.id then .ok (some response)
      else .error (.protocol (strayResponse request response))

/-- Hands a request to the plugin: its response, and what was logged meanwhile. -/
def invoke (p : Plugin) (request : Request) : Except Failure (Option Response) × List Log.Event :=
  let (streams, result) := p.call ⟨request.encode, [], .empty p.config.logCapacity, 0⟩
  let events := streams.logs.events request.endpoint
  match result with
  | .error failure => (.error failure, events)
  | .ok () => (judge request streams.output, events)

end Plugin

end PluginRelay
