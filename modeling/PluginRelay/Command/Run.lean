import PluginRelay.Command.Arguments
import PluginRelay.Embedding.Context
import PluginRelay.Payload.Json
import PluginRelay.Plugin.Basic

/-!
# Running commands

A command reads at most one input and then ends with an exit code and two texts. The result goes to the
output, and troubles and what scripts write to their console go to the error output.
-/
namespace PluginRelay.Command

open Message (Request)

/-- What a command reads before it runs. -/
inductive Need where
  | nothing
  | file (path : String)
  | stdin
  deriving DecidableEq, Repr

structure Outcome where
  exit : Nat
  output : String
  errors : String
  deriving DecidableEq, Repr

/-- Why a command fails, with the reasons behind it, the nearest first. -/
structure Trouble where
  message : String
  causes : List String
  deriving DecidableEq, Repr

namespace Trouble

/-- The lines of a cause, moved to the right. -/
def indented (first later text : String) : String :=
  match text.splitOn "\n" with
  | [] => first
  | line :: rest => first ++ line ++ String.join (rest.map fun l => "\n" ++ later ++ l)

def numbered (causes : List String) : List String :=
  causes.zipIdx.map fun (text, i) =>
    let digits := toString i
    let blanks := String.ofList (List.replicate (5 - digits.length) ' ')
    indented (blanks ++ digits ++ ": ") "       " text

/-- The causes below the message; several of them are numbered. -/
def render (t : Trouble) : String :=
  let below := match t.causes with
    | [] => ""
    | [cause] => "\n\nCaused by:\n" ++ indented "    " "    " cause
    | causes => "\n\nCaused by:\n" ++ String.intercalate "\n" (numbered causes)
  "Error: " ++ t.message ++ below ++ "\n"

/-- An error with its cause. What is below that was said by another library. -/
def ofError (below : List String) (e : Message.Error) : Trouble :=
  let causes := match e.source with
    | some (.text s) => [s]
    | some _ => below
    | none => []
  ⟨e.message, causes⟩

def ofPlugin (below : List String) (f : Plugin.Failure) : Trouble :=
  let causes := match f with
    | .protocol e =>
      let t := ofError below e
      t.message :: t.causes
    | .missingExport _ => []
    | .unloadable | .unlinkable _ | .interrupted _ => below
  ⟨f.message, causes⟩

def ofScript (f : Embedding.Failure) : Trouble := ⟨f.message, f.cause?.toList⟩

def ofPayload (below : List String) (f : Payload.Fault) : Trouble := ⟨f.message, below⟩

/-- A trouble during something else. -/
def during (what : String) (t : Trouble) : Trouble := ⟨what, t.message :: t.causes⟩

end Trouble

/-- What a command has from elsewhere: the system that plugins run on, and what other libraries say of their failures. -/
structure Libraries where
  system : Plugin.System
  /-- Why a module cannot be loaded. -/
  loading : Bytes → List String
  /-- What went wrong while a plugin ran for a request, or with what it wrote. -/
  running : Plugin → Request → List String
  /-- Why a text is no JSON. -/
  parsing : String → List String
  /-- Why a payload has no JSON text. -/
  rendering : Cbor.Value → List String

/-- A bare system, and a few words for each failure. -/
def Libraries.plain : Libraries where
  system := .bare
  loading _ := ["the module is not valid"]
  running _ _ := ["the plugin gave up"]
  parsing _ := ["the text is not JSON"]
  rendering _ := ["the value has no counterpart"]

def done (output errors : String) : Outcome := ⟨0, output, errors⟩

def failed (t : Trouble) (errors : String) : Outcome := ⟨1, "", errors ++ t.render⟩

/-! ### Scripts -/

def notText : String := "stream did not contain valid UTF-8"

/-- The name and the text of the script to run. -/
def script (o : EvalOptions) (content : Except String Bytes) : Except Trouble (String × String) :=
  match o.code with
  | some code => .ok ("<eval>", code)
  | none =>
    let (name, context) := match o.input with
      | some path => (path, "failed to read " ++ path)
      | none => ("<stdin>", "failed to read script from stdin")
    match content with
    | .error reason => .error ⟨context, [reason]⟩
    | .ok bytes =>
      match Utf8.decode? bytes with
      | some text => .ok (name, text)
      | none => .error ⟨context, [notText]⟩

/-- No functions are added to those that every context has. -/
def noFunctions : Embedding.Respond Empty Unit := ⟨fun k _ => k.elim, fun k _ => k.elim⟩

/-- Runs a script and all that it puts off; the text of its value, unless that is `undefined`. -/
def evalScript (name code : String) (console : Embedding.StreamId) :
    Embedding.Operation Empty Unit (Option String) := do
  let id ← Embedding.Operation.primedContext console
  let h ← Embedding.Operation.eval id name code
  Embedding.Operation.thenDrop h do
    Embedding.Operation.runPending id
    if h.value.isUndefined then return none
    return some (← Embedding.Operation.lossyText h)

def consoleText (m : Embedding.Engine Empty Unit) (console : Embedding.StreamId) : String :=
  ((m.host.streams[console]?).map (·.text)).getD ""

def eval (o : EvalOptions) (content : Except String Bytes) : Outcome :=
  match script o content with
  | .error t => failed t ""
  | .ok (name, code) =>
    let config := Embedding.Config.default
    let world := { Embedding.World.new config () with streams := #[⟨"", none⟩] }
    let run := evalScript name code 0
    match run (Embedding.environment noFunctions config) (.start world) with
    | .ok (some text) m => done (text ++ "\n") (consoleText m 0)
    | .ok none m => done "" (consoleText m 0)
    | .error f m => failed (.ofScript f) (consoleText m 0)

/-! ### Requests -/

def pluginConfig (o : InvokeOptions) : Plugin.Config :=
  let base := Plugin.Config.default
  ⟨o.export_.getD base.handler, o.fuel, base.logCapacity⟩

def loadPlugin (l : Libraries) (o : InvokeOptions) (content : Except String Bytes) : Except Trouble Plugin :=
  let loaded : Except Trouble Plugin := match content with
    | .error reason => .error ((Trouble.mk reason []).during Plugin.Failure.unloadable.message)
    | .ok bytes =>
      match Plugin.load l.system (pluginConfig o) bytes with
      | .ok p => .ok p
      | .error f => .error (.ofPlugin (l.loading bytes) f)
  match loaded with
  | .ok p => .ok p
  | .error t => .error (t.during ("failed to load " ++ o.plugin))

/-- The request that the options describe. -/
def request (l : Libraries) (o : InvokeOptions) (id : Uuid) : Except Trouble Request :=
  let r := (Request.new id o.endpoint).setFireAndForget o.fireAndForget
  match o.payload with
  | none => .ok r
  | some text =>
    match Payload.parse text with
    | .ok v => .ok (r.setPayload v)
    | .error f => .error (.ofPayload (l.parsing text) f)

/-- What to print of the payload of a response. Errors that were sent have nothing behind them. -/
def answerText (l : Libraries) (payload : Except Message.Error Cbor.Value) : Except Trouble String :=
  match payload with
  | .error e => .error (.ofError [] e)
  | .ok v =>
    match Payload.render v with
    | .ok text => .ok (text ++ "\n")
    | .error f => .error (.ofPayload (l.rendering v) f)

def invoke (l : Libraries) (o : InvokeOptions) (id : Uuid) (content : Except String Bytes) : Outcome :=
  let result : Except Trouble String := do
    let p ← loadPlugin l o content
    let r ← request l o id
    match (p.invoke r).1 with
    | .error f => throw (.ofPlugin (l.running p r) f)
    | .ok none => return ""
    | .ok (some response) => answerText l response.payload
  match result with
  | .ok text => done text ""
  | .error t => failed t ""

/-! ### Command lines -/

def Task.need : Task → Need
  | .eval o =>
    match o.code, o.input with
    | some _, _ => .nothing
    | none, some path => .file path
    | none, none => .stdin
  | .invoke o => .file o.plugin

def Task.run (t : Task) (l : Libraries) (id : Uuid) (content : Except String Bytes) : Outcome :=
  match t with
  | .eval o => Command.eval o content
  | .invoke o => Command.invoke l o id content

def usage : Option String → String
  | some "eval" => "wl eval [OPTIONS] [FILE]"
  | some "invoke" => "wl invoke [OPTIONS] <PLUGIN> <ENDPOINT>"
  | _ => "wl [OPTIONS] <COMMAND>"

/-- What is wrong with a command line, in one line. -/
def complaintText (c : Complaint) : String :=
  match c.refusal, c.word with
  | .unknownArgument, some word => "unexpected argument '" ++ word ++ "' found"
  | .argumentConflict, _ => "the argument '[FILE]' cannot be used with '--eval <CODE>'"
  | .invalidSubcommand, _ => "unrecognized subcommand"
  | .missingSubcommand, _ => "'wl' requires a subcommand but one was not provided"
  | .missingRequiredArgument, _ => "the following required arguments were not provided"
  | _, _ => "invalid value"

/-- A word that looks like an option may have been meant as a value, where values are taken. -/
def tip (r : Refused) : String :=
  match r.complaint.refusal, r.complaint.word, r.level with
  | .unknownArgument, some word, some _ =>
    if word.startsWith "-" then
      "  tip: to pass '" ++ word ++ "' as a value, use '-- " ++ word ++ "'\n\n"
    else ""
  | _, _, _ => ""

def versionLine : String := "wl " ++ Embedding.Operation.versionText ++ "\n"

def about : String := "Embedded QuickJS runtime and WebAssembly plugin host"

/-- The answer to a command line that asks for no task. -/
def Refused.outcome (r : Refused) : Outcome :=
  let exit := r.complaint.refusal.exitCode
  match r.complaint.refusal with
  | .displayVersion => done versionLine ""
  | .displayHelp => done (about ++ "\n\nUsage: " ++ usage r.level ++ "\n") ""
  | .helpOnMissing => ⟨exit, "", about ++ "\n\nUsage: " ++ usage r.level ++ "\n"⟩
  | _ =>
    ⟨exit, "", "error: " ++ complaintText r.complaint ++ "\n\n" ++ tip r ++ "Usage: " ++ usage r.level ++
      "\n\nFor more information, try '--help'.\n"⟩

end PluginRelay.Command
