import PluginRelay.Command.Run

/-!
# The program

Reads what a command needs, runs it and prints its outcome.
-/
namespace PluginRelay

/-- Why a file could not be read. -/
def readFault : IO.Error → String
  | .noFileOrDirectory _ code _ => "No such file or directory (os error " ++ toString code ++ ")"
  | .permissionDenied _ code _ => "Permission denied (os error " ++ toString code ++ ")"
  | .inappropriateType _ code _ => "Is a directory (os error " ++ toString code ++ ")"
  | e => toString e

def readAll (action : IO ByteArray) : IO (Except String Bytes) := do
  match ← action.toBaseIO with
  | .ok bytes => return .ok bytes.toList
  | .error e => return .error (readFault e)

def provide : Command.Need → IO (Except String Bytes)
  | .nothing => return .ok []
  | .file path => readAll (IO.FS.readBinFile path)
  | .stdin => readAll do (← IO.getStdin).readBinToEnd

/-- A random identifier of version 4. -/
def newId : IO Uuid := do
  let bytes := (← IO.getRandomBytes 16).toList
  let marked := bytes.zipIdx.map fun (b, i) =>
    if i = 6 then b % 16 + 0x40 else if i = 8 then b % 64 + 0x80 else b
  return (Uuid.ofBytes? marked).getD .zero

def outcomeOf (words : List String) : IO Command.Outcome := do
  match Command.Arguments.parse words with
  | .error r => return r.outcome
  | .ok arguments => return arguments.task.run .plain (← newId) (← provide arguments.task.need)

end PluginRelay

def main (words : List String) : IO UInt32 := do
  let outcome ← PluginRelay.outcomeOf words
  IO.eprint outcome.errors
  IO.print outcome.output
  return UInt32.ofNat outcome.exit
