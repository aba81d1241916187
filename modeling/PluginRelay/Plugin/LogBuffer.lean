import PluginRelay.Log.Event
import PluginRelay.Text.Utf8

/-!
# What a plugin logs

A log buffer keeps what is written to it up to its capacity. Writing never fails: what does not fit
is dropped, and the buffer remembers that something was. Afterwards every line of the kept text is
one event.
-/
namespace PluginRelay.Plugin

structure LogBuffer where
  capacity : Nat
  kept : Bytes
  truncated : Bool
  deriving DecidableEq, Repr

namespace LogBuffer

def empty (capacity : Nat) : LogBuffer := ⟨capacity, [], false⟩

/-- Keeps what there is room for; all of it counts as written. -/
def write (b : LogBuffer) (bytes : Bytes) : LogBuffer :=
  let room := b.capacity - b.kept.length
  { b with kept := b.kept ++ bytes.take room, truncated := b.truncated || room < bytes.length }

/-- A line without the carriage return that may end it. -/
def dropReturn (reversed : List Char) : List Char :=
  match reversed with
  | '\r' :: rest => rest.reverse
  | line => line.reverse

/-- Lines end with a line feed, the last one perhaps with the text. -/
def linesFrom (reversed : List Char) : List Char → List String
  | [] => if reversed.isEmpty then [] else [String.ofList reversed.reverse]
  | '\n' :: rest => String.ofList (dropReturn reversed) :: linesFrom [] rest
  | c :: rest => linesFrom (c :: reversed) rest

def lines (text : String) : List String := linesFrom [] text.toList

def event (level : Log.Level) (endpoint message : String) : Log.Event :=
  ⟨level, .plugin, message, [("endpoint", endpoint)]⟩

def truncation : String := "plugin output exceeded the log capacity and was truncated"

/-- One event for each line, then a warning if something was dropped. -/
def events (b : LogBuffer) (endpoint : String) : List Log.Event :=
  (lines (Utf8.decodeLossy b.kept)).map (event .info endpoint) ++
  if b.truncated then [event .warning endpoint truncation] else []

end LogBuffer

end PluginRelay.Plugin
