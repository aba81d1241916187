import PluginRelay.Bytes

/-!
# Request identifiers

Sixteen bytes, written as groups of 4, 2, 2, 2 and 6 bytes with hyphens between them.
-/
namespace PluginRelay

structure Uuid where
  bytes : Bytes
  length_bytes : bytes.length = 16
  deriving DecidableEq

namespace Uuid

def zero : Uuid := ⟨List.replicate 16 0, rfl⟩

instance : Inhabited Uuid := ⟨zero⟩

def ofBytes? (bytes : Bytes) : Option Uuid :=
  if h : bytes.length = 16 then some ⟨bytes, h⟩ else none

def toText (id : Uuid) : String :=
  let group (first count : Nat) := Bytes.toHex ((id.bytes.drop first).take count)
  String.intercalate "-" [group 0 4, group 4 2, group 6 2, group 8 2, group 10 6]

/-- The identifier written with or without hyphens. -/
def ofText? (text : String) : Option Uuid := do
  let bytes ← Bytes.ofHexDigits? (text.toList.filter (· ≠ '-'))
  ofBytes? bytes

end Uuid

end PluginRelay
