import PluginRelay.Cbor.Header
import PluginRelay.Text.Utf8

/-!
# Encoding of values

Definite lengths and shortest headers throughout. `depth` is the number of containers around the
innermost item, tags included: what a decoder has to descend. An integer under its tag is one item.
-/
namespace PluginRelay.Cbor.Value

def encodeText (s : String) : Bytes :=
  let body := Utf8.encode s
  Header.write (.text (some body.length)) ++ body

def encodeBytes (b : Bytes) : Bytes :=
  Header.write (.bytes (some b.length)) ++ b

mutual

def encode : Value → Bytes
  | .null => Header.write (.simple Header.nullCode)
  | .bool b => Header.write (.simple (if b then Header.trueCode else Header.falseCode))
  | .integer (.natural n) => Header.write (.natural n)
  | .integer (.negative n) => Header.write (.negative n)
  | .float x => Header.write (.float x)
  | .text s => encodeText s
  | .bytes b => encodeBytes b
  | .array items => Header.write (.array (some items.length)) ++ encodeItems items
  | .map entries => Header.write (.map (some entries.length)) ++ encodeEntries entries
  | .tag n item => Header.write (.tag n) ++ encode item

def encodeItems : List Value → Bytes
  | [] => []
  | v :: rest => encode v ++ encodeItems rest

def encodeEntries : List (Value × Value) → Bytes
  | [] => []
  | (k, v) :: rest => encode k ++ encode v ++ encodeEntries rest

end

mutual

def depth : Value → Nat
  | .array items => depthItems items + 1
  | .map entries => depthEntries entries + 1
  | .tag n item => if (integerDigits? n item).isSome then 0 else depth item + 1
  | _ => 0

def depthItems : List Value → Nat
  | [] => 0
  | v :: rest => max (depth v) (depthItems rest)

def depthEntries : List (Value × Value) → Nat
  | [] => 0
  | (k, v) :: rest => max (max (depth k) (depth v)) (depthEntries rest)

end

end PluginRelay.Cbor.Value
