import PluginRelay.Number.Binary64

/-!
# JSON values

Numbers keep three forms apart: natural numbers below `2 ^ 64`, negative integers from `-2 ^ 63` on,
and doubles. Members of an object are kept by key.
-/
namespace PluginRelay.Json

inductive Number where
  | natural (n : UInt64)
  | negative (n : Int64)
  | double (x : Binary64)
  deriving DecidableEq, Repr, Inhabited

inductive Value where
  | null
  | bool (b : Bool)
  | number (n : Number)
  | string (s : String)
  | array (items : List Value)
  | object (members : List (String × Value))
  deriving Repr, Inhabited

end PluginRelay.Json
