import PluginRelay.Script.Builtin.Collection
import PluginRelay.Script.Builtin.DataView
import PluginRelay.Script.Builtin.Date
import PluginRelay.Script.Builtin.Error
import PluginRelay.Script.Builtin.Global
import PluginRelay.Script.Builtin.Json
import PluginRelay.Script.Builtin.Number
import PluginRelay.Script.Builtin.Promise
import PluginRelay.Script.Builtin.Proxy
import PluginRelay.Script.Builtin.TypedArray

/-!
# All built-in functions

The table to which function objects refer.
-/
namespace PluginRelay.Script.Builtin

variable {σ : Type} [Evolving σ]

def table : Array (Builtin σ) :=
  (ObjectFunctions.table ++ FunctionFunctions.table ++ ErrorFunctions.table ++ ArrayFunctions.table ++
    ArrayFunctions.sortTable ++ ArrayFunctions.laterTable ++ GlobalFunctions.table ++
    NumberFunctions.table ++ StringFunctions.table ++ SymbolFunctions.table ++ DateFunctions.table ++
    RegexpFunctions.table ++ IteratorFunctions.table ++ JsonFunctions.table ++ ProxyFunctions.table ++
    CollectionFunctions.table ++ TypedArrayFunctions.table ++ DataViewFunctions.table ++ PromiseFunctions.table).toArray

end PluginRelay.Script.Builtin
