/-!
# Log events

What a run reports beside its result: a level, the part of the program that speaks, a message and
further texts by name.
-/
namespace PluginRelay.Log

inductive Level where
  | info
  | warning
  | error
  deriving DecidableEq, Repr

inductive Origin where
  | router
  | plugin
  | callback
  deriving DecidableEq, Repr

structure Event where
  level : Level
  origin : Origin
  message : String
  fields : List (String × String)
  deriving DecidableEq, Repr

end PluginRelay.Log
