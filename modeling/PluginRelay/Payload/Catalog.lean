import PluginRelay.Payload.Schema

/-!
# Schemas by name

The payload types that plugins and hosts exchange under a name of their own.
-/
namespace PluginRelay.Payload.Schema

def sum : Schema := .record [("values", .list (signed 64), none)]

def greeting : Schema := .record [("name", .text, none), ("times", unsigned 8, none)]

/-- The age may be missing, and the tags then are none. -/
def profile : Schema :=
  .record [("name", .text, none), ("age", .option (unsigned 32), some .absent),
    ("tags", .list .text, some (.list []))]

def shape : Schema :=
  .choice [("empty", none), ("circle", some .double), ("rect", some (.tuple [signed 64, signed 64])),
    ("named", some (.record [("label", .text, none)]))]

def catalog : List (String × Schema) :=
  [("u8", unsigned 8), ("i8", signed 8), ("u16", unsigned 16), ("i16", signed 16),
    ("i32", signed 32), ("u32", unsigned 32), ("i64", signed 64), ("u64", unsigned 64),
    ("f32", .single), ("f64", .double), ("bool", .bool), ("char", .char), ("string", .text),
    ("unit", .unit), ("vec_u8", .list (unsigned 8)), ("vec_i64", .list (signed 64)),
    ("vec_string", .list .text), ("option_string", .option .text), ("map_i64", .map (signed 64)),
    ("pair", .tuple [.text, signed 64]), ("uuid", .uuid), ("greeting", greeting), ("sum", sum),
    ("profile", profile), ("shape", shape), ("value", .value)]

def named? (name : String) : Option Schema := catalog.lookup name

end PluginRelay.Payload.Schema
