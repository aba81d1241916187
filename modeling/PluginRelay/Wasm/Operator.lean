import PluginRelay.Wasm.Type

/-!
# Numeric operators

Operators take their operands from the stack and give one result, or trap. `Operator.table` gives
each its name in the text format and its code in the binary format.
-/
namespace PluginRelay.Wasm

inductive Width where
  | word
  | long
  deriving DecidableEq, Repr

def Width.bits : Width → Nat
  | word => 32
  | long => 64

def Width.integerType : Width → ValueType
  | word => .i32
  | long => .i64

def Width.floatType : Width → ValueType
  | word => .f32
  | long => .f64

inductive Comparison where
  | eq | ne | ltS | ltU | gtS | gtU | leS | leU | geS | geU
  deriving DecidableEq, Repr

inductive IntegerUnary where
  | clz | ctz | popcnt
  /-- The lowest bits, read as a number with a sign. -/
  | extend (bits : Nat)
  deriving DecidableEq, Repr

inductive IntegerBinary where
  | add | sub | mul | divS | divU | remS | remU | and | or | xor | shl | shrS | shrU | rotl | rotr
  deriving DecidableEq, Repr

inductive FloatComparison where
  | eq | ne | lt | gt | le | ge
  deriving DecidableEq, Repr

inductive FloatUnary where
  | abs | neg | ceil | floor | trunc | nearest | sqrt
  deriving DecidableEq, Repr

inductive FloatBinary where
  | add | sub | mul | div | min | max | copysign
  deriving DecidableEq, Repr

inductive Operator where
  | eqz (w : Width)
  | compare (w : Width) (c : Comparison)
  | compareFloat (w : Width) (c : FloatComparison)
  | unary (w : Width) (op : IntegerUnary)
  | binary (w : Width) (op : IntegerBinary)
  | unaryFloat (w : Width) (op : FloatUnary)
  | binaryFloat (w : Width) (op : FloatBinary)
  | wrap
  | extend (signed : Bool)
  | truncate (result source : Width) (signed saturating : Bool)
  | convert (result source : Width) (signed : Bool)
  | demote
  | promote
  | floatBits (w : Width)
  | bitsFloat (w : Width)
  deriving DecidableEq, Repr

namespace Operator

def signature : Operator → FunctionType
  | eqz w => ⟨[w.integerType], [.i32]⟩
  | compare w _ => ⟨[w.integerType, w.integerType], [.i32]⟩
  | compareFloat w _ => ⟨[w.floatType, w.floatType], [.i32]⟩
  | unary w _ => ⟨[w.integerType], [w.integerType]⟩
  | binary w _ => ⟨[w.integerType, w.integerType], [w.integerType]⟩
  | unaryFloat w _ => ⟨[w.floatType], [w.floatType]⟩
  | binaryFloat w _ => ⟨[w.floatType, w.floatType], [w.floatType]⟩
  | wrap => ⟨[.i64], [.i32]⟩
  | extend _ => ⟨[.i32], [.i64]⟩
  | truncate v w _ _ => ⟨[w.floatType], [v.integerType]⟩
  | convert v w _ => ⟨[w.integerType], [v.floatType]⟩
  | demote => ⟨[.f64], [.f32]⟩
  | promote => ⟨[.f32], [.f64]⟩
  | floatBits w => ⟨[w.floatType], [w.integerType]⟩
  | bitsFloat w => ⟨[w.integerType], [w.floatType]⟩

def comparisons (w : Width) : List (String × Operator) :=
  ("eqz", eqz w) :: [("eq", .eq), ("ne", .ne), ("lt_s", .ltS), ("lt_u", .ltU), ("gt_s", .gtS),
    ("gt_u", .gtU), ("le_s", .leS), ("le_u", .leU), ("ge_s", .geS), ("ge_u", .geU)].map
      fun (n, c) => (n, compare w c)

def floatComparisons (w : Width) : List (String × Operator) :=
  [("eq", .eq), ("ne", .ne), ("lt", .lt), ("gt", .gt), ("le", .le), ("ge", .ge)].map
    fun (n, c) => (n, compareFloat w c)

def integerOperations (w : Width) : List (String × Operator) :=
  [("clz", .clz), ("ctz", .ctz), ("popcnt", .popcnt)].map (fun (n, op) => (n, unary w op)) ++
  [("add", .add), ("sub", .sub), ("mul", .mul), ("div_s", .divS), ("div_u", .divU), ("rem_s", .remS),
    ("rem_u", .remU), ("and", .and), ("or", .or), ("xor", .xor), ("shl", .shl), ("shr_s", .shrS),
    ("shr_u", .shrU), ("rotl", .rotl), ("rotr", .rotr)].map fun (n, op) => (n, binary w op)

def floatOperations (w : Width) : List (String × Operator) :=
  [("abs", .abs), ("neg", .neg), ("ceil", .ceil), ("floor", .floor), ("trunc", .trunc),
    ("nearest", .nearest), ("sqrt", .sqrt)].map (fun (n, op) => (n, unaryFloat w op)) ++
  [("add", .add), ("sub", .sub), ("mul", .mul), ("div", .div), ("min", .min), ("max", .max),
    ("copysign", .copysign)].map fun (n, op) => (n, binaryFloat w op)

def inFamily (family : String) (entries : List (String × Operator)) : List (String × Operator) :=
  entries.map fun (n, op) => (family ++ "." ++ n, op)

/-- The names of the operators whose codes follow each other from `firstCode` on. -/
def listed : List (String × Operator) :=
  inFamily "i32" (comparisons .word) ++ inFamily "i64" (comparisons .long) ++
  inFamily "f32" (floatComparisons .word) ++ inFamily "f64" (floatComparisons .long) ++
  inFamily "i32" (integerOperations .word) ++ inFamily "i64" (integerOperations .long) ++
  inFamily "f32" (floatOperations .word) ++ inFamily "f64" (floatOperations .long) ++
  [("i32.wrap_i64", wrap),
    ("i32.trunc_f32_s", truncate .word .word true false),
    ("i32.trunc_f32_u", truncate .word .word false false),
    ("i32.trunc_f64_s", truncate .word .long true false),
    ("i32.trunc_f64_u", truncate .word .long false false),
    ("i64.extend_i32_s", extend true), ("i64.extend_i32_u", extend false),
    ("i64.trunc_f32_s", truncate .long .word true false),
    ("i64.trunc_f32_u", truncate .long .word false false),
    ("i64.trunc_f64_s", truncate .long .long true false),
    ("i64.trunc_f64_u", truncate .long .long false false),
    ("f32.convert_i32_s", convert .word .word true), ("f32.convert_i32_u", convert .word .word false),
    ("f32.convert_i64_s", convert .word .long true), ("f32.convert_i64_u", convert .word .long false),
    ("f32.demote_f64", demote),
    ("f64.convert_i32_s", convert .long .word true), ("f64.convert_i32_u", convert .long .word false),
    ("f64.convert_i64_s", convert .long .long true), ("f64.convert_i64_u", convert .long .long false),
    ("f64.promote_f32", promote),
    ("i32.reinterpret_f32", floatBits .word), ("i64.reinterpret_f64", floatBits .long),
    ("f32.reinterpret_i32", bitsFloat .word), ("f64.reinterpret_i64", bitsFloat .long),
    ("i32.extend8_s", unary .word (.extend 8)), ("i32.extend16_s", unary .word (.extend 16)),
    ("i64.extend8_s", unary .long (.extend 8)), ("i64.extend16_s", unary .long (.extend 16)),
    ("i64.extend32_s", unary .long (.extend 32))]

def firstCode : Nat := 0x45

/-- Conversions that clamp, in the order of their codes after the escape byte. -/
def saturating : List (String × Operator) :=
  [("i32.trunc_sat_f32_s", truncate .word .word true true),
    ("i32.trunc_sat_f32_u", truncate .word .word false true),
    ("i32.trunc_sat_f64_s", truncate .word .long true true),
    ("i32.trunc_sat_f64_u", truncate .word .long false true),
    ("i64.trunc_sat_f32_s", truncate .long .word true true),
    ("i64.trunc_sat_f32_u", truncate .long .word false true),
    ("i64.trunc_sat_f64_s", truncate .long .long true true),
    ("i64.trunc_sat_f64_u", truncate .long .long false true)]

def named? (name : String) : Option Operator :=
  (listed ++ saturating).lookup name

def coded? (code : Nat) : Option Operator :=
  if firstCode ≤ code then (listed[code - firstCode]?).map (·.2) else none

def saturatingCoded? (code : Nat) : Option Operator := (saturating[code]?).map (·.2)

end Operator

end PluginRelay.Wasm
