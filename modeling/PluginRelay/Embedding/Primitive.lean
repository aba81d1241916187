import PluginRelay.Number.Decimal
import PluginRelay.Text.Quoted

/-!
# Primitives

What a host program knows of a value that is no object. Developer output names the kind and shows what it
holds.
-/
namespace PluginRelay.Embedding

inductive Primitive where
  | undefined
  | null
  | bool (b : Bool)
  | i32 (n : Int32)
  | i64 (n : Int64)
  | f64 (x : Binary64)
  | str (s : String)
  /-- A symbol, by its description. -/
  | symbol (s : String)
  deriving DecidableEq, Repr, Inhabited

namespace Primitive

/-- A count that no 64-bit integer need hold. -/
def ofSize (n : Nat) : Primitive := .f64 (.ofNat n)

/-- Doubles compare by their value, so no number equals nothing. -/
def equal : Primitive → Primitive → Bool
  | .f64 x, .f64 y => x.equal y
  | p, q => p = q

/-- Digits with a point: `.0` behind integers, and zeros in front of fractions. -/
def positional (digits : List Char) (exponent : Int) : List Char :=
  let point : Int := digits.length + exponent
  if 0 ≤ exponent then digits ++ List.replicate exponent.toNat '0' ++ ['.', '0']
  else if 0 < point then digits.take point.toNat ++ '.' :: digits.drop point.toNat
  else '0' :: '.' :: (List.replicate (-point).toNat '0' ++ digits)

/-- One digit before the point, and the exponent with its sign only if it is negative. -/
def scientific (digits : List Char) (exponent : Int) : List Char :=
  let power : Int := digits.length + exponent - 1
  let tail := 'e' :: (if power < 0 then ['-'] else []) ++ Decimal.digitText power.natAbs
  match digits with
  | [] => tail
  | [d] => d :: tail
  | d :: rest => d :: '.' :: rest ++ tail

/-- A double by the fewest digits that read back; positional from `1e-4` to below `1e16`. -/
def doubleText (x : Binary64) : String :=
  if x.isNaN then "NaN"
  else
    let sign := if x.isNegative then ['-'] else []
    let body :=
      if x.isInfinite then "inf".toList
      else if x.isZero then ['0', '.', '0']
      else
        let d := Decimal.shortest x.abs
        let digits := Decimal.digitText d.digits
        let point : Int := digits.length + d.exponent
        if -4 < point ∧ point ≤ 16 then positional digits d.exponent
        else scientific digits d.exponent
    String.ofList (sign ++ body)

def debug : Primitive → String
  | undefined => "Undefined"
  | null => "Null"
  | bool b => "Bool(" ++ toString b ++ ")"
  | i32 n => "I32(" ++ toString n.toInt ++ ")"
  | i64 n => "I64(" ++ toString n.toInt ++ ")"
  | f64 x => "F64(" ++ doubleText x ++ ")"
  | str s => "Str(" ++ Text.quoted s ++ ")"
  | symbol s => "Symbol(" ++ Text.quoted s ++ ")"

end Primitive

end PluginRelay.Embedding
