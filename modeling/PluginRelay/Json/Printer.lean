import PluginRelay.Json.Basic
import PluginRelay.Number.Decimal

/-!
# Writing JSON

No blanks, members in the order of the object, and doubles with the fewest digits that read back:
positional from `1e-5` to below `1e16`, always with a point, and with a signed exponent elsewhere. What is
no finite double is written as null.
-/
namespace PluginRelay.Json

/-- `0.` and zeros, a point inside the digits, or zeros and `.0` behind them. -/
def positional (digits : List Char) (exponent : Int) : List Char :=
  let point : Int := digits.length + exponent
  if 0 ≤ exponent then digits ++ List.replicate exponent.toNat '0' ++ ['.', '0']
  else if 0 < point then digits.take point.toNat ++ '.' :: digits.drop point.toNat
  else '0' :: '.' :: (List.replicate (-point).toNat '0' ++ digits)

def scientific (digits : List Char) (exponent : Int) : List Char :=
  let power : Int := digits.length + exponent - 1
  let tail := if power < 0 then Decimal.digitText power.natAbs
    else '+' :: Decimal.digitText power.natAbs
  match digits with
  | [] => []
  | [d] => d :: 'e' :: (if power < 0 then '-' :: tail else tail)
  | d :: ds => d :: '.' :: (ds ++ 'e' :: (if power < 0 then '-' :: tail else tail))

def doubleText (x : Binary64) : String :=
  if !x.isFinite then "null"
  else
    let sign := if x.isNegative then ['-'] else []
    if x.isZero then String.ofList (sign ++ ['0', '.', '0'])
    else
      let d := Decimal.shortest x.abs
      let digits := Decimal.digitText d.digits
      let point : Int := digits.length + d.exponent
      let body := if -5 < point ∧ point ≤ 16 then positional digits d.exponent
        else scientific digits d.exponent
      String.ofList (sign ++ body)

def Number.render : Number → String
  | .natural n => toString n.toNat
  | .negative n => toString n.toInt
  | .double x => doubleText x

def hexDigit (n : Nat) : Char :=
  if n < 10 then Char.ofNat (48 + n) else Char.ofNat (87 + n)

def escape (c : Char) : List Char :=
  match c with
  | '"' => ['\\', '"']
  | '\\' => ['\\', '\\']
  | '\x08' => ['\\', 'b']
  | '\x0c' => ['\\', 'f']
  | '\n' => ['\\', 'n']
  | '\r' => ['\\', 'r']
  | '\t' => ['\\', 't']
  | c =>
    if c.toNat < 0x20 then ['\\', 'u', '0', '0', hexDigit (c.toNat / 16), hexDigit (c.toNat % 16)]
    else [c]

def quoted (s : String) : String :=
  String.ofList ('"' :: (s.toList.flatMap escape ++ ['"']))

mutual

def Value.render : Value → String
  | .null => "null"
  | .bool b => if b then "true" else "false"
  | .number n => n.render
  | .string s => quoted s
  | .array items => "[" ++ renderItems items ++ "]"
  | .object members => "\x7b" ++ renderMembers members ++ "\x7d"

def renderItems : List Value → String
  | [] => ""
  | [v] => v.render
  | v :: w :: rest => v.render ++ "," ++ renderItems (w :: rest)

def renderMembers : List (String × Value) → String
  | [] => ""
  | [(k, v)] => quoted k ++ ":" ++ v.render
  | (k, v) :: m :: rest => quoted k ++ ":" ++ v.render ++ "," ++ renderMembers (m :: rest)

end

end PluginRelay.Json
