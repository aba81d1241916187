import PluginRelay.Script.Builtin.Basic

/-!
# Functions of the global object

Texts are put into addresses by their bytes; characters that stand for themselves there are left as they
are.
-/
namespace PluginRelay.Script.Builtin.GlobalFunctions

open Script.Action Script.Access Script.Convert

variable {σ : Type} [Evolving σ]

def throwUri {α : Type} (message : String) : Action σ α := throwKind .uriError message

def evaluate : Native σ := fun env c => do
  match c.arg 0 with
  | .string t => env.evaluate t.units
  | v => return v

/-- Characters with a meaning of their own in addresses. -/
def isReserved (n : Nat) : Bool := (";/?:@&=+$,#".toList.map Char.toNat).contains n

def isUnreserved (n : Nat) : Bool :=
  (48 ≤ n && n ≤ 57) || (65 ≤ n && n ≤ 90) || (97 ≤ n && n ≤ 122) ||
    ("-_.!~*'()".toList.map Char.toNat).contains n

def hexUpper (n : Nat) : UInt16 := UInt16.ofNat (if n < 10 then 48 + n else 55 + n)

def escapedByte (b : UInt8) : List UInt16 := [37, hexUpper (b.toNat / 16), hexUpper (b.toNat % 16)]

def encodeUnits (keepsReserved : Bool) : List UInt16 → Action σ (List UInt16)
  | [] => return []
  | u :: rest => do
    let n := u.toNat
    if isUnreserved n || (keepsReserved && isReserved n) then
      return u :: (← encodeUnits keepsReserved rest)
    else if Units.isTrail u then throwUri "invalid character"
    else if Units.isLead u then
      match rest with
      | v :: rest =>
        if Units.isTrail v then
          let bytes := Units.codePointBytes (Units.pair u v)
          return bytes.flatMap escapedByte ++ (← encodeUnits keepsReserved rest)
        else throwUri "expecting surrogate pair"
      | [] => throwUri "expecting surrogate pair"
    else return (Units.codePointBytes n).flatMap escapedByte ++ (← encodeUnits keepsReserved rest)

def encode (keepsReserved : Bool) : Native σ := fun env c => do
  let s ← toUnits env (c.arg 0)
  units (← encodeUnits keepsReserved s.toList).toArray

/-- A byte that is written as a percent sign and two digits. -/
def hexByte (rest : List UInt16) : Action σ (Nat × List UInt16) := do
  let digit (u : UInt16) : Option Nat := Bytes.hexValue? (Char.ofNat u.toNat)
  match rest with
  | 37 :: a :: b :: rest =>
    match digit a, digit b with
    | some x, some y => return (x * 16 + y, rest)
    | _, _ => throwUri "expecting hex digit"
  | 37 :: _ => throwUri "expecting hex digit"
  | _ => throwUri "expecting %"

/-- The bytes that follow the first one of a character. -/
def continuation : (count : Nat) → Nat → List UInt16 → Action σ (Nat × List UInt16)
  | 0, n, rest => return (n, rest)
  | count + 1, n, rest => do
    let (b, rest) ← hexByte rest
    if b / 64 ≠ 2 then throwUri "malformed UTF-8"
    continuation count (n * 64 + b % 64) rest

def decodeUnits (keepsReserved : Bool) : (fuel : Nat) → List UInt16 → Action σ (List UInt16)
  | 0, _ => return []
  | _, [] => return []
  | fuel + 1, 37 :: rest => do
    let (b, after) ← hexByte (37 :: rest)
    if b < 0x80 then
      if keepsReserved && isReserved b then
        return 37 :: rest.take 2 ++ (← decodeUnits keepsReserved fuel after)
      else return UInt16.ofNat b :: (← decodeUnits keepsReserved fuel after)
    else
      let (count, start, least) ←
        if 0xC0 ≤ b && b < 0xE0 then pure (1, b % 32, 0x80)
        else if 0xE0 ≤ b && b < 0xF0 then pure (2, b % 16, 0x800)
        else if 0xF0 ≤ b && b < 0xF8 then pure (3, b % 8, 0x10000)
        else throwUri "malformed UTF-8"
      let (n, after) ← continuation count start after
      if n < least || 0x10FFFF < n || Units.isSurrogate n then throwUri "malformed UTF-8"
      return Units.ofCodePoint n ++ (← decodeUnits keepsReserved fuel after)
  | fuel + 1, u :: rest => return u :: (← decodeUnits keepsReserved fuel rest)

def decode (keepsReserved : Bool) : Native σ := fun env c => do
  let s ← toUnits env (c.arg 0)
  units (← decodeUnits keepsReserved (s.size + 1) s.toList).toArray

/-- Characters that the old escaping leaves as they are. -/
def isPlain (n : Nat) : Bool :=
  (48 ≤ n && n ≤ 57) || (65 ≤ n && n ≤ 90) || (97 ≤ n && n ≤ 122) ||
    ("@*_+-./".toList.map Char.toNat).contains n

def escapeUnit (u : UInt16) : List UInt16 :=
  let n := u.toNat
  if isPlain n then [u]
  else if n < 256 then escapedByte (UInt8.ofNat n)
  else [37, 117] ++ [n / 4096, n / 256 % 16, n / 16 % 16, n % 16].map hexUpper

def unescapeUnits : (fuel : Nat) → List UInt16 → List UInt16
  | 0, rest => rest
  | _, [] => []
  | fuel + 1, u :: rest =>
    let hex (us : List UInt16) : Option Nat :=
      us.foldl (fun n u => do return (← n) * 16 + (← Bytes.hexValue? (Char.ofNat u.toNat))) (some 0)
    if u = 37 then
      match rest with
      | 117 :: more =>
        match (if 4 ≤ more.length then hex (more.take 4) else none) with
        | some n => UInt16.ofNat n :: unescapeUnits fuel (more.drop 4)
        | none => u :: unescapeUnits fuel rest
      | _ =>
        match (if 2 ≤ rest.length then hex (rest.take 2) else none) with
        | some n => UInt16.ofNat n :: unescapeUnits fuel (rest.drop 2)
        | none => u :: unescapeUnits fuel rest
    else u :: unescapeUnits fuel rest

def table : List (Builtin σ) :=
  [method .global "eval" 1 evaluate,
    method .global "decodeURI" 1 (decode true),
    method .global "decodeURIComponent" 1 (decode false),
    method .global "encodeURI" 1 (encode true),
    method .global "encodeURIComponent" 1 (encode false),
    method .global "escape" 1
      (fun env c => do units ((← toUnits env (c.arg 0)).toList.flatMap escapeUnit).toArray),
    method .global "unescape" 1 (fun env c => do
      let s ← toUnits env (c.arg 0)
      units (unescapeUnits s.size s.toList).toArray)]

end PluginRelay.Script.Builtin.GlobalFunctions
