/-!
# Bytes

Byte strings are lists of bytes, so that readers recurse on what is left of their input. The module
holds big-endian words and the hexadecimal text of a byte string.
-/
namespace PluginRelay

abbrev Bytes := List UInt8

namespace Bytes

/-- The number whose base-256 digits are the bytes, most significant first. -/
def toNat (bytes : Bytes) : Nat :=
  bytes.foldl (fun n b => n * 256 + b.toNat) 0

/-- The `width` lowest base-256 digits of `n`, most significant first. -/
def ofNat (width n : Nat) : Bytes :=
  match width with
  | 0 => []
  | w + 1 => UInt8.ofNat (n >>> (8 * w)) :: ofNat w n

/-- The first `n` bytes and the rest, if there are that many. -/
def take? (n : Nat) (bytes : Bytes) : Option (Bytes × Bytes) :=
  match n, bytes with
  | 0, rest => some ([], rest)
  | _ + 1, [] => none
  | n + 1, b :: rest =>
    match take? n rest with
    | some (front, rest) => some (b :: front, rest)
    | none => none

def hexDigit (n : Nat) : Char :=
  if n < 10 then Char.ofNat (48 + n) else Char.ofNat (87 + n)

/-- Two lower-case hexadecimal digits for each byte. -/
def toHex (bytes : Bytes) : String :=
  String.ofList (bytes.flatMap fun b => [hexDigit (b.toNat / 16), hexDigit (b.toNat % 16)])

def hexValue? (c : Char) : Option Nat :=
  if '0' ≤ c ∧ c ≤ '9' then some (c.toNat - 48)
  else if 'a' ≤ c ∧ c ≤ 'f' then some (c.toNat - 87)
  else if 'A' ≤ c ∧ c ≤ 'F' then some (c.toNat - 55)
  else none

def ofHexDigits? : List Char → Option Bytes
  | [] => some []
  | [_] => none
  | a :: b :: rest => do
    let high ← hexValue? a
    let low ← hexValue? b
    let bytes ← ofHexDigits? rest
    return UInt8.ofNat (high * 16 + low) :: bytes

def ofHex? (text : String) : Option Bytes :=
  ofHexDigits? text.toList

/-- Bytes without the zero bytes in front. -/
def dropZeros (bytes : Bytes) : Bytes :=
  bytes.dropWhile (· = 0)

theorem length_ofNat (width n : Nat) : (ofNat width n).length = width := by
  induction width with
  | zero => rfl
  | succ w ih => simp [ofNat, ih]

theorem take?_eq_some {n : Nat} {bytes front rest : Bytes}
    (h : take? n bytes = some (front, rest)) : bytes = front ++ rest ∧ front.length = n := by
  induction n generalizing bytes front with
  | zero => simp_all [take?]
  | succ n ih =>
    cases bytes with
    | nil => simp [take?] at h
    | cons b tail =>
      simp only [take?] at h
      split at h
      · next front' rest' ht =>
        obtain ⟨rfl, rfl⟩ := by simpa using h
        obtain ⟨rfl, rfl⟩ := ih ht
        simp
      · simp at h

theorem take?_append (front rest : Bytes) : take? front.length (front ++ rest) = some (front, rest) := by
  induction front with
  | nil => rfl
  | cons b tail ih => simp [take?, ih]

end Bytes

end PluginRelay
