import PluginRelay.Bytes

/-!
# UTF-8

Strict and lossy reading of UTF-8. The lossy reading puts one U+FFFD for each maximal prefix of a
well-formed sequence that the input breaks off, and one for every other byte that cannot stand
where it is.
-/
namespace PluginRelay.Utf8

def encode (text : String) : Bytes :=
  text.toUTF8.data.toList

def decode? (bytes : Bytes) : Option String :=
  String.fromUTF8? ⟨bytes.toArray⟩

/-- Which bytes may follow a lead byte directly, and how many follow it in all. -/
structure Lead where
  count : Nat
  low : Nat
  high : Nat
  bits : Nat

def lead? (b : Nat) : Option Lead :=
  if b < 0xC2 then none
  else if b < 0xE0 then some ⟨1, 0x80, 0xBF, b % 32⟩
  else if b = 0xE0 then some ⟨2, 0xA0, 0xBF, 0⟩
  else if b = 0xED then some ⟨2, 0x80, 0x9F, 13⟩
  else if b < 0xF0 then some ⟨2, 0x80, 0xBF, b % 16⟩
  else if b = 0xF0 then some ⟨3, 0x90, 0xBF, 0⟩
  else if b < 0xF4 then some ⟨3, 0x80, 0xBF, b % 8⟩
  else if b = 0xF4 then some ⟨3, 0x80, 0x8F, 4⟩
  else none

/-- What a decoder finds at the front of its input: a character, or the length of a broken sequence. -/
inductive Piece where
  | char (c : Char) (length : Nat)
  | broken (length : Nat)
  deriving DecidableEq

/-- Follow-up bytes of a sequence: `need` are still missing, `seen` bytes have been read. -/
def continuation (need seen low high bits : Nat) (rest : Bytes) : Piece :=
  match need, rest with
  | 0, _ => .char (Char.ofNat bits) seen
  | _ + 1, [] => .broken seen
  | need + 1, b :: rest =>
    if low ≤ b.toNat ∧ b.toNat ≤ high then
      continuation need (seen + 1) 0x80 0xBF (bits * 64 + b.toNat % 64) rest
    else .broken seen

def piece (first : UInt8) (rest : Bytes) : Piece :=
  if first.toNat < 0x80 then .char (Char.ofNat first.toNat) 1
  else match lead? first.toNat with
    | none => .broken 1
    | some l => continuation l.count 1 l.low l.high l.bits rest

def Piece.length : Piece → Nat
  | .char _ n => n
  | .broken n => n

def Piece.shown : Piece → Char
  | .char c _ => c
  | .broken _ => '\uFFFD'

/-- Reads `skip` bytes silently, since they belong to the piece before. -/
def lossyChars (skip : Nat) : Bytes → List Char
  | [] => []
  | b :: rest =>
    match skip with
    | n + 1 => lossyChars n rest
    | 0 =>
      let p := piece b rest
      p.shown :: lossyChars (p.length - 1) rest

def decodeLossy (bytes : Bytes) : String :=
  String.ofList (lossyChars 0 bytes)

/-- How many bytes in front of the first broken sequence are well formed. -/
def validUpTo (skip read : Nat) : Bytes → Nat
  | [] => read
  | b :: rest =>
    match skip with
    | n + 1 => validUpTo n (read + 1) rest
    | 0 =>
      match piece b rest with
      | .char _ n => validUpTo (n - 1) (read + 1) rest
      | _ => read

theorem decode?_encode (text : String) : decode? (encode text) = some text := by
  have h : (⟨(encode text).toArray⟩ : ByteArray) = text.toByteArray := by simp [encode]
  rw [decode?, h, String.fromUTF8?, dif_pos text.isValidUTF8]
  rfl

end PluginRelay.Utf8
