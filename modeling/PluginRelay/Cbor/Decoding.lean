import PluginRelay.Cbor.Header
import PluginRelay.Text.Utf8

/-!
# Decoding of values

Readers work on the bytes that are left. `value depth` reads one item that may open `depth` more
containers; the first fault on the way from left to right is the one reported. What follows the item
stays unread.
-/
namespace PluginRelay.Cbor.Reader

/-- Exactly `n` bytes. -/
def exactly (n : Nat) : Reader Bytes := fun input =>
  match Bytes.take? n input with
  | some (front, rest) => .ok (front, rest)
  | none => .error .ended

/-- Texts and byte strings up to this length are read in one piece, longer ones piece by piece. -/
def pieceLength : Nat := 4096

/-- The rest of a chunk of text of which `unread` bytes are to come. Up to three bytes of a character
that a piece breaks off wait for the next piece. -/
def textPieces (fuel unread : Nat) (pending : Bytes) (chars : List Char) : Reader (List Char) := fun input =>
  match fuel with
  | 0 => .error .ended
  | fuel + 1 =>
    if unread = 0 then if pending.isEmpty then .ok (chars, input) else .error .malformed
    else do
      let n := min unread (pieceLength - pending.length)
      let (piece, rest) ← exactly n input
      let bytes := pending ++ piece
      let good := Utf8.validUpTo 0 0 bytes
      let broken := bytes.drop good
      if 3 < broken.length then .error .malformed
      else textPieces fuel (unread - n) broken (chars ++ Utf8.lossyChars 0 (bytes.take good)) rest

def textChunk (length : Nat) (chars : List Char) : Reader (List Char) := fun input =>
  textPieces (input.length + 1) length [] chars input

def bytesChunk (length : Nat) (front : Bytes) : Reader Bytes := fun input => do
  let (piece, rest) ← exactly length input
  return (front ++ piece, rest)

/-- The chunks of a string of indefinite length, `nested` of which are still open. -/
def chunks {α : Type} (chunk : Nat → α → Reader α) (length? : Header → Option (Option Nat))
    (fuel nested : Nat) (read : α) : Reader α := fun input =>
  match fuel with
  | 0 => .error .ended
  | fuel + 1 => do
    let (header, rest) ← Header.read input
    if header = .stop then
      if nested ≤ 1 then return (read, rest) else chunks chunk length? fuel (nested - 1) read rest
    else match length? header with
      | none => .error .malformed
      | some none => chunks chunk length? fuel (nested + 1) read rest
      | some (some n) =>
        let (read, rest) ← chunk n read rest
        chunks chunk length? fuel nested read rest

def textLength? : Header → Option (Option Nat)
  | .text length => some length
  | _ => none

def bytesLength? : Header → Option (Option Nat)
  | .bytes length => some length
  | _ => none

/-- The body of a text whose header has been read. -/
def textBody (length : Option Nat) : Reader String := fun input => do
  let (chars, rest) ← match length with
    | some n => textChunk n [] input
    | none => chunks textChunk textLength? (input.length + 1) 1 [] input
  return (String.ofList chars, rest)

/-- The body of a byte string whose header has been read. -/
def bytesBody (length : Option Nat) : Reader Bytes := fun input =>
  match length with
  | some n => bytesChunk n [] input
  | none => chunks bytesChunk bytesLength? (input.length + 1) 1 [] input

/-- The width of the pieces in which the digits of a large integer are read. -/
def digitPiece : Nat := 16

/-- Base-256 digits of a large integer: zeros in front do not count, sixteen others are the limit. -/
def digitsChunk (fuel unread : Nat) (digits : Bytes) : Reader Bytes := fun input =>
  match fuel with
  | 0 => .error .ended
  | fuel + 1 =>
    if unread = 0 then .ok (digits, input)
    else do
      let n := min unread digitPiece
      let (piece, rest) ← exactly n input
      let digits := if digits.isEmpty then Bytes.dropZeros piece else digits ++ piece
      if 16 < digits.length then .error .mismatch
      else digitsChunk fuel (unread - n) digits rest

/-- The number behind a tag for large integers: a byte string. -/
def digits : Reader Nat := fun input => do
  let chunk (n : Nat) (ds : Bytes) : Reader Bytes := fun input =>
    digitsChunk (input.length + 1) n ds input
  let (header, rest) ← Header.read input
  match header with
  | .bytes (some n) =>
    let (ds, rest) ← chunk n [] rest
    return (Bytes.toNat ds, rest)
  | .bytes none =>
    let (ds, rest) ← chunks chunk bytesLength? (rest.length + 1) 1 [] rest
    return (Bytes.toNat ds, rest)
  | _ => .error .mismatch

/-- Items up to the stop header; `fuel` bounds their number. -/
def untilStop {α : Type} (item : Reader α) (fuel : Nat) : Reader (List α) := fun input =>
  match fuel with
  | 0 => .error .ended
  | fuel + 1 => do
    let (header, rest) ← Header.read input
    if header = .stop then return ([], rest)
    else
      let (x, rest) ← item input
      let (xs, rest) ← untilStop item fuel rest
      return (x :: xs, rest)

def times {α : Type} (item : Reader α) (count : Nat) : Reader (List α) := fun input =>
  match count with
  | 0 => .ok ([], input)
  | count + 1 => do
    let (x, rest) ← item input
    let (xs, rest) ← times item count rest
    return (x :: xs, rest)

/-- The items of a container whose header has been read. -/
def repeated {α : Type} (item : Reader α) (length : Option Nat) : Reader (List α) := fun input =>
  match length with
  | some n => times item n input
  | none => untilStop item (input.length + 1) input

def pair {α β : Type} (first : Reader α) (second : Reader β) : Reader (α × β) := fun input => do
  let (a, rest) ← first input
  let (b, rest) ← second rest
  return ((a, b), rest)

/-- An item without items of its own, from its header on. -/
def leaf (header : Header) : Reader Value := fun input =>
  match header with
  | .natural n => .ok (.integer (.natural n), input)
  | .negative n => .ok (.integer (.negative n), input)
  | .float x => .ok (.float x, input)
  | .bytes length => (bytesBody length input).map fun (b, rest) => (.bytes b, rest)
  | .text length => (textBody length input).map fun (s, rest) => (.text s, rest)
  | .simple n =>
    if n = Header.falseCode then .ok (.bool false, input)
    else if n = Header.trueCode then .ok (.bool true, input)
    else if n = Header.nullCode ∨ n = Header.undefinedCode then .ok (.null, input)
    else .error .mismatch
  | _ => .error .mismatch

/-- The integer that digits under a tag for large integers stand for; a negative one has to fit 128 bits
with its sign. -/
def taggedDigits (number : UInt64) (digits : Bytes) : Except Fault Value :=
  let magnitude := Bytes.toNat digits
  if number = Value.positiveTag then .ok (Value.ofInt magnitude)
  else if magnitude < 1 <<< 127 then .ok (Value.ofInt (-1 - (magnitude : Int)))
  else .error .mismatch

/-- The integer behind a tag for large integers, if a short byte string in one piece follows. -/
def taggedInteger (number : UInt64) : Reader (Option Value) := fun input => do
  if number = Value.positiveTag ∨ number = Value.negativeTag then
    let (header, rest) ← Header.read input
    match header with
    | .bytes (some n) =>
      if n ≤ Value.integerWidth then
        let (digits, rest) ← exactly n rest
        let v ← taggedDigits number digits
        return (some v, rest)
      else return (none, input)
    | _ => return (none, input)
  else return (none, input)

/-- One item that may open `depth` containers more. -/
def value (depth : Nat) : Reader Value := fun input => do
  let (header, rest) ← Header.read input
  match header with
  | .array length =>
    match depth with
    | 0 => .error .tooDeep
    | depth + 1 =>
      let (items, rest) ← repeated (value depth) length rest
      return (.array items, rest)
  | .map length =>
    match depth with
    | 0 => .error .tooDeep
    | depth + 1 =>
      let (entries, rest) ← repeated (pair (value depth) (value depth)) length rest
      return (.map entries, rest)
  | .tag n =>
    match ← taggedInteger n rest with
    | (some v, rest) => return (v, rest)
    | (none, rest) =>
      match depth with
      | 0 => .error .tooDeep
      | depth + 1 =>
        let (item, rest) ← value depth rest
        return (.tag n item, rest)
  | header => leaf header rest

/-- The first header behind any number of tags. -/
def untagged (fuel : Nat) : Reader Header := fun input =>
  match fuel with
  | 0 => .error .ended
  | fuel + 1 => do
    let (header, rest) ← Header.read input
    match header with
    | .tag _ => untagged fuel rest
    | header => return (header, rest)

def skipTags : Reader Header := fun input => untagged (input.length + 1) input

/-- A natural number; behind a tag for large integers it stands in a byte string. -/
def naturalFrom (fuel : Nat) : Reader Nat := fun input =>
  match fuel with
  | 0 => .error .ended
  | fuel + 1 => do
    let (header, rest) ← Header.read input
    match header with
    | .natural n => return (n.toNat, rest)
    | .negative _ => .error .mismatch
    | .tag n =>
      if n = Value.positiveTag then digits rest
      else if n = Value.negativeTag then
        let _ ← digits rest
        .error .mismatch
      else naturalFrom fuel rest
    | _ => .error .mismatch

def natural : Reader Nat := fun input => naturalFrom (input.length + 1) input

def bool : Reader Bool := fun input => do
  let (header, rest) ← skipTags input
  match header with
  | .simple n =>
    if n = Header.falseCode then return (false, rest)
    else if n = Header.trueCode then return (true, rest)
    else .error .mismatch
  | _ => .error .mismatch

def text : Reader String := fun input => do
  let (header, rest) ← skipTags input
  match header with
  | .text length => textBody length rest
  | _ => .error .mismatch

/-- A byte string in one piece. -/
def shortBytes : Reader Bytes := fun input => do
  let (header, rest) ← skipTags input
  match header with
  | .bytes (some n) => if n ≤ pieceLength then exactly n rest else .error .mismatch
  | _ => .error .mismatch

/-- A field name: a text or byte string in one piece. A byte string may be no UTF-8. -/
def name : Reader (Option String) := fun input => do
  let (header, rest) ← skipTags input
  match header with
  | .text (some n) =>
    if n ≤ pieceLength then
      let (bytes, rest) ← exactly n rest
      match Utf8.decode? bytes with
      | some s => return (some s, rest)
      | none => .error .malformed
    else .error .mismatch
  | .bytes (some n) =>
    if n ≤ pieceLength then
      let (bytes, rest) ← exactly n rest
      return (Utf8.decode? bytes, rest)
    else .error .mismatch
  | _ => .error .mismatch

/-- The values of a map, added up entry by entry. -/
def stepTimes {σ : Type} (step : σ → Reader σ) (count : Nat) (state : σ) : Reader σ := fun input =>
  match count with
  | 0 => .ok (state, input)
  | count + 1 => do
    let (state, rest) ← step state input
    stepTimes step count state rest

def stepUntilStop {σ : Type} (step : σ → Reader σ) (fuel : Nat) (state : σ) : Reader σ := fun input =>
  match fuel with
  | 0 => .error .ended
  | fuel + 1 => do
    let (header, rest) ← Header.read input
    if header = .stop then return (state, rest)
    else
      let (state, rest) ← step state input
      stepUntilStop step fuel state rest

/-- A map read entry by entry into a state. -/
def mapInto {σ : Type} (depth : Nat) (step : Nat → σ → Reader σ) (start : σ) : Reader σ := fun input => do
  let (header, rest) ← skipTags input
  match header with
  | .map length =>
    match depth with
    | 0 => .error .tooDeep
    | depth + 1 =>
      match length with
      | some n => stepTimes (step depth) n start rest
      | none => stepUntilStop (step depth) (rest.length + 1) start rest
  | _ => .error .mismatch

/-- The name of a variant: alone, or as the only key of a map. What goes with it is read next. -/
def variant {α : Type} (depth : Nat) (body : Nat → Option String → Reader α) : Reader α := fun input => do
  let (header, rest) ← skipTags input
  let start ← match header with
    | .map (some 1) => .ok rest
    | .text _ => .ok input
    | _ => .error .mismatch
  match depth with
  | 0 => .error .tooDeep
  | depth + 1 =>
    let (tag, rest) ← name start
    body depth tag rest

/-- An optional value: null and undefined stand for none. -/
def optional (depth : Nat) : Reader (Option Value) := fun input => do
  let (header, rest) ← Header.read input
  if header = .simple Header.nullCode ∨ header = .simple Header.undefinedCode then return (none, rest)
  else
    let (v, rest) ← value depth input
    return (some v, rest)

end PluginRelay.Cbor.Reader
