import PluginRelay.Text.Visible

/-!
# Quoted text in developer output

A text in double quotes. Quotes, backslashes and a few controls are escaped; characters that cannot be
seen or that would attach to the quote are written by their number.
-/
namespace PluginRelay.Text

def hexDigits (n : Nat) : List Char := Nat.toDigits 16 n

def byNumber (c : Char) : List Char :=
  '\\' :: 'u' :: '\x7b' :: (hexDigits c.toNat ++ ['\x7d'])

def quoteChar (c : Char) : List Char :=
  match c with
  | '"' => ['\\', '"']
  | '\\' => ['\\', '\\']
  | '\n' => ['\\', 'n']
  | '\r' => ['\\', 'r']
  | '\t' => ['\\', 't']
  | '\x00' => ['\\', '0']
  | c => if isCombining c || !isVisible c then byNumber c else [c]

def quoted (s : String) : String :=
  String.ofList ('"' :: (s.toList.flatMap quoteChar ++ ['"']))

/-- Texts between brackets. -/
def listed (items : List String) : String := "[" ++ String.intercalate ", " items ++ "]"

end PluginRelay.Text
