import BoundMarkup.Text.Plain

/-!
# Quoted text in messages

Messages show texts that came from outside between double quotes. A quote and a backslash get a
backslash in front, four control characters have a letter, and every other character without a
shape of its own is written by its code point in hexadecimal digits.
-/

namespace BoundMarkup.Text

/-- One character of a quotation. -/
def quoteChar (c : Char) : List Char :=
  match c with
  | '"' => ['\\', '"']
  | '\\' => ['\\', '\\']
  | '\n' => ['\\', 'n']
  | '\r' => ['\\', 'r']
  | '\t' => ['\\', 't']
  | '\x00' => ['\\', '0']
  | c => if isPlain c then [c] else "\\u\x7b".toList ++ Nat.toDigits 16 c.toNat ++ ['\x7d']

/-- The text between double quotes, with every character made visible. -/
def quoted (s : String) : String :=
  String.ofList ('"' :: s.toList.flatMap quoteChar ++ ['"'])

end BoundMarkup.Text
