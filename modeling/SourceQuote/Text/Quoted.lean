import SourceQuote.Text.Unseen

/-!
Contract: text in double quotes for messages.

Owns: the escape of one character and the quoted form of a text.

The escapes with a letter are `\0`, `\t`, `\r`, `\n`, `\"` and `\\`. Any other
character without a visible form is written by its code in hexadecimal, between
braces; everything else stands as it is.
-/

namespace SourceQuote.Text

/-- The hexadecimal digits of a number, small letters, no leading zero. -/
def hexDigits (code : Nat) : List Char :=
  Nat.toDigits 16 code

def quoteChar (c : Char) : List Char :=
  match c with
  | '\x00' => ['\\', '0']
  | '\t' => ['\\', 't']
  | '\r' => ['\\', 'r']
  | '\n' => ['\\', 'n']
  | '"' => ['\\', '"']
  | '\\' => ['\\', '\\']
  | c => if isUnseen c then ['\\', 'u', '\x7b'] ++ hexDigits c.toNat ++ ['\x7d'] else [c]

def quoted (text : String) : String :=
  String.ofList ('"' :: text.toList.flatMap quoteChar ++ ['"'])

end SourceQuote.Text
