import ScriptSurface.Text.Printable

/-!
# Quoted text

Diagnostic descriptions show names in double quotes.  Inside, the quote, the backslash and four
controls have short escapes; every other character that is not printable, or that would be drawn
onto the character before it, is written by its code point in hexadecimal.
-/

namespace ScriptSurface.Text

/-- A code point as an escape: lowercase hexadecimal digits in braces. -/
def codePointEscape (c : Char) : List Char :=
  ['\\', 'u', '\x7b'] ++ Nat.toDigits 16 c.toNat ++ ['\x7d']

/-- A character as it stands inside quotes. -/
def quoteChar (c : Char) : List Char :=
  match c with
  | '\x00' => ['\\', '0']
  | '\t' => ['\\', 't']
  | '\n' => ['\\', 'n']
  | '\r' => ['\\', 'r']
  | '"' => ['\\', '"']
  | '\\' => ['\\', '\\']
  | c => if isPrintable c && !isAttached c then [c] else codePointEscape c

/-- A text in double quotes. -/
def quoted (s : String) : String :=
  String.ofList ('"' :: s.toList.flatMap quoteChar ++ ['"'])

end ScriptSurface.Text
