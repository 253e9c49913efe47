import SchemaLint.Text.Hidden

/-!
# Quoted text

A text between double quotes. The quote, the backslash and the usual control
characters have short escapes, every other hidden character is written by its
code point in lower-case hexadecimal between braces.
-/

namespace SchemaLint.Text

def quoteChar (c : Char) : List Char :=
  match c with
  | '\x00' => ['\\', '0']
  | '\t' => ['\\', 't']
  | '\r' => ['\\', 'r']
  | '\n' => ['\\', 'n']
  | '"' => ['\\', '"']
  | '\\' => ['\\', '\\']
  | _ =>
    if isHidden c then
      ['\\', 'u', '\x7b'] ++ Nat.toDigits 16 c.toNat ++ ['\x7d']
    else [c]

def quoted (text : String) : String :=
  String.ofList ('"' :: text.toList.flatMap quoteChar ++ ['"'])

end SchemaLint.Text
