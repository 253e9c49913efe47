/-!
# Blank characters and lines

Blank characters are those with the Unicode property `White_Space`. `trim` takes
them off both ends of a text, and `lines` cuts a text at its line feeds.
-/

namespace SchemaLint.Text

def isBlank (c : Char) : Bool :=
  let code := c.toNat
  (0x09 ≤ code && code ≤ 0x0D) || code == 0x20 || code == 0x85 ||
    code == 0xA0 || code == 0x1680 || (0x2000 ≤ code && code ≤ 0x200A) ||
    code == 0x2028 || code == 0x2029 || code == 0x202F || code == 0x205F ||
    code == 0x3000

def trimChars (chars : List Char) : List Char :=
  ((chars.dropWhile isBlank).reverse.dropWhile isBlank).reverse

def trim (text : String) : String :=
  String.ofList (trimChars text.toList)

/-- A line that a line feed ends loses one carriage return before it. -/
private def closeLine (reversed : List Char) : List Char :=
  match reversed with
  | '\r' :: rest => rest.reverse
  | _ => reversed.reverse

private def linesFrom (reversed : List Char) : List Char → List (List Char)
  | [] => if reversed.isEmpty then [] else [reversed.reverse]
  | '\n' :: rest => closeLine reversed :: linesFrom [] rest
  | c :: rest => linesFrom (c :: reversed) rest

/-- The lines of a text. A line feed at the very end starts no further line. -/
def lines (text : String) : List String :=
  (linesFrom [] text.toList).map String.ofList

end SchemaLint.Text
