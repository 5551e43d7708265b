import ArrayLiteral.Text.GraphemeExtend
import ArrayLiteral.Text.Printable

/-!
# Quoted text

Messages show a character in single quotes and a text in double quotes.  The
enclosing quote, the backslash and four control characters have a two-character
escape.  What would not show up on its own is written by code point, in
lower-case hexadecimal digits without padding.  All else stands for itself, so
a double quote inside single quotes is left alone, and the reverse.
-/

namespace ArrayLiteral.Text

/-- The code point of a character between braces. -/
def codePointEscape (c : Char) : String :=
  "\\u\x7b" ++ String.ofList (Nat.toDigits 16 c.toNat) ++ "\x7d"

/-- The form of one character inside a text enclosed in `quote`. -/
def escape (quote c : Char) : String :=
  match c with
  | '\x00' => "\\0"
  | '\t' => "\\t"
  | '\r' => "\\r"
  | '\n' => "\\n"
  | '\\' => "\\\\"
  | _ =>
    if c = quote then "\\".push c
    else if isGraphemeExtend c || !isPrintable c then codePointEscape c
    else String.singleton c

def quotedWith (quote : Char) (text : List Char) : String :=
  (String.singleton quote ++ String.join (text.map (escape quote))).push quote

/-- A character in single quotes. -/
def quotedChar (c : Char) : String :=
  quotedWith '\'' [c]

/-- A text in double quotes. -/
def quotedString (text : String) : String :=
  quotedWith '"' text.toList

end ArrayLiteral.Text
