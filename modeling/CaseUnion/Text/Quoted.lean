import CaseUnion.Text.Unprintable

/-!
# Quoted text

A text is quoted by writing it between double quotes.  The double quote and the backslash get a
backslash before them, tab, line feed, carriage return and the zero character their short form, and
every other character without a mark of its own its code point in lower case hexadecimal digits
between braces.  All else is written as it is.
-/

namespace CaseUnion.Text

/-- One character of a quoted text. -/
def escape (c : Char) : String :=
  match c with
  | '"' => "\\\""
  | '\\' => "\\\\"
  | '\t' => "\\t"
  | '\n' => "\\n"
  | '\r' => "\\r"
  | '\x00' => "\\0"
  | c =>
    if isUnprintable c then
      "\\u\x7b" ++ String.ofList (Nat.toDigits 16 c.toNat) ++ "\x7d"
    else
      c.toString

/-- The text between double quotes, escaped. -/
def quote (s : String) : String :=
  "\"" ++ String.join (s.toList.map escape) ++ "\""

example : quote "a\"b\\c" = "\"a\\\"b\\\\c\"" := by decide +kernel

example : quote "\x1b\u0301'" = "\"\\u\x7b1b\x7d\\u\x7b301\x7d'\"" := by decide +kernel

example : quote "\u3164\uff9e" = "\"\\u\x7b3164\x7d\uff9e\"" := by decide +kernel

end CaseUnion.Text
