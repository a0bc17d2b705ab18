import TensorDispatch.Text.Printable

/-!
# Quoted text

A text between double quotes. A quote and a backslash are written behind a backslash, and so is
every character that does not show by itself: the usual control characters by a letter, the others
by their number.
-/

namespace TensorDispatch.Text

/-- A number in hexadecimal digits, with zeros in front up to a width. -/
def padHex (width n : Nat) : String :=
  let digits := Nat.toDigits 16 n
  String.ofList (List.replicate (width - digits.length) '0' ++ digits)

/-- How a character is written between quotes. -/
def quotedChar (c : Char) : String :=
  match c with
  | '"' => "\\\""
  | '\\' => "\\\\"
  | '\n' => "\\n"
  | '\r' => "\\r"
  | '\t' => "\\t"
  | '\x00' => "\\0"
  | c => if isPrintable c then c.toString else "\\u\x7b" ++ padHex 1 c.toNat ++ "\x7d"

/-- A text between double quotes. -/
def quoted (s : String) : String :=
  "\"" ++ String.join (s.toList.map quotedChar) ++ "\""

end TensorDispatch.Text
