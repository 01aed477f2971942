/-
Quoted texts, as messages show names. Single quotes stand around the text
unless it holds one and no double quote; then double quotes do. The quote
in use and the backslash are escaped, line feed, carriage return and tab
have letters, and any other character that is not printable is written by
its code in lower-case hexadecimal: two digits, four or eight.
-/
import RobotLang.Text.Printable

namespace RobotLang.Text

/-- The number in lower-case hexadecimal, with at least `width` digits. -/
def hex (width n : Nat) : List Char :=
  let ds := Nat.toDigits 16 n
  List.replicate (width - ds.length) '0' ++ ds

/-- The quotation mark that suits a text. -/
def quoteFor (cs : List Char) : Char :=
  if cs.contains '\'' && !cs.contains '"' then '"' else '\''

/-- A character as it stands between such quotation marks. -/
def escape (quote c : Char) : List Char :=
  if c = quote || c = '\\' then ['\\', c]
  else if c = '\n' then ['\\', 'n']
  else if c = '\r' then ['\\', 'r']
  else if c = '\t' then ['\\', 't']
  else if isPrintable c then [c]
  else if c.toNat < 0x100 then '\\' :: 'x' :: hex 2 c.toNat
  else if c.toNat < 0x10000 then '\\' :: 'u' :: hex 4 c.toNat
  else '\\' :: 'U' :: hex 8 c.toNat

/-- The text in quotation marks. -/
def quoted (text : String) : String :=
  let q := quoteFor text.toList
  String.ofList (q :: text.toList.flatMap (escape q) ++ [q])

end RobotLang.Text
