import TagCall.Text.Digit
import TagCall.Text.Printable

/-!
Quoted text, as it is shown in messages. Single quotes are the rule; a text that holds a single
quote and no double quote is shown in double quotes.
-/

namespace TagCall.Text

/-- `width` hexadecimal digits in lower case, zeros first. -/
def hex (width n : Nat) : List Char :=
  padded 16 width n

/-- A character inside the given quotes: a short escape where there is one, itself if it can be
shown, and else its code point in the least of the widths 2, 4 and 8 that holds it. -/
def quotedChar (mark c : Char) : List Char :=
  if c = mark ∨ c = '\\' then ['\\', c]
  else if c = '\n' then ['\\', 'n']
  else if c = '\r' then ['\\', 'r']
  else if c = '\t' then ['\\', 't']
  else if isPrintable c then [c]
  else if c.toNat < 0x100 then '\\' :: 'x' :: hex 2 c.toNat
  else if c.toNat < 0x10000 then '\\' :: 'u' :: hex 4 c.toNat
  else '\\' :: 'U' :: hex 8 c.toNat

def quoteMark (cs : List Char) : Char :=
  if cs.contains '\'' && !cs.contains '"' then '"' else '\''

def quotedChars (cs : List Char) : List Char :=
  let mark := quoteMark cs
  mark :: (cs.flatMap (quotedChar mark) ++ [mark])

def quoted (s : String) : String :=
  String.ofList (quotedChars s.toList)

end TagCall.Text
