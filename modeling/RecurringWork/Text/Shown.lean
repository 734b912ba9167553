import RecurringWork.Text.Ranges

/-!
# RecurringWork.Text.Shown

**Text shown in a message.** A text is put into double quotes so that whoever reads
the message sees what it holds: quotes, backslashes and the common controls are
escaped by a letter, and what would not be seen by its code point. A single quote
stays as it is.
-/

namespace RecurringWork.Text

/-- The character is seen on its own. -/
def isPrintable (c : Char) : Bool := !inRanges hiddenRanges c

/-- A character inside the quotes. -/
def showChar (c : Char) : List Char :=
  if c = '"' then ['\\', '"']
  else if c = '\\' then ['\\', '\\']
  else if c = '\n' then ['\\', 'n']
  else if c = '\r' then ['\\', 'r']
  else if c = '\t' then ['\\', 't']
  else if c.toNat = 0 then ['\\', '0']
  else if isPrintable c then [c]
  else '\\' :: 'u' :: '\x7b' :: (Nat.toDigits 16 c.toNat ++ ['\x7d'])

/-- A text in quotes. -/
def shown (s : String) : String := String.ofList ('"' :: (s.toList.flatMap showChar ++ ['"']))

def isAlphanumeric (c : Char) : Bool := c.isAlphanum || inRanges alphanumericRanges c

end RecurringWork.Text
