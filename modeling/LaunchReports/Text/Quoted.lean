/-
A string in double quotes with everything that is not plainly visible escaped, as messages show it.

The quote, the backslash, tab, line feed, carriage return and U+0000 have an escape of two characters; a character
without a picture of its own is written by its code point, in lower case hex between braces.
-/
import LaunchReports.Text.Unprinted

namespace LaunchReports.Text

def escapeVisible (c : Char) : List Char :=
  if c.toNat = 0 then ['\\', '0']
  else if c = '\t' then ['\\', 't']
  else if c = '\r' then ['\\', 'r']
  else if c = '\n' then ['\\', 'n']
  else if c = '"' then ['\\', '"']
  else if c = '\\' then ['\\', '\\']
  else if isUnprinted c then '\\' :: 'u' :: '{' :: (Nat.toDigits 16 c.toNat ++ ['}'])
  else [c]

def quoteVisible (s : String) : List Char := '"' :: (s.toList.flatMap escapeVisible ++ ['"'])

end LaunchReports.Text
