import Blueprint.Log.Level

/-!
# Log lines

A log line shows its severity in brackets, the time and a text. The text may quote what
somebody else wrote, so characters that steer a terminal are shown by their codes.
-/

namespace Blueprint.LogLine

/-- Characters of ASCII that steer a terminal: bell, backspace, form feed, escape and
delete. -/
def steering : List Char := ['\x07', '\x08', '\x0c', '\x1b', '\x7f']

/-- The hexadecimal digits of a number, in lower case. -/
def hex (n : Nat) : List Char := Nat.toDigits 16 n

/-- A character as a log line shows it: one that steers a terminal in two digits after a
backslash, the controls beyond ASCII in braces, and any other as it is. -/
def shown (c : Char) : List Char :=
  if steering.contains c then
    '\\' :: 'x' :: (if c.toNat < 16 then '0' :: hex c.toNat else hex c.toNat)
  else if 0x80 ≤ c.toNat ∧ c.toNat ≤ 0x9F then
    '\\' :: 'u' :: '\x7b' :: hex c.toNat ++ ['\x7d']
  else [c]

/-- A text as a log line shows it. -/
def shownText (text : String) : String := String.ofList (text.toList.flatMap shown)

/-- A log line. -/
def render (level : LogLevel) (time text : String) : String :=
  s!"[{level.severity}] {time} {shownText text}\n"

end Blueprint.LogLine
