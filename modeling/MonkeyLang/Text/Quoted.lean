import MonkeyLang.Text.Combining
import MonkeyLang.Text.Printable

/-!
# Quoted text

Text is quoted between double quotes, with every character either itself or an escape. A quote,
a backslash and the four common control characters have an escape of two characters. What has
no shape, or would change the shape of the character before it, is written by its number in
lowercase hexadecimal between braces. The apostrophe stays itself.
-/

namespace MonkeyLang.Text

/-- A code point as a numbered escape. -/
def numberedEscape (c : Char) : List Char :=
  ['\\', 'u', '\x7b'] ++ Nat.toDigits 16 c.toNat ++ ['\x7d']

/-- What stands for one character inside the quotes. -/
def escape (c : Char) : List Char :=
  if c = '"' then ['\\', '"']
  else if c = '\\' then ['\\', '\\']
  else if c = '\n' then ['\\', 'n']
  else if c = '\r' then ['\\', 'r']
  else if c = '\t' then ['\\', 't']
  else if c = '\x00' then ['\\', '0']
  else if ' ' ≤ c ∧ c ≤ '~' then [c]
  else if isCombining c || !isPrintable c then numberedEscape c
  else [c]

/-- Text between double quotes, each character escaped where that is needed. -/
def quote (text : String) : String :=
  String.ofList ('"' :: text.toList.flatMap escape ++ ['"'])

/-- A letter, digit or other visible ASCII character that is no quote and no backslash stands
for itself. -/
theorem escape_of_visible {c : Char} (low : ' ' ≤ c) (high : c ≤ '~') (hq : c ≠ '"')
    (hb : c ≠ '\\') : escape c = [c] := by
  have hn : c ≠ '\n' := by rintro rfl; exact absurd low (by decide)
  have hr : c ≠ '\r' := by rintro rfl; exact absurd low (by decide)
  have ht : c ≠ '\t' := by rintro rfl; exact absurd low (by decide)
  have hz : c ≠ '\x00' := by rintro rfl; exact absurd low (by decide)
  simp [escape, hq, hb, hn, hr, ht, hz, low, high]

end MonkeyLang.Text
