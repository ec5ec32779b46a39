import MonkeyLang.Text.Unassigned

/-!
# Characters with a shape

A character is printable unless the Unicode standard gives it no shape: the control and format
characters, the separators other than the space itself, the fillers of the Korean script, the
private use areas, and the code points that belong to no character.
-/

namespace MonkeyLang.Text

/-- The code points of the characters without a shape. -/
def shapelessRanges : List (Nat × Nat) :=
  [ -- control characters and the no-break space
    (0x0000, 0x001f), (0x007f, 0x00a0),
    -- format characters, separators and fillers
    (0x00ad, 0x00ad), (0x0600, 0x0605), (0x061c, 0x061c), (0x06dd, 0x06dd), (0x070f, 0x070f),
    (0x0890, 0x0891), (0x08e2, 0x08e2), (0x115f, 0x1160), (0x1680, 0x1680), (0x180e, 0x180e),
    (0x2000, 0x200f), (0x2028, 0x202f), (0x205f, 0x2064), (0x2066, 0x206f), (0x3000, 0x3000),
    (0x3164, 0x3164),
    -- private use
    (0xe000, 0xf8ff),
    -- format characters and a filler
    (0xfeff, 0xfeff), (0xffa0, 0xffa0), (0xfff9, 0xfffb), (0x110bd, 0x110bd), (0x110cd, 0x110cd),
    (0x13430, 0x1343f), (0x1bca0, 0x1bca3), (0x1d173, 0x1d17a), (0xe0001, 0xe0001),
    (0xe0020, 0xe007f),
    -- private use
    (0xf0000, 0xffffd), (0x100000, 0x10fffd)]

/-- A character is printable when nothing says that it has no shape. -/
def isPrintable (c : Char) : Bool :=
  !(inRanges c.toNat shapelessRanges || isUnassigned c)

end MonkeyLang.Text
