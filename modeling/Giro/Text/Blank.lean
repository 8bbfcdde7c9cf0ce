/-
  Giro.Text.Blank — the characters that count as white space, and texts made of them.

  The class is Unicode's property White_Space: 25 characters.
-/

namespace Giro.Text

/-- The code points of the property White_Space. -/
def blanks : List Nat :=
  [0x09, 0x0A, 0x0B, 0x0C, 0x0D, 0x20, 0x85, 0xA0, 0x1680, 0x2000, 0x2001, 0x2002, 0x2003, 0x2004, 0x2005,
    0x2006, 0x2007, 0x2008, 0x2009, 0x200A, 0x2028, 0x2029, 0x202F, 0x205F, 0x3000]

/-- A white space character. -/
def isBlank (c : Char) : Bool := blanks.contains c.toNat

/-- Nothing but white space. -/
def allBlank (cs : List Char) : Bool := cs.all isBlank

/-- The text without the white space it starts with. -/
def trimStart (cs : List Char) : List Char := cs.dropWhile isBlank

example : blanks.length = 25 := rfl

end Giro.Text
