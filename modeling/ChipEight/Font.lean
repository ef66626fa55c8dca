/-!
# The hexadecimal font

Sixteen glyphs, one for each hexadecimal digit, of five rows each. A row is a byte whose upper half is shown.
-/

namespace ChipEight.Font

/-- Where the first glyph stands in memory. -/
def start : Nat := 0x050

/-- The rows of a glyph. -/
def glyphHeight : Nat := 5

/-- The rows of all glyphs, digit by digit. -/
def rows : List UInt8 :=
  [0xF0, 0x90, 0x90, 0x90, 0xF0,
   0x20, 0x60, 0x20, 0x20, 0x70,
   0xF0, 0x10, 0xF0, 0x80, 0xF0,
   0xF0, 0x10, 0xF0, 0x10, 0xF0,
   0x90, 0x90, 0xF0, 0x10, 0x10,
   0xF0, 0x80, 0xF0, 0x10, 0xF0,
   0xF0, 0x80, 0xF0, 0x90, 0xF0,
   0xF0, 0x10, 0x20, 0x40, 0x40,
   0xF0, 0x90, 0xF0, 0x90, 0xF0,
   0xF0, 0x90, 0xF0, 0x10, 0xF0,
   0xF0, 0x90, 0xF0, 0x90, 0x90,
   0xE0, 0x90, 0xE0, 0x90, 0xE0,
   0xF0, 0x80, 0x80, 0x80, 0xF0,
   0xE0, 0x90, 0x90, 0x90, 0xE0,
   0xF0, 0x80, 0xF0, 0x80, 0xF0,
   0xF0, 0x80, 0xF0, 0x80, 0x80]

/-- The address after the last glyph. -/
def stop : Nat := start + rows.length

/-- The address of the glyph of a digit. -/
def glyphAddress (digit : Nat) : Nat := start + glyphHeight * digit

end ChipEight.Font
