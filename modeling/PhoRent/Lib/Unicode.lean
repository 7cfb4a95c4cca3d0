/-!
# Decimal digits and blanks

The characters of general category `Nd`, which is what the platform's set of
decimal digits holds and what `\d` matches. They come in runs of ten, from zero
to nine. The blanks are those of general category `Zs`, and the tabulation. A
string is taken as its Unicode scalars.
-/

namespace Unicode

/-- The zeros of the runs, as of Unicode 14. -/
def zeros : List Nat :=
  [0x30, 0x660, 0x6f0, 0x7c0, 0x966, 0x9e6, 0xa66, 0xae6, 0xb66, 0xbe6, 0xc66,
    0xce6, 0xd66, 0xde6, 0xe50, 0xed0, 0xf20, 0x1040, 0x1090, 0x17e0, 0x1810,
    0x1946, 0x19d0, 0x1a80, 0x1a90, 0x1b50, 0x1bb0, 0x1c40, 0x1c50, 0xa620,
    0xa8d0, 0xa900, 0xa9d0, 0xa9f0, 0xaa50, 0xabf0, 0xff10, 0x104a0, 0x10d30,
    0x11066, 0x110f0, 0x11136, 0x111d0, 0x112f0, 0x11450, 0x114d0, 0x11650,
    0x116c0, 0x11730, 0x118e0, 0x11950, 0x11c50, 0x11d50, 0x11da0, 0x16a60,
    0x16ac0, 0x16b50, 0x1d7ce, 0x1d7d8, 0x1d7e2, 0x1d7ec, 0x1d7f6, 0x1e140,
    0x1e2f0, 0x1e950, 0x1fbf0]

def decimalDigit (c : Char) : Bool :=
  zeros.any fun z => decide (z ≤ c.toNat) && decide (c.toNat < z + 10)

/-- `Zs` and U+0009. The ends of lines are not among them. -/
def blank (c : Char) : Bool :=
  [0x9, 0x20, 0xa0, 0x1680, 0x2000, 0x2001, 0x2002, 0x2003, 0x2004, 0x2005,
    0x2006, 0x2007, 0x2008, 0x2009, 0x200a, 0x202f, 0x205f,
    0x3000].contains c.toNat

end Unicode
