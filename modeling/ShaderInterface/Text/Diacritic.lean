import ShaderInterface.Text.Mark

/-!
# Diacritics

The characters with the property Diacritic that are neither letters nor nonspacing marks: accents
that stand alone, tone marks, and the spacing marks that silence a vowel. The circumflex and the
grave accent are the two in ASCII.
-/

namespace ShaderInterface.Text

/-- Diacritics outside ASCII that are neither letters nor nonspacing marks. -/
def diacriticRanges : Ranges where
  list :=
    [(0xA8, 0xA8), (0xAF, 0xAF), (0xB4, 0xB4), (0xB7, 0xB8), (0x2C2, 0x2C5), (0x2D2, 0x2DF),
     (0x2E5, 0x2EB), (0x2ED, 0x2ED), (0x2EF, 0x2FF), (0x375, 0x375), (0x384, 0x385), (0xF3E, 0xF3F),
     (0x1063, 0x1064), (0x1069, 0x106D), (0x1087, 0x108C), (0x108F, 0x108F), (0x109A, 0x109B),
     (0x1715, 0x1715), (0x1734, 0x1734), (0x1ABE, 0x1ABE), (0x1B44, 0x1B44), (0x1BAA, 0x1BAA),
     (0x1BF2, 0x1BF3), (0x1CD3, 0x1CD3), (0x1CE1, 0x1CE1), (0x1CF7, 0x1CF7), (0x1FBD, 0x1FBD),
     (0x1FBF, 0x1FC1), (0x1FCD, 0x1FCF), (0x1FDD, 0x1FDF), (0x1FED, 0x1FEF), (0x1FFD, 0x1FFE),
     (0x302E, 0x302F), (0x309B, 0x309C), (0xA700, 0xA716), (0xA720, 0xA721), (0xA789, 0xA78A),
     (0xA92E, 0xA92E), (0xA953, 0xA953), (0xA9C0, 0xA9C0), (0xAA7B, 0xAA7B), (0xAA7D, 0xAA7D),
     (0xAB5B, 0xAB5B), (0xAB6A, 0xAB6B), (0xABEC, 0xABEC), (0xFF3E, 0xFF3E), (0xFF40, 0xFF40),
     (0xFFE3, 0xFFE3), (0x111C0, 0x111C0), (0x11235, 0x11235), (0x1134D, 0x1134D),
     (0x113CF, 0x113CF), (0x116B6, 0x116B6), (0x1193D, 0x1193D), (0x11F41, 0x11F41),
     (0x16FF0, 0x16FF1), (0x1D16D, 0x1D172)]

/-- A diacritic that is neither a letter nor a nonspacing mark. -/
def isDiacritic (c : Char) : Bool := c == '^' || c == '\x60' || diacriticRanges.contains c

end ShaderInterface.Text
