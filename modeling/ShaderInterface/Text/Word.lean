import ShaderInterface.Text.Letter
import ShaderInterface.Text.Mark
import ShaderInterface.Text.Digit

/-!
# Word characters

A word character is alphabetic, a mark, a decimal digit, a connector or a joiner. Where a name
must stand alone, no word character may touch it. Words are made of the characters of edition 16 of
the standard; letters, marks and digits of the two editions after it are not among them
(`recentRanges`).
-/

namespace ShaderInterface.Text

/-- Circled and squared letters: alphabetic, but of no letter category. -/
def circledLetterRanges : Ranges where
  list := [(0x24B6, 0x24E9), (0x1F130, 0x1F149), (0x1F150, 0x1F169), (0x1F170, 0x1F189)]

/-- Letters, marks and digits of editions 17 and 18, which edition 16 did not have. -/
def recentRanges : Ranges where
  list :=
    [(0x558, 0x558), (0x58B, 0x58C), (0x5C8, 0x5C9), (0x88F, 0x88F), (0xB53, 0xB54), (0xC5C, 0xC5C),
     (0xCDC, 0xCDC), (0x1ACF, 0x1AEB), (0x208F, 0x208F), (0x209D, 0x209F), (0xA7CE, 0xA7CF),
     (0xA7D2, 0xA7D2), (0xA7D4, 0xA7D4), (0xA7DD, 0xA7DD), (0xA7E2, 0xA7E2), (0xA7F1, 0xA7F1),
     (0xAB6C, 0xAB6D), (0x107BB, 0x107BF), (0x10940, 0x10959), (0x10EC5, 0x10EC7),
     (0x10ECB, 0x10ECF), (0x10ED9, 0x10EEE), (0x10EF0, 0x10EFB), (0x11B0A, 0x11B0A),
     (0x11B60, 0x11B67), (0x11DB0, 0x11DDB), (0x11DE0, 0x11DE9), (0x11DF0, 0x11DF1),
     (0x1246F, 0x1246F), (0x12550, 0x12686), (0x16D80, 0x16D9D), (0x16DA0, 0x16DA9),
     (0x16EA0, 0x16EB8), (0x16EBB, 0x16ED3), (0x16FF2, 0x16FF6), (0x187F8, 0x187FF),
     (0x18CD6, 0x18CDA), (0x18D09, 0x18D20), (0x18D80, 0x18DF2), (0x18E00, 0x19191),
     (0x191A0, 0x191D2), (0x1B123, 0x1B128), (0x1D127, 0x1D128), (0x1D250, 0x1D252),
     (0x1D6A6, 0x1D6A6), (0x1DF1F, 0x1DF24), (0x1DF2B, 0x1DF81), (0x1DF90, 0x1DF96),
     (0x1DFCD, 0x1DFFF), (0x1E6C0, 0x1E6DE), (0x1E6E0, 0x1E6F5), (0x1E6FE, 0x1E6FF),
     (0x2B73A, 0x2B73F), (0x2B81E, 0x2B81E), (0x2CEA2, 0x2CEAD), (0x323B0, 0x33479),
     (0x3D000, 0x3FC3F)]

/-- A character that can be part of a word. -/
def isWordChar (c : Char) : Bool :=
  c.isAlphanum || isConnector c || isJoiner c || circledLetterRanges.contains c ||
    ((isLetter c || isDecimalDigit c || isMark c) && !recentRanges.contains c)

/-- `c` is no word character; where a text ends, `c` is `none`. -/
def isBoundary (c : Option Char) : Bool := !c.any isWordChar

@[simp] theorem isBoundary_none : isBoundary none = true := rfl

@[simp] theorem isBoundary_some (c : Char) : isBoundary (some c) = !isWordChar c := rfl

theorem isWordChar_of_isAlphanum {c : Char} (h : c.isAlphanum = true) : isWordChar c = true := by
  simp [isWordChar, h]

end ShaderInterface.Text
