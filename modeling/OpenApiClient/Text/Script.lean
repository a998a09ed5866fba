/-!
# East Asian script

Tags written in Han, Kana or Hangul characters keep their own spelling in file names, so those
characters have to be recognised.
-/

namespace OpenApiClient.Text

/-- Whether a character is Han, Kana or Hangul: the blocks Hiragana and Katakana, CJK Extension A,
CJK Unified Ideographs and Hangul Syllables. -/
def isEastAsian (c : Char) : Bool :=
  let n := c.toNat
  (0x3040 ≤ n && n ≤ 0x30FF) || (0x3400 ≤ n && n ≤ 0x4DBF) || (0x4E00 ≤ n && n ≤ 0x9FFF) ||
    (0xAC00 ≤ n && n ≤ 0xD7AF)

/-- Whether a text has at least one Han, Kana or Hangul character. -/
def hasEastAsian (s : String) : Bool :=
  s.toList.any isEastAsian

end OpenApiClient.Text
