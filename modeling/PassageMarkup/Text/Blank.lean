/-
Module: PassageMarkup.Text.Blank
Layer: Text
Purpose: White space. A blank is a character with the property White_Space: the ASCII layout
  characters, the next-line control, and the spaces and separators of the other blocks. Tokens are
  told apart by blanks, and the text of a passage is trimmed of them at both ends.
Imports: Text.Ranges
Main exports: isBlank, trim, trimChars, allBlank, squeeze
-/
import PassageMarkup.Text.Ranges

namespace PassageMarkup.Text

/-- The code points with the property White_Space. -/
def blankRanges : List CodePointRange :=
  [(0x9, 0xD), (0x20, 0x20), (0x85, 0x85), (0xA0, 0xA0), (0x1680, 0x1680), (0x2000, 0x200A),
   (0x2028, 0x2029), (0x202F, 0x202F), (0x205F, 0x205F), (0x3000, 0x3000)]

/-- Whether a character is white space. -/
def isBlank (c : Char) : Bool :=
  inRanges blankRanges c.toNat

/-- Whether a character is a space or a tab, the blanks within a line. -/
def isSpace (c : Char) : Bool :=
  c == ' ' || c == '\t'

/-- Drop the spaces and tabs in front. -/
def skipSpace (cs : List Char) : List Char :=
  cs.dropWhile isSpace

/-- Drop the blanks in front. -/
def trimLeft (cs : List Char) : List Char :=
  cs.dropWhile isBlank

/-- Drop the blanks at the end. -/
def trimRight (cs : List Char) : List Char :=
  (cs.reverse.dropWhile isBlank).reverse

/-- Drop the blanks at both ends of a character list. -/
def trimChars (cs : List Char) : List Char :=
  trimRight (trimLeft cs)

/-- Drop the blanks at both ends of a text. -/
def trim (text : String) : String :=
  String.ofList (trimChars text.toList)

/-- Whether a text has no character other than blanks. -/
def allBlank (text : String) : Bool :=
  text.toList.all isBlank

/-- The words of a character list: the maximal runs without a blank, where `word` holds, latest first,
the characters of the word being read. -/
def wordsFrom (word : List Char) : List Char → List (List Char)
  | [] => if word.isEmpty then [] else [word.reverse]
  | c :: cs =>
      if isBlank c then
        if word.isEmpty then wordsFrom [] cs else word.reverse :: wordsFrom [] cs
      else wordsFrom (c :: word) cs

/-- The words of a text, joined by single spaces. -/
def squeeze (text : String) : String :=
  " ".intercalate ((wordsFrom [] text.toList).map String.ofList)

end PassageMarkup.Text
