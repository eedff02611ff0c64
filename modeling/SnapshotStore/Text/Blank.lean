import SnapshotStore.Text.Ranges

/-! Blank characters and the cutting of blanks from text. The class is the
Unicode property White_Space: it holds the no-break and the ideographic space,
but neither the zero-width space nor the byte order mark. The ASCII blanks of
`Char.isWhitespace` are in it, and so are two more control characters. -/
namespace SnapshotStore.Text

/-- The code points with the property White_Space. -/
def blankRanges : Ranges :=
  [(0x09, 0x0D), (0x20, 0x20), (0x85, 0x85), (0xA0, 0xA0), (0x1680, 0x1680),
    (0x2000, 0x200A), (0x2028, 0x2029), (0x202F, 0x202F), (0x205F, 0x205F),
    (0x3000, 0x3000)]

/-- The character separates words. -/
def isBlank (c : Char) : Bool :=
  blankRanges.contain c

/-- A text without its leading blanks. -/
def trimStart (cs : List Char) : List Char :=
  cs.dropWhile isBlank

/-- A text without its trailing blanks. -/
def trimEnd (cs : List Char) : List Char :=
  (cs.reverse.dropWhile isBlank).reverse

/-- A text without the blanks at both ends; blanks inside it stay. -/
def trim (cs : List Char) : List Char :=
  trimEnd (trimStart cs)

/-- The longest beginning of a text without a blank, and what follows it. -/
def splitWord (cs : List Char) : List Char × List Char :=
  (cs.takeWhile (!isBlank ·), cs.dropWhile (!isBlank ·))

theorem splitWord_append (cs : List Char) : (splitWord cs).1 ++ (splitWord cs).2 = cs := by
  simp [splitWord, List.takeWhile_append_dropWhile]

/-- Nothing but blanks: the text is empty once trimmed. -/
def isBlankText (cs : List Char) : Bool :=
  cs.all isBlank

end SnapshotStore.Text
