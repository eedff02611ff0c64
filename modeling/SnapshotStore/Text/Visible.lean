import SnapshotStore.Text.Unprintable
import SnapshotStore.Text.Attaching

/-! Texts inside messages. Between quotes, a character that would not be seen
as itself is written by its number: one without a shape of its own, a mark
that attaches to the character before it, or a filler. -/
namespace SnapshotStore.Text

/-- Letters of the Hangul script that fill an empty place and show nothing. -/
def fillerRanges : Ranges :=
  [(0x115F, 0x1160), (0x3164, 0x3164), (0xFFA0, 0xFFA0)]

/-- The character is not seen as itself. -/
def isHidden (c : Char) : Bool :=
  unprintableRanges.contain c || attachingRanges.contain c || fillerRanges.contain c

/-- A character between quotes in a message. -/
def visible (c : Char) : List Char :=
  if c = '"' then ['\\', '"']
  else if c = '\\' then ['\\', '\\']
  else if c = '\n' then ['\\', 'n']
  else if c = '\r' then ['\\', 'r']
  else if c = '\t' then ['\\', 't']
  else if c = '\x00' then ['\\', '0']
  else if isHidden c then '\\' :: 'u' :: '\x7b' :: Nat.toDigits 16 c.toNat ++ ['\x7d']
  else [c]

/-- A text between quotes in a message. -/
def quoted (text : String) : String :=
  "\"" ++ String.ofList (text.toList.flatMap visible) ++ "\""

end SnapshotStore.Text
