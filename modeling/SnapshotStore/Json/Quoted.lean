import SnapshotStore.Json.Step

/-! Texts between quotes. Writing escapes the quote, the backslash and the
control characters, and leaves everything else as it is. Reading admits every
escape of JSON; a character beyond the first 65536 may be written as two
escapes, which then must be a surrogate pair. -/
namespace SnapshotStore.Json

/-- The digit of a number below sixteen, in small letters. -/
def hexDigit (n : Nat) : Char :=
  Nat.digitChar n

/-- How one character is written between quotes. -/
def escapeChar (c : Char) : List Char :=
  if c = '"' then ['\\', '"']
  else if c = '\\' then ['\\', '\\']
  else if c = '\x08' then ['\\', 'b']
  else if c = '\t' then ['\\', 't']
  else if c = '\n' then ['\\', 'n']
  else if c = '\x0c' then ['\\', 'f']
  else if c = '\r' then ['\\', 'r']
  else if c.toNat < 0x20 then
    ['\\', 'u', '0', '0', hexDigit (c.toNat / 16), hexDigit (c.toNat % 16)]
  else [c]

/-- A text with its quotes. -/
def quote (text : String) : List Char :=
  '"' :: text.toList.flatMap escapeChar ++ ['"']

/-- The value of a hexadecimal digit, in either case. -/
def hexValue? (c : Char) : Option Nat :=
  if c.isDigit then some (c.toNat - '0'.toNat)
  else if 'a' ≤ c ∧ c ≤ 'f' then some (c.toNat - 'a'.toNat + 10)
  else if 'A' ≤ c ∧ c ≤ 'F' then some (c.toNat - 'A'.toNat + 10)
  else none

/-- The number written by four hexadecimal digits. -/
def hexValue4? (a b c d : Char) : Option Nat :=
  match hexValue? a, hexValue? b, hexValue? c, hexValue? d with
  | some a, some b, some c, some d => some (((a * 16 + b) * 16 + c) * 16 + d)
  | _, _, _, _ => none

/-- Four hexadecimal digits. With fewer than four bytes left the text is at
its end; four bytes that are not all digits are a bad escape. -/
def readHex : Reader Nat
  | a :: b :: c :: d :: rest =>
    match hexValue4? a b c d with
    | some n => .ok ⟨n, rest, by simp only [List.length_cons]; omega⟩
    | none => .error .badEscape
  | short =>
    if 4 ≤ (String.ofList short).utf8ByteSize then .error .badEscape else .error .endInText

/-- The code units that open a surrogate pair. -/
def isHighSurrogate (n : Nat) : Bool :=
  0xD800 ≤ n && n ≤ 0xDBFF

/-- The code units that close a surrogate pair. -/
def isLowSurrogate (n : Nat) : Bool :=
  0xDC00 ≤ n && n ≤ 0xDFFF

/-- The character of a surrogate pair. -/
def ofSurrogates (high low : Nat) : Char :=
  Char.ofNat ((high - 0xD800) * 0x400 + (low - 0xDC00) + 0x10000)

/-- The second half of a surrogate pair, with its escape. -/
def readLowSurrogate (high : Nat) : Reader Char
  | [] => .error .endInText
  | ['\\'] => .error .endInText
  | '\\' :: 'u' :: rest =>
    match readHex rest with
    | .error fault => .error fault
    | .ok step =>
      if isLowSurrogate step.value then
        .ok ((step.map (ofSurrogates high)).widen (by simp only [List.length_cons]; omega))
      else .error .loneSurrogate
  | _ => .error .missingSurrogate

/-- The character of a numbered escape, after its letter. -/
def readNumbered : Reader Char := fun input =>
  match readHex input with
  | .error fault => .error fault
  | .ok step =>
    if isLowSurrogate step.value then .error .loneSurrogate
    else if isHighSurrogate step.value then
      match readLowSurrogate step.value step.rest with
      | .error fault => .error fault
      | .ok low => .ok (low.widen (Nat.le_of_lt step.shorter))
    else .ok (step.map Char.ofNat)

/-- The character that a letter after a backslash stands for. -/
def escaped? (c : Char) : Option Char :=
  if c = '"' then some '"'
  else if c = '\\' then some '\\'
  else if c = '/' then some '/'
  else if c = 'b' then some '\x08'
  else if c = 'f' then some '\x0c'
  else if c = 'n' then some '\n'
  else if c = 'r' then some '\r'
  else if c = 't' then some '\t'
  else none

/-- The character of an escape, after its backslash. -/
def readEscape : Reader Char
  | [] => .error .endInText
  | c :: rest =>
    if c = 'u' then
      match readNumbered rest with
      | .error fault => .error fault
      | .ok step => .ok (step.widen (Nat.le_succ _))
    else
      match escaped? c with
      | some d => .ok ⟨d, rest, Nat.lt_succ_self _⟩
      | none => .error .badEscape

/-- The characters up to the closing quote, after the opening one. -/
def readQuoted (input : List Char) : Except Fault (Step (List Char) input) :=
  match input with
  | [] => .error .endInText
  | c :: rest =>
    if c = '"' then .ok ⟨[], rest, Nat.lt_succ_self _⟩
    else if c = '\\' then
      match readEscape rest with
      | .error fault => .error fault
      | .ok first =>
        match readQuoted first.rest with
        | .error fault => .error fault
        | .ok tail =>
          .ok ((tail.map (first.value :: ·)).widen
            (Nat.le_of_lt (Nat.lt_succ_of_lt first.shorter)))
    else if c.toNat < 0x20 then .error .controlCharacter
    else
      match readQuoted rest with
      | .error fault => .error fault
      | .ok tail => .ok ((tail.map (c :: ·)).widen (Nat.le_succ _))
termination_by input.length
decreasing_by
  · exact Nat.lt_succ_of_lt first.shorter
  · exact Nat.lt_succ_self _

/-- A text, after its opening quote. -/
def readText : Reader String := fun input =>
  match readQuoted input with
  | .error fault => .error fault
  | .ok step => .ok (step.map String.ofList)

end SnapshotStore.Json
