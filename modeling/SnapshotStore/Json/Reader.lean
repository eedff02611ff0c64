import SnapshotStore.Json.Quoted
import SnapshotStore.Json.Numeral

/-! Reading JSON texts. A reader of lists or records is given the reader of
one item, so the same rules of punctuation serve the general tree and a record
whose members are of one special kind. Lists and records nest to a fixed
depth only. -/
namespace SnapshotStore.Json

variable {α : Type}

/-- The rest of a list, after an item. -/
def readMoreItems (item : Reader α) (input : List Char) : Except Fault (Step (List α) input) :=
  match h : skip input with
  | [] => .error .endInList
  | c :: rest =>
    if c = ']' then .ok ⟨[], rest, length_lt_of_skip h⟩
    else if c = ',' then
      match skip rest with
      | [] => .error .endInValue
      | ']' :: _ => .error .trailingComma
      | _ =>
        match item rest with
        | .error fault => .error fault
        | .ok first =>
          match readMoreItems item first.rest with
          | .error fault => .error fault
          | .ok others =>
            .ok ((others.map (first.value :: ·)).widen (by
              have := first.shorter
              have := length_lt_of_skip h
              omega))
    else .error .noListSeparator
termination_by input.length
decreasing_by
  have := first.shorter
  have := length_lt_of_skip h
  omega

/-- A list, after its opening bracket. -/
def readItems (item : Reader α) : Reader (List α) := fun input =>
  match h : skip input with
  | [] => .error .endInList
  | ']' :: rest => .ok ⟨[], rest, length_lt_of_skip h⟩
  | _ =>
    match item input with
    | .error fault => .error fault
    | .ok first =>
      match readMoreItems item first.rest with
      | .error fault => .error fault
      | .ok others => .ok ((others.map (first.value :: ·)).widen (Nat.le_of_lt first.shorter))

/-- The colon between the name and the value of a member. -/
def readColon : Reader Unit := fun input =>
  match h : skip input with
  | [] => .error .endInRecord
  | ':' :: rest => .ok ⟨(), rest, length_lt_of_skip h⟩
  | _ => .error .noColon

/-- A member, after the opening quote of its name. -/
def readMember (item : Reader α) : Reader (String × α) := fun input =>
  match readText input with
  | .error fault => .error fault
  | .ok name =>
    match readColon name.rest with
    | .error fault => .error fault
    | .ok colon =>
      match item colon.rest with
      | .error fault => .error fault
      | .ok value =>
        .ok ((value.map (name.value, ·)).widen (by
          have := name.shorter
          have := colon.shorter
          omega))

/-- The rest of a record, after a member. -/
def readMoreMembers (item : Reader α) (input : List Char) :
    Except Fault (Step (List (String × α)) input) :=
  match h : skip input with
  | [] => .error .endInRecord
  | c :: rest =>
    if c = '\x7d' then .ok ⟨[], rest, length_lt_of_skip h⟩
    else if c = ',' then
      match next : skip rest with
      | [] => .error .endInValue
      | d :: inside =>
        if d = '\x7d' then .error .trailingComma
        else if d = '"' then
          match readMember item inside with
          | .error fault => .error fault
          | .ok first =>
            match readMoreMembers item first.rest with
            | .error fault => .error fault
            | .ok others =>
              .ok ((others.map (first.value :: ·)).widen (by
                have := first.shorter
                have := length_lt_of_skip h
                have := length_lt_of_skip next
                omega))
        else .error .nameNotText
    else .error .noRecordSeparator
termination_by input.length
decreasing_by
  have := first.shorter
  have := length_lt_of_skip h
  have := length_lt_of_skip next
  omega

/-- A record, after its opening brace: the members in the order of the text. -/
def readMembers (item : Reader α) : Reader (List (String × α)) := fun input =>
  match h : skip input with
  | [] => .error .endInRecord
  | c :: rest =>
    if c = '\x7d' then .ok ⟨[], rest, length_lt_of_skip h⟩
    else if c = '"' then
      match readMember item rest with
      | .error fault => .error fault
      | .ok first =>
        match readMoreMembers item first.rest with
        | .error fault => .error fault
        | .ok others =>
          .ok ((others.map (first.value :: ·)).widen (by
            have := first.shorter
            have := length_lt_of_skip h
            omega))
    else .error .nameNotText

/-- The remaining letters of a word. -/
def readLetters (value : Json) : (letters : List Char) → (input : List Char) →
    Except Fault (Json × { rest : List Char // rest.length ≤ input.length })
  | [], input => .ok (value, ⟨input, Nat.le_refl _⟩)
  | _ :: _, [] => .error .endInValue
  | letter :: letters, c :: input =>
    if letter = c then
      (readLetters value letters input).map fun (value, rest) =>
        (value, ⟨rest.1, Nat.le_succ_of_le rest.2⟩)
    else .error .misspeltWord

/-- A word, after its first letter. -/
def readWord (value : Json) (letters : List Char) {input rest : List Char}
    (h : rest.length < input.length) : Except Fault (Step Json input) :=
  (readLetters value letters rest).map fun (value, rest) =>
    ⟨value, rest.1, Nat.lt_of_le_of_lt rest.2 h⟩

/-- How many lists and records may be open at once. -/
def maxDepth : Nat :=
  127

/-- A value in which at most `room` lists and records are open at once. -/
def readValue (room : Nat) : Reader Json := fun input =>
  match h : skip input with
  | [] => .error .endInValue
  | c :: rest =>
    if c = 'n' then readWord .null ['u', 'l', 'l'] (length_lt_of_skip h)
    else if c = 't' then readWord (.bool true) ['r', 'u', 'e'] (length_lt_of_skip h)
    else if c = 'f' then readWord (.bool false) ['a', 'l', 's', 'e'] (length_lt_of_skip h)
    else if c = '-' || c.isDigit then
      match readNumber (c :: rest) with
      | .error fault => .error fault
      | .ok step => .ok ((step.map Json.number).widen (length_le_of_skip h))
    else if c = '"' then
      match readText rest with
      | .error fault => .error fault
      | .ok step => .ok ((step.map Json.text).widen (Nat.le_of_lt (length_lt_of_skip h)))
    else if c = '[' then
      match room with
      | 0 => .error .tooDeep
      | room + 1 =>
        match readItems (readValue room) rest with
        | .error fault => .error fault
        | .ok step => .ok ((step.map Json.list).widen (Nat.le_of_lt (length_lt_of_skip h)))
    else if c = '\x7b' then
      match room with
      | 0 => .error .tooDeep
      | room + 1 =>
        match readMembers (readValue room) rest with
        | .error fault => .error fault
        | .ok step => .ok ((step.map Json.record).widen (Nat.le_of_lt (length_lt_of_skip h)))
    else .error .noValue

/-- Nothing but blanks may follow. -/
def finish {input : List Char} (step : Step α input) : Except Fault α :=
  match skip step.rest with
  | [] => .ok step.value
  | _ => .error .trailingText

/-- A whole text as one value. -/
def ofText (text : String) : Except Fault Json :=
  match readValue maxDepth text.toList with
  | .error fault => .error fault
  | .ok step => finish step

end SnapshotStore.Json
