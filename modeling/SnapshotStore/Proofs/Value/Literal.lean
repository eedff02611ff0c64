import SnapshotStore.Proofs.Decimal.Plain
import SnapshotStore.Proofs.Number.Zero
import SnapshotStore.Proofs.Snapshot.RoundTrip
import SnapshotStore.Value.Literal

/-! Literals and the texts of values. The readings of a literal are tried one after the
other, and none of them takes a text that was printed for a value of another kind. Only
a floating number that was printed without a point comes back as a whole one. -/
namespace SnapshotStore.Value

open Decimal

variable {text t : String} {items : List String} {i : Int64} {f : Binary64}

/-! ### What a literal is -/

/-- Whatever a literal is, it may be stored. -/
theorem isStorable_ofLiteral (text : String) : (ofLiteral text).isStorable = true := by
  unfold ofLiteral
  split_ifs
  · rfl
  · rfl
  cases readInt64? text.toList with
  | some i => rfl
  | none =>
      cases hFloat : readFinite? text.toList with
      | some f => exact (Option.filter_eq_some_iff.mp hFloat).2
      | none => cases readList? text <;> rfl

/-- No finite number is meant by this numeral, so it stays a text. -/
theorem ofLiteral_huge : ofLiteral "1e999" = .text "1e999" := by
  decide +kernel

theorem isFinite_of_number? {value : Value} {n : Number} (hStorable : value.isStorable = true)
    (h : value.number? = some n) : n.isFinite = true := by
  cases value with
  | number m => rwa [← Option.some.inj h]
  | _ => cases h

/-- A literal that is a text is this text. -/
theorem eq_of_ofLiteral_eq_text (h : ofLiteral text = .text t) : t = text := by
  unfold ofLiteral at h
  split_ifs at h
  cases hInt : readInt64? text.toList with
  | some i => simp [hInt] at h
  | none =>
      cases hFloat : readFinite? text.toList with
      | some f => simp [hInt, hFloat] at h
      | none =>
          cases hList : readList? text with
          | some items => simp [hInt, hFloat, hList] at h
          | none =>
              simp only [hInt, hFloat, hList] at h
              exact (Value.text.inj h).symm

/-! ### Printed texts -/

theorem ofLiteral_bool (b : Bool) : ofLiteral (Value.bool b).display = .bool b := by
  cases b <;> decide

theorem ofLiteral_of_readInt64? (h : readInt64? text.toList = some i) :
    ofLiteral text = .number (.int i) := by
  have hWord : ∀ word : String, readInt64? word.toList = none → text ≠ word := by
    rintro word hNone rfl
    rw [hNone] at h
    cases h
  unfold ofLiteral
  rw [if_neg (hWord "true" (by decide)), if_neg (hWord "false" (by decide)), h]

/-- Where a finite number is read, it is the one that is meant, unless it is a whole
number of 64 bits. -/
theorem ofLiteral_of_readFloat? (h : readFloat? text.toList = some f) (hFinite : f.isFinite = true)
    (hInt : readInt64? text.toList = none) : ofLiteral text = .number (.float f) := by
  have hWord : ∀ word : String, readFloat? word.toList = none → text ≠ word := by
    rintro word hNone rfl
    rw [hNone] at h
    cases h
  have hRead : readFinite? text.toList = some f := by
    rw [readFinite?, h, Option.filter_some, if_pos hFinite]
  unfold ofLiteral
  rw [if_neg (hWord "true" (by decide)), if_neg (hWord "false" (by decide)), hInt, hRead]

theorem ofLiteral_int (i : Int64) :
    ofLiteral (Value.number (.int i)).display = .number (.int i) := by
  apply ofLiteral_of_readInt64?
  rw [display, String.toList_ofList]
  exact readInt64?_ofInt i

/-- A finite number comes back as itself, or as a whole number that is the same one as a
floating number, apart from the sign of zero. -/
theorem ofLiteral_float (hFinite : f.isFinite = true) :
    ofLiteral (Value.number (.float f)).display = .number (.float f) ∨
    ∃ i, ofLiteral (Value.number (.float f)).display = .number (.int i) ∧
      (Binary64.ofInt i.toInt = f ∨ f = .finite true .zero ∧ i = 0) := by
  cases f with
  | nan => cases hFinite
  | infinite negative => cases hFinite
  | finite negative m =>
      have hText : (Value.number (.float (.finite negative m))).display.toList =
          plain (.finite negative m) := String.toList_ofList
      cases hInt : readInt64? (plain (.finite negative m)) with
      | none =>
          left
          apply ofLiteral_of_readFloat? _ hFinite
          · rw [hText, hInt]
          · rw [hText, readFloat?_plain]
      | some i =>
          right
          refine ⟨i, ofLiteral_of_readInt64? (by rw [hText, hInt]), ?_⟩
          rcases ofInt_of_readInt?_plain (readInt?_of_readInt64? hInt) with
            hSame | ⟨rfl, rfl, hZero⟩
          · exact Or.inl hSame
          · exact Or.inr ⟨rfl, Int64.toInt_inj.mp hZero⟩

theorem splitSign_bracket (rest : List Char) : splitSign ('[' :: rest) = (false, '[' :: rest) :=
  splitSign_of_head? fun c hc => Option.some.inj hc ▸ by decide

theorem readFloat?_bracket (rest : List Char) : readFloat? ('[' :: rest) = none := by
  have hScaled : readScaled? ('[' :: rest) = none := by
    simp [readScaled?, splitDigits]
  simp [readFloat?, splitSign_bracket, hScaled, wordValue?]

theorem readList?_display (items : List String) :
    readList? (Value.list items).display = some items := by
  have hParts := Snapshot.parts_quote Json.blanks_nil Json.blanks_nil items
  rw [Snapshot.inside_compact] at hParts
  have hAccepts : Json.Accepts (Json.readValue Json.maxDepth) (listJson items)
      (.list (items.map .text)) := Json.accepts_list hParts
  have hText : (Value.list items).display.toList = listJson items := String.toList_ofList
  obtain ⟨shorter, hRead⟩ := hAccepts.reads (Value.list items).display.toList [] nofun (by
    rw [List.append_nil, hText]
    exact Json.skip_cons (by decide) _)
  have hJson : Json.ofText (Value.list items).display = .ok (.list (items.map .text)) := by
    rw [Json.ofText, hRead]
    rfl
  rw [readList?, hJson]
  exact Snapshot.mapM_text? items

theorem ofLiteral_list (items : List String) :
    ofLiteral (Value.list items).display = .list items := by
  have hList := readList?_display items
  have hText : (Value.list items).display.toList = '[' :: ([','].intercalate (items.map Json.quote)
      ++ [']']) := String.toList_ofList
  generalize (Value.list items).display = text at hList hText ⊢
  have hWord : ∀ word : String, word.toList.head? ≠ some '[' → text ≠ word := by
    rintro word hHead rfl
    rw [hText] at hHead
    exact hHead rfl
  have hInt : readInt64? text.toList = none := by
    rw [hText]
    exact readInt64?_eq_none (readInt?_eq_none (splitSign_bracket _) List.mem_cons_self (by decide))
  have hFloat : readFinite? text.toList = none := by
    rw [hText, readFinite?, readFloat?_bracket]
    rfl
  unfold ofLiteral
  rw [if_neg (hWord "true" (by decide)), if_neg (hWord "false" (by decide)), hInt, hFloat, hList]

/-- A text that is read as a text is read as this text again. -/
theorem ofLiteral_text (h : ofLiteral text = .text t) :
    ofLiteral (Value.text t).display = .text t := by
  rwa [← eq_of_ofLiteral_eq_text h] at h

/-! ### Reading what was printed -/

/-- What a finite floating number comes back as. -/
theorem exists_ofLiteral_float (hFinite : f.isFinite = true) : ∃ n : Number,
    ofLiteral (Value.number (.float f)).display = .number n ∧ n.toFloat.sameValue f = true ∧
      (n.isInteger = false → n = .float f) ∧ (f ≠ .finite true .zero → n.toFloat = f) := by
  have hSelf : f.sameValue f = true := Binary64.sameValue_of_exactUnits hFinite hFinite rfl
  rcases ofLiteral_float hFinite with hSame | ⟨i, hWhole, hFloat | ⟨rfl, rfl⟩⟩
  · exact ⟨.float f, hSame, hSelf, fun _ => rfl, fun _ => rfl⟩
  · have hToFloat : (Number.int i).toFloat = f := hFloat
    exact ⟨.int i, hWhole, hToFloat ▸ hSelf, nofun, fun _ => hToFloat⟩
  · exact ⟨.int 0, hWhole, by decide +kernel, nofun, fun hOther => absurd rfl hOther⟩

/-- Printed values are read back as literals. A truth value, a whole number and a list of
any texts come back as they were. A finite floating number comes back as a number of the
same value: as itself, or as a whole number which is itself once it is floating again,
except that the negative zero comes back as zero. A literal that is read as a text is this
text, and is read as it again. So for any text, printing what it means and reading that
gives the same once more, apart from floating numbers that come back as whole ones. -/
theorem printed_reads_back :
    (∀ b, ofLiteral (Value.bool b).display = .bool b) ∧
    (∀ i, ofLiteral (Value.number (.int i)).display = .number (.int i)) ∧
    (∀ items, ofLiteral (Value.list items).display = .list items) ∧
    (∀ f : Binary64, f.isFinite = true → ∃ n : Number,
      ofLiteral (Value.number (.float f)).display = .number n ∧ n.toFloat.sameValue f = true ∧
      (n.isInteger = false → n = .float f) ∧ (f ≠ .finite true .zero → n.toFloat = f)) ∧
    (∀ text t, ofLiteral text = .text t →
      t = text ∧ ofLiteral (Value.text t).display = .text t) ∧
    (∀ text, ofLiteral (ofLiteral text).display = ofLiteral text ∨ ∃ f i,
      ofLiteral text = .number (.float f) ∧
      ofLiteral (ofLiteral text).display = .number (.int i) ∧
      (Number.int i).toFloat.sameValue f = true) := by
  refine ⟨ofLiteral_bool, ofLiteral_int, ofLiteral_list, fun f => exists_ofLiteral_float,
    fun text t h => ⟨eq_of_ofLiteral_eq_text h, ofLiteral_text h⟩, fun text => ?_⟩
  have hStorable := isStorable_ofLiteral text
  cases hRead : ofLiteral text with
  | bool b => exact Or.inl (ofLiteral_bool b)
  | text t => exact Or.inl (ofLiteral_text hRead)
  | list items => exact Or.inl (ofLiteral_list items)
  | number n =>
      cases n with
      | int i => exact Or.inl (ofLiteral_int i)
      | float f =>
          rw [hRead] at hStorable
          obtain ⟨n, hAgain, hSame, hFloat, -⟩ := exists_ofLiteral_float hStorable
          cases n with
          | float g => exact Or.inl (hAgain.trans (congrArg Value.number (hFloat rfl)))
          | int i => exact Or.inr ⟨f, i, rfl, hAgain, hSame⟩

/-- The number 2^62 is printed with the digits that it needs and zeros, and comes back as
a whole number that is not 2^62, but the same one as a floating number. -/
theorem printed_reads_back_whole :
    (Value.number (.float (.ofInt (2 ^ 62)))).display = "4611686018427388000" ∧
    ofLiteral "4611686018427388000" = .number (.int 4611686018427388000) ∧
    (∃ n : Number, ofLiteral (Value.number (.float (.ofInt (2 ^ 62)))).display = .number n ∧
      n.toFloat = .ofInt (2 ^ 62)) ∧
    ofLiteral (Value.text " 1").display = .text " 1" := by
  obtain ⟨-, -, -, hFloat, hText, -⟩ := printed_reads_back
  obtain ⟨n, hRead, -, -, hSame⟩ := hFloat (.ofInt (2 ^ 62)) (by decide +kernel)
  exact ⟨by decide +kernel, by decide +kernel, ⟨n, hRead, hSame (by decide +kernel)⟩,
    (hText " 1" " 1" (by decide +kernel)).2⟩

end SnapshotStore.Value
