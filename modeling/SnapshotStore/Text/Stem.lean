/-! Beginnings of texts. A stem is an arbitrary text; `Text.startsWith` says
that a text begins with it, and `Text.withoutStem` is what follows it there. -/
namespace SnapshotStore.Text

/-- The text begins with the stem, character by character. -/
def startsWith (text stem : String) : Bool :=
  stem.toList.isPrefixOf text.toList

/-- What follows a stem of that length. -/
def withoutStem (text stem : String) : String :=
  String.ofList (text.toList.drop stem.toList.length)

theorem startsWith_iff {text stem : String} :
    startsWith text stem = true ↔ ∃ rest, text = stem ++ rest := by
  rw [startsWith, List.isPrefixOf_iff_prefix]
  constructor
  · rintro ⟨rest, h⟩
    refine ⟨String.ofList rest, ?_⟩
    rw [← String.toList_inj, String.toList_append, String.toList_ofList, h]
  · rintro ⟨rest, rfl⟩
    exact ⟨rest.toList, (String.toList_append).symm⟩

end SnapshotStore.Text
