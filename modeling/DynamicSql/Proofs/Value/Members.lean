import DynamicSql.KeyMap
import DynamicSql.Value.Members

/-!
# Spellings of a set of texts

The operand of a membership test may spell a set of texts as a list, as one text with commas
between the members, as a JSON array, or as a JSON object, whose keys say in which order the members
stand. All spellings of the same texts have the same members (`Value.Spells.members?_eq`), as long
as there is a text to spell and none holds a comma.
-/

namespace DynamicSql

namespace Text

/-- Cutting a list of characters is the cutting of lists. -/
theorem split_eq_splitOn (separator : Char) (cs : List Char) :
    split separator cs = cs.splitOn separator := by
  induction cs with
  | nil => rfl
  | cons c rest ih =>
    have hcons : (c :: rest).splitOn separator = if c == separator then [] :: rest.splitOn separator
        else (rest.splitOn separator).modifyHead (c :: ·) :=
      List.splitOnP_cons_eq_if_modifyHead c rest
    rw [split, ih, hcons]
    cases hrest : rest.splitOn separator with
    | nil => exact absurd hrest (List.splitOnP_ne_nil _ _)
    | cons piece pieces => simp

/-- Texts without a character are the pieces of the text that has this character between them. -/
theorem pieces_intercalate {separator : Char} {texts : List String} (hne : texts ≠ [])
    (hfree : ∀ s ∈ texts, separator ∉ s.toList) :
    pieces separator ((String.singleton separator).intercalate texts) = texts := by
  have hchars : ∀ cs ∈ texts.map String.toList, separator ∉ cs := List.forall_mem_map.mpr hfree
  rw [pieces, String.toList_intercalate, String.toList_singleton, split_eq_splitOn,
    List.splitOn_intercalate separator hchars (by simpa using hne), List.map_map]
  simp

end Text

namespace Value

/-- The ways to spell a set of texts as one value. -/
inductive Spells (texts : List String) : Value → Prop
  | list : Spells texts (.list (texts.map .string))
  | text : Spells texts (.string (",".intercalate texts))
  | array : Spells texts (.json (.array (texts.map .string)))
  /-- The members of the object may be given in any order. -/
  | object (entries : List (String × Json))
      (h : (KeyMap.ofList entries).map (·.2) = texts.map .string) :
      Spells texts (.json (.object (KeyMap.ofList entries)))

/-- A text with commas between several texts stands for these, and a text without commas for
itself. -/
theorem members?_intercalate {texts : List String} (hne : texts ≠ [])
    (hfree : ∀ s ∈ texts, ',' ∉ s.toList) :
    (Value.string (",".intercalate texts)).members? = some (texts.map .string) := by
  have hpieces : Text.pieces ',' (",".intercalate texts) = texts :=
    Text.pieces_intercalate hne hfree
  rw [members?]
  split
  case isTrue => rw [hpieces]
  case isFalse hcomma =>
    obtain ⟨s, rest, rfl⟩ := List.exists_cons_of_ne_nil hne
    cases rest with
    | nil => simp
    | cons s' rest =>
      refine absurd ?_ hcomma
      simp

/-- Every spelling has the texts for members. -/
theorem Spells.members?_eq {texts : List String} {v : Value} (h : v.Spells texts)
    (hne : texts ≠ []) (hfree : ∀ s ∈ texts, ',' ∉ s.toList) :
    v.members? = some (texts.map .string) := by
  cases h with
  | list => rfl
  | text => exact members?_intercalate hne hfree
  | array => simp [members?, ofJsonScalar]
  | object entries h =>
    have hvalues := congrArg (List.map ofJsonScalar) h
    rw [List.map_map, List.map_map] at hvalues
    exact congrArg some hvalues

/-- The operand of a membership test with its members in a list, if it has any. -/
def listed (v : Value) : Value :=
  match v.members? with
  | some members => .list members
  | none => .null

/-- A value has the same members when it is written as a list. -/
@[simp] theorem members?_listed (v : Value) : v.listed.members? = v.members? := by
  unfold listed
  cases v.members? with
  | none => rfl
  | some members => rfl

/-- Listed, all spellings of the same texts are one value. -/
theorem Spells.listed_eq {texts : List String} {v : Value} (h : v.Spells texts) (hne : texts ≠ [])
    (hfree : ∀ s ∈ texts, ',' ∉ s.toList) : v.listed = .list (texts.map .string) := by
  rw [listed, h.members?_eq hne hfree]

end Value

end DynamicSql
