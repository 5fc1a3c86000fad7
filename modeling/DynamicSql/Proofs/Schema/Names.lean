import DynamicSql.Schema.Basic
import Mathlib.Data.List.Basic

/-!
# Fields and columns of a table

The last pair with a field gives its column, and the last pair with a column gives its field
(`columnOf?_eq_some`, `fieldOf?_eq_some`). The way from a field to its column and back can therefore
lead to another field. It leads back from all pairs of a table, both ways, exactly where fields and
columns come in pairs (`paired_iff`).
-/

namespace DynamicSql

/-- The last member with a property has no other one behind it. -/
theorem find?_reverse_eq_some {α : Type} {p : α → Bool} {a : α} {xs : List α} :
    xs.reverse.find? p = some a ↔
      p a ∧ ∃ front back, xs = front ++ a :: back ∧ ∀ b ∈ back, p b = false := by
  rw [List.find?_eq_some_iff_append]
  refine and_congr_right fun _ => ⟨?_, ?_⟩
  · rintro ⟨back, front, hreverse, hback⟩
    refine ⟨front.reverse, back.reverse, ?_, fun b hb => ?_⟩
    · rw [← List.reverse_reverse xs, hreverse]
      simp only [List.reverse_append, List.reverse_cons, List.append_assoc, List.singleton_append]
    · exact Bool.not_eq_true' (p b) ▸ hback b (List.mem_reverse.mp hb)
  · rintro ⟨front, back, rfl, hback⟩
    refine ⟨back.reverse, front.reverse, ?_, fun b hb => ?_⟩
    · simp only [List.reverse_append, List.reverse_cons, List.append_assoc, List.singleton_append]
    · rw [hback b (List.mem_reverse.mp hb), Bool.not_false]

namespace Table

variable {t : Table} {field column name : String}

/-- The last pair with a field gives its column. -/
theorem columnOf?_eq_some : t.columnOf? field = some column ↔
    ∃ front back, t.columns = front ++ ⟨field, column⟩ :: back ∧ ∀ p ∈ back, p.field ≠ field := by
  unfold columnOf?
  simp only [Option.map_eq_some_iff, find?_reverse_eq_some, beq_iff_eq, beq_eq_false_iff_ne]
  constructor
  · rintro ⟨p, ⟨rfl, front, back, hcolumns, hback⟩, rfl⟩
    exact ⟨front, back, hcolumns, hback⟩
  · rintro ⟨front, back, hcolumns, hback⟩
    exact ⟨_, ⟨rfl, front, back, hcolumns, hback⟩, rfl⟩

/-- The last pair with a column gives its field. -/
theorem fieldOf?_eq_some : t.fieldOf? column = some field ↔
    ∃ front back, t.columns = front ++ ⟨field, column⟩ :: back ∧
      ∀ p ∈ back, p.column ≠ column := by
  unfold fieldOf?
  simp only [Option.map_eq_some_iff, find?_reverse_eq_some, beq_iff_eq, beq_eq_false_iff_ne]
  constructor
  · rintro ⟨p, ⟨rfl, front, back, hcolumns, hback⟩, rfl⟩
    exact ⟨front, back, hcolumns, hback⟩
  · rintro ⟨front, back, hcolumns, hback⟩
    exact ⟨_, ⟨rfl, front, back, hcolumns, hback⟩, rfl⟩

/-- The column of a field stands beside it in the table. -/
theorem mem_of_columnOf? (h : t.columnOf? field = some column) : ⟨field, column⟩ ∈ t.columns := by
  obtain ⟨front, back, hcolumns, -⟩ := columnOf?_eq_some.mp h
  rw [hcolumns]
  exact List.mem_append_right front List.mem_cons_self

/-- The field of a column stands beside it in the table. -/
theorem mem_of_fieldOf? (h : t.fieldOf? column = some field) : ⟨field, column⟩ ∈ t.columns := by
  obtain ⟨front, back, hcolumns, -⟩ := fieldOf?_eq_some.mp h
  rw [hcolumns]
  exact List.mem_append_right front List.mem_cons_self

/-- The field of a pair has a column. -/
theorem exists_columnOf? (h : ⟨field, column⟩ ∈ t.columns) :
    ∃ other, t.columnOf? field = some other := by
  have hfound : (t.columns.reverse.find? (·.field == field)).isSome := by
    rw [List.find?_isSome]
    exact ⟨_, List.mem_reverse.mpr h, beq_self_eq_true field⟩
  obtain ⟨p, hp⟩ := Option.isSome_iff_exists.mp hfound
  exact ⟨p.column, Option.map_eq_some_iff.mpr ⟨p, hp, rfl⟩⟩

/-- The column of a pair has a field. -/
theorem exists_fieldOf? (h : ⟨field, column⟩ ∈ t.columns) :
    ∃ other, t.fieldOf? column = some other := by
  have hfound : (t.columns.reverse.find? (·.column == column)).isSome := by
    rw [List.find?_isSome]
    exact ⟨_, List.mem_reverse.mpr h, beq_self_eq_true column⟩
  obtain ⟨p, hp⟩ := Option.isSome_iff_exists.mp hfound
  exact ⟨p.field, Option.map_eq_some_iff.mpr ⟨p, hp, rfl⟩⟩

/-- A field stands for its column. -/
theorem resolve?_of_columnOf? (h : t.columnOf? field = some column) :
    t.resolve? field = some column := by
  unfold resolve?
  rw [h]

/-- A column is shown under its field, however it was asked for. -/
theorem fieldFor_of_fieldOf? (h : t.fieldOf? column = some field) :
    t.fieldFor column name = field := by
  unfold fieldFor
  rw [h]
  rfl

/-- No field has two columns and no column has two fields. -/
def Paired (t : Table) : Prop :=
  ∀ p ∈ t.columns, ∀ p' ∈ t.columns, p.field = p'.field ↔ p.column = p'.column

/-- Where fields and columns come in pairs, each pair is found from either side, and only there. -/
theorem paired_iff : t.Paired ↔ ∀ p ∈ t.columns,
    t.columnOf? p.field = some p.column ∧ t.fieldOf? p.column = some p.field := by
  constructor
  · intro hpaired p hp
    obtain ⟨column, hcolumn⟩ := exists_columnOf? hp
    obtain ⟨field, hfield⟩ := exists_fieldOf? hp
    have hsameColumn := (hpaired p hp _ (mem_of_columnOf? hcolumn)).mp rfl
    have hsameField := (hpaired p hp _ (mem_of_fieldOf? hfield)).mpr rfl
    exact ⟨hsameColumn ▸ hcolumn, hsameField ▸ hfield⟩
  · intro h p hp p' hp'
    obtain ⟨hcolumn, hfield⟩ := h p hp
    obtain ⟨hcolumn', hfield'⟩ := h p' hp'
    constructor
    · intro heq
      rw [heq] at hcolumn
      exact Option.some.inj (hcolumn.symm.trans hcolumn')
    · intro heq
      rw [heq] at hfield
      exact Option.some.inj (hfield.symm.trans hfield')

end Table

end DynamicSql
