import DynamicSql.Proofs.Sql.Clean

/-!
# Texts from outside

The texts that a schema and a description bring along: names of tables, fields and columns,
expressions, the names of shown columns, and the patterns of dates. Bound values are not among
them, and neither are tokens, which never reach the text of a statement.
-/

namespace DynamicSql

/-- The names of a table. -/
def Table.texts (t : Table) : List String := t.columns.flatMap fun c => [c.field, c.column]

/-- The names of a schema. -/
def Schema.texts (s : Schema) : List String :=
  s.tables.flatMap fun entry => entry.1 :: entry.2.texts

/-- The pattern of an aggregate. -/
def Aggregate.texts : Aggregate → List String
  | .dateFormat pattern => [pattern]
  | _ => []

/-- The texts of the clauses of a query. Names that are left out are only compared. -/
def Clauses.texts (clauses : Clauses) : List String :=
  (clauses.columns.flatMap fun item => item.field :: item.aggregate.texts ++ item.alias?.toList) ++
    (clauses.groups.flatMap fun item => item.field :: item.pattern?.toList) ++
    clauses.havings.map (·.field) ++ clauses.orders.map (·.field)

/-- The texts of the keys of a join. -/
def JoinKeys.texts : JoinKeys → List String
  | .single left right => [left, right]
  | .composite pairs => pairs.flatMap fun pair => [pair.1, pair.2]

mutual

/-- The texts of a query. -/
def Query.texts : Query → List String
  | ⟨own, _, clauses, conditions, joins, unions⟩ =>
    own.toList ++ clauses.texts ++ conditions.texts ++ joinTexts joins ++ branchTexts unions

/-- The texts of a group of conditions. -/
def ConditionGroup.texts : ConditionGroup → List String
  | ⟨conditions, groups⟩ => conditionTexts conditions ++ subgroupTexts groups

/-- The texts of conditions. -/
def conditionTexts : List Condition → List String
  | [] => []
  | ⟨_, field, filter⟩ :: rest => field :: filter.texts ++ conditionTexts rest

/-- The texts of what a condition says of its field. -/
def Filter.texts : Filter → List String
  | .compareField _ other => [other]
  | .compareDate _ pattern _ => [pattern]
  | .memberOf _ query => query.texts
  | _ => []

/-- The texts of groups. -/
def subgroupTexts : List Subgroup → List String
  | [] => []
  | ⟨_, group⟩ :: rest => group.texts ++ subgroupTexts rest

/-- The texts of joins. -/
def joinTexts : List Join → List String
  | [] => []
  | ⟨keys, query, on⟩ :: rest => keys.texts ++ query.texts ++ on.texts ++ joinTexts rest

/-- The texts of the branches of a union. -/
def branchTexts : List UnionBranch → List String
  | [] => []
  | ⟨_, query⟩ :: rest => query.texts ++ branchTexts rest

end

/-- None of several texts holds an opening brace. -/
def AllUnbraced (texts : List String) : Prop := ∀ s ∈ texts, Unbraced s

namespace AllUnbraced

variable {a b : List String}

/-- Lists of texts have no braces if their parts have none. -/
@[simp] theorem append : AllUnbraced (a ++ b) ↔ AllUnbraced a ∧ AllUnbraced b :=
  List.forall_mem_append

/-- A list has no braces if its first text and the others have none. -/
@[simp] theorem cons {s : String} : AllUnbraced (s :: a) ↔ Unbraced s ∧ AllUnbraced a :=
  List.forall_mem_cons

/-- No texts have no braces. -/
@[simp] theorem nil : AllUnbraced [] := List.forall_mem_nil _

/-- A text that may be missing has no braces if it has none where it is there. -/
@[simp] theorem toList {s? : Option String} : AllUnbraced s?.toList ↔ ∀ s ∈ s?, Unbraced s := by
  simp [AllUnbraced]

/-- Texts that come from a list have no braces if those of every member have none. -/
@[simp] theorem flatMap {α : Type} {xs : List α} {f : α → List String} :
    AllUnbraced (xs.flatMap f) ↔ ∀ x ∈ xs, AllUnbraced (f x) :=
  List.forall_mem_flatMap

/-- So it is where every member gives one text. -/
@[simp] theorem map {α : Type} {xs : List α} {f : α → String} :
    AllUnbraced (xs.map f) ↔ ∀ x ∈ xs, Unbraced (f x) :=
  List.forall_mem_map

end AllUnbraced

/-- The texts of clauses, list by list. -/
theorem Clauses.unbraced {clauses : Clauses} (h : AllUnbraced clauses.texts) :
    (∀ item ∈ clauses.columns,
      AllUnbraced (item.field :: item.aggregate.texts ++ item.alias?.toList)) ∧
    (∀ item ∈ clauses.groups, Unbraced item.field ∧ ∀ s ∈ item.pattern?, Unbraced s) ∧
    (∀ item ∈ clauses.havings, Unbraced item.field) ∧
    ∀ item ∈ clauses.orders, Unbraced item.field := by
  rw [texts, AllUnbraced.append, AllUnbraced.append, AllUnbraced.append, AllUnbraced.flatMap,
    AllUnbraced.flatMap, AllUnbraced.map, AllUnbraced.map] at h
  obtain ⟨⟨⟨hcolumns, hgroups⟩, hhavings⟩, horders⟩ := h
  refine ⟨hcolumns, fun item hitem => ?_, hhavings, horders⟩
  obtain ⟨hfield, hpattern⟩ := AllUnbraced.cons.mp (hgroups item hitem)
  exact ⟨hfield, AllUnbraced.toList.mp hpattern⟩

namespace Table

variable {t : Table} {name column : String}

/-- A column of a table without braces has none in its names. -/
theorem unbraced_of_mem (h : AllUnbraced t.texts) {c : Column} (hc : c ∈ t.columns) :
    Unbraced c.field ∧ Unbraced c.column := by
  unfold texts at h
  rw [AllUnbraced.flatMap] at h
  simpa using h c hc

/-- A name stands for the column of an entry: its name is that of the field or of the column. -/
theorem resolve?_eq_some (h : t.resolve? name = some column) :
    ∃ c ∈ t.columns, c.column = column ∧ (c.field = name ∨ c.column = name) := by
  unfold resolve? columnOf? hasColumn at h
  cases hfind : t.columns.reverse.find? (·.field == name) with
  | some c =>
    simp only [hfind, Option.map_some, Option.some.injEq] at h
    have hfield := List.find?_some hfind
    exact ⟨c, List.mem_reverse.mp (List.mem_of_find?_eq_some hfind), h, .inl (eq_of_beq hfield)⟩
  | none =>
    simp only [hfind, Option.map_none, Option.ite_none_right_eq_some, List.any_eq_true,
      Option.some.injEq] at h
    obtain ⟨⟨c, hc, heq⟩, rfl⟩ := h
    exact ⟨c, hc, eq_of_beq heq, .inr (eq_of_beq heq)⟩

/-- A column of a table is shown under the field of an entry, whatever it was asked for by. -/
theorem fieldFor_of_mem (name : String) {c : Column} (hc : c ∈ t.columns) :
    ∃ d ∈ t.columns, t.fieldFor c.column name = d.field := by
  unfold fieldFor fieldOf?
  cases hfind : t.columns.reverse.find? (·.column == c.column) with
  | none =>
    have hnone := List.find?_eq_none.mp hfind c (List.mem_reverse.mpr hc)
    exact absurd (beq_self_eq_true c.column) hnone
  | some d => exact ⟨d, List.mem_reverse.mp (List.mem_of_find?_eq_some hfind), rfl⟩

/-- The column that a name stands for is a name of the table. -/
theorem resolve?_unbraced (h : AllUnbraced t.texts) (hcolumn : t.resolve? name = some column) :
    Unbraced column := by
  obtain ⟨c, hc, rfl, -⟩ := resolve?_eq_some hcolumn
  exact (unbraced_of_mem h hc).2

/-- A column is shown under a name of the table, or under the name it was asked for by. -/
theorem fieldFor_unbraced (h : AllUnbraced t.texts) (hname : Unbraced name) :
    Unbraced (t.fieldFor column name) := by
  unfold fieldFor fieldOf?
  cases hfind : t.columns.reverse.find? (·.column == column) with
  | none => exact hname
  | some c => exact (unbraced_of_mem h (List.mem_reverse.mp (List.mem_of_find?_eq_some hfind))).1

end Table

/-- What is looked up is in the list. -/
theorem mem_of_lookup {β : Type} {entries : List (String × β)} {key : String} {b : β}
    (h : entries.lookup key = some b) : (key, b) ∈ entries := by
  obtain ⟨front, back, hentries, -⟩ := List.lookup_eq_some_iff.mp h
  rw [hentries]
  exact List.mem_append_right front List.mem_cons_self

/-- A table that is found is in the schema. -/
theorem Schema.mem_of_table {s : Schema} {name : String} {t : Table} (h : s.table name = .ok t) :
    (name, t) ∈ s.tables := by
  unfold table find? at h
  split at h
  case h_1 found hlookup =>
    obtain rfl := Except.ok.inj h
    exact mem_of_lookup hlookup
  case h_2 => cases h

/-- The tables of a schema have the names that the schema has. -/
theorem Schema.table_unbraced {s : Schema} {name : String} {t : Table} (h : AllUnbraced s.texts)
    (ht : s.table name = .ok t) : AllUnbraced t.texts := by
  unfold texts at h
  rw [AllUnbraced.flatMap] at h
  exact (AllUnbraced.cons.mp (h _ (mem_of_table ht))).2

end DynamicSql
