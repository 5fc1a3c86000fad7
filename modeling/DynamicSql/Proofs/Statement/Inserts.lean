import DynamicSql.Proofs.Resolve.Succeeds
import DynamicSql.Proofs.Statement.Batches
import DynamicSql.Proofs.Statement.Joins

/-!
# Inserted values under their columns

An insertion takes its columns from the fields of the first row, and its values from each row by
their positions. Rows are refused unless all of them have the fields of the first one in the same
order, so each value that is inserted is bound where the column of its own field stands
(`insertRows_placed`).
-/

namespace DynamicSql

/-- The key of a value to insert, by the numbers of its row and of its column. -/
def insertKey (r k : Nat) : String := "field_v" ++ toString r ++ "_i_" ++ toString k

/-- Texts in parentheses. -/
def parenthesized (entries : List String) : String := "(" ++ ", ".intercalate entries ++ ")"

/-- The text that inserts a number of rows: the columns, and for each row a marker for each
column. -/
def insertText (root table : String) (columns : List String) (count : Nat) : String :=
  "INSERT INTO " ++ table ++ " " ++ parenthesized columns ++ " VALUES " ++
    ", ".intercalate ((List.range count).map fun r =>
      parenthesized ((List.range columns.length).map fun k => marker root .field (insertKey r k)))

/-- The place of a value to insert. -/
def insertSlot (r k : Nat) : Slot := ⟨.assigned, (Path.ofRoot r).child "i", k, none⟩

/-- The markers of a row to insert. -/
def insertMarkers (r count : Nat) : Fragment :=
  .parens (.join ", " ((List.range count).map fun k => [.marker (insertSlot r k)]))

/-- The markers of rows to insert. -/
def rowMarkers (rows : List Insert) : List Fragment :=
  rows.zipIdx.map fun x => insertMarkers x.2 x.1.values.length

/-- The values of a row to insert, with their places. -/
def Insert.bound (row : Insert) (r : Nat) : List (Slot × Value) :=
  row.values.zipIdx.map fun x => (insertSlot r x.2, x.1.2)

/-- The values of rows to insert, with their places. -/
def rowsBound (rows : List Insert) : List (Slot × Value) :=
  rows.zipIdx.flatMap fun x => x.1.bound x.2

/-- The place of a value in a row is spelled with the row and the column. -/
theorem key_insertSlot (r k : Nat) : (insertSlot r k).key = insertKey r k := by
  have hpath : ((Path.ofRoot r).child "i").text = toString r ++ "_" ++ "i" := rfl
  have htag : "_i_" = "_" ++ "i" ++ "_" := rfl
  unfold insertKey insertSlot Slot.key Path.key
  rw [hpath, htag]
  simp only [Purpose.stem, String.append_assoc]

section Texts

variable {root : String} {aliases : Aliases}

/-- The markers of a row stand in parentheses, column by column. -/
theorem render_insertMarkers (r count : Nat) : (insertMarkers r count).render root aliases =
    parenthesized ((List.range count).map fun k => marker root .field (insertKey r k)) := by
  have hmarker : ∀ k, Fragment.render root aliases [.marker (insertSlot r k)] =
      marker root .field (insertKey r k) := by
    intro k
    rw [← key_insertSlot, Fragment.render, Fragment.chars_cons, Fragment.chars_nil,
      List.append_nil]
    exact String.ofList_toList
  rw [insertMarkers, Fragment.render_parens, render_join, List.map_map, parenthesized]
  simp only [Function.comp_def, hmarker]

/-- Where each row has a value for each column, the rows have their markers in a row. -/
theorem render_rowMarkers {rows : List Insert} {count : Nat}
    (hrows : ∀ row ∈ rows, row.values.length = count) :
    (Fragment.join ", " (rowMarkers rows)).render root aliases =
      ", ".intercalate ((List.range rows.length).map fun r =>
        parenthesized ((List.range count).map fun k => marker root .field (insertKey r k))) := by
  have htuples : rowMarkers rows =
      (List.range rows.length).map fun r => insertMarkers r count := by
    rw [List.range_eq_range', ← List.zipIdx_map_snd 0 rows, List.map_map]
    apply List.map_congr_left
    intro x hx
    rw [hrows x.1 (List.fst_mem_of_mem_zipIdx hx)]
    rfl
  rw [htuples, render_join, List.map_map]
  simp only [Function.comp_def, render_insertMarkers]

end Texts

/-- A row to insert binds its values from left to right. -/
theorem insertTuple_yields (row : Insert) (r : Nat) :
    (insertTuple r row).Yields (insertMarkers r row.values.length) ⟨[], row.bound r⟩ := by
  have hmarkers := Resolve.mapM_yields_of_forall
    (fun x : (String × Value) × Nat => Resolve.bound_yields.mpr
      ⟨rfl, (rfl : _ = Trace.mk [] [(insertSlot r x.2, x.1.2)])⟩) row.values.zipIdx
  have hplaces : (row.values.zipIdx.map fun x => Piece.marker (insertSlot r x.2)).map ([·]) =
      (List.range row.values.length).map fun k => [Piece.marker (insertSlot r k)] := by
    rw [List.range_eq_range', ← List.zipIdx_map_snd 0 row.values, List.map_map, List.map_map]
    rfl
  rw [← List.map_eq_flatMap] at hmarkers
  rw [insertMarkers, ← hplaces]
  exact Resolve.bind_yields.mpr ⟨_, _, .empty, hmarkers, Resolve.pure_yields.mpr ⟨rfl, rfl⟩,
    (Trace.append_empty _).symm⟩

/-- Rows to insert bind their values one row after the other. -/
theorem insertTuples_yields (rows : List Insert) :
    (rows.zipIdx.mapM fun x => insertTuple x.2 x.1 : Resolve _).Yields (rowMarkers rows)
      ⟨[], rowsBound rows⟩ :=
  Resolve.mapM_yields_of_forall (fun x => insertTuple_yields x.1 x.2) rows.zipIdx

/-- Every value of a row is bound at its place. -/
theorem mem_rowsBound {rows : List Insert} {r k : Nat} {row : Insert} {field : String} {v : Value}
    (hrow : rows[r]? = some row) (hvalue : row.values[k]? = some (field, v)) :
    (insertSlot r k, v) ∈ rowsBound rows := by
  apply List.mem_flatMap.mpr
  refine ⟨(row, r), List.mk_mem_zipIdx_iff_getElem?.mpr hrow, ?_⟩
  exact List.mem_map.mpr ⟨((field, v), k), List.mk_mem_zipIdx_iff_getElem?.mpr hvalue, rfl⟩

/-- Where each row has a value for each column, as many values are bound as there are markers. -/
theorem length_rowsBound {rows : List Insert} {count : Nat}
    (hrows : ∀ row ∈ rows, row.values.length = count) :
    (rowsBound rows).length = rows.length * count := by
  have hlength : ∀ x ∈ rows.zipIdx, (x.1.bound x.2).length = count := by
    intro x hx
    rw [Insert.bound, List.length_map, List.length_zipIdx,
      hrows x.1 (List.fst_mem_of_mem_zipIdx hx)]
  rw [rowsBound, List.length_flatMap, List.map_congr_left hlength, List.map_const',
    List.sum_replicate_nat, List.length_zipIdx]

/-- Values to insert are all values that fields are set to. -/
theorem entries_rowsBound (rows : List Insert) (space : Namespace) :
    Params.entries space (rowsBound rows) =
      if space = .field then (rowsBound rows).map fun b => (b.1.key, b.2) else [] := by
  have hspace : ∀ b ∈ rowsBound rows, b.1.purpose.space = .field := by
    intro b hb
    obtain ⟨x, -, hb⟩ := List.mem_flatMap.mp hb
    obtain ⟨y, -, rfl⟩ := List.mem_map.mp hb
    rfl
  unfold Params.entries
  split
  case isTrue heq =>
    subst heq
    rw [List.filter_eq_self.mpr fun b hb => decide_eq_true (hspace b hb)]
  case isFalse hne =>
    rw [List.filter_eq_nil_iff.mpr, List.map_nil]
    intro b hb
    rw [hspace b hb, decide_eq_true_eq]
    exact Ne.symm hne

namespace Compiler

variable {c : Compiler} {rows : List Insert} {table : String}

/-- Rows are inserted where the first one has values, the table is registered and knows the fields
of the first row, and all rows have these fields. -/
theorem exists_insertRows_eq_ok : (∃ s, c.insertRows rows table = .ok s) ↔
    ∃ first description, rows.head? = some first ∧ first.values ≠ [] ∧
      c.schema.find? table = some description ∧
      (∀ field ∈ first.fields, description.knows field = true) ∧
      ∀ row ∈ rows, row.fields = first.fields := by
  constructor
  · rintro ⟨s, hs⟩
    obtain ⟨draft, hdraft, -⟩ := except_bind_eq_ok.mp hs
    obtain ⟨first, description, columns, -, hfirst, hvalues, hdescription, hcolumns, hrows, -⟩ :=
      insertDraft_eq_ok.mp hdraft
    exact ⟨first, description, hfirst, hvalues, Schema.table_eq_ok.mp hdescription,
      Table.exists_columns.mp ⟨columns, hcolumns⟩, hrows⟩
  · rintro ⟨first, description, hfirst, hvalues, hdescription, hknown, hrows⟩
    obtain ⟨columns, hcolumns⟩ := Table.exists_columns.mpr hknown
    have hdraft : c.insertDraft rows table = .ok (_, ⟨[], rowsBound rows⟩) :=
      insertDraft_eq_ok.mpr ⟨first, description, columns, rowMarkers rows, hfirst, hvalues,
        Schema.table_eq_ok.mpr hdescription, hcolumns, hrows, insertTuples_yields rows, rfl⟩
    exact ⟨_, except_bind_eq_ok.mpr ⟨_, hdraft, rfl⟩⟩

/-- No two values to insert are bound to the same key. -/
theorem insertDraft_bound_nodup {draft : Draft} (h : c.insertDraft rows table = .ok draft) :
    (draft.2.bound.map (·.1.shown)).Nodup := by
  have hscripts : c.scripts table (.insertRows rows) = .ok [script draft] :=
    except_bind_eq_ok.mpr ⟨draft, h, rfl⟩
  exact draft_bound_nodup hscripts

/-- Rows are inserted if and only if there are some, the first one has values, the table is
registered, each field of the first row is one of its fields or columns, and all rows have the
fields of the first one in the same order. The statement then has the columns of these fields, and
a marker for each row and each of the columns, and the value of a row for the field of a column is
bound to the key of this row and this column. Nothing else is bound. One row is inserted as a list
with this row is. -/
theorem insertRows_placed (c : Compiler) (rows : List Insert) (table : String) :
    ((∃ s, c.insertRows rows table = .ok s) ↔
      ∃ first description, rows.head? = some first ∧ first.values ≠ [] ∧
        c.schema.find? table = some description ∧
        (∀ field ∈ first.fields, description.knows field = true) ∧
        ∀ row ∈ rows, row.fields = first.fields) ∧
    (∀ s, c.insertRows rows table = .ok s → ∃ description fields columns,
      c.schema.find? table = some description ∧ (∀ row ∈ rows, row.fields = fields) ∧
      List.Forall₂ (fun field column => description.resolve? field = some column) fields columns ∧
      s.sql = insertText c.root table columns rows.length ∧
      (∀ r row k field v, rows[r]? = some row → row.values[k]? = some (field, v) →
        s.params.get? .field (insertKey r k) = some v) ∧
      s.params.field.length = rows.length * columns.length ∧ s.params.filter = [] ∧
      s.params.positional = []) ∧
    ∀ row, c.insert row table = c.insertRows [row] table := by
  refine ⟨exists_insertRows_eq_ok, fun s hs => ?_, fun row => rfl⟩
  obtain ⟨draft, hdraft, hs⟩ := except_bind_eq_ok.mp hs
  obtain rfl := Except.ok.inj hs
  obtain ⟨first, description, columns, tuples, -, -, hdescription, hcolumns, hrows, htuples,
    htext⟩ := insertDraft_eq_ok.mp hdraft
  have hresult := Except.ok.inj (htuples.symm.trans (insertTuples_yields rows))
  obtain ⟨rfl, htrace⟩ := Prod.mk.inj hresult
  have hbound : draft.2.bound = rowsBound rows := congrArg Trace.bound htrace
  -- No key is used twice, so the set of fields has the bound values one by one.
  have hnodup := insertDraft_bound_nodup hdraft
  rw [hbound] at hnodup
  have hlength : ∀ row ∈ rows, row.values.length = columns.length := by
    intro row hrow
    rw [← hcolumns.length_eq, ← hrows row hrow, Insert.fields, List.length_map]
  have hset := fun space => Params.set_ofBound_perm space hnodup
  simp only [entries_rowsBound] at hset
  unfold finish
  rw [hbound]
  refine ⟨description, first.fields, columns, Schema.table_eq_ok.mp hdescription, hrows, hcolumns,
    ?_, ?_, ?_, ?_, Params.positional_ofBound _⟩
  · rw [render, htext, Fragment.render_text_cons, render_rowMarkers hlength]
    unfold insertText
    rw [parenthesized]
    simp [← String.toList_inj]
  · intro r row k field v hrow hvalue
    have hget := Params.get?_ofBound hnodup (mem_rowsBound hrow hvalue)
    rwa [key_insertSlot] at hget
  · rw [← length_rowsBound hlength]
    exact (hset .field).length_eq.trans (List.length_map _)
  · exact (hset .filter).eq_nil

/-- Two orders of different customers. -/
def twoOrders : List Insert :=
  [⟨[("buyer", .int 1), ("total", .int 5)]⟩, ⟨[("buyer", .int 2), ("total", .int 7)]⟩]

/-- An order with its fields the other way around. -/
def turnedOrder : Insert := ⟨[("total", .int 9), ("buyer", .int 3)]⟩

/-- The customer of the second order is bound for its row and the column of customers. An order with
its fields the other way around is not inserted with them. -/
theorem twoOrders_placed :
    (shop.insertRows twoOrders "orders").toOption.map (·.sql) = some
        ("INSERT INTO orders (customer_id, total) VALUES " ++
          "(#\x7brequest.field.field_v0_i_0\x7d, #\x7brequest.field.field_v0_i_1\x7d), " ++
          "(#\x7brequest.field.field_v1_i_0\x7d, #\x7brequest.field.field_v1_i_1\x7d)") ∧
      (∃ s columns, shop.insertRows twoOrders "orders" = .ok s ∧
        s.sql = insertText "request" "orders" columns 2 ∧
        s.params.get? .field (insertKey 1 0) = some (.int 2) ∧
        s.params.field.length = 2 * columns.length) ∧
      ¬∃ s, shop.insertRows (twoOrders ++ [turnedOrder]) "orders" = .ok s := by
  refine ⟨by decide +kernel, ?_, fun hs => ?_⟩
  · obtain ⟨hsucceeds, hplaced, -⟩ := insertRows_placed shop twoOrders "orders"
    obtain ⟨s, hs⟩ := hsucceeds.mpr ⟨_, _, rfl, by decide, rfl, by decide +kernel, by decide⟩
    obtain ⟨_, _, columns, -, -, -, hsql, hvalues, hlength, -⟩ := hplaced s hs
    exact ⟨s, columns, hs, hsql, hvalues 1 _ 0 "buyer" (.int 2) rfl rfl, hlength⟩
  · obtain ⟨first, _, hfirst, -, -, -, hrows⟩ :=
      (insertRows_placed shop (twoOrders ++ [turnedOrder]) "orders").1.mp hs
    obtain rfl := Option.some.inj hfirst
    exact absurd (hrows turnedOrder (by simp)) (by decide)

end Compiler

end DynamicSql
