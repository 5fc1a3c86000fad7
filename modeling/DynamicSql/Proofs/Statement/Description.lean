import DynamicSql.Proofs.Statement.Drafts
import DynamicSql.Query.Build

/-!
# Descriptions and their statements

All that a compiler makes statements from, in one type, so that a property of all statements is
stated once. What comes out is one or several texts with the values bound in them. Each text is
printed from drafts: most from a single one, a batch of updates from one for each update.
-/

namespace DynamicSql

/-- What a compiler makes statements from, and how. -/
inductive Description where
  | select (q : Query)
  | findOne (q : Query)
  /-- The text that counts, and the text that windows are put behind. -/
  | page (q : Query)
  /-- The text of one page. -/
  | pageAt (q : Query) (number size : UInt64)
  | validate (q : Query)
  | insert (row : Insert)
  | insertRows (rows : List Insert)
  | update (u : Update)
  | updateBatch (us : List Update)
  | delete (d : Delete)

/-- Texts with the values that are bound in each of them. -/
structure Compiled where
  texts : List String
  params : Params

/-- A single statement. -/
def Statement.compiled (s : Statement) : Compiled := ⟨[s.sql], s.params⟩

/-- A text as drafts, each with the text that follows it. -/
abbrev Script := List (Draft × String)

namespace Compiler

/-- What a description over a table is compiled to. -/
def compile (c : Compiler) (table : String) : Description → Except Error Compiled
  | .select q => do return (← c.select q table).compiled
  | .findOne q => do return (← c.findOne q table).compiled
  | .page q => do
    let p ← c.page q table
    return ⟨[p.countSql, p.baseSql], p.params⟩
  | .pageAt q number size => do
    let p ← c.page q table
    return ⟨[← p.pageSql number size], p.params⟩
  | .validate q => do return (← c.validate q table).compiled
  | .insert row => do return (← c.insert row table).compiled
  | .insertRows rows => do return (← c.insertRows rows table).compiled
  | .update u => do return (← c.update u table).compiled
  | .updateBatch us => do return (← c.updateBatch us table).compiled
  | .delete d => do return (← c.delete d table).compiled

/-- The script of a single draft. -/
def script (draft : Draft) : Script := [(draft, "")]

/-- The scripts of the texts that a description over a table is compiled to. -/
def scripts (c : Compiler) (table : String) : Description → Except Error (List Script)
  | .select q => do return [script (← c.selectDraft q table)]
  | .findOne q => do return [script (← c.selectDraft (q.limit 1) table)]
  | .page q => do
    let (count, base) ← c.pageDrafts q table
    return [script count, script base]
  | .pageAt q number size => do
    let (_, base) ← c.pageDrafts q table
    return [[(base, ← c.dialect.pageClause "" number size)]]
  | .validate q => do return [script (← c.validateDraft q table)]
  | .insert row => do return [script (← c.insertDraft [row] table)]
  | .insertRows rows => do return [script (← c.insertDraft rows table)]
  | .update u => do return [script (← c.updateAt u table 0)]
  | .updateBatch us => do return [(← c.batchDrafts us table).map (·, ";")]
  | .delete d => do return [script (← c.deleteDraft d table)]

/-- The text of a script. -/
def print (c : Compiler) (script : Script) : String :=
  String.join (script.map fun (draft, tail) => c.render draft ++ tail)

/-- The values bound in a script. -/
def bound (script : Script) : List (Slot × Value) := script.flatMap (·.1.2.bound)

/-- A script of a single draft is printed as this draft. -/
theorem print_script (c : Compiler) (draft : Draft) : c.print (script draft) = c.render draft := by
  simp [print, script, String.join]

/-- A script of a single draft binds its values. -/
theorem bound_script (draft : Draft) : bound (script draft) = draft.2.bound := by
  simp [bound, script]

/-- The window of a page is put behind a text whatever the text. -/
theorem pageClause_eq (d : Dialect) (sql : String) (number size : UInt64) :
    d.pageClause sql number size = (d.pageClause "" number size).map (sql ++ ·) := by
  unfold Dialect.pageClause
  cases pageOffset number size with
  | error e => rfl
  | ok offset => cases d <;> simp [Except.map, bind, Except.bind]

/-- Where a single draft is asked for, it is the only script. -/
theorem single_eq_ok {x : Except Error Draft} {scripts : List Script}
    (h : (do return [script (← x)] : Except Error (List Script)) = .ok scripts) :
    ∃ draft, x = .ok draft ∧ scripts = [script draft] := by
  obtain ⟨draft, hdraft, h⟩ := except_bind_eq_ok.mp h
  exact ⟨draft, hdraft, (Except.ok.inj h).symm⟩

/-- A statement that is made from one draft has the script of this draft. -/
theorem exists_scripts_of_draft {c : Compiler} {x : Except Error Draft} {out : Compiled}
    (h : (do return Statement.compiled (← (do return c.finish (← x)))) = .ok out) :
    ∃ scripts, (do return [script (← x)] : Except Error (List Script)) = .ok scripts ∧
      out.texts = scripts.map c.print ∧ ∀ s ∈ scripts, out.params = .ofBound (bound s) := by
  obtain ⟨_, hstatement, hout⟩ := except_bind_eq_ok.mp h
  obtain ⟨draft, rfl, hfinish⟩ := except_bind_eq_ok.mp hstatement
  obtain rfl := Except.ok.inj hfinish
  obtain rfl := Except.ok.inj hout
  refine ⟨_, rfl, ?_, ?_⟩
  · rw [List.map_singleton, print_script]
    rfl
  · intro s hs
    rw [List.mem_singleton.mp hs, bound_script]
    rfl

/-- The paged form of a query consists of the two texts of its drafts, which bind the same
values. -/
theorem page_eq_ok {c : Compiler} {q : Query} {table : String} {p : PagedStatement}
    (h : c.page q table = .ok p) :
    ∃ count base, c.pageDrafts q table = .ok (count, base) ∧
      p = ⟨c.render count, c.render base, .ofBound base.2.bound, c.dialect⟩ ∧
      count.2 = base.2 := by
  obtain ⟨⟨count, base⟩, hdrafts, h⟩ := except_bind_eq_ok.mp h
  obtain ⟨-, -, htrace, -⟩ := pageDrafts_eq_ok hdrafts
  exact ⟨count, base, hdrafts, (Except.ok.inj h).symm, htrace⟩

/-- What comes out prints the scripts and binds their values. -/
theorem exists_scripts_of_compile {c : Compiler} {table : String} {d : Description}
    {out : Compiled} (h : c.compile table d = .ok out) :
    ∃ scripts, c.scripts table d = .ok scripts ∧ out.texts = scripts.map c.print ∧
      ∀ s ∈ scripts, out.params = .ofBound (bound s) := by
  cases d with
  | select q => exact exists_scripts_of_draft h
  | findOne q => exact exists_scripts_of_draft h
  | page q =>
    obtain ⟨p, hp, h⟩ := except_bind_eq_ok.mp h
    obtain ⟨count, base, hdrafts, rfl, htrace⟩ := page_eq_ok hp
    obtain rfl := Except.ok.inj h
    -- Both texts were resolved in one go, so the values of one are those of the other.
    refine ⟨[script count, script base], ?_, ?_, ?_⟩
    · exact except_bind_eq_ok.mpr ⟨_, hdrafts, rfl⟩
    · simp [print_script]
    · simp [bound_script, htrace]
  | pageAt q number size =>
    obtain ⟨p, hp, h⟩ := except_bind_eq_ok.mp h
    obtain ⟨count, base, hdrafts, rfl, -⟩ := page_eq_ok hp
    obtain ⟨sql, hsql, h⟩ := except_bind_eq_ok.mp h
    obtain rfl := Except.ok.inj h
    rw [PagedStatement.pageSql, pageClause_eq] at hsql
    cases hwindow : c.dialect.pageClause "" number size with
    | error e => simp [hwindow, Except.map] at hsql
    | ok window =>
      rw [hwindow] at hsql
      obtain rfl := Except.ok.inj hsql
      refine ⟨[[(base, window)]], ?_, ?_, ?_⟩
      · exact except_bind_eq_ok.mpr ⟨_, hdrafts, except_bind_eq_ok.mpr ⟨window, hwindow, rfl⟩⟩
      · simp [print, String.join]
      · simp [bound]
  | validate q => exact exists_scripts_of_draft h
  | insert row => exact exists_scripts_of_draft h
  | insertRows rows => exact exists_scripts_of_draft h
  | update u => exact exists_scripts_of_draft h
  | updateBatch us =>
    obtain ⟨_, hstatement, hout⟩ := except_bind_eq_ok.mp h
    obtain ⟨drafts, hdrafts, hstatement⟩ := except_bind_eq_ok.mp hstatement
    obtain rfl := Except.ok.inj hstatement
    obtain rfl := Except.ok.inj hout
    refine ⟨[drafts.map (·, ";")], ?_, ?_, ?_⟩
    · exact except_bind_eq_ok.mpr ⟨_, hdrafts, rfl⟩
    · simp [print, Statement.compiled, List.map_map, Function.comp_def]
    · simp [bound, Statement.compiled, List.flatMap_map]
  | delete d => exact exists_scripts_of_draft h

end Compiler

/-- A compiler for customers and their orders. -/
def shop : Compiler :=
  .new ⟨[("customer", ⟨[⟨"id", "id"⟩, ⟨"name", "name"⟩]⟩),
    ("orders", ⟨[⟨"id", "id"⟩, ⟨"buyer", "customer_id"⟩, ⟨"total", "total"⟩]⟩)]⟩

/-- Customers with a letter in their names and their orders between two totals, where there are
more than two such orders, united with the customers of a given name. -/
def frequentCustomers : Query :=
  let orders := (Query.new "o" (some "orders")).having ⟨"id", .count, .greaterThan, .int 2⟩
  let join := Join.new "id" "customer_id" (HasConditions.compare .lessThan "total" (.int 99) orders)
  let named := HasConditions.compare .equal "name" (.string "b")
    ((Query.new "d" none).select "name")
  let customers := (((Query.new "c" (some "customer")).select "name").leftJoin
    (HasConditions.compare .greaterThan "total" (.int 10) join)).union .all named
  HasConditions.like .around "name" (.string "a") <|
    HasConditions.member .isIn "id" (.list [.int 3, .int 4]) customers

/-- Two updates that change the totals of orders. -/
def orderChanges : List Update :=
  [HasConditions.byId (.int 1) ((Update.new "a").assign .set "total" (.int 5)),
    HasConditions.byId (.int 2) ((Update.new "b").assign .increment "total" (.int 6))]

end DynamicSql
