import DynamicSql.Proofs.Resolve.Blank
import DynamicSql.Proofs.Sql.Params
import DynamicSql.Proofs.Statement.Description

/-!
# Bound values do not shape statements

Two descriptions that are the same once their values are left out are compiled to the same texts
with values bound to the same keys, or refused with the same error (`compile_independent`). What
may not be left out of a value is whether a search is for null, and how many members a membership
test is among: both decide on the text, or on the error.
-/

namespace DynamicSql

/-- An assignment without its value. -/
def Assignment.blank (a : Assignment) : Assignment := { a with value := .null }

/-- A row without its values. -/
def Insert.blank (row : Insert) : Insert := ⟨row.values.map fun entry => (entry.1, .null)⟩

/-- An update without its values. -/
def Update.blank (u : Update) : Update :=
  { u with
    sets := u.sets.map Assignment.blank
    joins := blankJoins u.joins
    conditions := u.conditions.blank }

/-- A description without its values. -/
def Description.blank : Description → Description
  | .select q => .select q.blank
  | .findOne q => .findOne q.blank
  | .page q => .page q.blank
  | .pageAt q number size => .pageAt q.blank number size
  | .validate q => .validate q.blank
  | .insert row => .insert row.blank
  | .insertRows rows => .insertRows (rows.map Insert.blank)
  | .update u => .update u.blank
  | .updateBatch us => .updateBatch (us.map Update.blank)
  | .delete d => .delete { d with conditions := d.conditions.blank }

/-- Computations that look the same go on to look the same, if what follows looks no closer. -/
theorem except_map_bind_congr {α β γ δ : Type} {seen : α → γ} {shown : β → δ}
    {x y : Except Error α} {f g : α → Except Error β} (hxy : x.map seen = y.map seen)
    (hfg : ∀ a b, seen a = seen b → (f a).map shown = (g b).map shown) :
    (x >>= f).map shown = (y >>= g).map shown := by
  cases x with
  | error e =>
    cases y with
    | error e' => exact congrArg Except.error (Except.error.inj hxy)
    | ok b => cases hxy
  | ok a =>
    cases y with
    | error e' => cases hxy
    | ok b => exact hfg a b (Except.ok.inj hxy)

/-- Computations that begin with the same step. -/
theorem except_map_bind_right {α β δ : Type} {shown : β → δ} {x : Except Error α}
    {f g : α → Except Error β} (hfg : ∀ a, (f a).map shown = (g a).map shown) :
    (x >>= f).map shown = (x >>= g).map shown := by
  cases x with
  | error e => rfl
  | ok a => exact hfg a

/-- What a draft shows apart from the bound values. -/
def Draft.outline (draft : Draft) : Fragment × List Token × List Slot :=
  (draft.1, draft.2.outline)

/-- What is compiled, with the keys of the bound values in place of the values. -/
def Compiled.outline (out : Compiled) : List String × List String × List String :=
  (out.texts, out.params.keys .field, out.params.keys .filter)

namespace Context

open Resolve

variable {ctx : Context}

/-- A row is shown by markers, whatever its values. -/
theorem insertTuple_blank (r : Nat) (row : Insert) :
    Agree (insertTuple r row) (insertTuple r row.blank) := by
  unfold insertTuple
  rw [Insert.blank, List.zipIdx_map]
  apply Coupled.before
  exact .mapM_eq fun x _ => Agree.bound _ x.1.2 _

/-- Assignments are resolved alike with other values. -/
theorem assignments_blank (scope : Scope) (qualify : Bool) (path : Path) (sets : List Assignment)
    (i : Nat) : Agree (assignments scope qualify path i sets)
      (assignments scope qualify path i (sets.map Assignment.blank)) := by
  induction sets generalizing i with
  | nil => exact .refl _
  | cons a rest ih =>
    rw [List.map_cons, assignments, assignments]
    apply Coupled.after
    intro column
    apply (Agree.bound _ a.value _).bind
    rintro marker _ rfl
    exact (ih (i + 1)).before _

/-- Joins are as many with other values. -/
theorem isEmpty_blankJoins (joins : List Join) : (blankJoins joins).isEmpty = joins.isEmpty := by
  cases joins with
  | nil => rw [blankJoins]
  | cons join rest =>
    cases join
    rw [blankJoins, List.isEmpty_cons, List.isEmpty_cons]

/-- An update is resolved alike with other values. -/
theorem update_blank (u : Update) (table : String) (path : Path) :
    Agree (ctx.update u table path) (ctx.update u.blank table path) := by
  unfold update
  simp only [Update.blank, isEmpty_blankJoins]
  apply Coupled.after
  intro scope
  apply (joined_blank u.joins scope _ _ 0).bind
  rintro added _ rfl
  apply (assignments_blank scope _ _ u.sets 0).bind
  rintro sets _ rfl
  exact (groupTerms_blank u.conditions scope _).before _

/-- So is a deletion. -/
theorem delete_blank (d : Delete) (table : String) :
    Agree (ctx.delete d table) (ctx.delete { d with conditions := d.conditions.blank } table) := by
  apply Coupled.after
  intro description
  exact (groupTerms_blank d.conditions _ _).before _

end Context

/-- The fields of a row stay. -/
theorem Insert.fields_blank (row : Insert) : row.blank.fields = row.fields := by
  unfold fields blank
  rw [List.map_map]
  rfl

/-- Rows are compared by their fields, whatever their values. -/
theorem checkRows_blank (table : String) (fields : List String) (r : Nat) (rows : List Insert) :
    checkRows table fields r (rows.map Insert.blank) = checkRows table fields r rows := by
  induction rows generalizing r with
  | nil => rfl
  | cons row rest ih => rw [List.map_cons, checkRows, checkRows, row.fields_blank, ih]

/-- Groups of conditions are empty whatever their values. -/
theorem ConditionGroup.isEmpty_blank (g : ConditionGroup) : g.blank.isEmpty = g.isEmpty := by
  obtain ⟨conditions, groups⟩ := g
  rw [blank]
  cases conditions with
  | nil =>
    cases groups with
    | nil => rfl
    | cons group rest =>
      cases group
      rfl
  | cons condition rest =>
    cases condition
    rfl

/-- The limit of a query is none of its values. -/
theorem Query.limit_blank (q : Query) : q.blank.clauses.limit = q.clauses.limit := by
  cases q
  rw [blank]
  rfl

/-- A query has unions whatever its values. -/
theorem Query.isEmpty_unions_blank (q : Query) : q.blank.unions.isEmpty = q.unions.isEmpty := by
  obtain ⟨own, token, clauses, conditions, joins, unions⟩ := q
  rw [blank]
  cases unions with
  | nil => rfl
  | cons branch rest =>
    cases branch
    rfl

/-- Limiting a query and leaving its values out may be done in either order. -/
theorem Query.blank_limit (q : Query) (n : UInt64) : (q.limit n).blank = q.blank.limit n := by
  cases q
  rfl

namespace Compiler

variable {c : Compiler} {table : String}

/-- The tables of a query are collected alike with other values. -/
theorem queryContext_blank (q : Query) : c.queryContext q.blank table = c.queryContext q table := by
  unfold queryContext
  rw [q.references_blank]

/-- What is made of two runs that agree looks the same, if it looks at no bound value. -/
theorem run_bind_congr {α β δ : Type} {shown : β → δ} {x y : Resolve α}
    {f : α × Trace → Except Error β} (hxy : Resolve.Agree x y)
    (hf : ∀ a t u, t.outline = u.outline → (f (a, t)).map shown = (f (a, u)).map shown) :
    (x.run >>= f).map shown = (y.run >>= f).map shown := by
  apply except_map_bind_congr hxy.run_map_eq
  rintro ⟨a, t⟩ ⟨b, u⟩ hseen
  obtain ⟨rfl, houtline⟩ := Prod.mk.inj hseen
  exact hf a t u houtline

/-- A draft looks the same with another trace of the same outline. -/
theorem outline_ok {f : Fragment} {t u : Trace} (h : t.outline = u.outline) :
    (Except.ok (f, t) : Except Error Draft).map Draft.outline =
      (Except.ok (f, u) : Except Error Draft).map Draft.outline :=
  congrArg (fun outline => Except.ok (f, outline)) h

/-- The draft of a query looks the same with other values. -/
theorem selectDraft_blank (q : Query) :
    (c.selectDraft q table).map Draft.outline =
      (c.selectDraft q.blank table).map Draft.outline := by
  unfold selectDraft
  rw [queryContext_blank, q.limit_blank]
  apply except_map_bind_right
  intro ctx
  apply run_bind_congr (Context.compoundSelect_blank q table (.ofRoot 0))
  intro f t u houtline
  exact outline_ok houtline

/-- Both texts of a paged query look the same. -/
theorem pageDrafts_blank (q : Query) :
    (c.pageDrafts q table).map (Prod.map Draft.outline Draft.outline) =
      (c.pageDrafts q.blank table).map (Prod.map Draft.outline Draft.outline) := by
  unfold pageDrafts
  rw [queryContext_blank, q.isEmpty_unions_blank]
  apply except_map_bind_right
  intro ctx
  split
  · apply run_bind_congr (Context.shownParts_blank q table (.ofRoot 0))
    intro parts t u houtline
    simp only [pure, Except.pure, Except.map, Prod.map, Draft.outline, houtline]
  · apply run_bind_congr (Context.compoundSelect_blank q table (.ofRoot 0))
    intro f t u houtline
    simp only [pure, Except.pure, Except.map, Prod.map, Draft.outline, houtline]

/-- So does the draft that counts it. -/
theorem validateDraft_blank (q : Query) : (c.validateDraft q table).map Draft.outline =
    (c.validateDraft q.blank table).map Draft.outline := by
  unfold validateDraft
  rw [queryContext_blank, q.isEmpty_unions_blank]
  apply except_map_bind_right
  intro ctx
  split
  · apply run_bind_congr (Context.selectParts_blank q table (.ofRoot 0) .counting)
    intro parts t u houtline
    exact outline_ok houtline
  · apply run_bind_congr (Context.compoundSelect_blank q table (.ofRoot 0))
    intro f t u houtline
    exact outline_ok houtline

/-- So does the draft of an insertion. -/
theorem insertDraft_blank (rows : List Insert) : (c.insertDraft rows table).map Draft.outline =
    (c.insertDraft (rows.map Insert.blank) table).map Draft.outline := by
  cases rows with
  | nil => rfl
  | cons first rest =>
    have htuples : Resolve.Agree
        ((first :: rest).zipIdx.mapM fun x => insertTuple x.2 x.1)
        (((first :: rest).map Insert.blank).zipIdx.mapM fun x => insertTuple x.2 x.1) := by
      rw [List.zipIdx_map]
      exact .mapM_eq fun x _ => Context.insertTuple_blank x.2 x.1
    have hempty : first.blank.values.isEmpty = first.values.isEmpty := List.isEmpty_map
    have hrows := checkRows_blank table first.fields 0 (first :: rest)
    rw [List.map_cons] at htuples hrows ⊢
    simp only [insertDraft, hempty, first.fields_blank, hrows]
    split
    · rfl
    · apply except_map_bind_right
      intro description
      apply except_map_bind_right
      intro columns
      apply except_map_bind_right
      intro _
      apply run_bind_congr htuples
      intro tuples t u houtline
      exact outline_ok houtline

/-- Drafts look the same where the runs that they come from agree. -/
theorem run_outline_eq {x y : Resolve Fragment} (h : Resolve.Agree x y) :
    x.run.map Draft.outline = y.run.map Draft.outline := h.run_map_eq

/-- The tables of an update are collected alike with other values. -/
theorem updateReferences_blank (u : Update) (table : String) :
    updateReferences u.blank table = updateReferences u table := by
  unfold updateReferences Update.blank
  rw [u.conditions.references_blank, joinReferences_blank]

/-- An update is checked before its values are looked at. -/
theorem checkUpdate_blank (u : Update) : c.checkUpdate u.blank table = c.checkUpdate u table := by
  have hsets : u.blank.sets.isEmpty = u.sets.isEmpty := List.isEmpty_map
  have hconditions : u.blank.conditions.isEmpty = u.conditions.isEmpty :=
    u.conditions.isEmpty_blank
  have hjoins : u.blank.joins.isEmpty = u.joins.isEmpty := Context.isEmpty_blankJoins u.joins
  rw [checkUpdate, hsets, hconditions, hjoins, checkUpdate]

/-- The draft of an update looks the same with other values. -/
theorem updateAt_blank (u : Update) (n : Nat) : (c.updateAt u table n).map Draft.outline =
    (c.updateAt u.blank table n).map Draft.outline := by
  have hrun : ∀ ctx : Context, (ctx.update u table (.ofRoot n)).run.map Draft.outline =
      (ctx.update u.blank table (.ofRoot n)).run.map Draft.outline := fun ctx =>
    run_outline_eq (Context.update_blank u table (.ofRoot n))
  rw [updateAt_eq, updateAt_eq, checkUpdate_blank, updateReferences_blank]
  exact except_map_bind_right fun _ => except_map_bind_right hrun

/-- So does the draft of a deletion. -/
theorem deleteDraft_blank (d : Delete) : (c.deleteDraft d table).map Draft.outline =
    (c.deleteDraft { d with conditions := d.conditions.blank } table).map Draft.outline := by
  unfold deleteDraft
  rw [d.conditions.isEmpty_blank, d.conditions.references_blank]
  split
  · rfl
  · apply except_map_bind_right
    intro ctx
    exact run_outline_eq (Context.delete_blank d table)

/-- Lists of drafts look the same where their members do. -/
theorem except_map_mapM_congr {α γ δ β : Type} {shown : β → δ} {f : α → Except Error β}
    {g : γ → Except Error β} {r : α → γ} {xs : List α}
    (h : ∀ x ∈ xs, (f x).map shown = (g (r x)).map shown) :
    (xs.mapM f).map (List.map shown) = ((xs.map r).mapM g).map (List.map shown) := by
  induction xs with
  | nil => rfl
  | cons x xs ih =>
    rw [List.map_cons, List.mapM_cons, List.mapM_cons]
    have hrest := ih fun x' hx' => h x' (List.mem_cons_of_mem x hx')
    apply except_map_bind_congr (h x List.mem_cons_self)
    intro a b hab
    apply except_map_bind_congr hrest
    intro as bs habs
    exact congrArg Except.ok (congrArg₂ List.cons hab habs)

/-- So do the drafts of a batch. -/
theorem batchDrafts_blank (us : List Update) :
    (c.batchDrafts us table).map (List.map Draft.outline) =
      (c.batchDrafts (us.map Update.blank) table).map (List.map Draft.outline) := by
  have hdrafts : (us.zipIdx.mapM fun x => c.updateAt x.1 table x.2).map (List.map Draft.outline) =
      ((us.map Update.blank).zipIdx.mapM fun x => c.updateAt x.1 table x.2).map
        (List.map Draft.outline) := by
    rw [List.zipIdx_map]
    exact except_map_mapM_congr fun x _ => updateAt_blank x.1 x.2
  unfold batchDrafts
  rw [List.isEmpty_map]
  split
  · rfl
  · exact hdrafts

/-- The text of a draft is read off its outline. -/
theorem render_congr {a b : Draft} (h : a.outline = b.outline) : c.render a = c.render b := by
  obtain ⟨hfragment, htrace⟩ := Prod.mk.inj h
  obtain ⟨hmentioned, -⟩ := Prod.mk.inj htrace
  unfold render
  rw [hfragment, hmentioned]

/-- The keys of the bound values are read off the outline of a draft. -/
theorem keys_congr {a b : Draft} (h : a.outline = b.outline) (space : Namespace) :
    (Params.ofBound a.2.bound).keys space = (Params.ofBound b.2.bound).keys space :=
  Params.keys_ofBound_congr (Prod.mk.inj (Prod.mk.inj h).2).2 space

/-- Statements of drafts that look the same look the same. -/
theorem compiled_congr {x y : Except Error Draft}
    (h : x.map Draft.outline = y.map Draft.outline) :
    (do return Statement.compiled (← (do return c.finish (← x))) : Except Error Compiled).map
        Compiled.outline =
      (do return Statement.compiled (← (do return c.finish (← y))) : Except Error Compiled).map
        Compiled.outline := by
  have hcompiled : ∀ x : Except Error Draft,
      (do return Statement.compiled (← (do return c.finish (← x))) : Except Error Compiled) =
        x >>= fun draft => pure (c.finish draft).compiled := fun x => by cases x <;> rfl
  rw [hcompiled, hcompiled]
  apply except_map_bind_congr h
  intro a b hab
  have houtline : (c.finish a).compiled.outline = (c.finish b).compiled.outline := by
    simp only [Compiled.outline, Statement.compiled, finish, render_congr hab, keys_congr hab]
  exact congrArg Except.ok houtline

/-- What is made of a paged query looks the same, if it is made of its texts and their values
alike. -/
theorem page_congr {β δ : Type} {shown : β → δ} {f g : PagedStatement → Except Error β} (q : Query)
    (hfg : ∀ p p', p.countSql = p'.countSql → p.baseSql = p'.baseSql →
      (∀ space, p.params.keys space = p'.params.keys space) → p.dialect = p'.dialect →
      (f p).map shown = (g p').map shown) :
    (c.page q table >>= f).map shown = (c.page q.blank table >>= g).map shown := by
  have hpage : ∀ (q : Query) (f : PagedStatement → Except Error β), (c.page q table >>= f) =
      c.pageDrafts q table >>= fun drafts => f ⟨c.render drafts.1, c.render drafts.2,
        .ofBound drafts.2.2.bound, c.dialect⟩ := by
    intro q f
    unfold page
    cases c.pageDrafts q table <;> rfl
  rw [hpage, hpage]
  apply except_map_bind_congr (pageDrafts_blank q)
  rintro ⟨count, base⟩ ⟨count', base'⟩ hseen
  obtain ⟨hcount, hbase⟩ := Prod.mk.inj hseen
  exact hfg _ _ (render_congr hcount) (render_congr hbase) (keys_congr hbase) rfl

/-- A batch of drafts that look the same is printed alike, with values bound to the same keys. -/
theorem updateBatch_blank (us : List Update) :
    (c.compile table (.updateBatch us)).map Compiled.outline =
      (c.compile table (.updateBatch (us.map Update.blank))).map Compiled.outline := by
  have hbatch : ∀ us : List Update, c.compile table (.updateBatch us) =
      c.batchDrafts us table >>= fun drafts =>
        pure ⟨[String.join (drafts.map fun draft => c.render draft ++ ";")],
          .ofBound (drafts.flatMap (·.2.bound))⟩ := by
    intro us
    rw [compile, updateBatch]
    cases c.batchDrafts us table <;> rfl
  rw [hbatch, hbatch]
  apply except_map_bind_congr (batchDrafts_blank us)
  intro drafts drafts' hseen
  have htexts : drafts.map (fun draft => c.render draft ++ ";") =
      drafts'.map fun draft => c.render draft ++ ";" := by
    have hprint := congrArg (List.map fun outline : Fragment × List Token × List Slot =>
      outline.1.render c.root (.ofMentions outline.2.1) ++ ";") hseen
    rw [List.map_map, List.map_map] at hprint
    exact hprint
  have hplaces : (drafts.flatMap (·.2.bound)).map (·.1) =
      (drafts'.flatMap (·.2.bound)).map (·.1) := by
    have hslots := congrArg (List.flatMap fun outline : Fragment × List Token × List Slot =>
      outline.2.2) hseen
    rw [List.flatMap_map, List.flatMap_map] at hslots
    rw [List.map_flatMap, List.map_flatMap]
    exact hslots
  have hkeys := Params.keys_ofBound_congr hplaces
  simp only [pure, Except.pure, Except.map, Compiled.outline, htexts, hkeys]

/-- A description and its blanked form are compiled to the same texts with values bound to the same
keys, or refused with the same error. -/
theorem compile_blank (c : Compiler) (table : String) (d : Description) :
    (c.compile table d).map Compiled.outline = (c.compile table d.blank).map Compiled.outline := by
  cases d with
  | select q => exact compiled_congr (selectDraft_blank q)
  | findOne q =>
    have hdrafts : (c.selectDraft (q.limit 1) table).map Draft.outline = _ :=
      selectDraft_blank (q.limit 1)
    rw [q.blank_limit] at hdrafts
    exact compiled_congr hdrafts
  | page q =>
    apply page_congr q
    intro p p' hcount hbase hkeys _
    simp only [pure, Except.pure, Except.map, Compiled.outline, hcount, hbase, hkeys]
  | pageAt q number size =>
    apply page_congr q
    intro p p' _ hbase hkeys hdialect
    unfold PagedStatement.pageSql
    rw [hdialect, hbase]
    apply except_map_bind_right
    intro sql
    simp only [pure, Except.pure, Except.map, Compiled.outline, hkeys]
  | validate q => exact compiled_congr (validateDraft_blank q)
  | insert row => exact compiled_congr (insertDraft_blank [row])
  | insertRows rows => exact compiled_congr (insertDraft_blank rows)
  | update u => exact compiled_congr (updateAt_blank u 0)
  | updateBatch us => exact updateBatch_blank us
  | delete d => exact compiled_congr (deleteDraft_blank d)

/-- Descriptions that differ in bound values only are compiled to the same texts with values bound
to the same keys, or refused with the same error. -/
theorem compile_independent (c : Compiler) (table : String) {d d' : Description}
    (h : d.blank = d'.blank) :
    (c.compile table d).map Compiled.outline = (c.compile table d').map Compiled.outline := by
  rw [c.compile_blank table d, h, ← c.compile_blank table d']

/-- Customers with one of several numbers and a letter in their names. -/
def namesakes (numbers letter : Value) : Description :=
  .select <| HasConditions.member .isIn "id" numbers <| HasConditions.like .around "name" letter <|
    (Query.new "c" (some "customer")).select "name"

/-- Two numbers in a list and two numbers between commas make the same text. -/
theorem namesakes_independent :
    let listed := namesakes (.list [.int 1, .int 2]) (.string "a")
    let written := namesakes (.string "3,4") (.int 5)
    (shop.compile "customer" listed).isOk = true ∧ listed.blank = written.blank ∧
      (shop.compile "customer" listed).map Compiled.outline =
        (shop.compile "customer" written).map Compiled.outline := by
  intro listed written
  have hok : (shop.compile "customer" listed).isOk = true := by decide +kernel
  have hblank : listed.blank = written.blank := by cbv
  exact ⟨hok, hblank, compile_independent shop "customer" hblank⟩

end Compiler

end DynamicSql
