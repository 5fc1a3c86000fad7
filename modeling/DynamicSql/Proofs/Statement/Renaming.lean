import DynamicSql.Proofs.Resolve.Renaming
import DynamicSql.Proofs.Statement.Description

/-!
# Statements do not depend on tokens

A statement shows aliases and never tokens. When the tokens of a description are renamed one to one,
what is compiled stays the same, texts and values, and where nothing is compiled the error is of the
same kind (`compile_rename`). The names that are left out of the shown columns are no part of
this: they are compared as texts, so a name that looks like a reference keeps its token
(`removed_reference_is_not_renamed`).
-/

namespace DynamicSql

variable {ρ : Renaming}

/-- A description, where tokens are renamed. Rows to insert have none. -/
def Description.rename (ρ : Renaming) : Description → Description
  | .select q => .select (q.rename ρ)
  | .findOne q => .findOne (q.rename ρ)
  | .page q => .page (q.rename ρ)
  | .pageAt q number size => .pageAt (q.rename ρ) number size
  | .validate q => .validate (q.rename ρ)
  | .insert row => .insert row
  | .insertRows rows => .insertRows rows
  | .update u => .update (u.rename ρ)
  | .updateBatch us => .updateBatch (us.map (Update.rename ρ))
  | .delete d => .delete (d.rename ρ)

/-- The queries that are shown for an update: those that are joined, and those in its conditions. -/
def Update.shown (u : Update) (table : String) : List Shown :=
  joinShown (some table) u.joins ++ u.conditions.shown

/-- The queries that are shown for a description. -/
def Description.shown (table : String) : Description → List Shown
  | .select q | .page q | .pageAt q _ _ | .validate q => q.allShown table
  | .findOne q => (q.limit 1).allShown table
  | .insert _ | .insertRows _ => []
  | .update u => u.shown table
  | .updateBatch us => us.flatMap (Update.shown · table)
  | .delete d => d.conditions.shown

/-- A draft, where tokens are renamed. -/
def Draft.rename (ρ : Renaming) (draft : Draft) : Draft :=
  (Fragment.rename ρ draft.1, draft.2.rename ρ)

/-- The branches of a renamed query are its renamed branches. -/
theorem Query.unions_rename (q : Query) : (q.rename ρ).unions = renameBranches ρ q.unions := by
  cases q
  rfl

/-- The clauses of a renamed query are its renamed clauses. -/
theorem Query.clauses_rename (q : Query) : (q.rename ρ).clauses = q.clauses.rename ρ := by
  cases q
  rfl

/-- Renaming keeps the limit of a query. -/
theorem Query.rename_limit (q : Query) (n : UInt64) :
    (q.limit n).rename ρ = (q.rename ρ).limit n := by
  cases q
  rfl

/-- Branches are as many with renamed tokens. -/
theorem isEmpty_renameBranches (branches : List UnionBranch) :
    (renameBranches ρ branches).isEmpty = branches.isEmpty := by
  cases branches with
  | nil => rw [renameBranches]
  | cons branch rest =>
    cases branch
    rw [renameBranches, List.isEmpty_cons, List.isEmpty_cons]

/-- Joins are as many with renamed tokens. -/
theorem isEmpty_renameJoins (joins : List Join) :
    (renameJoins ρ joins).isEmpty = joins.isEmpty := by
  cases joins with
  | nil => rw [renameJoins]
  | cons join rest =>
    cases join
    rw [renameJoins, List.isEmpty_cons, List.isEmpty_cons]

/-- Groups of conditions are empty whatever the tokens in them. -/
theorem ConditionGroup.isEmpty_rename : ∀ g : ConditionGroup, (g.rename ρ).isEmpty = g.isEmpty
  | ⟨[], []⟩ => by
    rw [ConditionGroup.rename, renameConditions, renameSubgroups]
  | ⟨[], ⟨_, _⟩ :: _⟩ => by
    rw [ConditionGroup.rename, renameConditions, renameSubgroups]
    rfl
  | ⟨⟨_, _, _⟩ :: _, _⟩ => by
    rw [ConditionGroup.rename, renameConditions]
    rfl

namespace Context

open Resolve

variable {ctx : Context}

/-- The parts of a renamed query are its renamed parts. -/
theorem shownParts_renamed (q : Query) (table : String) (path : Path)
    (h : ctx.schema.OmitsAlike ρ (q.shown (some table))) :
    Renamed ρ (SelectParts.mapped (.rename ρ)) (ctx.shownParts table path q)
      ((ctx.rename ρ).shownParts table path (q.rename ρ)) := by
  apply (selectParts_renamed q table path .everything h).bind
  intro parts
  exact (requireColumns_renamed parts _).map fun _ => rfl

/-- A query is resolved with its unions like the one before tokens were renamed. -/
theorem compoundSelect_renamed (q : Query) (table : String) (path : Path)
    (h : ctx.schema.OmitsAlike ρ (q.allShown table)) :
    Renamed ρ (Fragment.rename ρ) (ctx.compoundSelect table path q)
      ((ctx.rename ρ).compoundSelect table path (q.rename ρ)) := by
  unfold compoundSelect
  rw [q.unions_rename]
  apply (shownParts_renamed q table path h.left).bind
  intro parts
  refine (unionBranches_renamed q.unions table path 0 h.right).map
    fun branches => ?_
  simp only [mapped_compound, SelectParts.mapped_select]

/-- Assignments to a table with another token show this token. -/
theorem assignments_renamed (scope : Scope) (qualify : Bool) (path : Path) (i : Nat)
    (sets : List Assignment) :
    Renamed ρ (List.map (Fragment.rename ρ)) (assignments scope qualify path i sets)
      (assignments (scope.rename ρ) qualify path i sets) := by
  induction sets generalizing i with
  | nil => exact .pure rfl
  | cons a rest ih =>
    rw [assignments, assignments]
    refine (ofExcept_renamed _).bind fun column => ?_
    refine (bound_renamed ⟨.assigned, path, i, none⟩ a.value).bind fun marker => ?_
    refine (ih (i + 1)).map fun others => ?_
    have htarget : Fragment.qualified (if qualify then (scope.rename ρ).token? else none) column =
        (Fragment.qualified (if qualify then scope.token? else none) column).rename ρ := by
      rw [Fragment.rename_qualified]
      split <;> rfl
    rw [id, htarget, List.map_cons]
    exact congrArg (· :: _) (mapped_assignmentText a.change _ marker).symm

/-- The tail of a writing statement shows what rows are ordered by. -/
theorem writeTail_renamed (d : Dialect) (statement table : String) (orders : List Fragment)
    (limit : Option UInt64) :
    Renamed ρ (Fragment.rename ρ) (Resolve.ofExcept (writeTail d statement table orders limit))
      (Resolve.ofExcept
        (writeTail d statement table (orders.map (Fragment.rename ρ)) limit)) := by
  unfold writeTail
  rw [List.isEmpty_map]
  cases d.checkBounds statement table (!orders.isEmpty) limit with
  | error e => exact .fail rfl
  | ok _ =>
    refine .pure ?_
    simp only [Fragment.mapped_append, mapped_clause]
    rfl

/-- An update is resolved like the one before tokens were renamed. -/
theorem update_renamed (u : Update) (table : String) (path : Path)
    (h : ctx.schema.OmitsAlike ρ (u.shown table)) :
    Renamed ρ (Fragment.rename ρ) (ctx.update u table path)
      ((ctx.rename ρ).update (u.rename ρ) table path) := by
  have hdialect : (ctx.rename ρ).dialect = ctx.dialect := rfl
  unfold update
  refine Coupled.bind (openScope_renamed u.token table) fun scope _ hscope => ?_
  obtain ⟨rfl, -⟩ := hscope
  refine (joined_renamed u.joins scope (path.child "cl") .conditionsOnly 0 (some table)
    h.left).bind fun added => ?_
  have hjoins : (u.rename ρ).joins.isEmpty = u.joins.isEmpty := isEmpty_renameJoins u.joins
  rw [hjoins]
  refine (assignments_renamed scope _ (path.child "u") 0 u.sets).bind fun sets => ?_
  refine (groupTerms_renamed u.conditions scope (path.child "ut")
    h.right).bind fun terms => ?_
  rw [isEmpty_mappedTerms]
  -- An update without conditions is refused under both tokens.
  split
  · exact .fail rfl
  · have horders : Renamed ρ (List.map (Fragment.rename ρ)) (u.orders.mapM (ctx.orderItem scope))
        ((u.rename ρ).orders.mapM ((ctx.rename ρ).orderItem (scope.rename ρ))) :=
      .mapM fun item _ => orderItem_renamed item
    refine horders.bind fun orders => ?_
    rw [hdialect]
    refine (writeTail_renamed ctx.dialect "update" table orders u.limit).map fun tail => ?_
    simp only [Fragment.mapped_cons, Fragment.mapped_append, Fragment.mapped_join,
      mapped_combineWhere, List.map_cons, Term.mapped_whereText]
    rfl

/-- A deletion is resolved like the one before tokens were renamed. -/
theorem delete_renamed (d : Delete) (table : String)
    (h : ctx.schema.OmitsAlike ρ d.conditions.shown) :
    Renamed ρ (Fragment.rename ρ) (ctx.delete d table)
      ((ctx.rename ρ).delete (d.rename ρ) table) := by
  have hdialect : (ctx.rename ρ).dialect = ctx.dialect := rfl
  unfold delete
  refine (ofExcept_renamed _).bind fun description => ?_
  refine (groupTerms_renamed d.conditions ⟨table, none, description⟩ _ h).bind fun terms => ?_
  rw [isEmpty_mappedTerms]
  split
  · exact .fail rfl
  · rw [hdialect]
    refine (writeTail_renamed ctx.dialect "delete" table [] d.limit).map fun tail => ?_
    simp only [Fragment.mapped_cons, Fragment.mapped_append, Term.mapped_whereText]
    rfl

end Context

/-- Renamed tokens are distinct where the tokens are. -/
theorem checkTokens_rename (former references : List (Token × String)) :
    Matched Error.SameKind Eq (checkTokens former references)
      (checkTokens (renameReferences ρ former) (renameReferences ρ references)) := by
  induction references generalizing former with
  | nil => exact .ok rfl
  | cons r rest ih =>
    obtain ⟨token, table⟩ := r
    have hformer : (renameReferences ρ former).lookup (ρ.apply token) = former.lookup token :=
      lookup_renameReferences former token
    have hcons : renameReferences ρ ((token, table) :: rest) =
        (ρ.apply token, table) :: renameReferences ρ rest := rfl
    rw [hcons, checkTokens, checkTokens, hformer]
    cases former.lookup token with
    | some previous => exact .error rfl
    | none => exact ih ((token, table) :: former)

namespace Compiler

variable {c : Compiler} {table : String}

/-- The context of renamed tables is the renamed context. -/
theorem context_rename (references : List (Token × String)) :
    Matched Error.SameKind
      (fun ctx ctx' => ctx' = ctx.rename ρ ∧ ctx.schema = c.schema)
      (c.context references) (c.context (renameReferences ρ references)) := by
  have hdistinct : Matched Error.SameKind
      (fun found found' => found' = renameReferences ρ found) (distinctReferences references)
      (distinctReferences (renameReferences ρ references)) :=
    (checkTokens_rename [] references).bind fun _ _ _ => .ok rfl
  exact hdistinct.bind fun found found' hfound => .ok ⟨by rw [hfound]; rfl, rfl⟩

/-- What is resolved in the context of a statement is resolved in the renamed one. -/
theorem context_bind_rename {α β γ δ : Type} {references : List (Token × String)} {φ : α → β}
    {R : γ → δ → Prop} {x : Context → Resolve α} {y : Context → Resolve β}
    {f : α × Trace → Except Error γ} {g : β × Trace → Except Error δ}
    (hxy : ∀ ctx : Context, ctx.schema = c.schema →
      Resolve.Renamed ρ φ (x ctx) (y (ctx.rename ρ)))
    (hfg : ∀ a t, Matched Error.SameKind R (f (a, t)) (g (φ a, t.rename ρ))) :
    Matched Error.SameKind R
      (c.context references >>= fun ctx => (x ctx).run >>= f)
      (c.context (renameReferences ρ references) >>= fun ctx => (y ctx).run >>= g) := by
  refine (context_rename references).bind fun ctx _ hctx => ?_
  obtain ⟨rfl, hschema⟩ := hctx
  refine (hxy ctx hschema).run_bind fun a t b u hab htu => ?_
  rw [hab, htu]
  exact hfg a t

/-- The draft of a renamed query is its renamed draft. -/
theorem selectDraft_rename (q : Query) (h : c.schema.OmitsAlike ρ (q.allShown table)) :
    Matched Error.SameKind (fun a b => b = Draft.rename ρ a)
      (c.selectDraft q table) (c.selectDraft (q.rename ρ) table) := by
  unfold selectDraft queryContext
  rw [q.references_rename, q.clauses_rename]
  refine context_bind_rename (φ := Fragment.rename ρ) (fun ctx hschema => ?_) fun f t => .ok ?_
  · exact Context.compoundSelect_renamed q table (.ofRoot 0) (hschema ▸ h)
  · simp only [Draft.rename, Fragment.mapped_append]
    rfl

/-- Rows are counted by the same text around renamed ones. -/
theorem rename_countRows (f : Fragment) :
    (countRows f).rename ρ = countRows (f.rename ρ) := by
  simp only [countRows, Fragment.mapped_cons, Fragment.mapped_append, Fragment.mapped_parens]
  rfl

/-- So are the rows of a renamed `SELECT`. -/
theorem rename_countBody (parts : SelectParts) :
    (countBody parts).rename ρ = countBody (parts.mapped (.rename ρ)) := by
  simp only [countBody, Fragment.mapped_cons, SelectParts.mapped_body]
  rfl

/-- The drafts of a page of a renamed query are the renamed drafts. -/
theorem pageDrafts_rename (q : Query) (h : c.schema.OmitsAlike ρ (q.allShown table)) :
    Matched Error.SameKind (fun a b => b = a.map (Draft.rename ρ) (Draft.rename ρ))
      (c.pageDrafts q table) (c.pageDrafts (q.rename ρ) table) := by
  have hunions : (q.rename ρ).unions.isEmpty = q.unions.isEmpty := by
    rw [q.unions_rename, isEmpty_renameBranches]
  unfold pageDrafts queryContext
  rw [q.references_rename, hunions]
  split
  · refine context_bind_rename (φ := SelectParts.mapped (.rename ρ)) (fun ctx hschema => ?_)
      fun parts t => .ok ?_
    · exact Context.shownParts_renamed q table (.ofRoot 0) (hschema ▸ h.left)
    · have hgroups : (parts.mapped (.rename ρ)).collected.groups.isEmpty =
          parts.collected.groups.isEmpty := List.isEmpty_map
      rw [hgroups, ← SelectParts.mapped_select, ← rename_countBody, ← rename_countRows]
      split <;> rfl
  · refine context_bind_rename (φ := Fragment.rename ρ) (fun ctx hschema => ?_) fun f t => .ok ?_
    · exact Context.compoundSelect_renamed q table (.ofRoot 0) (hschema ▸ h)
    · rw [← rename_countRows]
      rfl

/-- The draft that counts a renamed query is the renamed draft. -/
theorem validateDraft_rename (q : Query) (h : c.schema.OmitsAlike ρ (q.allShown table)) :
    Matched Error.SameKind (fun a b => b = Draft.rename ρ a)
      (c.validateDraft q table) (c.validateDraft (q.rename ρ) table) := by
  have hunions : (q.rename ρ).unions.isEmpty = q.unions.isEmpty := by
    rw [q.unions_rename, isEmpty_renameBranches]
  unfold validateDraft queryContext
  rw [q.references_rename, hunions]
  split
  · refine context_bind_rename (φ := SelectParts.mapped (.rename ρ)) (fun ctx hschema => ?_)
      fun parts t => .ok ?_
    · exact Context.selectParts_renamed q table (.ofRoot 0) .counting (hschema ▸ h.left)
    · rw [← rename_countBody]
      rfl
  · refine context_bind_rename (φ := Fragment.rename ρ) (fun ctx hschema => ?_) fun f t => .ok ?_
    · exact Context.compoundSelect_renamed q table (.ofRoot 0) (hschema ▸ h)
    · rw [← rename_countRows]
      rfl

/-- The tables of a renamed update are collected with renamed tokens. -/
theorem updateReferences_rename (u : Update) :
    updateReferences (u.rename ρ) table = renameReferences ρ (updateReferences u table) := by
  simp only [updateReferences, Update.rename, u.conditions.references_rename,
    joinReferences_rename, renameReferences_append]
  rfl

/-- An update is checked before its tokens are looked at. -/
theorem checkUpdate_rename (u : Update) :
    c.checkUpdate (u.rename ρ) table = c.checkUpdate u table := by
  have hconditions : (u.rename ρ).conditions.isEmpty = u.conditions.isEmpty :=
    u.conditions.isEmpty_rename
  have hjoins : (u.rename ρ).joins.isEmpty = u.joins.isEmpty := isEmpty_renameJoins u.joins
  have hsets : (u.rename ρ).sets = u.sets := rfl
  rw [checkUpdate, hsets, hconditions, hjoins, checkUpdate]

/-- An update that is refused is refused when its tokens are renamed. -/
theorem updateAt_rename (u : Update) (n : Nat) (h : c.schema.OmitsAlike ρ (u.shown table)) :
    Matched Error.SameKind (fun a b => b = Draft.rename ρ a)
      (c.updateAt u table n) (c.updateAt (u.rename ρ) table n) := by
  have hdraft : Matched Error.SameKind (fun a b => b = Draft.rename ρ a)
      (c.context (updateReferences u table) >>= fun ctx => (ctx.update u table (.ofRoot n)).run)
      (c.context (updateReferences (u.rename ρ) table) >>= fun ctx =>
        (ctx.update (u.rename ρ) table (.ofRoot n)).run) := by
    rw [updateReferences_rename]
    refine (context_rename _).bind fun ctx _ hctx => ?_
    obtain ⟨rfl, hschema⟩ := hctx
    exact Matched.mono (Context.update_renamed u table (.ofRoot n) (hschema ▸ h)) fun a b hab =>
      Prod.ext hab.1 hab.2
  rw [updateAt_eq, updateAt_eq, checkUpdate_rename]
  cases c.checkUpdate u table with
  | error e => exact .error rfl
  | ok _ => exact hdraft

/-- The drafts of renamed updates are the renamed drafts. -/
theorem batchDrafts_rename (us : List Update)
    (h : c.schema.OmitsAlike ρ (us.flatMap (Update.shown · table))) :
    Matched Error.SameKind (fun a b => b = a.map (Draft.rename ρ))
      (c.batchDrafts us table) (c.batchDrafts (us.map (Update.rename ρ)) table) := by
  unfold batchDrafts
  rw [List.isEmpty_map, List.zipIdx_map]
  split
  · exact .error rfl
  · have hmembers : List.Forall₂ (fun x y => Matched Error.SameKind
        (fun a b => b = Draft.rename ρ a) (c.updateAt x.1 table x.2) (c.updateAt y.1 table y.2))
        us.zipIdx (us.zipIdx.map (Prod.map (Update.rename ρ) id)) := by
      rw [List.forall₂_map_right_iff]
      refine List.forall₂_same.mpr fun x hx => updateAt_rename x.1 x.2 fun s hs => h s ?_
      exact List.mem_flatMap_of_mem (List.fst_mem_of_mem_zipIdx hx) hs
    refine (Matched.mapM hmembers).mono fun drafts drafts' hdrafts => ?_
    induction hdrafts with
    | nil => rfl
    | cons hdraft _ ih => rw [hdraft, ih, List.map_cons]

/-- The draft of a renamed deletion is the renamed draft. -/
theorem deleteDraft_rename (d : Delete) (h : c.schema.OmitsAlike ρ d.conditions.shown) :
    Matched Error.SameKind (fun a b => b = Draft.rename ρ a)
      (c.deleteDraft d table) (c.deleteDraft (d.rename ρ) table) := by
  have hconditions : (d.rename ρ).conditions = d.conditions.rename ρ := rfl
  unfold deleteDraft
  rw [hconditions, d.conditions.isEmpty_rename, d.conditions.references_rename]
  split
  · exact .error rfl
  · refine (context_rename _).bind fun ctx _ hctx => ?_
    obtain ⟨rfl, hschema⟩ := hctx
    exact Matched.mono (Context.delete_renamed d table (hschema ▸ h)) fun a b hab =>
      Prod.ext hab.1 hab.2

/-- A draft prints alike when its tokens are renamed. -/
theorem render_rename (draft : Draft) : c.render (draft.rename ρ) = c.render draft :=
  Fragment.render_rename c.root draft.1 draft.2.mentioned

/-- The statement of a draft stays the same when its tokens are renamed. -/
theorem finish_rename (draft : Draft) : c.finish (draft.rename ρ) = c.finish draft := by
  rw [finish, finish, render_rename]
  rfl

/-- Renamed drafts are finished alike. -/
theorem compiled_rename {x y : Except Error Draft}
    (h : Matched Error.SameKind (fun a b => b = Draft.rename ρ a) x y) :
    Matched Error.SameKind Eq
      (do return Statement.compiled (← (do return c.finish (← x))))
      (do return Statement.compiled (← (do return c.finish (← y)))) := by
  cases h with
  | error hkind => exact .error hkind
  | ok hdraft =>
    subst hdraft
    exact .ok (congrArg Statement.compiled (finish_rename _).symm)

/-- A page of a renamed query is made as that of the query is. -/
theorem page_rename (q : Query) (h : c.schema.OmitsAlike ρ (q.allShown table)) :
    Matched Error.SameKind Eq (c.page q table) (c.page (q.rename ρ) table) := by
  refine (pageDrafts_rename q h).bind fun drafts _ hdrafts => ?_
  subst hdrafts
  refine .ok ?_
  obtain ⟨count, base⟩ := drafts
  simp only [render_rename]
  rfl

/-- A batch of renamed updates is made as that of the updates is. -/
theorem updateBatch_rename (us : List Update)
    (h : c.schema.OmitsAlike ρ (us.flatMap (Update.shown · table))) :
    Matched Error.SameKind Eq (c.updateBatch us table)
      (c.updateBatch (us.map (Update.rename ρ)) table) := by
  refine (batchDrafts_rename us h).bind fun drafts _ hdrafts => ?_
  subst hdrafts
  refine .ok ?_
  simp only [List.map_map, List.flatMap_map, Function.comp_def, render_rename]
  rfl

/-- What a description is compiled to does not depend on its tokens. When they are renamed one to
one, wherever they are resolved, and the same columns are left out, both descriptions are compiled
to the same texts with the same values, or both are refused with errors of the same kind. Any
one-to-one choice of tokens for those of a description belongs to a renaming
(`Renaming.exists_of_injOn`). -/
theorem compile_rename (c : Compiler) (table : String) (d : Description) (ρ : Renaming)
    (h : c.schema.OmitsAlike ρ (d.shown table)) :
    Matched Error.SameKind (fun out out' => out' = out) (c.compile table d)
      (c.compile table (d.rename ρ)) := by
  suffices hsame : Matched Error.SameKind Eq (c.compile table d)
      (c.compile table (d.rename ρ)) from hsame.mono fun _ _ heq => heq.symm
  cases d with
  | select q => exact compiled_rename (selectDraft_rename q h)
  | findOne q =>
    have hdraft := selectDraft_rename (q.limit 1) h
    rw [q.rename_limit] at hdraft
    exact compiled_rename hdraft
  | page q => exact (page_rename q h).bind fun _ _ hp => .ok (by rw [hp])
  | pageAt q number size =>
    refine (page_rename q h).bind fun p _ hp => ?_
    subst hp
    cases p.pageSql number size with
    | error e => exact .error rfl
    | ok sql => exact .ok rfl
  | validate q => exact compiled_rename (validateDraft_rename q h)
  | insert row => exact .refl (E := Error.SameKind) (fun _ => rfl) _ fun _ => rfl
  | insertRows rows => exact .refl (E := Error.SameKind) (fun _ => rfl) _ fun _ => rfl
  | update u => exact compiled_rename (updateAt_rename u 0 h)
  | updateBatch us =>
    refine (updateBatch_rename us h).bind fun _ _ hs => .ok (by rw [hs])
  | delete d => exact compiled_rename (deleteDraft_rename d h)

/-- Orders with the names of their buyers, whose table has the given token. The columns with the
given name are left out. -/
def ordersOfBuyers (token : Token) (name : String) : Query :=
  let buyers := Query.new token (some "customer")
  ((((Query.new "o" (some "orders")).select "id").select (buyers.fieldRef "name")).remove
    name).leftJoin (Join.new "customer_id" "id" buyers)

/-- Orders up to a bound that depends on the buyer. -/
def smallOrders (token : Token) : Query :=
  HasConditions.compare .lessThan ("total*#tas_" ++ token ++ ".id") (.int 99)
    (ordersOfBuyers token "id")

/-- The tokens of two tables change places. -/
def exchanged : Renaming := .swap "c" "d" (by decide) (by decide)

/-- The statement on small orders does not tell which token the buyers have. -/
theorem smallOrders_rename :
    ∃ out, shop.compile "orders" (.select (smallOrders "c")) = .ok out ∧
      shop.compile "orders" (.select (smallOrders "d")) = .ok out := by
  have hfields : ∀ t ∈ shop.schema.tables, ∀ c ∈ t.2.columns, ¬HoldsReference c.field := by
    decide +kernel
  have hremoved : ∀ s ∈ Description.shown "orders" (.select (smallOrders "c")),
      ∀ name ∈ s.query.clauses.removed,
        exchanged.removed name = name ∧ ¬HoldsReference name := by
    decide +kernel
  have homitted : shop.schema.OmitsAlike exchanged
      (Description.shown "orders" (.select (smallOrders "c"))) :=
    Schema.omitsAlike_of_not_holdsReference hfields hremoved
  have hsame := compile_rename shop "orders" (.select (smallOrders "c")) exchanged homitted
  obtain ⟨out, hout⟩ : ∃ out, shop.compile "orders" (.select (smallOrders "c")) = .ok out :=
    except_exists_ok (by decide +kernel)
  obtain ⟨_, hrenamed, rfl⟩ := hsame.exists_ok hout
  exact ⟨_, hout, hrenamed⟩

/-- A name that is left out is compared as a text, also where it looks like a reference. So when the
token of the buyers is renamed and the name is not, their names are no longer left out. -/
theorem removed_reference_is_not_renamed :
    (Description.select (ordersOfBuyers "c" "#tas_c.name")).rename exchanged =
      .select (ordersOfBuyers "d" "#tas_c.name") ∧
    (shop.compile "orders" (.select (ordersOfBuyers "c" "#tas_c.name"))).toOption.map (·.texts) =
      some ["SELECT t0.id FROM orders t0 LEFT JOIN customer t1 ON (t0.customer_id = t1.id)"] ∧
    (shop.compile "orders" (.select (ordersOfBuyers "d" "#tas_c.name"))).toOption.map (·.texts) =
      some ["SELECT t0.id, t1.name FROM orders t0 " ++
        "LEFT JOIN customer t1 ON (t0.customer_id = t1.id)"] := by
  refine ⟨rfl, ?_, ?_⟩
  · decide +kernel
  · decide +kernel

end Compiler

end DynamicSql
