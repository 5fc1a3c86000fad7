import DynamicSql.Proofs.Resolve.Realised
import DynamicSql.Proofs.Statement.Landmarks

/-!
# Drafts show their landmarks

Every draft that a description is compiled to has the marks of its landmarks, in their order, and
its trace accounts for them.
-/

namespace DynamicSql

open Landmark (mark)

/-- A draft shows landmarks. -/
abbrev Draft.Shows (draft : Draft) (ls : List Landmark) : Prop :=
  DynamicSql.Shows draft.1.marks draft.2 ls

/-- Counting adds no mark to what is counted. -/
@[simp] theorem marks_countRows (f : Fragment) : (countRows f).marks = f.marks := by
  simp [countRows]

/-- Where rows are counted, the marks are those behind the columns. -/
@[simp] theorem marks_countBody (parts : SelectParts) :
    (countBody parts).marks = parts.body.marks := rfl

namespace Context

open Resolve

variable {ctx : Context} {f : Fragment} {t : Trace}

/-- Values set in a row have their markers in a row. -/
theorem assignments_shows {scope : Scope} {qualify : Bool} {path : Path} {sets : List Assignment}
    {i : Nat} {fs : List Fragment} (h : (assignments scope qualify path i sets).Yields fs t) :
    Shows (fs.flatMap Fragment.marks) t
      ((sets.zipIdx i).map fun x => .value ⟨.assigned, path, x.2, none⟩ x.1.value) := by
  induction sets generalizing i fs t with
  | nil =>
    obtain ⟨rfl, rfl⟩ := pure_yields.mp h
    exact ⟨rfl, .of_bound_eq_nil rfl⟩
  | cons a rest ih =>
    obtain ⟨column, others, t', -, hothers, rfl, rfl⟩ := assignments_cons_yields h
    have htext : (assignmentText a.change
        (.qualified (if qualify then scope.token? else none) column)
        (.marker ⟨.assigned, path, i, none⟩)).marks = [.inr ⟨.assigned, path, i, none⟩] := by
      cases a.change <;> simp [assignmentText]
    rw [List.zipIdx_cons, List.map_cons, List.flatMap_cons, htext]
    exact (Shows.value _ a.value).append (ih hothers)

/-- The conditions of a statement and of its joins stand one after the other. -/
theorem marks_combineWhere (root : String) (terms : List Term) (conditions : List Fragment) :
    (combineWhere root (Term.whereText terms :: conditions)).marks =
      (Term.leaves terms).marks ++ conditions.flatMap Fragment.marks := by
  unfold Fragment.marks
  rw [filterMap_combineWhere mark?_reading, List.flatMap_cons, filterMap_whereText mark?_reading]

/-- The marks of an ordering are those of its entries. -/
theorem marks_orderBy (orders : List Fragment) :
    (SelectParts.clause " ORDER BY " ", " orders).marks = orders.flatMap Fragment.marks :=
  filterMap_clause mark?_reading (by decide) (by decide) orders

/-- An update shows its tables, its assignments and its conditions. -/
theorem update_shows {u : Update} {table : String} {path : Path}
    (h : (ctx.update u table path).Yields f t) : Shows f.marks t (u.landmarks path) := by
  obtain ⟨d, added, t₁, sets, t₂, terms, t₃, orders, t₄, -, hadded, hsets, hterms, horders, rfl,
    rfl⟩ := update_yields h
  have hadded : added.Shows t₁ (joinLandmarks false (path.child "cl") 0 u.joins) :=
    joined_shows u.joins hadded
  have hsets : Shows _ t₂ (assignedLandmarks (path.child "u") u.sets) := assignments_shows hsets
  have hterms := groupTerms_shows u.conditions hterms
  have horders := mapM_bare (fun _ _ _ => orderItem_bare) horders
  simp only [Update.landmarks, List.cons_append]
  constructor
  · simp only [Fragment.marks_text_cons, Fragment.marks_table_cons, Fragment.marks_append,
      Fragment.marks_join, marks_combineWhere, hadded.source,
      hadded.conditions, hsets.marks_eq, hterms.marks_eq, marks_orderBy, horders.marks,
      Fragment.marks_nil, List.map_cons, List.map_append, List.append_nil, List.append_assoc]
    rfl
  · have hsum := (Accounts.mention u.token).append (hadded.accounts.append
      (hsets.accounts.append (hterms.accounts.append (.of_bound_eq_nil horders.bound))))
    refine hsum.perm ?_
    rw [List.singleton_append]
    refine .cons _ ?_
    rw [← Multiset.coe_eq_coe]
    simp only [JoinLandmarks.all, joinLandmarks_havings, List.append_nil, ← Multiset.coe_add]
    abel

/-- A deletion shows the landmarks of its conditions. -/
theorem delete_shows {d : Delete} {table : String} (h : (ctx.delete d table).Yields f t) :
    Shows f.marks t (d.conditions.landmarks ((Path.ofRoot 0).child "dt")) := by
  obtain ⟨description, terms, -, hterms, rfl⟩ := delete_yields h
  have hterms := groupTerms_shows d.conditions hterms
  refine ⟨?_, hterms.accounts⟩
  have hwhere : (Term.whereText terms).marks = (Term.leaves terms).marks :=
    filterMap_whereText mark?_reading terms
  rw [List.cons_append, Fragment.marks_text_cons, Fragment.marks_append, Fragment.marks_append,
    hwhere, hterms.marks_eq, marks_orderBy]
  exact List.append_nil _

/-- The rows of an insertion show their landmarks. -/
theorem rows_shows {rows : List Insert} {fs : List Fragment}
    (h : (rows.zipIdx.mapM fun x => insertTuple x.2 x.1).Yields fs t) :
    Shows (fs.flatMap Fragment.marks) t (rowLandmarks 0 rows) := by
  refine mapM_shows (fun x f t hx => ?_) h
  simp only [insertTuple, bind_yields, pure_yields] at hx
  obtain ⟨markers, t₁, _, hmarkers, ⟨rfl, rfl⟩, rfl⟩ := hx
  rw [Trace.append_empty, Fragment.marks_parens]
  exact mapM_bound_yields hmarkers

end Context

/-- A query without unions has the landmarks of its single `SELECT`. -/
theorem Query.allLandmarks_of_unions_nil {q : Query} (h : q.unions = []) (path : Path) :
    q.allLandmarks path = q.landmarks path := by
  rw [allLandmarks, h, branchLandmarks, List.append_nil]

namespace Compiler

variable {c : Compiler} {table : String} {draft : Draft}

/-- The draft of a query shows the landmarks of the query with its unions. -/
theorem selectDraft_shows {q : Query} (h : c.selectDraft q table = .ok draft) :
    draft.Shows (q.allLandmarks (.ofRoot 0)) := by
  obtain ⟨ctx, f, -, hf, hdraft⟩ := selectDraft_eq_ok h
  have hshows := Context.compoundSelect_shows hf
  refine ⟨?_, hshows.accounts⟩
  rw [hdraft, Fragment.marks_append, Fragment.marks_text_cons, Fragment.marks_nil,
    List.append_nil, hshows.marks_eq]

/-- So do the drafts of a page of it. -/
theorem pageDrafts_shows {q : Query} {count base : Draft}
    (h : c.pageDrafts q table = .ok (count, base)) :
    count.Shows (q.allLandmarks (.ofRoot 0)) ∧ base.Shows (q.allLandmarks (.ofRoot 0)) := by
  obtain ⟨ctx, -, htrace, ⟨hunions, parts, hparts, hbase, hcount⟩ | ⟨hf, hcount⟩⟩ :=
    pageDrafts_eq_ok h
  · have hshows := Context.selectParts_shows q rfl (Context.shownParts_yields hparts).1
    rw [Query.allLandmarks_of_unions_nil hunions]
    have hbody : count.1.marks = parts.body.marks := by
      obtain hcount | hcount := hcount <;> simp [hcount]
    refine ⟨⟨?_, htrace ▸ hshows.body.accounts⟩, ?_⟩
    · rw [hbody, hshows.body.marks_eq]
    · unfold Draft.Shows
      rw [hbase]
      exact hshows.select
  · have hshows := Context.compoundSelect_shows hf
    exact ⟨⟨by rw [hcount, marks_countRows, hshows.marks_eq], htrace ▸ hshows.accounts⟩, hshows⟩

/-- So does the draft that counts it. -/
theorem validateDraft_shows {q : Query} (h : c.validateDraft q table = .ok draft) :
    draft.Shows (q.allLandmarks (.ofRoot 0)) := by
  unfold Draft.Shows
  obtain ⟨ctx, -, ⟨hunions, parts, hparts, hdraft⟩ | ⟨f, hf, hdraft⟩⟩ := validateDraft_eq_ok h
  · rw [Query.allLandmarks_of_unions_nil hunions, hdraft, marks_countBody]
    exact (Context.selectParts_shows q rfl hparts).body
  · rw [hdraft, marks_countRows]
    exact Context.compoundSelect_shows hf

/-- The draft of an insertion shows the landmarks of its rows. -/
theorem insertDraft_shows {rows : List Insert} (h : c.insertDraft rows table = .ok draft) :
    draft.Shows (rowLandmarks 0 rows) := by
  obtain ⟨_, _, _, tuples, -, -, -, -, -, htuples, hdraft⟩ := insertDraft_eq_ok.mp h
  unfold Draft.Shows
  rw [hdraft, Fragment.marks_text_cons, Fragment.marks_join]
  exact Context.rows_shows htuples

/-- The draft of an update shows its landmarks under its number. -/
theorem updateAt_shows {u : Update} {n : Nat} (h : c.updateAt u table n = .ok draft) :
    draft.Shows (u.landmarks (.ofRoot n)) := by
  obtain ⟨ctx, -, hdraft⟩ := updateAt_eq_ok h
  exact Context.update_shows hdraft

/-- The draft of a deletion shows the landmarks of its conditions. -/
theorem deleteDraft_shows {d : Delete} (h : c.deleteDraft d table = .ok draft) :
    draft.Shows (d.conditions.landmarks ((Path.ofRoot 0).child "dt")) := by
  obtain ⟨ctx, -, hdraft⟩ := deleteDraft_eq_ok h
  exact Context.delete_shows hdraft

/-- A draft shows the landmarks of the part of the description that it is made from. -/
theorem Makes.shows {d : Description} {part : Draft × String} {ls : List Landmark}
    (h : c.Makes table d part ls) : part.1.Shows ls := by
  cases h with
  | select h | findOne h => exact selectDraft_shows h
  | count h => exact (pageDrafts_shows h).1
  | base h | window h => exact (pageDrafts_shows h).2
  | validate h => exact validateDraft_shows h
  | insert h | insertRows h => exact insertDraft_shows h
  | update h | member _ h => exact updateAt_shows h
  | delete h => exact deleteDraft_shows h

/-- Each draft of a script shows its part of the landmarks of the description. -/
theorem scripts_show {d : Description} {scripts : List Script}
    (h : c.scripts table d = .ok scripts) :
    ∀ s ∈ scripts, List.Forall₂ (fun part ls => Draft.Shows part.1 ls) s d.landmarks := by
  intro s hs
  exact (scripts_made h s hs).imp fun _ _ => Makes.shows

end Compiler

end DynamicSql
