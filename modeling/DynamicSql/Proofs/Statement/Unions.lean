import DynamicSql.Proofs.Resolve.Compounds
import DynamicSql.Proofs.Statement.Placeholders
import DynamicSql.Proofs.Statement.Qualifiers
import Mathlib.Logic.Relation

/-!
# Branches of unions

The branches of a query, and those of the queries in its conditions, are shown behind their keywords
and with their own limits. The branches of a branch are not shown, nor are the branches further down
(`select_branches`): their tables are collected, and the statement is made without them.
-/

namespace DynamicSql

open Landmark (tokens values)

/-- What stands in a fragment stands in its text. -/
theorem Fragment.render_infix {f g : Fragment} (h : f <:+: g) (root : String)
    (aliases : Aliases) : (f.render root aliases).toList <:+: (g.render root aliases).toList := by
  obtain ⟨a, b, rfl⟩ := h
  rw [render_append, render_append, String.toList_append, String.toList_append]
  exact List.infix_append _ _ _

/-- A query is a branch of another one. -/
def Query.HasBranch (q b : Query) : Prop := b ∈ q.unions.map (·.query)

/-- The tables below a branch are among those below the query. -/
theorem Query.HasBranch.tokens_subset {q b : Query} (h : q.HasBranch b) : b.tokens ⊆ q.tokens := by
  have hchild : b ∈ q.children := List.mem_append_right _ h
  rw [q.tokens_eq]
  exact fun token htoken => List.mem_cons_of_mem _ (List.mem_flatMap_of_mem hchild htoken)

/-- Every branch below a query has its token among those below the query. -/
theorem Query.token_mem_of_branches {q b : Query} (h : Relation.ReflTransGen HasBranch q b) :
    b.token ∈ q.tokens := by
  induction h using Relation.ReflTransGen.head_induction_on with
  | refl =>
    rw [b.tokens_eq]
    exact List.mem_cons_self
  | head hbranch _ ih => exact hbranch.tokens_subset ih

namespace Compiler

variable {c : Compiler} {table : String} {draft : Draft} {q : Query}

/-- A statement shows a branch of a query over a table: behind its keyword and in parentheses stands
what the branch resolves to, with the limit of the branch, and all values of the branch are bound
at their places. -/
def ShowsBranch (c : Compiler) (references : List (Token × String)) (table : String)
    (draft : Draft) (b : UnionBranch) : Prop :=
  ∃ path parts t,
    ((Context.mk c.schema c.dialect c.root references).selectParts (b.query.table.getD table) path
      .everything b.query).Yields parts t ∧
    (b.kind.text ++ "(" ++ c.render (parts.select, draft.2) ++
      Dialect.limitClause b.query.clauses.limit ++ ")").toList <:+: (c.render draft).toList ∧
    ∀ x ∈ values (b.query.landmarks path),
      (c.finish draft).params.get? x.1.purpose.space x.1.key = some x.2

/-- What is bound while a query is resolved is found again under the keys of its places. -/
theorem get?_of_bound (h : c.selectDraft q table = .ok draft) {x : Slot × Value}
    (hx : x ∈ draft.2.bound) :
    (c.finish draft).params.get? x.1.purpose.space x.1.key = some x.2 := by
  have hscripts : c.scripts table (.select q) = .ok [script draft] :=
    except_bind_eq_ok.mpr ⟨draft, h, rfl⟩
  exact Params.get?_ofBound (draft_bound_nodup hscripts) hx

/-- The branches of every query that is shown with its unions are shown. -/
theorem branches_shown (h : c.selectDraft q table = .ok draft) :
    ∀ x ∈ q.allCompounds table, ∀ b ∈ x.2.unions,
      c.ShowsBranch (q.references table) x.1 draft b := by
  intro x hx b hb
  obtain ⟨ctx, f, hctx, hf, hdraft⟩ := selectDraft_eq_ok h
  obtain ⟨path, body, t, hbody, hinfix, hbound⟩ := (Context.compoundSelect_holds hf x hx).1
  obtain ⟨_, t₁, branches, t₂, -, -, hbranches, rfl, rfl⟩ := Context.compoundSelect_yields hbody
  obtain ⟨path, parts, t, hparts, hbranch, ht⟩ := Context.unionBranches_infix hbranches b hb
  have hshows := (Context.selectParts_shows b.query rfl hparts).body.accounts.bound
  obtain ⟨-, rfl⟩ := context_eq_ok hctx
  refine ⟨path, parts, t, hparts, ?_, fun x hx => get?_of_bound h ?_⟩
  · -- The branch stands in the query, and the query in the draft.
    have hwhole : f <:+: draft.1 := hdraft ▸ (List.prefix_append f _).isInfix
    have hall := ((hbranch.trans (Context.infix_branches _ branches)).trans hinfix).trans hwhole
    have htext := Fragment.render_infix hall c.root (.ofMentions draft.2.mentioned)
    rw [Fragment.render_text_cons, Fragment.render_parens, Fragment.render_append,
      Fragment.render_text_cons, Fragment.render_nil] at htext
    simpa only [render, String.append_assoc, String.append_empty] using htext
  · exact hbound (List.mem_append_right _ (ht (hshows.mem_iff.mpr hx)))

/-- No table below the branches of a branch is in the statement. -/
theorem nested_tables (h : c.selectDraft q table = .ok draft) :
    ∀ x ∈ q.allCompounds table, ∀ b ∈ x.2.nested, ∀ d, Relation.ReflTransGen Query.HasBranch b d →
      ∀ name, .table name d.token ∉ draft.1 := by
  intro x hx b hb d hd name hmem
  obtain ⟨-, hshown⟩ := ((selectDraft_anchored h).table name d.token).mp hmem
  refine hshown (List.mem_flatMap_of_mem (Query.nested_allOmitted x hx hb) ?_)
  exact Query.token_mem_of_branches hd

/-- In a statement that is made of a query, the query itself and each query in a condition have all
of their branches, with their values, and none of the branches further down. -/
theorem select_branches (c : Compiler) (table : String) {q : Query} {s : Statement}
    (h : c.select q table = .ok s) :
    ∃ draft, c.selectDraft q table = .ok draft ∧ s = c.finish draft ∧
      ∀ x ∈ q.allCompounds table,
        (∀ b ∈ x.2.unions, c.ShowsBranch (q.references table) x.1 draft b) ∧
        ∀ b ∈ x.2.nested, ∀ d, Relation.ReflTransGen Query.HasBranch b d →
          ∀ name, .table name d.token ∉ draft.1 := by
  obtain ⟨draft, hdraft, h⟩ := except_bind_eq_ok.mp h
  exact ⟨draft, hdraft, (Except.ok.inj h).symm, fun x hx =>
    ⟨branches_shown hdraft x hx, nested_tables hdraft x hx⟩⟩

/-- The second of three customers united in a row is a branch and is shown with its value; the third
is a branch of the second, and nothing is left of it. -/
theorem nestedUnion_select_branches :
    let third := HasConditions.compare .equal "name" (.string "y")
      ((Query.new "e" none).select "name")
    let second := (HasConditions.compare .equal "name" (.string "x")
      ((Query.new "b" none).select "name")).union .distinct third
    let q := ((Query.new "a" (some "customer")).select "name").union .all second
    ∃ s, shop.select q "customer" = .ok s ∧
      s.sql = "(SELECT t0.name FROM customer t0) UNION ALL (SELECT t1.name FROM customer t1 " ++
        "WHERE t1.name = #\x7brequest.filter.filter_v0_un0_tl_0\x7d)" ∧
      ∃ draft, shop.selectDraft q "customer" = .ok draft ∧ s = shop.finish draft ∧
        shop.ShowsBranch (q.references "customer") "customer" draft ⟨.all, second⟩ ∧
        ∀ name, .table name "e" ∉ draft.1 := by
  intro third second q
  have htext : (shop.select q "customer").toOption.map (·.sql) =
      some ("(SELECT t0.name FROM customer t0) UNION ALL (SELECT t1.name FROM customer t1 " ++
        "WHERE t1.name = #\x7brequest.filter.filter_v0_un0_tl_0\x7d)") := by
    decide +kernel
  obtain ⟨s, hs⟩ : ∃ s, shop.select q "customer" = .ok s := except_exists_ok (by decide +kernel)
  obtain ⟨draft, hdraft, hfinish, hbranches⟩ := select_branches shop "customer" hs
  obtain ⟨hshown, hnested⟩ := hbranches ("customer", q) List.mem_cons_self
  rw [hs] at htext
  refine ⟨s, hs, Option.some.inj htext, draft, hdraft, hfinish, ?_, ?_⟩
  · exact hshown ⟨.all, second⟩ List.mem_cons_self
  · exact hnested third List.mem_cons_self third .refl

end Compiler

end DynamicSql
