import DynamicSql.Proofs.Resolve.Sound
import DynamicSql.Proofs.Statement.Aliases
import DynamicSql.Proofs.Statement.Meaning

/-!
# Which queries are compiled

A query over a table is compiled exactly when the tokens of its tables are distinct and all queries
that are shown for it are sound (`select_succeeds_iff`). Both can be seen from the description and
the schema. In particular the dialect plays no part, and neither do the values, apart from patterns
and sets of members.
-/

namespace DynamicSql

namespace Context

open Resolve

variable {ctx : Context}

/-- The parts of a query with columns are made just if all that the query shows is sound. -/
theorem shownParts_succeeds {q : Query} {table : String} {path : Path} :
    (ctx.shownParts table path q).Succeeds ↔ ∀ s ∈ q.shown (some table), s.Sound ctx := by
  unfold shownParts
  rw [shownSelect_succeeds (selectParts_succeeds q table path) fun _ => pure_succeeds, and_true]

/-- A query is resolved with its unions when all queries that are shown for it are sound. -/
theorem compoundSelect_succeeds {q : Query} {table : String} {path : Path} :
    (ctx.compoundSelect table path q).Succeeds ↔ ∀ s ∈ q.allShown table, s.Sound ctx := by
  unfold compoundSelect
  rw [bind_succeeds_of fun _ => map_succeeds, shownParts_succeeds, unionBranches_succeeds,
    Query.allShown, List.forall_mem_append]

end Context

namespace Compiler

variable {c : Compiler} {q : Query} {table : String}

/-- The tables of a query pass when the queries that it reaches have tokens of their own. -/
theorem queryContext_eq_ok {ctx : Context} :
    c.queryContext q table = .ok ctx ↔ q.tokens.Nodup ∧ ctx = c.contextOf q table := by
  have hpass : checkTokens [] (q.references table) = .ok () ↔ q.tokens.Nodup := by
    rw [checkTokens_eq_ok, q.references_tokens]
    exact and_iff_left fun _ _ => List.not_mem_nil
  rw [← hpass]
  constructor
  · exact context_eq_ok
  · rintro ⟨hcheck, rfl⟩
    unfold queryContext context distinctReferences
    rw [hcheck]
    rfl

/-- A query over a table is compiled if and only if the queries that it reaches have tokens of
their own, and every query that is shown for it, be it the query itself, a branch, a query in a
condition or a joined one, has a known table, looks up only what is known, has patterns and members
where it needs some, is joined by keys, and shows a column unless it is joined. -/
theorem select_succeeds_iff (c : Compiler) (q : Query) (table : String) :
    (∃ s, c.select q table = .ok s) ↔
      q.tokens.Nodup ∧ ∀ s ∈ q.allShown table, s.Sound (c.contextOf q table) := by
  have hcompound : ((c.contextOf q table).compoundSelect table (.ofRoot 0) q).Succeeds ↔
      ∀ s ∈ q.allShown table, s.Sound (c.contextOf q table) :=
    Context.compoundSelect_succeeds
  rw [← hcompound]
  constructor
  · rintro ⟨s, hs⟩
    obtain ⟨draft, hdraft, -⟩ := except_bind_eq_ok.mp hs
    obtain ⟨ctx, f, hctx, hf, -⟩ := selectDraft_eq_ok hdraft
    obtain ⟨htokens, rfl⟩ := queryContext_eq_ok.mp hctx
    exact ⟨htokens, f, draft.2, hf⟩
  · rintro ⟨htokens, f, trace, hf⟩
    have hctx : c.queryContext q table = .ok (c.contextOf q table) :=
      queryContext_eq_ok.mpr ⟨htokens, rfl⟩
    have hrun : ((c.contextOf q table).compoundSelect table (.ofRoot 0) q).run =
        .ok (f, trace) := hf
    unfold select selectDraft
    rw [hctx]
    simp only [bind, Except.bind, hrun]
    exact ⟨_, rfl⟩

end Compiler

end DynamicSql
