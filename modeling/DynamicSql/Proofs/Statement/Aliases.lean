import DynamicSql.Proofs.Resolve.Claims
import DynamicSql.Proofs.Resolve.Reachable
import DynamicSql.Proofs.Sql.Aliases
import DynamicSql.Proofs.Statement.Realised

/-!
# Every table has an alias of its own

A statement is refused if and only if two of the queries that it reaches carry the same token. In a
statement that is made, the tables behind `FROM`, `LEFT JOIN` and `UPDATE` have therefore different
tokens, and different aliases (`aliases_distinct`).

What is compared are the tables that a text brings in, not the words of the text: an expression
from outside may spell a `FROM` of its own.
-/

namespace DynamicSql

open Landmark (tokens)

/-- Tables pass if no token stands for two of them, nor for a former one. -/
theorem checkTokens_eq_ok {former references : List (Token × String)} :
    checkTokens former references = .ok () ↔
      (references.map (·.1)).Nodup ∧ ∀ r ∈ references, r.1 ∉ former.map (·.1) := by
  -- The tables that passed are carried along, so later ones are compared with them, too.
  induction references generalizing former with
  | nil => simp [checkTokens]
  | cons r rest ih =>
    obtain ⟨token, table⟩ := r
    rw [List.map_cons, List.nodup_cons, List.forall_mem_cons]
    unfold checkTokens
    cases hlookup : former.lookup token with
    | some previous =>
      obtain ⟨front, back, hformer, -⟩ := List.lookup_eq_some_iff.mp hlookup
      have hmem : token ∈ former.map (·.1) := by simp [hformer]
      constructor
      · intro h
        cases h
      · intro h
        exact absurd hmem h.2.1
    | none =>
      have hnew : token ∉ former.map (·.1) := by
        intro hmem
        obtain ⟨r, hr, rfl⟩ := List.mem_map.mp hmem
        exact absurd (List.lookup_eq_none_iff.mp hlookup r hr) (by simp)
      dsimp only
      rw [ih]
      constructor
      · rintro ⟨hnodup, hrest⟩
        have htoken : token ∉ rest.map (·.1) := by
          intro hmem
          obtain ⟨r, hr, heq⟩ := List.mem_map.mp hmem
          exact hrest r hr (heq ▸ List.mem_cons_self)
        exact ⟨⟨htoken, hnodup⟩, hnew, fun r hr hmem => hrest r hr (List.mem_cons_of_mem _ hmem)⟩
      · rintro ⟨⟨htoken, hnodup⟩, -, hrest⟩
        refine ⟨hnodup, fun r hr hmem => ?_⟩
        obtain heq | hmem := List.mem_cons.mp hmem
        · exact htoken (List.mem_map.mpr ⟨r, hr, heq⟩)
        · exact hrest r hr hmem

/-- What does not pass is a shared token. -/
theorem checkTokens_eq_error {former references : List (Token × String)} {e : Error}
    (h : checkTokens former references = .error e) :
    ∃ previous table token, e = .sharedToken previous table token := by
  induction references generalizing former with
  | nil => cases h
  | cons r rest ih =>
    obtain ⟨token, table⟩ := r
    unfold checkTokens at h
    split at h
    case h_1 previous _ => exact ⟨previous, table, token, (Except.error.inj h).symm⟩
    case h_2 => exact ih h

namespace Context

open Resolve

variable {ctx : Context} {table : String} {path : Path} {t : Trace}

/-- The tables of a resolved query with its unions are among those collected for it. -/
theorem compoundSelect_claimed {q : Query} {f : Fragment}
    (h : (ctx.compoundSelect table path q).Yields f t) :
    Claimed (q.allLandmarks path) (q.references table) := by
  obtain ⟨parts, t₁, branches, t₂, hparts, -, hbranches, -⟩ := compoundSelect_yields h
  have hselect := selectParts_claimed q hparts
  have hunion := unionBranches_claimed q.unions hbranches
  cases q
  rw [Query.allLandmarks, Query.references]
  exact hselect.append hunion

/-- A query without unions shows the tables of its single `SELECT`. -/
theorem selectParts_claimed_of_unions_nil {q : Query} (hunions : q.unions = []) {extent : Extent}
    {parts : SelectParts} (h : (ctx.selectParts table path extent q).Yields parts t) :
    Claimed (q.allLandmarks path) (q.references table) := by
  have hselect := selectParts_claimed q h
  rw [Query.allLandmarks_of_unions_nil hunions]
  cases q
  rw [Query.references]
  exact hselect.append_right _

/-- The tables of an update with its joins are among those collected for it. -/
theorem update_claimed {u : Update} {f : Fragment} (h : (ctx.update u table path).Yields f t) :
    Claimed (u.landmarks path) (Compiler.updateReferences u table) := by
  obtain ⟨d, added, t₁, sets, t₂, terms, t₃, orders, t₄, -, hadded, -, hterms, -⟩ :=
    update_yields h
  have hjoins := joined_claimed u.joins false hadded
  have hconditions := groupTerms_claimed u.conditions hterms
  have hsets : tokens (assignedLandmarks (path.child "u") u.sets) = [] := tokens_map_value _ _ _
  intro token
  have hleft := hconditions token
  have hright := hjoins token
  simp only [Update.landmarks, Compiler.updateReferences, JoinLandmarks.all, Landmark.tokens_append,
    Landmark.tokens_table_cons, hsets, List.cons_append, List.map_append, List.map_cons,
    List.count_append, List.count_cons, List.count_nil] at hright ⊢
  omega

end Context

/-- Insertions bring in no table with an alias. -/
theorem tokens_rowLandmarks (r : Nat) (rows : List Insert) : tokens (rowLandmarks r rows) = [] := by
  unfold rowLandmarks tokens
  rw [List.filterMap_flatMap, List.flatMap_eq_nil_iff]
  intro x _
  exact tokens_map_value _ _ _

namespace Compiler

variable {c : Compiler} {table : String} {draft : Draft}

/-- What is among tables that passed has different tokens. -/
theorem nodup_of_context {references : List (Token × String)} {ctx : Context} {ls : List Landmark}
    (h : c.context references = .ok ctx) (hclaimed : Claimed ls references) :
    (tokens ls).Nodup :=
  hclaimed.nodup (checkTokens_eq_ok.mp (context_eq_ok h).1).1

/-- The tables of a query that is made have different tokens. -/
theorem selectDraft_tokens {q : Query} (h : c.selectDraft q table = .ok draft) :
    (tokens (q.allLandmarks (.ofRoot 0))).Nodup := by
  obtain ⟨ctx, f, hctx, hf, -⟩ := selectDraft_eq_ok h
  exact nodup_of_context hctx (Context.compoundSelect_claimed hf)

/-- So have those of a query of which a page is made. -/
theorem pageDrafts_tokens {q : Query} {count base : Draft}
    (h : c.pageDrafts q table = .ok (count, base)) :
    (tokens (q.allLandmarks (.ofRoot 0))).Nodup := by
  obtain ⟨ctx, hctx, -, ⟨hunions, parts, hparts, -⟩ | ⟨hf, -⟩⟩ := pageDrafts_eq_ok h
  · have hparts := (Context.shownParts_yields hparts).1
    exact nodup_of_context hctx (Context.selectParts_claimed_of_unions_nil hunions hparts)
  · exact nodup_of_context hctx (Context.compoundSelect_claimed hf)

/-- So have those of a query that is counted. -/
theorem validateDraft_tokens {q : Query} (h : c.validateDraft q table = .ok draft) :
    (tokens (q.allLandmarks (.ofRoot 0))).Nodup := by
  obtain ⟨ctx, hctx, ⟨hunions, parts, hparts, -⟩ | ⟨f, hf, -⟩⟩ := validateDraft_eq_ok h
  · exact nodup_of_context hctx (Context.selectParts_claimed_of_unions_nil hunions hparts)
  · exact nodup_of_context hctx (Context.compoundSelect_claimed hf)

/-- So have those of an update. -/
theorem updateAt_tokens {u : Update} {n : Nat} (h : c.updateAt u table n = .ok draft) :
    (tokens (u.landmarks (.ofRoot n))).Nodup := by
  obtain ⟨ctx, hctx, hdraft⟩ := updateAt_eq_ok h
  exact nodup_of_context hctx (Context.update_claimed hdraft)

/-- So have those of a deletion. -/
theorem deleteDraft_tokens {d : Delete} (h : c.deleteDraft d table = .ok draft) :
    (tokens (d.conditions.landmarks ((Path.ofRoot 0).child "dt"))).Nodup := by
  obtain ⟨ctx, hctx, hdraft⟩ := deleteDraft_eq_ok h
  obtain ⟨description, terms, -, hterms, -⟩ := Context.delete_yields hdraft
  exact nodup_of_context hctx (Context.groupTerms_claimed d.conditions hterms)

/-- The tables of the part of a description that a draft is made from have different tokens. -/
theorem Makes.tokens_nodup {d : Description} {part : Draft × String} {ls : List Landmark}
    (h : c.Makes table d part ls) : (tokens ls).Nodup := by
  cases h with
  | select h | findOne h => exact selectDraft_tokens h
  | count h | base h | window h => exact pageDrafts_tokens h
  | validate h => exact validateDraft_tokens h
  | insert _ | insertRows _ =>
    rw [tokens_rowLandmarks]
    exact List.nodup_nil
  | update h | member _ h => exact updateAt_tokens h
  | delete h => exact deleteDraft_tokens h

/-- The aliases that a draft introduces: those of the tables behind `FROM`, `LEFT JOIN` and
`UPDATE`, from left to right. -/
def introduced (draft : Draft) : List String :=
  draft.1.tables.map (Aliases.ofMentions draft.2.mentioned).text

/-- Where the tables among landmarks have different tokens, a draft that shows them introduces
different aliases, none of them the name of the rows of a counted query. -/
theorem introduced_nodup {ls : List Landmark} (hshows : draft.Shows ls)
    (hnodup : (tokens ls).Nodup) : ("s" :: introduced draft).Nodup := by
  have htables : draft.1.tables = tokens ls := by
    rw [Fragment.tables_eq_marks, hshows.marks_eq, Landmark.tokens_eq_marks]
  rw [introduced, htables, List.nodup_cons]
  constructor
  · intro hmem
    obtain ⟨token, -, htext⟩ := List.mem_map.mp hmem
    exact Aliases.text_ne _ token htext
  · exact Aliases.text_nodup hnodup hshows.accounts.mentioned

/-- The context of a statement is refused for its tables only. -/
theorem context_eq_error {references : List (Token × String)} {e : Error} :
    c.context references = .error e ↔ checkTokens [] references = .error e := by
  unfold context distinctReferences
  cases checkTokens [] references with
  | error e' =>
    constructor
    · intro h
      exact congrArg Except.error (Except.error.inj h)
    · intro h
      exact congrArg Except.error (Except.error.inj h)
  | ok _ =>
    constructor
    · intro h
      cases h
    · intro h
      cases h

/-- Tables of a query are refused if and only if two of the queries that it reaches share a
token. -/
theorem queryContext_error_iff (c : Compiler) (q : Query) (table : String) :
    (∃ e, c.queryContext q table = .error e) ↔ ¬q.tokens.Nodup := by
  have hpass : checkTokens [] (q.references table) = .ok () ↔ q.tokens.Nodup := by
    rw [checkTokens_eq_ok, q.references_tokens]
    exact and_iff_left fun _ _ => List.not_mem_nil
  rw [← hpass]
  simp only [queryContext, context_eq_error]
  cases checkTokens [] (q.references table) with
  | error e =>
    constructor
    · intro _ h
      cases h
    · intro _
      exact ⟨e, rfl⟩
  | ok _ =>
    constructor
    · rintro ⟨e, h⟩
      cases h
    · intro h
      exact absurd rfl h

/-- What refuses the tables of a query is a shared token. -/
theorem queryContext_error_kind {q : Query} {e : Error} (h : c.queryContext q table = .error e) :
    e.kind = .invalidProvider := by
  obtain ⟨previous, table, token, rfl⟩ := checkTokens_eq_error (context_eq_error.mp h)
  rfl

/-- Registration fails exactly when two queries of a statement share a token, and then nothing is
compiled. In every draft of every statement that is compiled, the aliases are different. -/
theorem aliases_distinct (c : Compiler) (table : String) :
    (∀ q, ((∃ e, c.queryContext q table = .error e) ↔ ¬q.tokens.Nodup) ∧
      ∀ e, c.queryContext q table = .error e → e.kind = .invalidProvider ∧
        c.select q table = .error e ∧ c.page q table = .error e ∧ c.validate q table = .error e) ∧
    ∀ d out, c.compile table d = .ok out → ∃ scripts, c.scripts table d = .ok scripts ∧
      out.texts = scripts.map c.print ∧
      ∀ s ∈ scripts, ∀ part ∈ s, ("s" :: introduced part.1).Nodup := by
  constructor
  · intro q
    refine ⟨c.queryContext_error_iff q table, fun e h => ⟨queryContext_error_kind h, ?_, ?_, ?_⟩⟩
    · simp only [select, selectDraft, h]
      rfl
    · simp only [page, pageDrafts, h]
      rfl
    · simp only [validate, validateDraft, h]
      rfl
  · intro d out h
    obtain ⟨scripts, hscripts, htexts, -⟩ := exists_scripts_of_compile h
    refine ⟨scripts, hscripts, htexts, fun s hs part hpart => ?_⟩
    obtain ⟨ls, hmakes⟩ := exists_makes hscripts hs hpart
    exact introduced_nodup hmakes.shows hmakes.tokens_nodup

/-- A query that is joined twice is refused, and a query with a join and a union is compiled with an
alias for each of its three tables. -/
theorem frequentCustomers_aliases_distinct :
    (let again := Join.new "id" "customer_id" (.new "o" (some "orders"))
      let twice := frequentCustomers.leftJoin again
      ∃ e, e.kind = .invalidProvider ∧ shop.select twice "customer" = .error e) ∧
    ∃ out, shop.compile "customer" (.select frequentCustomers) = .ok out ∧
      ∃ scripts, shop.scripts "customer" (.select frequentCustomers) = .ok scripts ∧
        out.texts = scripts.map shop.print ∧
        ∀ s ∈ scripts, ∀ part ∈ s, ("s" :: introduced part.1).Nodup := by
  obtain ⟨hregistration, haliases⟩ := aliases_distinct shop "customer"
  constructor
  · intro again twice
    obtain ⟨hrefused, herror⟩ := hregistration twice
    have hshared : ¬twice.tokens.Nodup := by
      rw [← twice.references_tokens "customer"]
      decide +kernel
    obtain ⟨e, he⟩ := hrefused.mpr hshared
    obtain ⟨hkind, hselect, -⟩ := herror e he
    exact ⟨e, hkind, hselect⟩
  · obtain ⟨out, hout⟩ : ∃ out, shop.compile "customer" (.select frequentCustomers) = .ok out :=
      except_exists_ok (by decide +kernel)
    exact ⟨out, hout, haliases _ out hout⟩

end Compiler

end DynamicSql
