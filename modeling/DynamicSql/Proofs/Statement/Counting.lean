import DynamicSql.Proofs.Resolve.Counting
import DynamicSql.Proofs.Resolve.Pieces
import DynamicSql.Proofs.Sql.Aliases
import DynamicSql.Proofs.Statement.Paging
import Mathlib.Data.Set.Function

/-!
# Counting the rows of a page

The statement that counts the rows of a query and the texts that its pages are read by have the same
body and bind the same values. The count is made without the columns and the orderings, which may be
the first to mention a table, so its aliases may have other numbers. They are then those of the page
under other names, one for each (`validate_of_page`).
-/

namespace DynamicSql

/-- The alias that a second list has for the table that a first one gives an alias. -/
def Aliases.rename (a b : Aliases) (name : String) : String :=
  ((a.tokens.find? (a.text · == name)).map b.text).getD name

namespace Aliases

variable {a b : Aliases} {token : Token}

/-- Each alias of the first list becomes that of the same token in the second one. -/
theorem rename_text (h : token ∈ a.tokens) : a.rename b (a.text token) = b.text token := by
  obtain ⟨found, hfound⟩ : ∃ found, a.tokens.find? (a.text · == a.text token) = some found :=
    Option.isSome_iff_exists.mp (List.find?_isSome.mpr ⟨token, h, beq_self_eq_true _⟩)
  have hsame : a.text found = a.text token := by simpa using List.find?_some hfound
  rw [rename, hfound, eq_of_text_eq h hsame.symm]
  rfl

/-- No two aliases become the same one, if the second list has all tokens of the first one. -/
theorem rename_injOn (h : a.tokens ⊆ b.tokens) :
    Set.InjOn (a.rename b) (a.text '' {token | token ∈ a.tokens}) := by
  rintro _ ⟨token, htoken, rfl⟩ _ ⟨other, hother, rfl⟩ heq
  rw [rename_text htoken, rename_text hother] at heq
  rw [eq_of_text_eq (h htoken) heq]

end Aliases

/-- The aliases that are given while a description is resolved. -/
def Trace.aliases (t : Trace) : Aliases := .ofMentions t.mentioned

/-- The tokens with an alias are those that were mentioned. -/
theorem Trace.mem_aliases {t : Trace} {token : Token} :
    token ∈ t.aliases.tokens ↔ token ∈ t.mentioned :=
  Aliases.mem_ofMentions

namespace Compiler

/-- Two runs show the same text with aliases of their own: all aliases in the text stand for tables
that both mention, and a one-to-one renaming turns the aliases of the first run into those of the
second one, token by token. -/
structure Renames (c : Compiler) (f : Fragment) (t u : Trace) : Prop where
  tokens : f.tokens ⊆ t.mentioned
  mentioned : t.mentioned ⊆ u.mentioned
  renamed : ∀ token ∈ t.mentioned,
    u.aliases.text token = t.aliases.rename u.aliases (t.aliases.text token)
  injective : Set.InjOn (t.aliases.rename u.aliases)
    (t.aliases.text '' {token | token ∈ t.mentioned})
  text : c.render (f, u) =
    String.ofList (f.chars c.root fun token => t.aliases.rename u.aliases (t.aliases.text token))

variable {c : Compiler} {q : Query} {table : String}

/-- Mentioned tables have one alias each, in whatever order they are mentioned. -/
theorem renames_of_subset {f : Fragment} {t u : Trace} (hf : f.tokens ⊆ t.mentioned)
    (htu : t.mentioned ⊆ u.mentioned) : c.Renames f t u := by
  have hrenamed : ∀ token ∈ t.mentioned,
      u.aliases.text token = t.aliases.rename u.aliases (t.aliases.text token) :=
    fun token htoken => (Aliases.rename_text (Trace.mem_aliases.mpr htoken)).symm
  have hsubset : t.aliases.tokens ⊆ u.aliases.tokens := fun token htoken =>
    Trace.mem_aliases.mpr (htu (Trace.mem_aliases.mp htoken))
  have hinjective := Aliases.rename_injOn hsubset
  simp only [Trace.mem_aliases] at hinjective
  refine ⟨hf, htu, hrenamed, hinjective, congrArg String.ofList ?_⟩
  exact Fragment.chars_congr fun token htoken => hrenamed token (hf htoken)

/-- A query without branches is counted by the body of its single `SELECT`. -/
theorem validate_of_unions_nil {ctx : Context} {parts : SelectParts} {t : Trace}
    (hunions : q.unions = []) (hctx : c.queryContext q table = .ok ctx)
    (h : (ctx.selectParts table (.ofRoot 0) .counting q).Yields parts t) :
    c.validate q table =
      .ok ⟨"SELECT count(1)" ++ c.render (parts.body, t), .ofBound t.bound⟩ := by
  have hrun : (ctx.selectParts table (.ofRoot 0) .counting q).run = .ok (parts, t) := h
  have hdraft : c.validateDraft q table = .ok (countBody parts, t) := by
    unfold validateDraft
    rw [hctx]
    simp only [bind, Except.bind, hunions, List.isEmpty_nil, if_true, hrun]
    rfl
  unfold validate
  rw [hdraft]
  exact congrArg (fun sql => Except.ok (Statement.mk sql _)) (render_countBody ..)

/-- The values of a page are those of its `SELECT`. -/
theorem page_params {ctx : Context} {parts : SelectParts} {t : Trace} {p : PagedStatement}
    (hunions : q.unions = []) (h : c.page q table = .ok p)
    (hctx : c.queryContext q table = .ok ctx)
    (hparts : (ctx.selectParts table (.ofRoot 0) .everything q).Yields parts t) :
    p.params = .ofBound t.bound := by
  obtain ⟨ctx', parts', t', hctx', hparts', -, -, hparams⟩ := page_of_unions_nil h hunions
  obtain rfl := Except.ok.inj (hctx'.symm.trans hctx)
  obtain ⟨-, rfl⟩ := Prod.mk.inj (Except.ok.inj (hparts'.symm.trans hparts))
  exact hparams

/-- Where a query without branches can be read page by page, its rows can be counted, with the same
values and over the same body. Its aliases may have other names, one for each table; they are the
same where no column and no ordering, be it of the query or of a joined one, refers to a table. -/
theorem validate_of_page {p : PagedStatement} (hunions : q.unions = [])
    (h : c.page q table = .ok p) :
    ∃ ctx parts paged minted, c.queryContext q table = .ok ctx ∧
      (ctx.selectParts table (.ofRoot 0) .everything q).Yields parts paged ∧
      (ctx.selectParts table (.ofRoot 0) .counting q).Yields parts.counted minted ∧
      p.OfSelect (c.render (.join ", " parts.collected.columns, paged))
        (c.render (parts.body, paged))
        (c.render (SelectParts.clause " ORDER BY " ", " parts.collected.orders, paged))
        (!q.allGroups.isEmpty) ∧
      c.validate q table = .ok ⟨"SELECT count(1)" ++ c.render (parts.body, minted), p.params⟩ ∧
      c.Renames parts.body minted paged ∧
      ((∀ l ∈ q.allListed, l.referred = []) →
        c.render (parts.body, minted) = c.render (parts.body, paged)) := by
  obtain ⟨ctx, parts, paged, hctx, hparts, hselect⟩ := ofSelect_of_unions_nil h hunions
  obtain ⟨minted, hcounted, hthinned⟩ := Context.selectParts_thins (fun hlisted => hlisted)
    parts paged hparts
  refine ⟨ctx, parts, paged, minted, hctx, hparts, hcounted, hselect, ?_, ?_, fun hlisted => ?_⟩
  · rw [validate_of_unions_nil hunions hctx hcounted, page_params hunions h hctx hparts,
      hthinned.bound, SelectParts.body_counted]
  · have htokens := Context.selectParts_tokens hcounted
    rw [SelectParts.body_counted] at htokens
    exact renames_of_subset htokens hthinned.mentioned.subset
  · rw [render, render, hthinned.whole hlisted]

/-- Of the two customers that are joined to an order, the second one is shown first: its alias is
`t1` in the page and `t2` in the count. -/
theorem crossedOrders_validate_of_page :
    let second := HasConditions.compare .equal "name" (.string "b")
      (Query.new "d" (some "customer"))
    let crossed := (((Query.new "o" (some "orders")).select "#tas_d.name").leftJoin
      (.new "customer_id" "id" (Query.new "c" (some "customer")))).leftJoin
      (.new "customer_id" "id" second)
    let counted := fun c d : String =>
      "SELECT count(1) FROM orders t0" ++
        " LEFT JOIN customer " ++ c ++ " ON (t0.customer_id = " ++ c ++ ".id)" ++
        " LEFT JOIN customer " ++ d ++ " ON (t0.customer_id = " ++ d ++ ".id)" ++
        " WHERE " ++ d ++ ".name = #\x7brequest.filter.filter_v0_cl_fl1_0\x7d"
    crossed.unions = [] ∧ ∃ p s, shop.page crossed "orders" = .ok p ∧
      shop.validate crossed "orders" = .ok s ∧ s.params = p.params ∧
      p.countSql = counted "t2" "t1" ∧ s.sql = counted "t1" "t2" := by
  intro second crossed counted
  obtain ⟨p, hp⟩ : ∃ p, shop.page crossed "orders" = .ok p := except_exists_ok (by decide +kernel)
  obtain ⟨_, _, _, _, -, -, -, -, hvalidate, -⟩ := validate_of_page rfl hp
  have hcount : (shop.page crossed "orders").toOption.map (·.countSql) =
      some (counted "t2" "t1") := by decide +kernel
  have hsql : (shop.validate crossed "orders").toOption.map (·.sql) =
      some (counted "t1" "t2") := by decide +kernel
  rw [hp] at hcount
  rw [hvalidate] at hsql
  exact ⟨rfl, p, _, hp, hvalidate, rfl, Option.some.inj hcount, Option.some.inj hsql⟩

end Compiler

end DynamicSql
