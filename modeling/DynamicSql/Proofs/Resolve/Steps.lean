import DynamicSql.Proofs.Resolve.Yields
import DynamicSql.Resolve.Query
import Mathlib.Data.List.Forall2

/-!
# What each step of resolving does

For every function that resolves a part of a query, what it did when it succeeded: which parts it
resolved, in which order, and what it made of them. All properties of whole runs are inductions
over these statements.
-/

namespace DynamicSql

/-- Each member of the second of two matched lists has a partner in the first. -/
theorem exists_of_forall₂_mem {α β : Type} {R : α → β → Prop} {xs : List α} {ys : List β}
    (h : List.Forall₂ R xs ys) {y : β} (hy : y ∈ ys) : ∃ x ∈ xs, R x y := by
  induction h with
  | nil => cases hy
  | cons hxy _ ih =>
    obtain rfl | hy := List.mem_cons.mp hy
    · exact ⟨_, List.mem_cons_self, hxy⟩
    · obtain ⟨x, hx, hR⟩ := ih hy
      exact ⟨x, List.mem_cons_of_mem _ hx, hR⟩

/-- What is left behind the mark of a reference stood behind it. -/
theorem behindMark?_eq_some {cs rest : List Char} (h : behindMark? cs = some rest) :
    cs = "#tas_".toList ++ rest := by
  unfold behindMark? at h
  split at h
  · obtain rfl := Option.some.inj h
    rfl
  · cases h

/-- A text that is cut at a stop is its front, the stop and its back. -/
theorem cutAtStop?_eq_some {cs front back : List Char} (h : cutAtStop? cs = some (front, back)) :
    cs = front ++ '.' :: back := by
  induction cs generalizing front with
  | nil => cases h
  | cons c rest ih =>
    unfold cutAtStop? at h
    split at h
    case isTrue hc =>
      obtain ⟨rfl, rfl⟩ := Prod.mk.inj (Option.some.inj h)
      rw [hc]
      rfl
    case isFalse =>
      obtain ⟨⟨front', back'⟩, hcut, heq⟩ := Option.map_eq_some_iff.mp h
      obtain ⟨rfl, rfl⟩ := Prod.mk.inj heq
      rw [ih hcut]
      rfl

/-- A reference is its mark, the token, a full stop and the field. -/
theorem reference?_toList {name token field : String} (h : reference? name = some (token, field)) :
    name.toList = "#tas_".toList ++ (token.toList ++ '.' :: field.toList) := by
  simp only [reference?, Option.bind_eq_bind, Option.bind_eq_some_iff, Option.some.injEq,
    Prod.mk.injEq] at h
  obtain ⟨body, hbody, ⟨front, back⟩, hcut, rfl, rfl⟩ := h
  rw [behindMark?_eq_some hbody, cutAtStop?_eq_some hcut]
  simp only [String.toList_ofList]

namespace Context

open Resolve

variable {ctx : Context}

/-- Opening a scope looks the table up and mentions it, and nothing else. -/
theorem openScope_yields {token : Token} {name : String} {scope : Scope} {t : Trace} :
    (ctx.openScope token name).Yields scope t ↔
      ∃ d, ctx.schema.table name = .ok d ∧ scope = ⟨name, some token, d⟩ ∧ t = ⟨[token], []⟩ := by
  simp only [openScope, bind_yields, mention_yields, ofExcept_yields, pure_yields]
  constructor
  · rintro ⟨_, _, _, rfl, ⟨d, _, _, ⟨hd, rfl⟩, ⟨rfl, rfl⟩, rfl⟩, rfl⟩
    exact ⟨d, hd, rfl, rfl⟩
  · rintro ⟨d, hd, rfl, rfl⟩
    exact ⟨(), _, .empty, rfl, ⟨d, _, _, ⟨hd, rfl⟩, ⟨rfl, rfl⟩, rfl⟩, rfl⟩

/-- A reference yields a column of the table that was collected with its token, behind the alias of
this token. -/
theorem findReference_yields {name token field : String} {found : FoundColumn} {t : Trace}
    (h : (ctx.findReference name token field).Yields found t) :
    ∃ table d column, ctx.references.lookup token = some table ∧ ctx.schema.table table = .ok d ∧
      d.resolve? field = some column ∧
      found = ⟨[.column token column], column, d.fieldFor column field⟩ := by
  simp only [findReference, bind_yields, ofOption_yields, ofExcept_yields, mention_yields,
    pure_yields] at h
  obtain ⟨table, _, _, ⟨htable, -⟩, ⟨d, _, _, ⟨hd, -⟩, ⟨column, _, _, ⟨hcolumn, -⟩,
    ⟨_, _, _, -, ⟨rfl, -⟩, -⟩, -⟩, -⟩, -⟩ := h
  exact ⟨table, d, column, htable, hd, hcolumn, rfl⟩

/-- The lists of a query, then its joins, then its conditions. -/
theorem selectParts_yields {table : String} {path : Path} {extent : Extent}
    {own : Option String} {token : Token} {clauses : Clauses} {conditions : ConditionGroup}
    {joins : List Join} {unions : List UnionBranch} {parts : SelectParts} {t : Trace}
    (h : (ctx.selectParts table path extent
      ⟨own, token, clauses, conditions, joins, unions⟩).Yields parts t) :
    ∃ d lists t₁ added t₂ terms t₃, ctx.schema.table table = .ok d ∧
      (ctx.collect ⟨table, some token, d⟩ clauses (path.child "gh")
        (ctx.shownColumns ⟨table, some token, d⟩ clauses) extent).Yields lists t₁ ∧
      (ctx.joined ⟨table, some token, d⟩ (path.child "cl") extent 0 joins).Yields added t₂ ∧
      (ctx.groupTerms ⟨table, some token, d⟩ (path.child "tl") conditions).Yields terms t₃ ∧
      parts = ctx.assemble table token lists added terms ∧
      t = ⟨[token], []⟩ ++ (t₁ ++ (t₂ ++ t₃)) := by
  simp only [selectParts, bind_yields, pure_yields, openScope_yields] at h
  obtain ⟨_, _, _, ⟨d, hd, rfl, rfl⟩, ⟨lists, t₁, _, hlists, ⟨added, t₂, _, hadded,
    ⟨terms, t₃, _, hterms, ⟨rfl, rfl⟩, rfl⟩, rfl⟩, rfl⟩, rfl⟩ := h
  exact ⟨d, lists, t₁, added, t₂, terms, t₃, hd, hlists, hadded, hterms, rfl,
    by rw [Trace.append_empty]⟩

/-- Only a `SELECT` that shows something passes. -/
theorem requireColumns_yields {parts : SelectParts} {e : Error} {a : Unit} {t : Trace} :
    (requireColumns parts e).Yields a t ↔ parts.collected.columns ≠ [] ∧ t = .empty := by
  unfold requireColumns
  cases h : parts.collected.columns with
  | nil => simp
  | cons column columns => simp

/-- A branch is a `SELECT` of its own over the table that it has or takes over. -/
theorem unionBranches_cons_yields {table : String} {path : Path} {k : Nat} {kind : UnionKind}
    {q : Query} {rest : List UnionBranch} {f : Fragment} {t : Trace}
    (h : (ctx.unionBranches table path k (⟨kind, q⟩ :: rest)).Yields f t) :
    ∃ parts t₁ others t₂,
      (ctx.selectParts (q.table.getD table) (path.childAt "un" k) .everything q).Yields parts t₁ ∧
      parts.collected.columns ≠ [] ∧
      (ctx.unionBranches table path (k + 1) rest).Yields others t₂ ∧
      f = .text kind.text :: Fragment.parens
        (parts.select ++ [.text (Dialect.limitClause q.clauses.limit)]) ++ others ∧
      t = t₁ ++ t₂ := by
  obtain ⟨own, token, clauses, conditions, joins, unions⟩ := q
  simp only [unionBranches, bind_yields, pure_yields, requireColumns_yields] at h
  obtain ⟨parts, t₁, _, hparts, ⟨_, _, _, ⟨hshown, rfl⟩, ⟨others, t₂, _, hothers,
    ⟨rfl, rfl⟩, rfl⟩, rfl⟩, rfl⟩ := h
  exact ⟨parts, t₁, others, t₂, hparts, hshown, hothers, rfl,
    by rw [Trace.append_empty, Trace.empty_append]⟩

/-- The conditions of a group come before its groups. -/
theorem groupTerms_yields {scope : Scope} {path : Path} {conditions : List Condition}
    {groups : List Subgroup} {terms : List Term} {t : Trace}
    (h : (ctx.groupTerms scope path ⟨conditions, groups⟩).Yields terms t) :
    ∃ leaves t₁ others t₂, (ctx.conditionTerms scope path 0 conditions).Yields leaves t₁ ∧
      (ctx.subgroupTerms scope path 0 groups).Yields others t₂ ∧
      terms = leaves ++ others ∧ t = t₁ ++ t₂ := by
  simp only [groupTerms, bind_yields, pure_yields] at h
  obtain ⟨leaves, t₁, _, hleaves, ⟨others, t₂, _, hothers, ⟨rfl, rfl⟩, rfl⟩, rfl⟩ := h
  exact ⟨leaves, t₁, others, t₂, hleaves, hothers, rfl, by rw [Trace.append_empty]⟩

/-- Each condition leaves one term. -/
theorem conditionTerms_cons_yields {scope : Scope} {path : Path} {i : Nat}
    {connector : Connector} {field : String} {filter : Filter} {rest : List Condition}
    {terms : List Term} {t : Trace}
    (h : (ctx.conditionTerms scope path i (⟨connector, field, filter⟩ :: rest)).Yields terms t) :
    ∃ text t₁ others t₂, (ctx.conditionText scope path i field filter).Yields text t₁ ∧
      (ctx.conditionTerms scope path (i + 1) rest).Yields others t₂ ∧
      terms = .leaf connector text :: others ∧ t = t₁ ++ t₂ := by
  simp only [conditionTerms, bind_yields, pure_yields] at h
  obtain ⟨text, t₁, _, htext, ⟨others, t₂, _, hothers, ⟨rfl, rfl⟩, rfl⟩, rfl⟩ := h
  exact ⟨text, t₁, others, t₂, htext, hothers, rfl, by rw [Trace.append_empty]⟩

/-- A condition that holds a query is a field, a test and a whole `SELECT` in parentheses. -/
theorem conditionText_memberOf_yields {scope : Scope} {path : Path} {i : Nat} {field : String}
    {test : Membership} {table : String} {token : Token} {clauses : Clauses}
    {conditions : ConditionGroup} {joins : List Join} {unions : List UnionBranch} {f : Fragment}
    {t : Trace}
    (h : (ctx.conditionText scope path i field
      (.memberOf test ⟨some table, token, clauses, conditions, joins, unions⟩)).Yields f t) :
    ∃ operand t₁ parts t₂ branches t₃, (ctx.field scope field).Yields operand t₁ ∧
      (ctx.selectParts table (path.childAt "s" i) .everything
        ⟨some table, token, clauses, conditions, joins, unions⟩).Yields parts t₂ ∧
      parts.collected.columns ≠ [] ∧
      (ctx.unionBranches table (path.childAt "s" i) 0 unions).Yields branches t₃ ∧
      f = operand ++ Piece.text (" " ++ test.text ++ " ") :: Fragment.parens
        (compound parts.select branches ++ [.text (Dialect.limitClause clauses.limit)]) ∧
      t = t₁ ++ (t₂ ++ t₃) := by
  simp only [conditionText, bind_yields, pure_yields, requireColumns_yields] at h
  obtain ⟨operand, t₁, _, hoperand, ⟨parts, t₂, _, hparts, ⟨_, _, _, ⟨hshown, rfl⟩,
    ⟨branches, t₃, _, hbranches, ⟨rfl, rfl⟩, rfl⟩, rfl⟩, rfl⟩, rfl⟩ := h
  exact ⟨operand, t₁, parts, t₂, branches, t₃, hoperand, hparts, hshown, hbranches, rfl,
    by rw [Trace.append_empty, Trace.empty_append]⟩

/-- A group without conditions leaves no term. -/
theorem subgroupTerms_cons_yields {scope : Scope} {path : Path} {j : Nat}
    {connector : Connector} {group : ConditionGroup} {rest : List Subgroup} {terms : List Term}
    {t : Trace}
    (h : (ctx.subgroupTerms scope path j (⟨connector, group⟩ :: rest)).Yields terms t) :
    ∃ inner t₁ others t₂, (ctx.groupTerms scope (path.childAt "ot" j) group).Yields inner t₁ ∧
      (ctx.subgroupTerms scope path (j + 1) rest).Yields others t₂ ∧
      terms = (if inner.isEmpty then others else .group connector inner :: others) ∧
      t = t₁ ++ t₂ := by
  simp only [subgroupTerms, bind_yields, pure_yields] at h
  obtain ⟨inner, t₁, _, hinner, ⟨others, t₂, _, hothers, ⟨rfl, rfl⟩, rfl⟩, rfl⟩ := h
  exact ⟨inner, t₁, others, t₂, hinner, hothers, rfl, by rw [Trace.append_empty]⟩

/-- A join needs a table. Its keys and lists come first, then its extra conditions, its other
conditions and the joins inside it, and after all that the joins beside it. -/
theorem joined_cons_yields {parent : Scope} {path : Path} {extent : Extent} {l : Nat}
    {keys : JoinKeys} {own : Option String} {token : Token} {clauses : Clauses}
    {conditions on : ConditionGroup} {joins rest : List Join} {unions : List UnionBranch}
    {added : Joined} {t : Trace}
    (h : (ctx.joined parent path extent l
      (⟨keys, ⟨own, token, clauses, conditions, joins, unions⟩, on⟩ :: rest)).Yields added t) :
    ∃ table d keyText t₁ lists t₂ extra t₃ terms t₄ inner t₅ others t₆, own = some table ∧
      ctx.schema.table table = .ok d ∧
      (ctx.joinKeys parent ⟨table, some token, d⟩ keys).Yields keyText t₁ ∧
      (ctx.collect ⟨table, some token, d⟩ clauses (path.childAt "gh" l)
        (ctx.joinedColumns ⟨table, some token, d⟩ clauses) extent).Yields lists t₂ ∧
      (ctx.groupTerms ⟨table, some token, d⟩ (path.childAt "ofl" l) on).Yields extra t₃ ∧
      (ctx.groupTerms ⟨table, some token, d⟩ (path.childAt "fl" l) conditions).Yields terms t₄ ∧
      (ctx.joined ⟨table, some token, d⟩ (path.childAt "j" l) extent 0 joins).Yields inner t₅ ∧
      (ctx.joined parent path extent (l + 1) rest).Yields others t₆ ∧
      added = ctx.attach table token keyText lists extra terms ++ inner ++ others ∧
      t = ⟨[token], []⟩ ++ (t₁ ++ (t₂ ++ (t₃ ++ (t₄ ++ t₅)))) ++ t₆ := by
  cases own with
  | none => simp [joined, joinedQuery] at h
  | some table =>
    simp only [joined, joinedQuery, bind_yields, pure_yields, openScope_yields] at h
    obtain ⟨_, _, _, ⟨_, _, _, ⟨d, hd, rfl, rfl⟩, ⟨keyText, t₁, _, hkeys, ⟨lists, t₂, _, hlists,
      ⟨extra, t₃, _, hextra, ⟨terms, t₄, _, hterms, ⟨inner, t₅, _, hinner, ⟨rfl, rfl⟩, rfl⟩, rfl⟩,
      rfl⟩, rfl⟩, rfl⟩, rfl⟩, ⟨others, t₆, _, hothers, ⟨rfl, rfl⟩, rfl⟩, rfl⟩ := h
    exact ⟨table, d, keyText, t₁, lists, t₂, extra, t₃, terms, t₄, inner, t₅, others, t₆, rfl, hd,
      hkeys, hlists, hextra, hterms, hinner, hothers, rfl, by simp only [Trace.append_empty]⟩

/-- Asking for columns does not change what is resolved. -/
theorem shownParts_yields {table : String} {path : Path} {q : Query} {parts : SelectParts}
    {t : Trace} (h : (ctx.shownParts table path q).Yields parts t) :
    (ctx.selectParts table path .everything q).Yields parts t ∧
      parts.collected.columns ≠ [] := by
  simp only [shownParts, bind_yields, pure_yields, requireColumns_yields] at h
  obtain ⟨found, t₁, _, hparts, ⟨_, _, _, ⟨hshown, rfl⟩, ⟨hfound, rfl⟩, rfl⟩, rfl⟩ := h
  subst hfound
  exact ⟨by rwa [Trace.append_empty, Trace.append_empty], hshown⟩

/-- A query with its unions is a `SELECT` that shows something, and its branches. -/
theorem compoundSelect_yields {table : String} {path : Path} {q : Query} {f : Fragment}
    {t : Trace} (h : (ctx.compoundSelect table path q).Yields f t) :
    ∃ parts t₁ branches t₂, (ctx.selectParts table path .everything q).Yields parts t₁ ∧
      parts.collected.columns ≠ [] ∧
      (ctx.unionBranches table path 0 q.unions).Yields branches t₂ ∧
      f = compound parts.select branches ∧ t = t₁ ++ t₂ := by
  simp only [compoundSelect, bind_yields, pure_yields] at h
  obtain ⟨parts, t₁, _, hshown, ⟨branches, t₂, _, hbranches, ⟨rfl, rfl⟩, rfl⟩, rfl⟩ := h
  obtain ⟨hparts, hcolumns⟩ := shownParts_yields hshown
  exact ⟨parts, t₁, branches, t₂, hparts, hcolumns, hbranches, rfl, by rw [Trace.append_empty]⟩

end Context

end DynamicSql
