import DynamicSql.Proofs.Resolve.Operands
import DynamicSql.Proofs.Resolve.Shown

/-!
# Resolving for a count

The rows of a query are counted without its columns and orderings. These bind no values, and they
mention exactly the tables that they refer to. Where they are left out, the rest is resolved as
before, with the same values and fewer mentions (`selectParts_thins`). As the tables that are left
out may have been mentioned before others, the aliases may have other numbers.
-/

namespace DynamicSql

/-- The token that a name refers to, if it is a reference. -/
def referredToken? (name : String) : Option Token := (reference? name).map (·.1)

/-- The tokens that a part of an expression refers to. -/
def Lexeme.referred : Lexeme → List Token
  | .word cs => (referredToken? (String.ofList cs)).toList
  | .delimiter _ => []

/-- The tokens that a looked up text refers to. -/
def Lookup.referred : Lookup → List Token
  | .field name => (referredToken? name).toList
  | .expression text => (lexemes text).flatMap Lexeme.referred

/-- What the columns and the orderings of a query are looked up by. -/
def Clauses.listed (clauses : Clauses) : List Lookup :=
  clauses.columns.map SelectItem.lookup ++ clauses.orders.map OrderItem.lookup

/-- What the columns and the orderings of a query, and of the queries that are joined to it at any
depth, are looked up by. -/
def Query.allListed (q : Query) : List Lookup :=
  q.clauses.listed ++ q.allJoins.flatMap (·.query.clauses.listed)

/-- What is collected for a count. -/
def Collected.counted (lists : Collected) : Collected := ⟨[], lists.groups, lists.havings, []⟩

/-- What joins add for a count. -/
def Joined.counted (added : Joined) : Joined := { added with collected := added.collected.counted }

/-- The parts of a `SELECT` for a count. -/
def SelectParts.counted (parts : SelectParts) : SelectParts :=
  { parts with collected := parts.collected.counted }

/-- Columns and orderings are no part of the body. -/
theorem SelectParts.body_counted (parts : SelectParts) : parts.counted.body = parts.body := rfl

/-- A trace with some of its mentions left out, or none of them where `whole` holds. -/
structure Trace.Thinned (whole : Prop) (t u : Trace) : Prop where
  bound : u.bound = t.bound
  mentioned : u.mentioned.Sublist t.mentioned
  whole : whole → u.mentioned = t.mentioned

namespace Trace.Thinned

variable {whole : Prop} {t u t' u' : Trace}

/-- A trace is thinned to itself by leaving out nothing. -/
theorem refl (t : Trace) : t.Thinned whole t := ⟨rfl, List.Sublist.refl _, fun _ => rfl⟩

/-- Traces are thinned part by part. -/
theorem append (h : t.Thinned whole u) (h' : t'.Thinned whole u') :
    (t ++ t').Thinned whole (u ++ u') where
  bound := congrArg₂ (· ++ ·) h.bound h'.bound
  mentioned := h.mentioned.append h'.mentioned
  whole hwhole := congrArg₂ (· ++ ·) (h.whole hwhole) (h'.whole hwhole)

/-- A trace without values may be left out, if nothing was mentioned in it or mentions may be left
out. -/
theorem skip (hbound : t.bound = []) (hmentioned : whole → t.mentioned = [])
    (h : t'.Thinned whole u') : (t ++ t').Thinned whole u' where
  bound := by rw [bound_append, hbound, List.nil_append, h.bound]
  mentioned := h.mentioned.trans (List.sublist_append_right _ _)
  whole hwhole := by rw [mentioned_append, hmentioned hwhole, List.nil_append, h.whole hwhole]

end Trace.Thinned

namespace Resolve

variable {α β γ δ : Type}

/-- What is mentioned on the way is known beforehand. -/
def Mentions (x : Resolve α) (tokens : List Token) : Prop :=
  ∀ a t, x.Yields a t → t.mentioned = tokens

namespace Mentions

variable {x : Resolve α} {tokens others : List Token}

/-- A step that does nothing mentions nothing. -/
theorem pure (a : α) : (Pure.pure a : Resolve α).Mentions [] := by
  intro b t hb
  obtain ⟨-, rfl⟩ := pure_yields.mp hb
  rfl

/-- Two steps mention what each of them does, in their order. -/
theorem bind {f : α → Resolve β} (hx : x.Mentions tokens) (hf : ∀ a, (f a).Mentions others) :
    (x >>= f).Mentions (tokens ++ others) := by
  intro b t hb
  obtain ⟨a, t₁, t₂, ha, hbehind, rfl⟩ := bind_yields.mp hb
  rw [Trace.mentioned_append, hx a t₁ ha, hf a b t₂ hbehind]

/-- What is made of a result mentions nothing more. -/
theorem map (hx : x.Mentions tokens) (f : α → β) :
    (x >>= fun a => Pure.pure (f a)).Mentions tokens := by
  have hboth := hx.bind fun a => pure (f a)
  rwa [List.append_nil] at hboth

/-- A result from outside mentions nothing. -/
theorem ofExcept (x : Except Error α) : (Resolve.ofExcept x).Mentions [] := by
  intro a t ha
  obtain ⟨-, rfl⟩ := ofExcept_yields.mp ha
  rfl

/-- Neither does a value that may be missing. -/
theorem ofOption (e : Error) (x : Option α) : (Resolve.ofOption e x).Mentions [] := by
  intro a t ha
  obtain ⟨-, rfl⟩ := ofOption_yields.mp ha
  rfl

/-- A mention mentions its token. -/
theorem mention (token : Token) : (Resolve.mention token).Mentions [token] := by
  intro a t ha
  obtain rfl := mention_yields.mp ha
  rfl

/-- Working off a list mentions what its members do, in their order. -/
theorem mapM {f : α → Resolve β} {tokensOf : α → List Token} {xs : List α}
    (h : ∀ x ∈ xs, (f x).Mentions (tokensOf x)) : (xs.mapM f).Mentions (xs.flatMap tokensOf) := by
  induction xs with
  | nil =>
    rw [List.mapM_nil]
    exact pure []
  | cons x xs ih =>
    rw [List.mapM_cons, List.flatMap_cons]
    refine (h x List.mem_cons_self).bind fun y => ?_
    exact (ih fun x' hx' => h x' (List.mem_cons_of_mem x hx')).map _

/-- Where no member mentions a table, the whole list does not. -/
theorem mapM_nil {f : α → Resolve β} {xs : List α} (h : ∀ x ∈ xs, (f x).Mentions []) :
    (xs.mapM f).Mentions [] := by
  have hall := mapM h
  rwa [List.flatMap_eq_nil_iff.mpr fun _ _ => rfl] at hall

end Mentions

/-- Whenever one run succeeds, the other one yields a part of its result, with the same values, and
with fewer mentions or, where `whole` holds, the same ones. -/
def Thins (whole : Prop) (part : α → β) (x : Resolve α) (y : Resolve β) : Prop :=
  ∀ a t, x.Yields a t → ∃ u, y.Yields (part a) u ∧ t.Thinned whole u

namespace Thins

variable {whole : Prop} {part : α → β} {share : γ → δ} {x : Resolve α} {y : Resolve β}

/-- A run is thinned to itself by leaving out nothing. -/
theorem refl (x : Resolve α) : Thins whole id x x := fun _ t h => ⟨t, h, .refl t⟩

/-- A step that does nothing is thinned to one that does nothing. -/
theorem pure (a : α) : Thins whole part (Pure.pure a) (Pure.pure (part a)) := by
  intro b t hb
  obtain ⟨rfl, rfl⟩ := pure_yields.mp hb
  exact ⟨.empty, pure_yields.mpr ⟨rfl, rfl⟩, .refl _⟩

/-- Runs are thinned step by step. -/
theorem bind {f : α → Resolve γ} {g : β → Resolve δ} (hxy : Thins whole part x y)
    (hfg : ∀ a, Thins whole share (f a) (g (part a))) : Thins whole share (x >>= f) (y >>= g) := by
  intro c t hc
  obtain ⟨a, t₁, t₂, ha, hbehind, rfl⟩ := bind_yields.mp hc
  obtain ⟨u₁, hu₁, hthinned₁⟩ := hxy a t₁ ha
  obtain ⟨u₂, hu₂, hthinned₂⟩ := hfg a c t₂ hbehind
  exact ⟨u₁ ++ u₂, bind_yields.mpr ⟨_, _, _, hu₁, hu₂, rfl⟩, hthinned₁.append hthinned₂⟩

/-- Both runs begin with the same step. -/
theorem bind_right {f : α → Resolve γ} {g : α → Resolve δ}
    (hfg : ∀ a, Thins whole share (f a) (g a)) : Thins whole share (x >>= f) (x >>= g) :=
  (refl x).bind hfg

/-- A step without values is left out. -/
theorem skip {f : α → Resolve γ} {z : Resolve δ} (hbound : ∀ a t, x.Yields a t → t.bound = [])
    (hmentioned : whole → x.Mentions []) (hf : ∀ a, Thins whole share (f a) z) :
    Thins whole share (x >>= f) z := by
  intro c t hc
  obtain ⟨a, t₁, t₂, ha, hbehind, rfl⟩ := bind_yields.mp hc
  obtain ⟨u, hu, hthinned⟩ := hf a c t₂ hbehind
  exact ⟨u, hu, .skip (hbound a t₁ ha) (fun hwhole => hmentioned hwhole a t₁ ha) hthinned⟩

end Thins

end Resolve

namespace Context

open Resolve

variable {ctx : Context} {scope : Scope}

/-- A name mentions the token that it refers to, if it is a reference. -/
theorem findColumn_mentions (name : String) :
    (ctx.findColumn scope name).Mentions (Lookup.field name).referred := by
  have hreferred : (Lookup.field name).referred = ((reference? name).map (·.1)).toList := rfl
  rw [hreferred]
  unfold findColumn
  cases reference? name with
  | some reference =>
    have hlast : ∀ found : FoundColumn,
        (mention reference.1 >>= fun _ => pure found).Mentions [reference.1] :=
      fun _ => (Mentions.mention reference.1).map _
    refine Mentions.bind (.ofOption _ _) fun table => ?_
    refine Mentions.bind (.ofExcept _) fun d => ?_
    exact Mentions.bind (.ofOption _ _) fun column => hlast _
  | none => exact Mentions.map (.ofOption _ _) _

/-- A field mentions the tables that it refers to. -/
theorem field_mentions (name : String) :
    (ctx.field scope name).Mentions (Lookup.field name).referred :=
  (findColumn_mentions name).map _

/-- What is no reference mentions nothing, whether it is found or kept as it is. -/
theorem lexeme_mentions (part : Lexeme) :
    (ctx.lexeme scope part).Mentions part.referred := by
  cases part with
  | delimiter c => exact .pure _
  | word cs =>
    simp only [lexeme]
    split
    case isTrue => exact field_mentions _
    case isFalse h =>
      have hmark : behindMark? cs = none := by simpa using h
      have hreferred : (Lexeme.word cs).referred = [] := by
        simp [Lexeme.referred, referredToken?, reference?, hmark]
      rw [hreferred]
      split <;> exact .pure _

/-- So does an expression. -/
theorem expression_mentions (text : String) :
    (ctx.expression scope text).Mentions (Lookup.expression text).referred :=
  (Mentions.mapM fun part _ => lexeme_mentions part).map _

/-- A column mentions the tables that it refers to. -/
theorem selectItem_mentions (item : SelectItem) :
    (ctx.selectItem scope item).Mentions item.lookup.referred := by
  unfold selectItem SelectItem.lookup
  cases item.aggregate with
  | plain => exact (findColumn_mentions _).map _
  | dateFormat pattern => exact (field_mentions _).map _
  | count =>
    dsimp only
    split
    case isTrue h =>
      rw [String.isEmpty_iff.mp h]
      exact .pure _
    case isFalse => exact (expression_mentions _).map _
  | _ => exact (expression_mentions _).map _

/-- So does an ordering. -/
theorem orderItem_mentions (item : OrderItem) :
    (ctx.orderItem scope item).Mentions item.lookup.referred := by
  refine Mentions.map ?_ _
  unfold orderOperand OrderItem.lookup
  cases item.operand with
  | plain => exact field_mentions _
  | expression => exact expression_mentions _
  | _ => exact (field_mentions _).map _

variable {clauses : Clauses}

/-- Columns that refer to no table mention none. -/
theorem explicitColumns_mentions (h : ∀ l ∈ clauses.listed, l.referred = []) :
    (ctx.explicitColumns scope clauses).Mentions [] := by
  unfold explicitColumns
  split
  · exact .pure _
  · refine .mapM_nil fun item hitem => ?_
    have hlisted : item.lookup ∈ clauses.listed :=
      List.mem_append_left _ (List.mem_map_of_mem (List.mem_filter.mp hitem).1)
    exact h _ hlisted ▸ selectItem_mentions item

/-- Columns that refer to no other table mention none. -/
theorem shownColumns_mentions (h : ∀ l ∈ clauses.listed, l.referred = []) :
    (ctx.shownColumns scope clauses).Mentions [] := by
  unfold shownColumns
  split
  · exact .pure _
  · exact explicitColumns_mentions h

/-- So it is for those of a joined query. -/
theorem joinedColumns_mentions (h : ∀ l ∈ clauses.listed, l.referred = []) :
    (ctx.joinedColumns scope clauses).Mentions [] := by
  unfold joinedColumns
  split
  · exact .pure _
  · exact explicitColumns_mentions h

/-- So it is for orderings. -/
theorem orders_mentions (h : ∀ l ∈ clauses.listed, l.referred = []) :
    (clauses.orders.mapM (ctx.orderItem scope)).Mentions [] := by
  refine .mapM_nil fun item hitem => ?_
  have hlisted : item.lookup ∈ clauses.listed :=
    List.mem_append_right _ (List.mem_map_of_mem hitem)
  exact h _ hlisted ▸ orderItem_mentions item

variable {whole : Prop}

/-- The groups and the conditions on them are collected as before. -/
theorem collect_thins {path : Path} {columns : Resolve (List Fragment)}
    (hbare : ∀ fs t, columns.Yields fs t → AllBare fs t)
    (hcolumns : whole → columns.Mentions [])
    (hlisted : whole → ∀ l ∈ clauses.listed, l.referred = []) :
    Thins whole Collected.counted (ctx.collect scope clauses path columns .everything)
      (ctx.collect scope clauses path columns .counting) := by
  -- The columns come first and the orderings last; what is between them is the same in both runs.
  refine .skip (fun fs t h => (hbare fs t h).bound) hcolumns fun cs => ?_
  refine .bind_right fun gs => .bind_right fun hs => ?_
  refine .skip (fun fs t h => (mapM_bare (fun _ _ _ => orderItem_bare) h).bound)
    (fun hwhole => orders_mentions (hlisted hwhole)) fun os => ?_
  exact .pure _

/-- So are joins, with all that is joined inside them. -/
theorem joined_thins : ∀ (joins : List Join) {parent : Scope} {path : Path} {l : Nat},
    (whole → ∀ x ∈ (nestedJoins joins).flatMap (·.query.clauses.listed), x.referred = []) →
    Thins whole Joined.counted (ctx.joined parent path .everything l joins)
      (ctx.joined parent path .counting l joins)
  | [], _, _, _, _ => .pure _
  | ⟨_, ⟨none, _, _, _, _, _⟩, _⟩ :: _, _, _, _, _ => by
    intro added t h
    simp [joined, joinedQuery] at h
  | ⟨keys, ⟨some table, token, clauses, conditions, joins, unions⟩, on⟩ :: rest, _, _, _,
      hlisted => by
    simp only [nestedJoins, Query.allJoins, List.cons_append, List.flatMap_cons,
      List.flatMap_append, List.forall_mem_append] at hlisted
    have hclauses : whole → ∀ x ∈ clauses.listed, x.referred = [] := fun hwhole =>
      (hlisted hwhole).1
    rw [joined, joined, joinedQuery, joinedQuery]
    refine .bind (show Thins whole Joined.counted _ _ from ?_) fun first => ?_
    · refine .bind_right fun scope => .bind_right fun keys => ?_
      refine .bind (collect_thins (fun _ _ => joinedColumns_bare)
        (fun hwhole => joinedColumns_mentions (hclauses hwhole)) hclauses) fun own => ?_
      refine .bind_right fun extra => .bind_right fun terms => ?_
      refine .bind (joined_thins joins fun hwhole => (hlisted hwhole).2.1) fun inner => ?_
      exact .pure _
    · exact .bind (joined_thins rest fun hwhole => (hlisted hwhole).2.2) fun others => .pure _

/-- A `SELECT` is counted by the same body. Its values are the same, and so are the mentioned tables
where no column and no ordering refers to a table. -/
theorem selectParts_thins {q : Query} {table : String} {path : Path}
    (hlisted : whole → ∀ l ∈ q.allListed, l.referred = []) :
    Thins whole SelectParts.counted (ctx.selectParts table path .everything q)
      (ctx.selectParts table path .counting q) := by
  obtain ⟨own, token, clauses, conditions, joins, unions⟩ := q
  simp only [Query.allListed, Query.allJoins, List.forall_mem_append] at hlisted
  have hclauses : whole → ∀ x ∈ clauses.listed, x.referred = [] := fun hwhole => (hlisted hwhole).1
  rw [selectParts, selectParts]
  refine .bind_right fun scope => ?_
  refine .bind (collect_thins (fun _ _ => shownColumns_bare)
    (fun hwhole => shownColumns_mentions (hclauses hwhole)) hclauses) fun own => ?_
  refine .bind (joined_thins joins fun hwhole => (hlisted hwhole).2) fun added => ?_
  exact .bind_right fun terms => .pure _

end Context

end DynamicSql
