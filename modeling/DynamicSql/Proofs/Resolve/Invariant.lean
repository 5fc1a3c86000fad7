import DynamicSql.Proofs.Resolve.Steps
import DynamicSql.Proofs.Sql.Nesting

/-!
# Properties that resolving upholds

A property of fragments holds of everything that a query resolves to once it holds of what columns
and expressions resolve to and survives the few ways in which fragments are put together
(`Context.Invariant`). It then survives all other ways, too.
-/

namespace DynamicSql

/-- A property of fragments that resolving upholds: it holds of what can be seen from a scope, and
survives the ways in which fragments are put together. Only admitted names and opened tables are
resolved, only some tokens are mentioned on the way, and `seen` says what is known of the scopes of
these tables. -/
structure Context.Invariant (ctx : Context) (admitted : String → Prop)
    (opened : Token → String → Prop) (mentioned : Token → Prop) (seen : Scope → Prop)
    (P : Fragment → Prop) : Prop where
  nil : P []
  append : ∀ {f g}, P f → P g → P (f ++ g)
  /-- Balanced text may stand anywhere. -/
  fixed : ∀ s, Balanced s.toList → P [.text s]
  /-- Between parentheses behind a balanced text, there may be further balanced text. -/
  enclose : ∀ {f} (function front back : String), Balanced function.toList →
    Balanced front.toList → Balanced back.toList → P f →
    P (f.wrap ⟨function ++ "(" ++ front, back ++ ")"⟩)
  trimStart : ∀ {f}, P f → P f.trimStart
  marker : ∀ slot, P [.marker slot]
  table : ∀ {token name}, opened token name → mentioned token → P [.table name token]
  shownName : ∀ {name}, admitted name → P [.text (" AS " ++ name)]
  scope : ∀ {token name d}, opened token name → mentioned token →
    ctx.schema.table name = .ok d → seen ⟨name, some token, d⟩
  columns : ∀ {scope}, seen scope → ∀ c ∈ scope.table.columns,
    P (.qualified scope.token? c.column) ∧ P [.text (" AS " ++ c.field)]
  key : ∀ {scope column}, seen scope → admitted column → P (.qualified scope.token? column)
  find : ∀ {scope name}, seen scope → admitted name →
    (ctx.findColumn scope name).EnsuresWithin mentioned fun found =>
      P found.fragment ∧ P [.text (" AS " ++ found.field)]
  expression : ∀ {scope text}, seen scope → admitted text →
    (ctx.expression scope text).EnsuresWithin mentioned P

/-- All entries of the lists have a property. -/
structure Collected.All (P : Fragment → Prop) (lists : Collected) : Prop where
  columns : ∀ f ∈ lists.columns, P f
  groups : ∀ f ∈ lists.groups, P f
  havings : ∀ f ∈ lists.havings, P f
  orders : ∀ f ∈ lists.orders, P f

namespace Collected.All

variable {P : Fragment → Prop} {a b : Collected}

/-- Nothing was collected, so all of it has the property. -/
theorem empty : Collected.empty.All P :=
  ⟨List.forall_mem_nil _, List.forall_mem_nil _, List.forall_mem_nil _, List.forall_mem_nil _⟩

/-- What is collected one after the other has the property if both parts do. -/
theorem append (ha : a.All P) (hb : b.All P) : (a ++ b).All P where
  columns := List.forall_mem_append.mpr ⟨ha.columns, hb.columns⟩
  groups := List.forall_mem_append.mpr ⟨ha.groups, hb.groups⟩
  havings := List.forall_mem_append.mpr ⟨ha.havings, hb.havings⟩
  orders := List.forall_mem_append.mpr ⟨ha.orders, hb.orders⟩

end Collected.All

/-- All parts of a `SELECT` have a property. -/
structure SelectParts.All (P : Fragment → Prop) (parts : SelectParts) : Prop where
  collected : parts.collected.All P
  source : P parts.source
  condition : P parts.condition

/-- All that joins add has a property. -/
structure Joined.All (P : Fragment → Prop) (added : Joined) : Prop where
  text : P added.text
  collected : added.collected.All P
  conditions : ∀ f ∈ added.conditions, P f

mutual

/-- All conditions in a term have a property. -/
def Term.All (P : Fragment → Prop) : Term → Prop
  | .leaf _ text => P text
  | .group _ terms => Term.AllOf P terms

/-- All conditions among terms have a property. -/
def Term.AllOf (P : Fragment → Prop) : List Term → Prop
  | [] => True
  | term :: rest => term.All P ∧ Term.AllOf P rest

end

/-- Terms have the property list by list. -/
theorem Term.AllOf.append {P : Fragment → Prop} {a b : List Term} (ha : AllOf P a)
    (hb : AllOf P b) : AllOf P (a ++ b) := by
  induction a with
  | nil => exact hb
  | cons term a ih => exact ⟨ha.1, ih ha.2⟩

/-- A number opens and closes nothing. -/
theorem balanced_toString (n : Nat) : Balanced (toString n).toList := by
  rw [Nat.toString_eq_repr, Nat.toList_repr]
  refine .of_inert fun c hc => Nesting.inert_of_isAlphanum ?_
  have hdigit := Nat.isDigit_of_mem_toDigits (by decide) (by decide) hc
  rw [Char.isAlphanum, hdigit, Bool.or_true]

/-- The clause of a limit is balanced. -/
theorem balanced_limitClause (limit : Option UInt64) :
    Balanced (Dialect.limitClause limit).toList := by
  have hheading : Balanced " LIMIT ".toList := by decide
  cases limit with
  | none => decide
  | some n =>
    by_cases hn : n = 0
    · rw [Dialect.limitClause, if_pos hn]
      decide
    · have htext : Dialect.limitClause (some n) = " LIMIT " ++ toString n.toNat := by
        rw [Dialect.limitClause, if_neg hn]
        rfl
      rw [htext, String.toList_append]
      exact hheading.append (balanced_toString n.toNat)

/-- A date is put in front of its pattern, between parentheses. -/
theorem Dialect.dateFormat_eq (d : Dialect) (pattern : String) :
    ∃ function : String, Balanced function.toList ∧ d.dateFormat pattern =
      ⟨function ++ "(", ",'" ++ doubleQuotes pattern ++ "'" ++ ")"⟩ := by
  have hbehind : ",'" ++ doubleQuotes pattern ++ "')" =
      ",'" ++ doubleQuotes pattern ++ "'" ++ ")" := by
    rw [String.append_assoc, String.append_assoc, String.append_assoc]
    rfl
  cases d with
  | mySql => exact ⟨"DATE_FORMAT", by decide, by rw [dateFormat, hbehind]; rfl⟩
  | postgreSql => exact ⟨"to_char", by decide, by rw [dateFormat, hbehind]; rfl⟩

namespace Context.Invariant

open Fragment Resolve

variable {ctx : Context} {admitted : String → Prop} {opened : Token → String → Prop}
  {mentioned : Token → Prop} {seen : Scope → Prop} {P : Fragment → Prop}
  (I : ctx.Invariant admitted opened mentioned seen P)

include I

section Fragments

variable {f g : Fragment} {fs : List Fragment}

/-- A fragment keeps the property behind a piece that has it. -/
theorem cons {piece : Piece} (hpiece : P [piece]) (hf : P f) : P (piece :: f) :=
  I.append hpiece hf

/-- A fragment keeps the property behind a balanced text. -/
theorem text_cons {s : String} (hs : Balanced s.toList) (hf : P f) : P (.text s :: f) :=
  I.cons (I.fixed s hs) hf

/-- A fragment keeps the property in parentheses. -/
theorem parens (hf : P f) : P f.parens := I.enclose "" "" "" .nil .nil .nil hf

/-- A fragment keeps the property as the first argument of a function. -/
theorem apply {function : String} (back : String) (hfunction : Balanced function.toList)
    (hback : Balanced back.toList) (hf : P f) : P (f.wrap ⟨function ++ "(", back ++ ")"⟩) := by
  have hall := I.enclose function "" back hfunction .nil hback hf
  rwa [String.append_empty] at hall

/-- A fragment keeps the property as the only argument of a function. -/
theorem call {function : String} (hfunction : Balanced function.toList) (hf : P f) :
    P (DynamicSql.call function f) := I.apply "" hfunction .nil hf

/-- A fragment keeps the property with a default in place of null. -/
theorem nullDefault (hf : P f) : P (f.wrap ctx.dialect.nullDefault) := by
  cases ctx.dialect with
  | mySql => exact I.enclose "ifnull" "" ", 0" (by decide) .nil (by decide) hf
  | postgreSql => exact I.enclose "coalesce" "" ", 0" (by decide) .nil (by decide) hf

/-- A fragment keeps the property when it is formatted as a date, whatever the pattern is. -/
theorem dateFormat (pattern : String) (hf : P f) :
    P (f.wrap (ctx.dialect.dateFormat pattern)) := by
  obtain ⟨function, hfunction, heq⟩ := ctx.dialect.dateFormat_eq pattern
  rw [heq]
  exact I.apply _ hfunction (balanced_literal pattern) hf

/-- Fragments with the property have it one after the other. -/
theorem flatten (h : ∀ f ∈ fs, P f) : P fs.flatten := by
  induction fs with
  | nil => exact I.nil
  | cons f fs ih =>
    obtain ⟨hf, hfs⟩ := List.forall_mem_cons.mp h
    exact I.append hf (ih hfs)

/-- Fragments with the property have it when a balanced text separates them. -/
theorem join {separator : String} (hseparator : Balanced separator.toList) (h : ∀ f ∈ fs, P f) :
    P (Fragment.join separator fs) := by
  cases fs with
  | nil => exact I.nil
  | cons f fs =>
    obtain ⟨hf, hfs⟩ := List.forall_mem_cons.mp h
    rw [join_cons, List.flatMap_def]
    refine I.append hf (I.flatten ?_)
    exact List.forall_mem_map.mpr fun g hg => I.text_cons hseparator (hfs g hg)

/-- They have it in a clause with a balanced heading, too, which is left out where there are
none. -/
theorem clause {heading separator : String} (hheading : Balanced heading.toList)
    (hseparator : Balanced separator.toList) (h : ∀ f ∈ fs, P f) :
    P (SelectParts.clause heading separator fs) := by
  unfold SelectParts.clause
  split
  · exact I.nil
  · exact I.text_cons hheading (I.join hseparator h)

/-- A fragment keeps the property under an alias that may come from outside. -/
theorem named {alias? : Option String} (halias : ∀ s ∈ alias?, admitted s) (hf : P f) :
    P (DynamicSql.named alias? f) := by
  unfold DynamicSql.named
  split
  case h_1 name =>
    split
    · exact hf
    · exact I.append hf (I.shownName (halias name rfl))
  case h_2 => exact hf

/-- A column keeps the property with the field that it is shown as. -/
theorem shownAs {column name : String} (hname : P [.text (" AS " ++ name)]) (hf : P f) :
    P (DynamicSql.shownAs f column name) := by
  unfold DynamicSql.shownAs
  split
  · exact hf
  · exact I.append hf hname

/-- A comparison of a fragment with a marker has the property if both do. -/
theorem comparedWith {comparison : Comparison} {marker : Piece} (hf : P f)
    (hmarker : P [marker]) : P (Context.comparedWith f comparison marker) := by
  have hsign : Balanced (" " ++ comparison.text ++ " ").toList := by cases comparison <;> decide
  exact I.append hf (I.text_cons hsign hmarker)

/-- A fragment keeps the property in front of a limit. -/
theorem limit (hf : P f) (limit : Option UInt64) :
    P (f ++ [.text (Dialect.limitClause limit)]) :=
  I.append hf (I.fixed _ (balanced_limitClause limit))

/-- Keys keep the property when conditions that have it are joined to them. -/
theorem appendOn {root : String} (hf : P f) (hg : P g) : P (DynamicSql.appendOn root f g) := by
  have htrimmed := I.trimStart hg
  unfold DynamicSql.appendOn
  dsimp only
  split
  · exact hf
  · split
    · exact I.append hf (I.text_cons (by decide) htrimmed)
    · exact I.append hf (I.text_cons (by decide) htrimmed)

/-- Conditions with the property have it when they are put together. -/
theorem combineWhere {root : String} (h : ∀ f ∈ fs, P f) : P (DynamicSql.combineWhere root fs) := by
  have hguard : ∀ f, P f → P (guardOr root f) := by
    intro f hf
    unfold guardOr
    split
    · exact I.parens hf
    · exact hf
  have hkept : ∀ f ∈ fs.filter (!·.isEmpty), P f := fun f hf => h f (List.mem_filter.mp hf).1
  unfold DynamicSql.combineWhere
  split
  case h_1 => exact I.nil
  case h_2 part heq => exact hkept part (heq ▸ List.mem_singleton_self part)
  case h_3 =>
    refine I.join (by decide) (List.forall_mem_map.mpr fun f hf => hguard f (hkept f hf))

end Fragments

mutual

/-- Terms whose bodies have the property have it in their text. -/
theorem whereText : ∀ terms, Term.AllOf P terms → P (Term.whereText terms)
  | [], _ => I.nil
  | .leaf _ _ :: rest, h => I.append h.1 (tailText rest h.2)
  | .group _ terms :: rest, h => I.append (I.parens (whereText terms h.1)) (tailText rest h.2)

/-- So they do behind another text. -/
theorem tailText : ∀ terms, Term.AllOf P terms → P (Term.tailText terms)
  | [], _ => I.nil
  | .leaf connector text :: rest, h => by
    have hconnector : Balanced connector.text.toList := by cases connector <;> decide
    exact I.append (I.text_cons hconnector h.1) (tailText rest h.2)
  | .group connector terms :: rest, h => by
    have hconnector : Balanced connector.text.toList := by cases connector <;> decide
    exact I.append (I.text_cons hconnector (I.parens (whereText terms h.1)))
      (tailText rest h.2)

end

/-- So they do where they are joined to keys. -/
theorem onText {terms : List Term} (h : Term.AllOf P terms) : P (Term.onText terms) := by
  unfold Term.onText
  split
  · exact I.tailText _ h
  · exact I.whereText _ h

/-- What stands behind the columns of a `SELECT` has the property if its parts do. -/
theorem body {parts : SelectParts} (h : parts.All P) : P parts.body := by
  have hcondition : P (if parts.condition.isEmpty then []
      else .text " WHERE " :: parts.condition) := by
    split
    · exact I.nil
    · exact I.text_cons (by decide) h.condition
  exact I.append (I.append (I.append (I.text_cons (by decide) h.source) hcondition)
    (I.clause (by decide) (by decide) h.collected.groups))
    (I.clause (by decide) (by decide) h.collected.havings)

/-- So does the whole `SELECT`. -/
theorem select {parts : SelectParts} (h : parts.All P) : P parts.select :=
  I.append (I.append (I.text_cons (by decide) (I.join (by decide) h.collected.columns)) (I.body h))
    (I.clause (by decide) (by decide) h.collected.orders)

/-- A `SELECT` and its branches have the property together. -/
theorem compound {f g : Fragment} (hf : P f) (hg : P g) : P (Context.compound f g) := by
  unfold Context.compound
  split
  · exact hf
  · exact I.append (I.parens hf) hg

/-- A `SELECT` is put together of parts with the property, and has it in all its parts. -/
theorem assemble {table : String} {token : Token} {own : Collected} {added : Joined}
    {terms : List Term} (hopened : opened token table) (htoken : mentioned token)
    (hown : own.All P) (hadded : added.All P) (hterms : Term.AllOf P terms) :
    (ctx.assemble table token own added terms).All P where
  collected := hown.append hadded.collected
  source := I.cons (I.table hopened htoken) hadded.text
  condition := I.combineWhere (List.forall_mem_cons.mpr ⟨I.whereText _ hterms, hadded.conditions⟩)

/-- So it is for what a joined query adds. -/
theorem attach {table : String} {token : Token} {keys : Fragment} {own : Collected}
    {extra terms : List Term} (hopened : opened token table) (htoken : mentioned token)
    (hkeys : P keys) (hown : own.All P) (hextra : Term.AllOf P extra)
    (hterms : Term.AllOf P terms) : (ctx.attach table token keys own extra terms).All P where
  text := I.text_cons (by decide) (I.cons (I.table hopened htoken)
    (I.text_cons (by decide) (I.parens (I.appendOn hkeys (I.onText hextra)))))
  collected := hown
  conditions := by
    intro f hf
    simp only [Context.attach] at hf
    split at hf
    · cases hf
    · obtain rfl := List.mem_singleton.mp hf
      exact I.whereText _ hterms

/-- What joins add has the property join by join. -/
theorem joined_append {a b : Joined} (ha : a.All P) (hb : b.All P) : (a ++ b).All P where
  text := I.append ha.text hb.text
  collected := ha.collected.append hb.collected
  conditions := List.forall_mem_append.mpr ⟨ha.conditions, hb.conditions⟩

end Context.Invariant

end DynamicSql
