import DynamicSql.Proofs.Sql.Placeholders
import DynamicSql.Resolve.Query

/-!
# Reading fragments

Fragments are put together by separators, parentheses and connectors, all of them fixed text. A
reading that passes over such text therefore finds in the whole what it finds in the parts, in
their order. The statements are for any such reading, be it of the markers and the tables of a
statement or of the texts in it that hold an opening brace.
-/

namespace DynamicSql

namespace Term

mutual

/-- The texts of the conditions in a term, without anything between them. -/
def text : Term → Fragment
  | .leaf _ text => text
  | .group _ terms => leaves terms

/-- The texts of the conditions among terms, from left to right. -/
def leaves : List Term → Fragment
  | [] => []
  | term :: rest => term.text ++ leaves rest

end

/-- Lists of terms have their leaves one after the other. -/
@[simp] theorem leaves_append (a b : List Term) : leaves (a ++ b) = leaves a ++ leaves b := by
  induction a with
  | nil => rfl
  | cons term rest ih => simp [leaves, ih]

end Term

/-- A way to look at pieces that passes over texts without opening braces, and over white space at
the front of a text. -/
structure Reading {β : Type} (g : Piece → Option β) : Prop where
  text : ∀ s, Unbraced s → g (.text s) = none
  trim : ∀ s, g (.text (Text.trimStart s)) = g (.text s)

/-- Connectors are written without braces. -/
theorem Connector.unbraced (c : Connector) : Unbraced c.text := by
  cases c <;> decide

section Reading

variable {β : Type} {g : Piece → Option β} (hg : Reading g)

include hg

/-- A text without opening braces adds nothing to what is found. -/
theorem filterMap_text_cons {s : String} (h : Unbraced s) (f : Fragment) :
    (Piece.text s :: f).filterMap g = f.filterMap g :=
  List.filterMap_cons_none (hg.text s h)

omit hg in
/-- What is put around a fragment adds nothing either. -/
theorem filterMap_wrap {w : Wrap} (hbefore : g (.text w.before) = none)
    (hafter : g (.text w.after) = none) (f : Fragment) :
    (f.wrap w).filterMap g = f.filterMap g := by
  rw [Fragment.wrap, List.cons_append, List.filterMap_cons_none hbefore, List.filterMap_append,
    List.filterMap_cons_none hafter, List.filterMap_nil, List.append_nil]

/-- In parentheses, the same is found. -/
theorem filterMap_parens (f : Fragment) : f.parens.filterMap g = f.filterMap g :=
  filterMap_wrap (hg.text "(" (by decide)) (hg.text ")" (by decide)) f

omit hg in
/-- What is found in joined fragments is found in them one after the other. -/
theorem filterMap_join {separator : String} (hseparator : g (.text separator) = none)
    (fs : List Fragment) :
    (Fragment.join separator fs).filterMap g = fs.flatMap (List.filterMap g) := by
  unfold Fragment.join List.intercalate
  induction fs with
  | nil => rfl
  | cons f rest ih =>
    cases rest with
    | nil => simp
    | cons f' rest =>
      simp only [List.intersperse_cons_cons, List.flatten_cons, List.filterMap_append, ih,
        List.flatMap_cons, List.filterMap_cons_none hseparator, List.filterMap_nil, List.nil_append]

/-- White space at the front makes no difference. -/
theorem filterMap_trimStart (f : Fragment) : f.trimStart.filterMap g = f.filterMap g := by
  fun_induction Fragment.trimStart f with
  | case1 s rest trimmed h ih =>
    have hempty : Text.trimStart s = "" := String.isEmpty_iff.mp h
    have hnone : g (.text s) = none := by
      rw [← hg.trim, hempty]
      exact hg.text "" (by decide)
    rw [ih, List.filterMap_cons_none hnone]
  | case2 s rest trimmed h => simp only [List.filterMap_cons, trimmed, hg.trim]
  | case3 => rfl

/-- The extra conditions of a join stand behind its keys. -/
theorem filterMap_appendOn (root : String) (keys extra : Fragment) :
    (appendOn root keys extra).filterMap g = keys.filterMap g ++ extra.filterMap g := by
  rw [← filterMap_trimStart hg extra]
  unfold appendOn
  cases h : extra.trimStart with
  | nil => simp
  | cons piece rest =>
    have hspace : Unbraced " " := by decide
    have hand : Unbraced " AND " := by decide
    simp only [List.isEmpty_cons, Bool.false_eq_true, if_false]
    split
    · rw [List.filterMap_append, filterMap_text_cons hg hspace]
    · rw [List.filterMap_append, filterMap_text_cons hg hand]

/-- Nor do parentheses that guard an `OR`. -/
theorem filterMap_guardOr (root : String) (f : Fragment) :
    (guardOr root f).filterMap g = f.filterMap g := by
  unfold guardOr
  split
  · exact filterMap_parens hg f
  · rfl

omit hg in
/-- Empty fragments may be left out. -/
theorem flatMap_filter_isEmpty (fs : List Fragment) :
    (fs.filter (!·.isEmpty)).flatMap (List.filterMap g) = fs.flatMap (List.filterMap g) := by
  induction fs with
  | nil => rfl
  | cons f rest ih => cases f <;> simp [ih]

/-- Combined conditions stand one after the other. -/
theorem filterMap_combineWhere (root : String) (parts : List Fragment) :
    (combineWhere root parts).filterMap g = parts.flatMap (List.filterMap g) := by
  rw [← flatMap_filter_isEmpty parts]
  unfold combineWhere
  split
  case h_1 h => simp [h]
  case h_2 part h => simp [h]
  case h_3 =>
    rw [filterMap_join (hg.text " AND " (by decide)), List.flatMap_map]
    exact congrArg (List.flatMap · _) (funext (filterMap_guardOr hg root))

/-- In a clause, what its entries hold is found. -/
theorem filterMap_clause {heading separator : String} (hheading : Unbraced heading)
    (hseparator : Unbraced separator) (entries : List Fragment) :
    (SelectParts.clause heading separator entries).filterMap g =
      entries.flatMap (List.filterMap g) := by
  unfold SelectParts.clause
  cases entries with
  | nil => rfl
  | cons entry rest =>
    rw [List.isEmpty_cons, if_neg Bool.false_ne_true, filterMap_text_cons hg hheading]
    exact filterMap_join (hg.text separator hseparator) _

mutual

/-- Terms behind `WHERE` show what their leaves hold. -/
theorem filterMap_whereText :
    ∀ terms, (Term.whereText terms).filterMap g = (Term.leaves terms).filterMap g
  | [] => rfl
  | .leaf _ text :: rest => by
    simp [Term.whereText, Term.body, Term.leaves, Term.text, filterMap_tailText rest]
  | .group _ terms :: rest => by
    simp [Term.whereText, Term.body, Term.leaves, Term.text, filterMap_parens hg,
      filterMap_whereText terms, filterMap_tailText rest]

/-- So they do behind other text. -/
theorem filterMap_tailText :
    ∀ terms, (Term.tailText terms).filterMap g = (Term.leaves terms).filterMap g
  | [] => rfl
  | .leaf connector text :: rest => by
    rw [Term.tailText, List.cons_append, filterMap_text_cons hg connector.unbraced,
      List.filterMap_append, filterMap_tailText rest, Term.leaves, Term.text,
      List.filterMap_append]
  | .group connector terms :: rest => by
    rw [Term.tailText, List.cons_append, filterMap_text_cons hg connector.unbraced,
      List.filterMap_append, filterMap_parens hg, filterMap_whereText terms,
      filterMap_tailText rest, Term.leaves, Term.text, List.filterMap_append]

end

/-- And so they do behind `ON`. -/
theorem filterMap_onText (terms : List Term) :
    (Term.onText terms).filterMap g = (Term.leaves terms).filterMap g := by
  unfold Term.onText
  split
  · exact filterMap_tailText hg _
  · exact filterMap_whereText hg _

/-- From `FROM` to `HAVING`: the tables and joins, the conditions, and the lists. -/
theorem filterMap_body (parts : SelectParts) :
    parts.body.filterMap g = parts.source.filterMap g ++ parts.condition.filterMap g ++
      parts.collected.groups.flatMap (List.filterMap g) ++
      parts.collected.havings.flatMap (List.filterMap g) := by
  have hfrom : Unbraced " FROM " := by decide
  have hwhere : Unbraced " WHERE " := by decide
  have hcondition : (if parts.condition.isEmpty then [] else .text " WHERE " :: parts.condition
      : Fragment).filterMap g = parts.condition.filterMap g := by
    cases h : parts.condition with
    | nil => rfl
    | cons piece rest =>
      rw [List.isEmpty_cons, if_neg Bool.false_ne_true, filterMap_text_cons hg hwhere]
  rw [SelectParts.body, List.cons_append, List.cons_append, List.cons_append,
    filterMap_text_cons hg hfrom, List.filterMap_append, List.filterMap_append,
    List.filterMap_append, hcondition, filterMap_clause hg (by decide) (by decide),
    filterMap_clause hg (by decide) (by decide)]

/-- The whole `SELECT`: its columns, its body and its ordering. -/
theorem filterMap_select (parts : SelectParts) :
    parts.select.filterMap g = parts.collected.columns.flatMap (List.filterMap g) ++
      parts.body.filterMap g ++ parts.collected.orders.flatMap (List.filterMap g) := by
  have hselect : Unbraced "SELECT " := by decide
  rw [SelectParts.select, List.cons_append, List.cons_append, filterMap_text_cons hg hselect,
    List.filterMap_append, List.filterMap_append, filterMap_join (hg.text ", " (by decide)),
    filterMap_clause hg (by decide) (by decide)]

/-- In a `SELECT` with its branches, both are found. -/
theorem filterMap_compound (select branches : Fragment) :
    (Context.compound select branches).filterMap g =
      select.filterMap g ++ branches.filterMap g := by
  unfold Context.compound
  cases branches with
  | nil => simp
  | cons piece rest =>
    simp only [List.isEmpty_cons, Bool.false_eq_true, if_false, List.filterMap_append,
      filterMap_parens hg]

omit hg in
/-- What a table shows in front of its conditions: itself, then its joins. -/
theorem filterMap_assemble_source (ctx : Context) (table : String) (token : Token)
    (own : Collected) (joined : Joined) (terms : List Term) :
    (ctx.assemble table token own joined terms).source.filterMap g =
      (g (.table table token)).toList ++ joined.text.filterMap g := by
  cases h : g (.table table token) <;> simp [Context.assemble, h]

/-- The conditions of a statement: its own, then those of its joins. -/
theorem filterMap_assemble_condition (ctx : Context) (table : String) (token : Token)
    (own : Collected) (joined : Joined) (terms : List Term) :
    (ctx.assemble table token own joined terms).condition.filterMap g =
      (Term.leaves terms).filterMap g ++ joined.conditions.flatMap (List.filterMap g) := by
  simp only [Context.assemble, filterMap_combineWhere hg, List.flatMap_cons,
    filterMap_whereText hg]

/-- The text of a join: its table, its keys, and its extra conditions. -/
theorem filterMap_attach_text (ctx : Context) (table : String) (token : Token) (keys : Fragment)
    (own : Collected) (extra terms : List Term) :
    (ctx.attach table token keys own extra terms).text.filterMap g =
      (g (.table table token)).toList ++ keys.filterMap g ++
        (Term.leaves extra).filterMap g := by
  have hjoin : Unbraced " LEFT JOIN " := by decide
  have hon : Unbraced " ON " := by decide
  have htable : ∀ f : Fragment, (Piece.table table token :: f).filterMap g =
      (g (.table table token)).toList ++ f.filterMap g := by
    intro f
    cases h : g (.table table token) <;> simp [h]
  rw [Context.attach, filterMap_text_cons hg hjoin, htable, filterMap_text_cons hg hon,
    filterMap_parens hg, filterMap_appendOn hg, filterMap_onText hg, List.append_assoc]

/-- A join hands over its other conditions to the statement. -/
theorem filterMap_attach_conditions (ctx : Context) (table : String) (token : Token)
    (keys : Fragment) (own : Collected) (extra terms : List Term) :
    (ctx.attach table token keys own extra terms).conditions.flatMap (List.filterMap g) =
      (Term.leaves terms).filterMap g := by
  rw [← filterMap_whereText hg terms]
  unfold Context.attach
  cases h : Term.whereText terms <;> simp

end Reading

end DynamicSql
