import DynamicSql.Proofs.Sql.Readings
import Mathlib.Data.List.TakeWhile

/-!
# Clean fragments

A clean fragment writes opening braces in its markers only. Clean parts make a clean whole, since
all that is put between them is fixed text.
-/

namespace DynamicSql

/-- Characters that are taken from a text without opening braces make such a text again. -/
theorem Unbraced.of_subset {s : String} {cs : List Char} (h : Unbraced s) (hcs : cs ⊆ s.toList) :
    Unbraced (String.ofList cs) := by
  rw [Unbraced, String.toList_ofList]
  exact fun hmem => h (hcs hmem)

instance : DecidablePred Piece.Clean
  | .text s | .table s _ | .column _ s => inferInstanceAs (Decidable (Unbraced s))
  | .marker _ => instDecidableTrue

/-- Look for pieces that are not clean. -/
def Piece.unclean? (piece : Piece) : Option Unit := if piece.Clean then none else some ()

/-- White space is no brace, so dropping it drops none. -/
theorem unbraced_trimStart (s : String) : Unbraced (Text.trimStart s) ↔ Unbraced s := by
  have hsplit : s.toList = s.toList.takeWhile Text.isBlank ++ s.toList.dropWhile Text.isBlank :=
    List.takeWhile_append_dropWhile.symm
  have hfront : '\x7b' ∉ s.toList.takeWhile Text.isBlank := fun h =>
    absurd (List.mem_takeWhile_imp h) (by decide)
  rw [Unbraced, Text.trimStart, String.toList_ofList, Text.skipBlanks]
  constructor
  · intro h hmem
    rw [hsplit, List.mem_append] at hmem
    exact hmem.elim hfront h
  · intro h hmem
    exact h ((List.dropWhile_sublist _).subset hmem)

/-- Looking for what is not clean passes over texts without braces. -/
theorem unclean?_reading : Reading Piece.unclean? where
  text _ h := if_pos h
  trim s := if_congr (unbraced_trimStart s) rfl rfl

/-- Doubled quotation marks are no braces. -/
theorem doubleQuotes_unbraced {s : String} (h : Unbraced s) : Unbraced (doubleQuotes s) := by
  rw [Unbraced, doubleQuotes, String.toList_ofList, List.mem_flatMap]
  rintro ⟨c, hc, hmem⟩
  split at hmem
  · exact absurd hmem (by decide)
  · exact h (List.mem_singleton.mp hmem ▸ hc)

namespace Fragment

variable {f g : Fragment} {fs : List Fragment}

/-- A fragment is clean just if nothing is found in it that is not. -/
theorem clean_iff : f.Clean ↔ f.filterMap Piece.unclean? = [] := by
  simp [Clean, List.filterMap_eq_nil_iff, Piece.unclean?]

/-- So are several fragments. -/
theorem all_clean_iff : (∀ f ∈ fs, Clean f) ↔ fs.flatMap (List.filterMap Piece.unclean?) = [] := by
  simp only [List.flatMap_eq_nil_iff, clean_iff]

/-- An empty fragment is clean. -/
@[simp] theorem clean_nil : Clean [] := List.forall_mem_nil _

/-- A fragment is clean if its first piece and the others are. -/
@[simp] theorem clean_cons {piece : Piece} : Clean (piece :: f) ↔ piece.Clean ∧ f.Clean :=
  List.forall_mem_cons

/-- Fragments are clean together if each one is. -/
@[simp] theorem clean_append : Clean (f ++ g) ↔ f.Clean ∧ g.Clean := List.forall_mem_append

/-- A text is clean if it has no braces. -/
@[simp] theorem clean_text {s : String} : (Piece.text s).Clean ↔ Unbraced s := .rfl

/-- A table is clean if its name has none. -/
@[simp] theorem clean_table {s : String} {token : Token} :
    (Piece.table s token).Clean ↔ Unbraced s := .rfl

/-- A column is clean if its name has none. -/
@[simp] theorem clean_column {s : String} {token : Token} :
    (Piece.column token s).Clean ↔ Unbraced s := .rfl

/-- A marker is clean: its braces are its own. -/
@[simp] theorem clean_marker {slot : Slot} : (Piece.marker slot).Clean := trivial

/-- A clean fragment stays clean between texts without braces. -/
theorem clean_wrap {w : Wrap} (hbefore : Unbraced w.before) (hafter : Unbraced w.after)
    (hf : f.Clean) : (f.wrap w).Clean := by
  rw [wrap, clean_append, clean_cons]
  exact ⟨⟨hbefore, hf⟩, clean_cons.mpr ⟨hafter, clean_nil⟩⟩

/-- It stays clean in parentheses. -/
theorem clean_parens (hf : f.Clean) : f.parens.Clean := clean_wrap (by decide) (by decide) hf

/-- Clean fragments stay clean when a text without braces separates them. -/
theorem clean_join {separator : String} (hseparator : Unbraced separator)
    (h : ∀ f ∈ fs, Clean f) : (join separator fs).Clean := by
  rw [clean_iff, filterMap_join (unclean?_reading.text separator hseparator)]
  exact all_clean_iff.mp h

/-- A clean fragment stays clean as the argument of a function. -/
theorem clean_call {function : String} (hfunction : Unbraced (function ++ "(")) (hf : f.Clean) :
    (call function f).Clean := by
  have hafter : Unbraced ")" := by decide
  exact clean_wrap hfunction hafter hf

/-- It stays clean with a default in place of null. -/
theorem clean_nullDefault (d : Dialect) (hf : f.Clean) : (f.wrap d.nullDefault).Clean := by
  cases d <;> exact clean_wrap (by decide) (by decide) hf

/-- It stays clean when it is formatted as a date by a pattern without braces. -/
theorem clean_dateFormat (d : Dialect) {pattern : String} (hpattern : Unbraced pattern)
    (hf : f.Clean) : (f.wrap (d.dateFormat pattern)).Clean := by
  have hafter : Unbraced (",'" ++ doubleQuotes pattern ++ "')") :=
    (Unbraced.append (by decide) (doubleQuotes_unbraced hpattern)).append (by decide)
  cases d with
  | mySql =>
    have hbefore : Unbraced "DATE_FORMAT(" := by decide
    exact clean_wrap hbefore hafter hf
  | postgreSql =>
    have hbefore : Unbraced "to_char(" := by decide
    exact clean_wrap hbefore hafter hf

/-- A column without braces is clean, behind an alias or not. -/
theorem clean_qualified (token? : Option Token) {column : String} (h : Unbraced column) :
    (qualified token? column).Clean := by
  cases token? <;> simpa [qualified] using h

/-- A clean fragment stays clean under an alias without braces. -/
theorem clean_named {alias? : Option String} (halias : ∀ s ∈ alias?, Unbraced s) (hf : f.Clean) :
    (named alias? f).Clean := by
  unfold named
  split
  case h_1 name =>
    have hname : Unbraced (" AS " ++ name) := .append (by decide) (halias name rfl)
    split
    · exact hf
    · exact clean_append.mpr ⟨hf, clean_cons.mpr ⟨hname, clean_nil⟩⟩
  case h_2 => exact hf

/-- A column stays clean with the field that it is shown as. -/
theorem clean_shownAs {column name : String} (hname : Unbraced name) (hf : f.Clean) :
    (shownAs f column name).Clean := by
  have htext : Unbraced (" AS " ++ name) := .append (by decide) hname
  unfold shownAs
  split
  · exact hf
  · exact clean_append.mpr ⟨hf, clean_cons.mpr ⟨htext, clean_nil⟩⟩

end Fragment

/-- All entries of the lists are clean. -/
structure Collected.Clean (lists : Collected) : Prop where
  columns : ∀ f ∈ lists.columns, f.Clean
  groups : ∀ f ∈ lists.groups, f.Clean
  havings : ∀ f ∈ lists.havings, f.Clean
  orders : ∀ f ∈ lists.orders, f.Clean

/-- Nothing was collected, so all of it is clean. -/
theorem Collected.Clean.empty : Collected.empty.Clean :=
  ⟨List.forall_mem_nil _, List.forall_mem_nil _, List.forall_mem_nil _, List.forall_mem_nil _⟩

/-- What is collected one after the other is clean if both parts are. -/
theorem Collected.Clean.append {a b : Collected} (ha : a.Clean) (hb : b.Clean) :
    (a ++ b).Clean where
  columns := List.forall_mem_append.mpr ⟨ha.columns, hb.columns⟩
  groups := List.forall_mem_append.mpr ⟨ha.groups, hb.groups⟩
  havings := List.forall_mem_append.mpr ⟨ha.havings, hb.havings⟩
  orders := List.forall_mem_append.mpr ⟨ha.orders, hb.orders⟩

/-- All parts of a `SELECT` are clean. -/
structure SelectParts.Clean (parts : SelectParts) : Prop where
  collected : parts.collected.Clean
  source : parts.source.Clean
  condition : parts.condition.Clean

/-- What stands behind the columns of a clean `SELECT` is clean. -/
theorem SelectParts.Clean.body {parts : SelectParts} (h : parts.Clean) : parts.body.Clean := by
  rw [Fragment.clean_iff, filterMap_body unclean?_reading, Fragment.clean_iff.mp h.source,
    Fragment.clean_iff.mp h.condition, Fragment.all_clean_iff.mp h.collected.groups,
    Fragment.all_clean_iff.mp h.collected.havings]
  rfl

/-- So is the whole `SELECT`. -/
theorem SelectParts.Clean.select {parts : SelectParts} (h : parts.Clean) :
    parts.select.Clean := by
  rw [Fragment.clean_iff, filterMap_select unclean?_reading, Fragment.clean_iff.mp h.body,
    Fragment.all_clean_iff.mp h.collected.columns, Fragment.all_clean_iff.mp h.collected.orders]
  rfl

/-- All that joins add is clean. -/
structure Joined.Clean (added : Joined) : Prop where
  text : added.text.Clean
  collected : added.collected.Clean
  conditions : ∀ f ∈ added.conditions, f.Clean

/-- What joins add is clean join by join. -/
theorem Joined.Clean.append {a b : Joined} (ha : a.Clean) (hb : b.Clean) : (a ++ b).Clean where
  text := List.forall_mem_append.mpr ⟨ha.text, hb.text⟩
  collected := ha.collected.append hb.collected
  conditions := List.forall_mem_append.mpr ⟨ha.conditions, hb.conditions⟩

namespace Context

open Fragment

variable {ctx : Context} {scope : Scope}

/-- A `SELECT` that is put together of clean parts is clean in all its parts. -/
theorem clean_assemble {table : String} {token : Token} {own : Collected} {added : Joined}
    {terms : List Term} (htable : Unbraced table) (hown : own.Clean) (hadded : added.Clean)
    (hterms : (Term.leaves terms).Clean) :
    (ctx.assemble table token own added terms).Clean where
  collected := hown.append hadded.collected
  source := clean_cons.mpr ⟨htable, hadded.text⟩
  condition := by
    rw [clean_iff, filterMap_assemble_condition unclean?_reading, clean_iff.mp hterms,
      all_clean_iff.mp hadded.conditions]
    rfl

/-- So is what a joined query adds. -/
theorem clean_attach {table : String} {token : Token} {keys : Fragment} {own : Collected}
    {extra terms : List Term} (htable : Unbraced table) (hkeys : keys.Clean) (hown : own.Clean)
    (hextra : (Term.leaves extra).Clean) (hterms : (Term.leaves terms).Clean) :
    (ctx.attach table token keys own extra terms).Clean where
  text := by
    have hnone : Piece.unclean? (.table table token) = none := if_pos htable
    rw [clean_iff, filterMap_attach_text unclean?_reading, hnone, clean_iff.mp hkeys,
      clean_iff.mp hextra]
    rfl
  collected := hown
  conditions := by
    rw [all_clean_iff, filterMap_attach_conditions unclean?_reading]
    exact clean_iff.mp hterms

/-- A clean `SELECT` stays clean with clean branches. -/
theorem clean_compound {select branches : Fragment} (hselect : select.Clean)
    (hbranches : branches.Clean) : (compound select branches).Clean := by
  rw [clean_iff, filterMap_compound unclean?_reading, clean_iff.mp hselect, clean_iff.mp hbranches]
  rfl

end Context

/-- The clause of a limit has no braces. -/
theorem limitClause_unbraced (limit : Option UInt64) : Unbraced (Dialect.limitClause limit) := by
  have hheading : Unbraced " LIMIT " := by decide
  cases limit with
  | none => decide
  | some n =>
    by_cases hn : n = 0
    · rw [Dialect.limitClause, if_pos hn]
      decide
    · have htext : Dialect.limitClause (some n) = " LIMIT " ++ toString n.toNat := by
        rw [Dialect.limitClause, if_neg hn]
        rfl
      rw [htext]
      exact hheading.append (toString_unbraced n.toNat)

end DynamicSql
