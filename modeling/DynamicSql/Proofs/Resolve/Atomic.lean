import DynamicSql.Proofs.Resolve.Leaves
import DynamicSql.Proofs.Resolve.Plain

/-!
# Conditions are atoms

Where the names from outside are plain, every condition is written as quiet words with spaces
between them, whatever query or pattern of dates it holds (`conditionText_atomic`). What a condition
holds in parentheses is balanced, by the induction over queries.
-/

namespace DynamicSql

open Nesting

/-- A key is longer than a connector. -/
theorem connector?_eq_none_of_length {w : List Char} (h : 3 < w.length) : connector? w = none := by
  have hlength : ∀ u : List Char, u.length ≤ 3 → w.map Char.toUpper ≠ u := by
    rintro u hu rfl
    rw [List.length_map] at hu
    omega
  rw [connector?, if_neg (hlength _ (by decide)), if_neg (hlength _ (by decide))]

/-- A marker is plain where its path is lettered. -/
theorem Slot.plain_marker {root : String} (hroot : Plain root.toList) {slot : Slot}
    (h : slot.path.Lettered) : Plain (slot.marker root).toList := by
  have hkey : Plain slot.key.toList := by
    have hchars : ∀ c ∈ slot.key.toList, isWordChar c ∧ Inert c := by
      intro c hc
      obtain hc | rfl := isAlphanum_of_mem_key h hc
      · exact ⟨by simp [isWordChar, hc], inert_of_isAlphanum hc⟩
      · decide
    refine .of_word (fun c hc => (hchars c hc).1) (fun c hc => (hchars c hc).2) ?_
    refine connector?_eq_none_of_length ?_
    have hstem : 3 < slot.purpose.stem.toList.length := by cases slot.purpose <;> decide
    rw [key_toList, List.length_append]
    omega
  have hspace : Plain slot.purpose.space.name.toList := by cases slot.purpose <;> decide
  have hchars : (slot.marker root).toList = [] ++ '#' :: ([] ++ '\x7b' :: (root.toList ++
      '.' :: (slot.purpose.space.name.toList ++ '.' :: (slot.key.toList ++ '\x7d' :: [])))) := by
    simp [Slot.marker, DynamicSql.marker]
  rw [hchars]
  refine Plain.nil.sign (Plain.nil.sign (hroot.sign (hspace.sign (hkey.sign .nil ?_) ?_) ?_) ?_) ?_
    <;> decide

namespace Fragment

/-- The paths of all markers are lettered. -/
def Lettered (f : Fragment) : Prop := ∀ slot, .marker slot ∈ f → slot.path.Lettered

/-- A fragment has a text of some kind, whatever numbers the aliases have. -/
def Always (root : String) (P : List Char → Prop) (f : Fragment) : Prop :=
  ∀ aliasOf : Token → String, Numbered aliasOf → f.Lettered → P (f.chars root aliasOf)

namespace Always

variable {root : String} {P Q R : List Char → Prop} {f g : Fragment}

/-- A fragment that always has a text of one kind has one of every wider kind. -/
theorem mono (hf : f.Always root P) (h : ∀ cs, P cs → Q cs) : f.Always root Q :=
  fun aliasOf halias hlettered => h _ (hf aliasOf halias hlettered)

/-- Kinds of texts are put together as the texts are. -/
theorem append (hf : f.Always root P) (hg : g.Always root Q)
    (h : ∀ a b, P a → Q b → R (a ++ b)) : Always root R (f ++ g) := by
  intro aliasOf halias hlettered
  rw [chars_append]
  exact h _ _ (hf aliasOf halias fun slot hslot => hlettered slot (List.mem_append_left _ hslot))
    (hg aliasOf halias fun slot hslot => hlettered slot (List.mem_append_right _ hslot))

/-- A text of a kind stays of that kind, whatever the aliases are. -/
theorem text {s : String} (h : P s.toList) : Always root P [.text s] := by
  intro aliasOf _ _
  rw [chars_cons, chars_nil, List.append_nil]
  exact h

/-- Under a plain root, the text of a lettered marker is plain. -/
theorem marker (hroot : Plain root.toList) (slot : Slot) :
    Always root Plain [.marker slot] := by
  intro aliasOf _ hlettered
  rw [chars_cons, chars_nil, List.append_nil]
  exact Slot.plain_marker hroot (hlettered slot List.mem_cons_self)

/-- What is put around a fragment is put around its text. -/
theorem wrap {w : Wrap} (hf : f.Always root P)
    (h : ∀ a, P a → Q (w.before.toList ++ a ++ w.after.toList)) : (f.wrap w).Always root Q := by
  have hbefore : Always root (· = w.before.toList) [.text w.before] := .text rfl
  have hafter : Always root (· = w.after.toList) [.text w.after] := .text rfl
  refine (hbefore.append hf (R := fun cs => ∃ a, P a ∧ cs = w.before.toList ++ a) ?_).append
    hafter ?_
  · rintro _ a rfl ha
    exact ⟨a, ha, rfl⟩
  · rintro _ _ ⟨a, ha, rfl⟩ rfl
    exact h a ha

/-- What is in parentheses is a single word. -/
theorem parens (hf : f.Always root Balanced) : f.parens.Always root Quiet :=
  hf.wrap fun _ => .parens

/-- An operator between quiet texts makes an atom of them. -/
theorem operator {operator : String} (hf : f.Always root Quiet) (hg : g.Always root Quiet)
    (hoperator : Quiet operator.toList) :
    Always root Atomic (f ++ .text (" " ++ operator ++ " ") :: g) := by
  have htext : Always root (· = ' ' :: operator.toList ++ [' '])
      [.text (" " ++ operator ++ " ")] := .text (by simp)
  refine hf.append (htext.append hg (R := fun cs => ∃ b, Quiet b ∧ cs = ' ' :: b) ?_) ?_
  · rintro _ b rfl hb
    exact ⟨operator.toList ++ ' ' :: b, hoperator.space hb, by simp⟩
  · rintro a _ ha ⟨b, hb, rfl⟩
    exact ⟨a, b, rfl, ha, hb⟩

/-- So does an operator behind a quiet text. -/
theorem test {operator : String} (hf : f.Always root Quiet) (hoperator : Quiet operator.toList) :
    Always root Atomic (f ++ [.text (" " ++ operator)]) := by
  have htext : Always root (· = ' ' :: operator.toList) [.text (" " ++ operator)] :=
    .text (by simp)
  refine hf.append htext ?_
  rintro a _ ha rfl
  exact ⟨a, operator.toList, rfl, ha, hoperator⟩

/-- A quiet text behind a quiet text and a space is quiet. -/
theorem behind {s : String} (hf : f.Always root Quiet) (hs : Quiet s.toList) :
    Always root Quiet (f ++ [.text (" " ++ s)]) := by
  have htext : Always root (· = ' ' :: s.toList) [.text (" " ++ s)] := .text (by simp)
  refine hf.append htext ?_
  rintro a _ ha rfl
  exact ha.space hs

/-- A quiet text that is compared by a date pattern is a single word. -/
theorem dateFormat (d : Dialect) (pattern : String) (hf : f.Always root Quiet) :
    (f.wrap (d.dateFormat pattern)).Always root Quiet := by
  refine hf.wrap fun a ha => ?_
  have hargument : Balanced (a ++ (",'" ++ doubleQuotes pattern ++ "'").toList) :=
    ha.1.append (balanced_literal pattern)
  cases d with
  | mySql => simpa [Dialect.dateFormat] using Quiet.call "DATE_FORMAT".toList (by decide) hargument
  | postgreSql => simpa [Dialect.dateFormat] using Quiet.call "to_char".toList (by decide) hargument

/-- Dropping white space at the front keeps the balance. -/
theorem trimStart (hf : f.Always root Balanced) : f.trimStart.Always root Balanced := by
  have hblank : ∀ c, Text.isBlank c = true → Inert c := by
    rintro c hc
    refine ⟨?_, ?_, ?_⟩ <;> rintro rfl <;> exact absurd hc (by decide)
  have hfront : ∀ s : String, ∃ blanks, (∀ c ∈ blanks, Inert c) ∧
      s.toList = blanks ++ (Text.trimStart s).toList := by
    intro s
    refine ⟨s.toList.takeWhile Text.isBlank, fun c hc => hblank c (List.mem_takeWhile_imp hc), ?_⟩
    rw [Text.trimStart, String.toList_ofList, Text.skipBlanks, List.takeWhile_append_dropWhile]
  -- A text of white space alone is dropped, and then what follows it is trimmed.
  induction f with
  | nil => exact hf
  | cons piece rest ih =>
    cases piece with
    | text s =>
      obtain ⟨blanks, hblanks, hs⟩ := hfront s
      have hrest : ∀ aliasOf, Numbered aliasOf → Lettered rest →
          Balanced ((Text.trimStart s).toList ++ chars root aliasOf rest) := by
        intro aliasOf halias hlettered
        refine .of_inert_append hblanks ?_
        rw [← List.append_assoc, ← hs]
        refine hf aliasOf halias fun slot hslot => hlettered slot ?_
        simpa using hslot
      dsimp only [Fragment.trimStart]
      split
      case isTrue hempty =>
        refine ih fun aliasOf halias hlettered => ?_
        have hbalanced := hrest aliasOf halias hlettered
        rwa [String.isEmpty_iff.mp hempty] at hbalanced
      case isFalse =>
        intro aliasOf halias hlettered
        exact hrest aliasOf halias fun slot hslot =>
          hlettered slot (List.mem_cons_of_mem _ hslot)
    | _ => exact hf

end Always

end Fragment

namespace Context

open Fragment Resolve

variable {ctx : Context} (hroot : Plain ctx.root.toList) (hschema : ctx.schema.Sound)
  (htokens : ∀ r ∈ ctx.references, Balanced r.1.toList)

include hroot hschema htokens

/-- Everything is balanced where the names from outside are plain. -/
theorem balanced : ctx.Invariant ctx.schema.Admits (fun _ name => Balanced name.toList)
    (fun _ => True) (fun scope => scope.table.columns ⊆ ctx.schema.columns)
    (Fragment.Always ctx.root Balanced) := by
  have hspace : Balanced [' '] := by decide
  have hqualified : ∀ (token? : Option Token) {column : String}, Plain column.toList →
      (qualified token? column).Always ctx.root Balanced :=
    fun token? column hcolumn aliasOf halias _ => (plain_qualified halias token? hcolumn).1
  have hshown : ∀ {name : String}, Plain name.toList →
      Fragment.Always ctx.root Balanced [.text (" AS " ++ name)] := by
    intro name hname
    refine .text ?_
    rw [String.toList_append]
    exact Balanced.append (by decide) hname.1
  constructor
  case nil => exact fun _ _ _ => .nil
  case append => exact fun hf hg => hf.append hg fun _ _ => .append
  case fixed => exact fun s hs => .text hs
  case enclose =>
    intro f function front back hfunction hfront hback hf
    refine hf.wrap fun a ha => ?_
    have hall := hfunction.append ((hfront.append ha).append hback).parens
    simpa using hall
  case trimStart => exact .trimStart
  case marker => exact fun slot => (Always.marker hroot slot).mono fun _ h => h.1
  case table =>
    intro token name hname _ aliasOf halias _
    rw [chars_cons, chars_nil, List.append_nil]
    exact hname.append (hspace.append (halias.plain token).1)
  case shownName => exact fun hname => hshown hname.plain
  case scope => exact fun _ _ ht => Schema.columns_subset ht
  case columns =>
    intro scope hscope c hc
    have hsound := hschema c (hscope hc)
    exact ⟨hqualified _ hsound.column, hshown hsound.field⟩
  case key => exact fun _ hcolumn => hqualified _ hcolumn.plain
  case find =>
    intro scope name hscope _
    refine ((findColumn_sound hschema htokens hscope).within _).mono fun found hfound => ?_
    obtain ⟨⟨token?, c, hc, -, hfragment⟩, hfield, -⟩ := hfound
    exact ⟨hfragment ▸ hqualified token? (hschema c hc).column, hshown hfield⟩
  case expression =>
    exact fun hscope htext f t h _ aliasOf halias _ =>
      (expression_plain hschema htokens hscope halias htext f t h).1

variable {scope : Scope} (hscope : scope.table.columns ⊆ ctx.schema.columns) {path : Path}
  {i : Nat} {field : String} (hfield : ctx.schema.Admits field)

include hscope hfield

/-- A condition without a query is an atom. -/
theorem simpleCondition_atomic {filter : Filter}
    (hnames : ∀ s ∈ filter.names, ctx.schema.Admits s) :
    (ctx.simpleCondition scope path i field filter).Ensures (Always ctx.root Atomic) := by
  have hplain : (ctx.field scope field).Ensures (Always ctx.root Quiet) :=
    fun f t h aliasOf halias _ => (field_plain hschema htokens hscope halias f t h).quiet
  have hexpression : ∀ {text : String}, ctx.schema.Admits text →
      (ctx.expression scope text).Ensures (Always ctx.root Quiet) :=
    fun htext f t h aliasOf halias _ =>
      (expression_plain hschema htokens hscope halias htext f t h).quiet
  have hbound : ∀ {slot : Slot} {v : Value}, (Resolve.bound slot v).Ensures fun piece =>
      Always ctx.root Quiet [piece] :=
    .bound ((Always.marker hroot _).mono fun _ => Plain.quiet)
  have hcomparison : ∀ comparison : Comparison, Quiet comparison.text.toList := by
    intro comparison
    cases comparison <;> decide
  -- Each filter writes a quiet operand, a space, and a quiet sign or test behind it.
  cases filter with
  | compare comparison v =>
    have hoperand : (ctx.comparand scope comparison field).Ensures (Always ctx.root Quiet) := by
      unfold comparand
      split
      · exact hplain
      · exact hexpression hfield
    refine .bind hoperand fun operand hoperand => .bind hbound fun marker hmarker => .pure ?_
    exact hoperand.operator hmarker (hcomparison comparison)
  | compareField comparison other =>
    refine .bind (hexpression hfield) fun left hleft => ?_
    refine .bind (hexpression (hnames other List.mem_cons_self)) fun right hright => .pure ?_
    exact hleft.operator hright (hcomparison comparison)
  | compareDate comparison pattern v =>
    refine .bind hplain fun operand hoperand => .bind hbound fun marker hmarker => .pure ?_
    have hdate := hoperand.dateFormat ctx.dialect pattern
    exact hdate.operator hmarker (hcomparison comparison)
  | like wildcards v =>
    have hlike : Quiet "like".toList := by decide
    simp only [simpleCondition]
    split
    · exact .fail
    · refine .bind hplain fun operand hoperand => .bind hbound fun marker hmarker => .pure ?_
      exact hoperand.operator hmarker hlike
  | member test v =>
    have I := balanced hroot hschema htokens
    have htest : Quiet test.text.toList := by cases test <;> decide
    have hcomma : Balanced ", ".toList := by decide
    refine .bind .trivially fun members _ => ?_
    split
    · exact .fail
    · refine .bind hplain fun operand hoperand => ?_
      refine .bind (.mapM fun _ _ => I.bound.always) fun markers hmarkers => .pure ?_
      have hlist := I.join hcomma (List.forall_mem_map.mpr hmarkers)
      exact hoperand.operator (Always.parens hlist) htest
  | memberOf test query => exact .fail
  | guard guard v =>
    have hsign : Quiet guard.sign.toList := by cases guard <;> decide
    have hzero : Quiet (guard.comparison.text ++ " 0").toList := by cases guard <;> decide
    refine .bind (hexpression hfield) fun operand hoperand => .bind hbound fun marker hmarker => ?_
    have hright := hmarker.behind hzero
    rw [← String.append_assoc] at hright
    exact .pure (hoperand.operator hright hsign)
  | isNull =>
    have hnull : Quiet "is null".toList := by decide
    exact .bind (hexpression hfield) fun f hf => .pure (hf.test hnull)
  | isNotNull =>
    have hset : Quiet "is not null".toList := by decide
    exact .bind (hexpression hfield) fun f hf => .pure (hf.test hset)

/-- Every condition is an atom: a query in it is in parentheses, and all that such a query holds is
balanced. -/
theorem conditionText_atomic : ∀ {filter : Filter}, (∀ s ∈ filter.names, ctx.schema.Admits s) →
    (∀ r ∈ filter.references, Balanced r.2.toList) →
    (ctx.conditionText scope path i field filter).Ensures (Always ctx.root Atomic)
  | .memberOf test ⟨some table, token, clauses, conditions, joins, unions⟩, hnames, hrefs => by
    intro f t h
    obtain ⟨operand, t₁, parts, t₂, branches, t₃, hoperand, hparts, -, hbranches, rfl, -⟩ :=
      conditionText_memberOf_yields h
    have I := balanced hroot hschema htokens
    have htest : Quiet test.text.toList := by cases test <;> decide
    simp only [Filter.references, Query.ownReferences, List.forall_mem_append,
      List.forall_mem_cons, List.cons_append] at hrefs
    obtain ⟨hopened, ⟨hconditions, hjoins⟩, hunions⟩ := hrefs
    have hunionNames : ∀ s ∈ branchNames unions, ctx.schema.Admits s := fun s hs => hnames s (by
      rw [Filter.names, Query.names]
      exact List.mem_append_right _ hs)
    have hparts := (I.selectParts ⟨some table, token, clauses, conditions, joins, unions⟩ hnames
      hopened (List.forall_mem_append.mpr ⟨hconditions, hjoins⟩)).always parts t₂ hparts
    have hbranches := (I.unionBranches unions hunionNames hunions).always branches t₃ hbranches
    have hquery := I.limit (I.compound (I.select hparts) hbranches) clauses.limit
    have hfield : Always ctx.root Quiet operand := fun aliasOf halias _ =>
      (field_plain hschema htokens hscope halias operand t₁ hoperand).quiet
    exact hfield.operator (Always.parens hquery) htest
  | .memberOf _ ⟨none, _, _, _, _, _⟩, _, _ => .fail
  | .compare _ _, hnames, _ | .compareField _ _, hnames, _ | .compareDate _ _ _, hnames, _
  | .like _ _, hnames, _ | .member _ _, hnames, _ | .guard _ _, hnames, _ | .isNull, hnames, _
  | .isNotNull, hnames, _ => simpleCondition_atomic hroot hschema htokens hscope hfield hnames

end Context

end DynamicSql
