import DynamicSql.Proofs.Resolve.Texts
import DynamicSql.Proofs.Resolve.Steps

/-!
# Resolved statements are clean

Where no text from outside holds an opening brace, a resolved statement writes one only in front
of its markers. The argument follows the way a statement is resolved: each step ensures that its
result is clean, provided that the texts of its part of the description are unbraced.
-/

namespace DynamicSql

/-- The field of a reference is a part of the text. -/
theorem reference?_unbraced {name field : String} {token : Token}
    (h : reference? name = some (token, field)) (hname : Unbraced name) : Unbraced field := by
  rw [Unbraced, reference?_toList h] at hname
  exact fun hmem =>
    hname (List.mem_append_right _ (List.mem_append_right _ (List.mem_cons_of_mem _ hmem)))

/-- The characters of a part of an expression. -/
def Lexeme.chars : Lexeme → List Char
  | .word cs => cs
  | .delimiter c => [c]

/-- A word that was begun is a part of the expression from its beginning on. -/
theorem Lexeme.word_chars_subset (word rest : List Char) :
    (Lexeme.word word.reverse).chars ⊆ word ++ rest :=
  fun _ hd => List.mem_append_left rest (List.mem_reverse.mp hd)

/-- The parts of an expression have no characters but its own. -/
theorem chars_subset_of_mem_lexemesFrom {word cs : List Char} {part : Lexeme}
    (h : part ∈ lexemesFrom word cs) : part.chars ⊆ word ++ cs := by
  induction cs generalizing word with
  | nil =>
    unfold lexemesFrom at h
    split at h
    · cases h
    · obtain rfl := List.mem_singleton.mp h
      exact Lexeme.word_chars_subset word []
  | cons c rest ih =>
    have hdelimiter : (Lexeme.delimiter c).chars ⊆ word ++ c :: rest := fun d hd =>
      List.mem_append_right word (List.mem_singleton.mp hd ▸ List.mem_cons_self)
    have hrest : part ∈ lexemesFrom [] rest → part.chars ⊆ word ++ c :: rest := fun hmem d hd =>
      List.mem_append_right word (List.mem_cons_of_mem c (ih hmem hd))
    unfold lexemesFrom at h
    split at h
    · split at h
      · obtain rfl | h := List.mem_cons.mp h
        · exact hdelimiter
        · exact hrest h
      · obtain rfl | h := List.mem_cons.mp h
        · exact Lexeme.word_chars_subset word _
        · obtain rfl | h := List.mem_cons.mp h
          · exact hdelimiter
          · exact hrest h
    · exact fun d hd => List.perm_middle.symm.subset (ih h hd)

/-- The lexemes of an expression without braces have none. -/
theorem lexemes_unbraced {text : String} (h : Unbraced text) {part : Lexeme}
    (hpart : part ∈ lexemes text) : Unbraced (String.ofList part.chars) :=
  h.of_subset (chars_subset_of_mem_lexemesFrom hpart)

/-- What a field stands for, and the name that it is shown under, are clean. -/
structure FoundColumn.Clean (found : FoundColumn) : Prop where
  fragment : found.fragment.Clean
  field : Unbraced found.field

namespace Context

open Fragment Resolve

variable {ctx : Context} {scope : Scope} (hschema : AllUnbraced ctx.schema.texts)
  (hscope : AllUnbraced scope.table.texts)

include hschema

/-- A reference to a field without braces finds a column without any. -/
theorem findReference_clean {name token field : String} (hfield : Unbraced field) :
    (ctx.findReference name token field).Ensures FoundColumn.Clean := by
  refine .bind .trivially fun tableName _ => ?_
  refine .bind (.ofExcept fun t ht => Schema.table_unbraced hschema ht) fun table htable => ?_
  refine .bind (.ofOption fun c hc => Table.resolve?_unbraced htable hc) fun column hcolumn => ?_
  refine .bind .trivially fun _ _ => ?_
  exact .pure ⟨clean_qualified (some token) hcolumn, Table.fieldFor_unbraced htable hfield⟩

include hscope

/-- So does a name without braces. -/
theorem findColumn_clean {name : String} (hname : Unbraced name) :
    (ctx.findColumn scope name).Ensures FoundColumn.Clean := by
  unfold findColumn
  split
  case h_1 token field href => exact findReference_clean hschema (reference?_unbraced href hname)
  case h_2 =>
    refine .bind (.ofOption fun c hc => Table.resolve?_unbraced hscope hc) fun column hcolumn => ?_
    exact .pure ⟨clean_qualified scope.token? hcolumn, Table.fieldFor_unbraced hscope hname⟩

/-- A field without braces is resolved to clean text. -/
theorem field_clean {name : String} (hname : Unbraced name) :
    (ctx.field scope name).Ensures Fragment.Clean :=
  .bind (findColumn_clean hschema hscope hname) fun _ hfound => .pure hfound.fragment

/-- So is a lexeme without braces. -/
theorem lexeme_clean {part : Lexeme} (hpart : Unbraced (String.ofList part.chars)) :
    (ctx.lexeme scope part).Ensures Fragment.Clean := by
  cases part with
  | delimiter c => exact .pure (clean_cons.mpr ⟨hpart, clean_nil⟩)
  | word cs =>
    unfold lexeme
    dsimp only
    split
    · exact field_clean hschema hscope hpart
    · split
      case h_1 column hcolumn =>
        exact .pure (clean_qualified scope.token? (Table.resolve?_unbraced hscope hcolumn))
      case h_2 => exact .pure (clean_cons.mpr ⟨hpart, clean_nil⟩)

/-- So is an expression without braces. -/
theorem expression_clean {text : String} (htext : Unbraced text) :
    (ctx.expression scope text).Ensures Fragment.Clean := by
  refine .bind (.mapM fun part hpart => lexeme_clean hschema hscope (lexemes_unbraced htext hpart))
    fun parts hparts => .pure ?_
  intro piece hpiece
  obtain ⟨f, hf, hmem⟩ := List.mem_flatten.mp hpiece
  exact hparts f hf piece hmem

/-- So is the compared side of a condition. -/
theorem comparand_clean {comparison : Comparison} {name : String} (hname : Unbraced name) :
    (ctx.comparand scope comparison name).Ensures Fragment.Clean := by
  unfold comparand
  split
  · exact field_clean hschema hscope hname
  · exact expression_clean hschema hscope hname

/-- So is an item of the `SELECT` list, with its function and its alias. -/
theorem selectItem_clean {item : SelectItem}
    (hitem : AllUnbraced (item.field :: item.aggregate.texts ++ item.alias?.toList)) :
    (ctx.selectItem scope item).Ensures Fragment.Clean := by
  simp only [List.cons_append, AllUnbraced.cons, AllUnbraced.append, AllUnbraced.toList] at hitem
  obtain ⟨hfield, hpattern, halias⟩ := hitem
  have hexpression := expression_clean hschema hscope hfield
  unfold selectItem
  split
  case h_1 =>
    refine .bind (findColumn_clean hschema hscope hfield) fun found hfound => .pure ?_
    refine clean_shownAs ?_ hfound.fragment
    cases h : item.alias? with
    | none => exact hfound.field
    | some name => exact halias name h
  case h_2 =>
    split
    · exact .pure (clean_named halias (clean_cons.mpr ⟨by decide, clean_nil⟩))
    · exact .bind hexpression fun f hf => .pure
        (clean_named halias (clean_wrap (by decide) (by decide) hf))
  case h_3 | h_4 =>
    exact .bind hexpression fun f hf => .pure
      (clean_named halias (clean_call (by decide) (clean_nullDefault ctx.dialect hf)))
  case h_5 | h_6 | h_7 =>
    exact .bind hexpression fun f hf => .pure (clean_named halias (clean_call (by decide) hf))
  case h_8 pattern heq =>
    refine .bind (field_clean hschema hscope hfield) fun f hf => .pure ?_
    rw [heq] at hpattern
    exact clean_named halias (clean_dateFormat ctx.dialect (hpattern pattern List.mem_cons_self) hf)
  case h_9 => exact .bind hexpression fun f hf => .pure (clean_named halias hf)

/-- So are the columns that a query names. -/
theorem explicitColumns_clean {clauses : Clauses} (hclauses : AllUnbraced clauses.texts) :
    (ctx.explicitColumns scope clauses).Ensures fun fs => ∀ f ∈ fs, f.Clean := by
  unfold explicitColumns
  split
  · exact .pure (List.forall_mem_nil _)
  · exact .mapM fun item hitem => selectItem_clean hschema hscope
      ((Clauses.unbraced hclauses).1 item (List.mem_filter.mp hitem).1)

omit hschema in
/-- The columns of a table are shown as clean text. -/
theorem allColumns_clean (removed : List String) : ∀ f ∈ allColumns scope removed, f.Clean := by
  intro f hf
  obtain ⟨c, hc, rfl⟩ := List.mem_map.mp hf
  obtain ⟨hfield, hcolumn⟩ := Table.unbraced_of_mem hscope (List.mem_filter.mp hc).1
  exact clean_shownAs hfield (clean_qualified scope.token? hcolumn)

/-- So are the columns that a query shows, whether it names any or not. -/
theorem shownColumns_clean {clauses : Clauses} (hclauses : AllUnbraced clauses.texts) :
    (ctx.shownColumns scope clauses).Ensures fun fs => ∀ f ∈ fs, f.Clean := by
  unfold shownColumns
  split
  · exact .pure (allColumns_clean hscope clauses.removed)
  · exact explicitColumns_clean hschema hscope hclauses

/-- So are the columns that a joined query shows. -/
theorem joinedColumns_clean {clauses : Clauses} (hclauses : AllUnbraced clauses.texts) :
    (ctx.joinedColumns scope clauses).Ensures fun fs => ∀ f ∈ fs, f.Clean := by
  unfold joinedColumns
  split
  · exact .pure (List.forall_mem_nil _)
  · exact explicitColumns_clean hschema hscope hclauses

/-- So is an item of the `GROUP BY` list, with its pattern. -/
theorem groupItem_clean {item : GroupItem} (hfield : Unbraced item.field)
    (hpattern : ∀ s ∈ item.pattern?, Unbraced s) :
    (ctx.groupItem scope item).Ensures Fragment.Clean := by
  refine .bind (field_clean hschema hscope hfield) fun f hf => .pure ?_
  split
  case h_1 pattern heq => exact clean_dateFormat ctx.dialect (hpattern pattern heq) hf
  case h_2 => exact hf

/-- So is an item of the `ORDER BY` list. -/
theorem orderItem_clean {item : OrderItem} (hfield : Unbraced item.field) :
    (ctx.orderItem scope item).Ensures Fragment.Clean := by
  have hplain := field_clean hschema hscope hfield
  have hdirection : Unbraced (" " ++ item.direction.text) := by cases item.direction <;> decide
  have hoperand : (ctx.orderOperand scope item).Ensures Fragment.Clean := by
    unfold orderOperand
    split
    case h_1 => exact hplain
    case h_2 | h_3 =>
      exact .bind hplain fun f hf => .pure
        (clean_call (by decide) (clean_nullDefault ctx.dialect hf))
    case h_4 => exact .bind hplain fun f hf => .pure (clean_call (by decide) hf)
    case h_5 => exact expression_clean hschema hscope hfield
  exact .bind hoperand fun f hf => .pure
    (clean_append.mpr ⟨hf, clean_cons.mpr ⟨hdirection, clean_nil⟩⟩)

omit hschema hscope in
/-- The marker of a value is clean. -/
theorem bound_clean {slot : Slot} {v : Value} : (bound slot v).Ensures Piece.Clean :=
  .bound trivial

omit hschema hscope in
/-- A comparison of clean text with a clean marker is clean. -/
theorem comparedWith_clean {operand : Fragment} {comparison : Comparison} {marker : Piece}
    (hoperand : operand.Clean) (hmarker : marker.Clean) :
    (comparedWith operand comparison marker).Clean := by
  have hsign : Unbraced (" " ++ comparison.text ++ " ") := by cases comparison <;> decide
  exact clean_append.mpr ⟨hoperand, clean_cons.mpr ⟨hsign, clean_cons.mpr ⟨hmarker, clean_nil⟩⟩⟩

/-- A condition on groups is resolved to clean text. -/
theorem havingItem_clean {path : Path} {item : HavingItem} {i : Nat}
    (hfield : Unbraced item.field) :
    (ctx.havingItem scope path item i).Ensures Fragment.Clean := by
  have hexpression := expression_clean hschema hscope hfield
  have hoperand : (ctx.havingOperand scope item).Ensures Fragment.Clean := by
    unfold havingOperand
    split
    · split
      · exact .pure (clean_cons.mpr ⟨by decide, clean_nil⟩)
      · exact .bind hexpression fun f hf => .pure (clean_call (by decide) hf)
    · exact hexpression
  refine .bind hoperand fun operand hoperand => ?_
  refine .bind bound_clean fun marker hmarker => ?_
  exact .pure (comparedWith_clean hoperand hmarker)

/-- The lists of a query are clean where its columns are. -/
theorem collect_clean {clauses : Clauses} {path : Path} {columns : Resolve (List Fragment)}
    {extent : Extent} (hclauses : AllUnbraced clauses.texts)
    (hcolumns : columns.Ensures fun fs => ∀ f ∈ fs, f.Clean) :
    (ctx.collect scope clauses path columns extent).Ensures Collected.Clean := by
  obtain ⟨-, hgroups, hhavings, horders⟩ := Clauses.unbraced hclauses
  have hgs : (clauses.groups.mapM (ctx.groupItem scope)).Ensures fun fs => ∀ f ∈ fs, f.Clean :=
    .mapM fun item hitem => groupItem_clean hschema hscope (hgroups item hitem).1
      (hgroups item hitem).2
  have hhs : (clauses.havings.zipIdx.mapM fun x =>
      ctx.havingItem scope path x.1 x.2).Ensures fun fs => ∀ f ∈ fs, f.Clean :=
    .mapM fun x hx => havingItem_clean hschema hscope (hhavings x.1 (List.fst_mem_of_mem_zipIdx hx))
  cases extent with
  | everything =>
    refine .bind hcolumns fun cs hcs => .bind hgs fun gs hgs => .bind hhs fun hs hhs => ?_
    refine .bind (.mapM fun item hitem => orderItem_clean hschema hscope (horders item hitem))
      fun os hos => ?_
    exact .pure ⟨hcs, hgs, hhs, hos⟩
  | counting =>
    refine .bind hgs fun gs hgs => .bind hhs fun hs hhs => .pure ?_
    exact ⟨List.forall_mem_nil _, hgs, hhs, List.forall_mem_nil _⟩
  | conditionsOnly => exact .pure .empty

/-- So is a membership in a list of values. -/
theorem membership_clean {field : String} {test : Membership} {v : Value} {path : Path} {i : Nat}
    (hfield : Unbraced field) :
    (ctx.membership scope field test v path i).Ensures Fragment.Clean := by
  have htest : Unbraced (" " ++ test.text ++ " ") := by cases test <;> decide
  refine .bind .trivially fun members _ => ?_
  split
  · exact .fail
  · refine .bind (field_clean hschema hscope hfield) fun operand hoperand => ?_
    refine .bind (.mapM fun _ _ => bound_clean) fun markers hmarkers => .pure ?_
    have hlist : (Fragment.join ", " (markers.map ([·]))).Clean := by
      refine clean_join (by decide) fun f hf => ?_
      obtain ⟨marker, hmem, rfl⟩ := List.mem_map.mp hf
      exact clean_cons.mpr ⟨hmarkers marker hmem, clean_nil⟩
    exact clean_append.mpr ⟨hoperand, clean_cons.mpr ⟨htest, clean_parens hlist⟩⟩

/-- So is a condition that holds no query. -/
theorem simpleCondition_clean {path : Path} {i : Nat} {field : String} {filter : Filter}
    (hfield : Unbraced field) (hfilter : AllUnbraced filter.texts) :
    (ctx.simpleCondition scope path i field filter).Ensures Fragment.Clean := by
  have hplain := field_clean hschema hscope hfield
  have hexpression := expression_clean hschema hscope hfield
  cases filter with
  | compare comparison v =>
    refine .bind (comparand_clean hschema hscope hfield) fun operand hoperand => ?_
    exact .bind bound_clean fun marker hmarker => .pure (comparedWith_clean hoperand hmarker)
  | compareField comparison other =>
    have hsign : Unbraced (" " ++ comparison.text ++ " ") := by cases comparison <;> decide
    have hother : Unbraced other := hfilter other List.mem_cons_self
    refine .bind hexpression fun left hleft => ?_
    refine .bind (expression_clean hschema hscope hother) fun right hright => .pure ?_
    exact clean_append.mpr ⟨hleft, clean_cons.mpr ⟨hsign, hright⟩⟩
  | compareDate comparison pattern v =>
    have hpattern : Unbraced pattern := hfilter pattern List.mem_cons_self
    refine .bind hplain fun operand hoperand => ?_
    exact .bind bound_clean fun marker hmarker => .pure
      (comparedWith_clean (clean_dateFormat ctx.dialect hpattern hoperand) hmarker)
  | like wildcards v =>
    have hlike : Unbraced " like " := by decide
    simp only [simpleCondition]
    split
    · exact .fail
    · refine .bind hplain fun operand hoperand => .bind bound_clean fun marker hmarker => .pure ?_
      exact clean_append.mpr ⟨hoperand, clean_cons.mpr ⟨hlike, clean_cons.mpr ⟨hmarker, clean_nil⟩⟩⟩
  | member test v => exact membership_clean hschema hscope hfield
  | memberOf test query => exact .fail
  | guard guard v =>
    have hsign : Unbraced (" " ++ guard.sign ++ " ") := by cases guard <;> decide
    have hzero : Unbraced (" " ++ guard.comparison.text ++ " 0") := by cases guard <;> decide
    refine .bind hexpression fun operand hoperand => ?_
    refine .bind bound_clean fun marker hmarker => .pure ?_
    exact clean_append.mpr ⟨hoperand, clean_cons.mpr ⟨hsign, clean_cons.mpr ⟨hmarker,
      clean_cons.mpr ⟨hzero, clean_nil⟩⟩⟩⟩
  | isNull =>
    have hnull : Unbraced " is null" := by decide
    exact .bind hexpression fun f hf => .pure
      (clean_append.mpr ⟨hf, clean_cons.mpr ⟨hnull, clean_nil⟩⟩)
  | isNotNull =>
    have hnull : Unbraced " is not null" := by decide
    exact .bind hexpression fun f hf => .pure
      (clean_append.mpr ⟨hf, clean_cons.mpr ⟨hnull, clean_nil⟩⟩)

/-- So are the keys of a join. -/
theorem joinKeys_clean {parent : Scope} {keys : JoinKeys}
    (hparent : AllUnbraced parent.table.texts) (hkeys : AllUnbraced keys.texts) :
    (ctx.joinKeys parent scope keys).Ensures Fragment.Clean := by
  have hequal : Unbraced " = " := by decide
  cases keys with
  | single left right =>
    have hleft : Unbraced left := hkeys left List.mem_cons_self
    have hright : Unbraced right := hkeys right (List.mem_cons_of_mem left List.mem_cons_self)
    exact .pure (clean_append.mpr ⟨clean_qualified parent.token? hleft,
      clean_cons.mpr ⟨hequal, clean_qualified scope.token? hright⟩⟩)
  | composite pairs =>
    have hand : Unbraced " AND " := by decide
    rw [JoinKeys.texts, AllUnbraced.flatMap] at hkeys
    simp only [joinKeys]
    split
    · exact .fail
    · refine .bind (.mapM fun pair hpair => ?_) fun parts hparts => .pure (clean_join hand hparts)
      have hleft : Unbraced pair.1 := hkeys pair hpair pair.1 List.mem_cons_self
      have hright : Unbraced pair.2 :=
        hkeys pair hpair pair.2 (List.mem_cons_of_mem pair.1 List.mem_cons_self)
      refine .bind (expression_clean hschema hparent hleft) fun left hleft => ?_
      refine .bind (expression_clean hschema hscope hright) fun right hright => .pure ?_
      exact clean_append.mpr ⟨hleft, clean_cons.mpr ⟨hequal, hright⟩⟩

omit hscope in
/-- A table that is opened has no braces in its names. -/
theorem openScope_clean {token : Token} {name : String} :
    (ctx.openScope token name).Ensures fun scope => AllUnbraced scope.table.texts := by
  refine .bind .trivially fun _ _ => ?_
  exact .bind (.ofExcept fun t ht => Schema.table_unbraced hschema ht) fun t ht => .pure ht

omit hscope

set_option linter.unusedSectionVars false in
mutual

/-- All parts of a `SELECT` without braces are clean. -/
theorem selectParts_clean : ∀ (q : Query) {table : String} {path : Path} {extent : Extent},
    AllUnbraced q.texts → Unbraced table →
    (ctx.selectParts table path extent q).Ensures SelectParts.Clean
  | ⟨_, _, clauses, conditions, joins, _⟩, _, _, _, hq, htable => by
    simp only [Query.texts, AllUnbraced.append] at hq
    obtain ⟨⟨⟨⟨-, hclauses⟩, hconditions⟩, hjoins⟩, -⟩ := hq
    rw [selectParts]
    refine .bind (openScope_clean hschema) fun scope hscope => ?_
    refine .bind (collect_clean hschema hscope hclauses
      (shownColumns_clean hschema hscope hclauses)) fun own hown => ?_
    refine .bind (joined_clean joins hscope hjoins) fun added hadded => ?_
    refine .bind (groupTerms_clean conditions hscope hconditions) fun terms hterms => ?_
    exact .pure (clean_assemble htable hown hadded hterms)

/-- So are branches. -/
theorem unionBranches_clean : ∀ (branches : List UnionBranch) {table : String} {path : Path}
    {k : Nat}, AllUnbraced (branchTexts branches) → Unbraced table →
    (ctx.unionBranches table path k branches).Ensures Fragment.Clean
  | [], _, _, _, _, _ => .pure clean_nil
  | ⟨kind, ⟨own, token, clauses, conditions, joins, unions⟩⟩ :: rest, table, _, _, hbranches,
      htable => by
    simp only [branchTexts, AllUnbraced.append] at hbranches
    obtain ⟨hq, hrest⟩ := hbranches
    have hkind : Unbraced kind.text := by cases kind <;> decide
    have htable' : Unbraced (own.getD table) := by
      cases own with
      | none => exact htable
      | some name => exact hq name (by simp [Query.texts])
    rw [unionBranches]
    refine .bind (selectParts_clean ⟨own, token, clauses, conditions, joins, unions⟩ hq htable')
      fun parts hparts => ?_
    refine .bind .trivially fun _ _ => ?_
    refine .bind (unionBranches_clean rest hrest htable) fun others hothers => .pure ?_
    refine clean_append.mpr ⟨clean_cons.mpr ⟨hkind, clean_parens ?_⟩, hothers⟩
    exact clean_append.mpr ⟨hparts.select, clean_cons.mpr ⟨limitClause_unbraced _, clean_nil⟩⟩

/-- So are the conditions of a group. -/
theorem groupTerms_clean : ∀ (g : ConditionGroup) {scope : Scope} {path : Path},
    AllUnbraced scope.table.texts → AllUnbraced g.texts →
    (ctx.groupTerms scope path g).Ensures fun terms => (Term.leaves terms).Clean
  | ⟨conditions, groups⟩, _, _, hscope, hg => by
    simp only [ConditionGroup.texts, AllUnbraced.append] at hg
    rw [groupTerms]
    refine .bind (conditionTerms_clean conditions hscope hg.1) fun leaves hleaves => ?_
    refine .bind (subgroupTerms_clean groups hscope hg.2) fun others hothers => .pure ?_
    rw [Term.leaves_append]
    exact clean_append.mpr ⟨hleaves, hothers⟩

/-- So are conditions in a row. -/
theorem conditionTerms_clean : ∀ (conditions : List Condition) {scope : Scope} {path : Path}
    {i : Nat}, AllUnbraced scope.table.texts → AllUnbraced (conditionTexts conditions) →
    (ctx.conditionTerms scope path i conditions).Ensures fun terms => (Term.leaves terms).Clean
  | [], _, _, _, _, _ => .pure clean_nil
  | ⟨_, field, filter⟩ :: rest, _, _, _, hscope, hconditions => by
    simp only [conditionTexts, AllUnbraced.append, AllUnbraced.cons] at hconditions
    obtain ⟨⟨hfield, hfilter⟩, hrest⟩ := hconditions
    rw [conditionTerms]
    refine .bind (conditionText_clean filter hscope hfield hfilter) fun text htext => ?_
    refine .bind (conditionTerms_clean rest hscope hrest) fun others hothers => .pure ?_
    exact clean_append.mpr ⟨htext, hothers⟩

/-- So is a single condition, with a query inside it or without. -/
theorem conditionText_clean : ∀ (filter : Filter) {scope : Scope} {path : Path} {i : Nat}
    {field : String}, AllUnbraced scope.table.texts → Unbraced field → AllUnbraced filter.texts →
    (ctx.conditionText scope path i field filter).Ensures Fragment.Clean
  | .memberOf test ⟨some table, token, clauses, conditions, joins, unions⟩, _, _, _, _, hscope,
      hfield, hq => by
    have htest : Unbraced (" " ++ test.text ++ " ") := by cases test <;> decide
    have hunions : AllUnbraced (branchTexts unions) := fun s hs => hq s (by
      rw [Filter.texts, Query.texts]
      exact List.mem_append_right _ hs)
    have htable : Unbraced table := hq table (by simp [Filter.texts, Query.texts])
    rw [conditionText]
    refine .bind (field_clean hschema hscope hfield) fun operand hoperand => ?_
    refine .bind (selectParts_clean ⟨some table, token, clauses, conditions, joins, unions⟩ hq
      htable) fun parts hparts => ?_
    refine .bind .trivially fun _ _ => ?_
    refine .bind (unionBranches_clean unions hunions htable) fun branches hbranches => .pure ?_
    refine clean_append.mpr ⟨hoperand, clean_cons.mpr ⟨htest, clean_parens ?_⟩⟩
    exact clean_append.mpr ⟨clean_compound hparts.select hbranches,
      clean_cons.mpr ⟨limitClause_unbraced _, clean_nil⟩⟩
  | .memberOf _ ⟨none, _, _, _, _, _⟩, _, _, _, _, _, _, _ => .fail
  | .compare _ _, _, _, _, _, hscope, hfield, h => simpleCondition_clean hschema hscope hfield h
  | .compareField _ _, _, _, _, _, hscope, hfield, h =>
    simpleCondition_clean hschema hscope hfield h
  | .compareDate _ _ _, _, _, _, _, hscope, hfield, h =>
    simpleCondition_clean hschema hscope hfield h
  | .like _ _, _, _, _, _, hscope, hfield, h => simpleCondition_clean hschema hscope hfield h
  | .member _ _, _, _, _, _, hscope, hfield, h => simpleCondition_clean hschema hscope hfield h
  | .guard _ _, _, _, _, _, hscope, hfield, h => simpleCondition_clean hschema hscope hfield h
  | .isNull, _, _, _, _, hscope, hfield, h => simpleCondition_clean hschema hscope hfield h
  | .isNotNull, _, _, _, _, hscope, hfield, h => simpleCondition_clean hschema hscope hfield h

/-- So are the groups in a group. -/
theorem subgroupTerms_clean : ∀ (groups : List Subgroup) {scope : Scope} {path : Path} {j : Nat},
    AllUnbraced scope.table.texts → AllUnbraced (subgroupTexts groups) →
    (ctx.subgroupTerms scope path j groups).Ensures fun terms => (Term.leaves terms).Clean
  | [], _, _, _, _, _ => .pure clean_nil
  | ⟨connector, group⟩ :: rest, _, _, _, hscope, hgroups => by
    simp only [subgroupTexts, AllUnbraced.append] at hgroups
    rw [subgroupTerms]
    refine .bind (groupTerms_clean group hscope hgroups.1) fun terms hterms => ?_
    refine .bind (subgroupTerms_clean rest hscope hgroups.2) fun others hothers => .pure ?_
    split
    · exact hothers
    · exact clean_append.mpr ⟨hterms, hothers⟩

/-- So is all that joins add. -/
theorem joined_clean : ∀ (joins : List Join) {parent : Scope} {path : Path} {extent : Extent}
    {l : Nat}, AllUnbraced parent.table.texts → AllUnbraced (joinTexts joins) →
    (ctx.joined parent path extent l joins).Ensures Joined.Clean
  | [], _, _, _, _, _, _ => .pure ⟨clean_nil, .empty, List.forall_mem_nil _⟩
  | ⟨_, ⟨none, _, _, _, _, _⟩, _⟩ :: _, _, _, _, _, _, _ => by
    rw [joined, joinedQuery]
    exact .bind (P := fun _ => False) .fail fun _ h => h.elim
  | ⟨keys, ⟨some table, token, clauses, conditions, joins, unions⟩, on⟩ :: rest, _, _, _, _,
      hparent, hjoins => by
    simp only [joinTexts, Query.texts, AllUnbraced.append] at hjoins
    obtain ⟨⟨⟨hkeys, ⟨⟨⟨⟨htable, hclauses⟩, hconditions⟩, hinner⟩, -⟩⟩, hon⟩, hrest⟩ := hjoins
    have htable : Unbraced table := htable table List.mem_cons_self
    rw [joined, joinedQuery]
    refine .bind (P := Joined.Clean) ?_ fun first hfirst => ?_
    · refine .bind (openScope_clean hschema) fun scope hscope => ?_
      refine .bind (joinKeys_clean hschema hscope hparent hkeys) fun keys hkeys => ?_
      refine .bind (collect_clean hschema hscope hclauses
        (joinedColumns_clean hschema hscope hclauses)) fun own hown => ?_
      refine .bind (groupTerms_clean on hscope hon) fun extra hextra => ?_
      refine .bind (groupTerms_clean conditions hscope hconditions) fun terms hterms => ?_
      refine .bind (joined_clean joins hscope hinner) fun inner hinner => .pure ?_
      exact (clean_attach htable hkeys hown hextra hterms).append hinner
    · exact .bind (joined_clean rest hparent hrest) fun others hothers =>
        .pure (hfirst.append hothers)

end

/-- So are the parts of a query that shows something. -/
theorem shownParts_clean {q : Query} {table : String} {path : Path} (hq : AllUnbraced q.texts)
    (htable : Unbraced table) : (ctx.shownParts table path q).Ensures SelectParts.Clean :=
  .bind (selectParts_clean hschema q hq htable) fun _ hparts =>
    .bind .trivially fun _ _ => .pure hparts

/-- A query without braces is resolved to clean text, with its unions. -/
theorem compoundSelect_clean {q : Query} {table : String} {path : Path} (hq : AllUnbraced q.texts)
    (htable : Unbraced table) : (ctx.compoundSelect table path q).Ensures Fragment.Clean := by
  have hunions : AllUnbraced (branchTexts q.unions) := by
    obtain ⟨own, token, clauses, conditions, joins, unions⟩ := q
    rw [Query.texts, AllUnbraced.append] at hq
    exact hq.2
  refine .bind (shownParts_clean hschema hq htable) fun parts hparts => ?_
  refine .bind (unionBranches_clean hschema q.unions hunions htable) fun branches hbranches => ?_
  exact .pure (clean_compound hparts.select hbranches)

end Context

end DynamicSql
