import DynamicSql.Proofs.Resolve.Clean
import DynamicSql.Proofs.Statement.Landmarks

/-!
# Drafts are clean

Where no text from outside holds an opening brace, the scripts of a description write one only in
front of their markers.
-/

namespace DynamicSql

/-- The texts of an update. -/
def Update.texts (u : Update) : List String :=
  u.sets.map (·.field) ++ joinTexts u.joins ++ u.conditions.texts ++ u.orders.map (·.field)

/-- The texts of a description. -/
def Description.texts : Description → List String
  | .select q | .findOne q | .page q | .pageAt q _ _ | .validate q => q.texts
  | .insert row => row.fields
  | .insertRows rows => rows.flatMap Insert.fields
  | .update u => u.texts
  | .updateBatch us => us.flatMap Update.texts
  | .delete d => d.conditions.texts

/-- A limit is no text. -/
theorem Query.texts_limit (q : Query) (n : UInt64) : (q.limit n).texts = q.texts := by
  cases q
  rfl

/-- Texts without opening braces stay so when they are joined. -/
theorem intercalate_unbraced {separator : String} (hseparator : Unbraced separator)
    {parts : List String} (h : AllUnbraced parts) : Unbraced (separator.intercalate parts) := by
  induction parts with
  | nil =>
    rw [String.intercalate_nil]
    decide
  | cons part rest ih =>
    obtain ⟨hpart, hrest⟩ := AllUnbraced.cons.mp h
    cases rest with
    | nil => simpa using hpart
    | cons next rest =>
      rw [String.intercalate_cons_cons]
      exact (hpart.append hseparator).append (ih hrest)

/-- The window of a page holds numbers only. -/
theorem Dialect.window_unbraced {d : Dialect} {number size : UInt64} {window : String}
    (h : d.pageClause "" number size = .ok window) : Unbraced window := by
  obtain ⟨offset, -, h⟩ := except_bind_eq_ok.mp h
  obtain rfl := Except.ok.inj h
  have hnumber : ∀ n : UInt64, Unbraced (toString n) := fun n => toString_unbraced n.toNat
  have hempty : Unbraced "" := by decide
  have hlimit : Unbraced " LIMIT " := by decide
  cases d with
  | mySql =>
    have hcomma : Unbraced "," := by decide
    exact hempty.append (((hlimit.append (hnumber offset)).append hcomma).append (hnumber size))
  | postgreSql =>
    have hoffset : Unbraced " OFFSET " := by decide
    exact hempty.append (((hlimit.append (hnumber size)).append hoffset).append (hnumber offset))

namespace Fragment

/-- The rows of a clean query are counted by a clean text. -/
theorem clean_countRows {f : Fragment} (h : f.Clean) : (countRows f).Clean := by
  have hhead : Unbraced "SELECT count(1) FROM " := by decide
  have htail : Unbraced " s" := by decide
  exact clean_append.mpr ⟨clean_cons.mpr ⟨hhead, clean_parens h⟩, clean_cons.mpr ⟨htail, clean_nil⟩⟩

/-- So are the rows of a clean `SELECT`. -/
theorem clean_countBody {parts : SelectParts} (h : parts.Clean) : (countBody parts).Clean := by
  have hhead : Unbraced "SELECT count(1)" := by decide
  exact clean_cons.mpr ⟨hhead, h.body⟩

/-- A limit behind a clean fragment leaves it clean. -/
theorem clean_limit {f : Fragment} (h : f.Clean) (limit : Option UInt64) :
    Clean (f ++ [Piece.text (Dialect.limitClause limit)]) :=
  clean_append.mpr ⟨h, clean_cons.mpr ⟨limitClause_unbraced limit, clean_nil⟩⟩

/-- Terms with clean leaves have a clean text. -/
theorem clean_whereText {terms : List Term} (h : (Term.leaves terms).Clean) :
    (Term.whereText terms).Clean := by
  rw [clean_iff, filterMap_whereText unclean?_reading]
  exact clean_iff.mp h

/-- An ordering with clean entries is clean. -/
theorem clean_orderBy {orders : List Fragment} (h : ∀ f ∈ orders, f.Clean) :
    (SelectParts.clause " ORDER BY " ", " orders).Clean := by
  rw [clean_iff, filterMap_clause unclean?_reading (by decide) (by decide)]
  exact all_clean_iff.mp h

end Fragment

namespace Context

open Fragment Resolve

variable {ctx : Context} (hschema : AllUnbraced ctx.schema.texts)

include hschema

omit hschema in
/-- Assignments to columns of a table without braces are clean. -/
theorem assignments_clean {scope : Scope} (hscope : AllUnbraced scope.table.texts) {qualify : Bool}
    {path : Path} {sets : List Assignment} {i : Nat} {fs : List Fragment} {t : Trace}
    (h : (assignments scope qualify path i sets).Yields fs t) : ∀ f ∈ fs, f.Clean := by
  induction sets generalizing i fs t with
  | nil =>
    obtain ⟨rfl, -⟩ := pure_yields.mp h
    exact List.forall_mem_nil _
  | cons a rest ih =>
    obtain ⟨column, others, t', hcolumn, hothers, rfl, -⟩ := assignments_cons_yields h
    have htarget : (qualified (if qualify then scope.token? else none) column).Clean :=
      clean_qualified _ (Table.resolve?_unbraced hscope hcolumn)
    have hequal : Unbraced " = " := by decide
    have hplus : Unbraced " + " := by decide
    have hminus : Unbraced " - " := by decide
    refine List.forall_mem_cons.mpr ⟨?_, ih hothers⟩
    unfold assignmentText
    cases a.change with
    | set =>
      simp only [clean_append, clean_cons, clean_text, clean_marker, clean_nil, and_true]
      exact ⟨htarget, hequal⟩
    | increment =>
      simp only [clean_append, clean_cons, clean_text, clean_marker, clean_nil, and_true]
      exact ⟨⟨htarget, hequal, htarget⟩, hplus⟩
    | decrement =>
      simp only [clean_append, clean_cons, clean_text, clean_marker, clean_nil, and_true]
      exact ⟨⟨htarget, hequal, htarget⟩, hminus⟩

/-- An update whose texts have no opening braces is clean. -/
theorem update_clean {u : Update} {table : String} {path : Path} {f : Fragment} {t : Trace}
    (hu : AllUnbraced u.texts) (htable : Unbraced table)
    (h : (ctx.update u table path).Yields f t) : f.Clean := by
  simp only [Update.texts, AllUnbraced.append, AllUnbraced.map] at hu
  obtain ⟨⟨⟨-, hjoins⟩, hconditions⟩, horders⟩ := hu
  obtain ⟨d, added, t₁, sets, t₂, terms, t₃, orders, t₄, hd, hadded, hsets, hterms, hos, rfl, -⟩ :=
    update_yields h
  have hscope := Schema.table_unbraced hschema hd
  have hadded := joined_clean hschema u.joins hscope hjoins _ _ hadded
  have hsets := assignments_clean hscope hsets
  have hterms := groupTerms_clean hschema u.conditions hscope hconditions _ _ hterms
  have hos : ∀ f ∈ orders, f.Clean := Ensures.mapM (fun item hitem =>
    orderItem_clean hschema hscope (horders item hitem)) _ _ hos
  have hcondition : (combineWhere ctx.root (Term.whereText terms :: added.conditions)).Clean := by
    rw [clean_iff, filterMap_combineWhere unclean?_reading, List.flatMap_cons,
      clean_iff.mp (clean_whereText hterms), all_clean_iff.mp hadded.conditions]
    rfl
  have hupdate : Unbraced "UPDATE " := by decide
  have hset : Unbraced " SET " := by decide
  have hwhere : Unbraced " WHERE " := by decide
  have hassigned := clean_join (by decide : Unbraced ", ") hsets
  have htail := clean_limit (clean_orderBy hos) u.limit
  simp only [List.cons_append, clean_append, clean_cons, clean_text, clean_table] at htail ⊢
  exact ⟨hupdate, htable, ⟨⟨hadded.text, hset, hassigned⟩, hwhere, hcondition⟩, htail⟩

/-- So is a deletion. -/
theorem delete_clean {d : Delete} {table : String} {f : Fragment} {t : Trace}
    (hd : AllUnbraced d.conditions.texts) (htable : Unbraced table)
    (h : (ctx.delete d table).Yields f t) : f.Clean := by
  obtain ⟨description, terms, hdescription, hterms, rfl⟩ := delete_yields h
  have hscope := Schema.table_unbraced hschema hdescription
  have hterms := clean_whereText (groupTerms_clean hschema d.conditions hscope hd _ _ hterms)
  have hhead : Unbraced ("DELETE FROM " ++ table ++ " WHERE ") :=
    (Unbraced.append (by decide) htable).append (by decide)
  have horders : (SelectParts.clause " ORDER BY " ", " []).Clean :=
    clean_orderBy (List.forall_mem_nil _)
  exact clean_append.mpr ⟨clean_cons.mpr ⟨hhead, hterms⟩, clean_limit horders d.limit⟩

omit hschema in
/-- The values of a row are clean. -/
theorem insertTuple_clean {r : Nat} {row : Insert} :
    (insertTuple r row).Ensures Fragment.Clean := by
  refine .bind (.mapM fun _ _ => bound_clean) fun markers hmarkers => .pure (clean_parens ?_)
  refine clean_join (by decide) fun f hf => ?_
  obtain ⟨marker, hmem, rfl⟩ := List.mem_map.mp hf
  exact clean_cons.mpr ⟨hmarkers marker hmem, clean_nil⟩

end Context

namespace Compiler

open Fragment

variable {c : Compiler} {table : String} {draft : Draft} (hschema : AllUnbraced c.schema.texts)
  (htable : Unbraced table)

include hschema htable

/-- The draft of a query whose texts have no opening braces is clean. -/
theorem selectDraft_clean {q : Query} (hq : AllUnbraced q.texts)
    (h : c.selectDraft q table = .ok draft) : draft.1.Clean := by
  obtain ⟨ctx, f, hctx, hf, hdraft⟩ := selectDraft_eq_ok h
  obtain ⟨-, rfl⟩ := context_eq_ok hctx
  rw [hdraft]
  exact clean_limit (Context.compoundSelect_clean hschema hq htable _ _ hf) _

/-- So are the drafts of a page of it. -/
theorem pageDrafts_clean {q : Query} {count base : Draft} (hq : AllUnbraced q.texts)
    (h : c.pageDrafts q table = .ok (count, base)) : count.1.Clean ∧ base.1.Clean := by
  obtain ⟨ctx, hctx, -, ⟨-, parts, hparts, hbase, hcount⟩ | ⟨hf, hcount⟩⟩ := pageDrafts_eq_ok h
  · obtain ⟨-, rfl⟩ := context_eq_ok hctx
    have hparts := Context.shownParts_clean hschema hq htable _ _ hparts
    have hbody := clean_countBody hparts
    refine ⟨?_, hbase ▸ hparts.select⟩
    obtain hcount | hcount := hcount
    · exact hcount ▸ hbody
    · exact hcount ▸ clean_countRows hbody
  · obtain ⟨-, rfl⟩ := context_eq_ok hctx
    have hf := Context.compoundSelect_clean hschema hq htable _ _ hf
    exact ⟨hcount ▸ clean_countRows hf, hf⟩

/-- So is the draft that counts it. -/
theorem validateDraft_clean {q : Query} (hq : AllUnbraced q.texts)
    (h : c.validateDraft q table = .ok draft) : draft.1.Clean := by
  obtain ⟨ctx, hctx, ⟨-, parts, hparts, hdraft⟩ | ⟨f, hf, hdraft⟩⟩ := validateDraft_eq_ok h
  · obtain ⟨-, rfl⟩ := context_eq_ok hctx
    exact hdraft ▸ clean_countBody (Context.selectParts_clean hschema q hq htable _ _ hparts)
  · obtain ⟨-, rfl⟩ := context_eq_ok hctx
    exact hdraft ▸ clean_countRows (Context.compoundSelect_clean hschema hq htable _ _ hf)

/-- The draft of an insertion is clean. -/
theorem insertDraft_clean {rows : List Insert} (h : c.insertDraft rows table = .ok draft) :
    draft.1.Clean := by
  obtain ⟨_, description, columns, tuples, -, -, hd, hcolumns, -, htuples, hdraft⟩ :=
    insertDraft_eq_ok.mp h
  have hdescription := Schema.table_unbraced hschema hd
  have hnames : AllUnbraced columns := by
    intro column hcolumn
    obtain ⟨field, -, hfield⟩ := exists_of_forall₂_mem hcolumns hcolumn
    exact Table.resolve?_unbraced hdescription hfield
  have hlist := intercalate_unbraced (by decide : Unbraced ", ") hnames
  have htuples := Resolve.Ensures.mapM (fun _ _ => Context.insertTuple_clean) _ _ htuples
  rw [hdraft]
  refine clean_cons.mpr ⟨?_, clean_join (by decide) htuples⟩
  exact (((Unbraced.append (by decide) htable).append (by decide)).append hlist).append (by decide)

/-- The draft of an update whose texts have no opening braces is clean. -/
theorem updateAt_clean {u : Update} {n : Nat} (hu : AllUnbraced u.texts)
    (h : c.updateAt u table n = .ok draft) : draft.1.Clean := by
  obtain ⟨ctx, hctx, hdraft⟩ := updateAt_eq_ok h
  obtain ⟨-, rfl⟩ := context_eq_ok hctx
  exact Context.update_clean hschema hu htable hdraft

/-- So is the draft of such a deletion. -/
theorem deleteDraft_clean {d : Delete} (hd : AllUnbraced d.conditions.texts)
    (h : c.deleteDraft d table = .ok draft) : draft.1.Clean := by
  obtain ⟨ctx, hctx, hdraft⟩ := deleteDraft_eq_ok h
  obtain ⟨-, rfl⟩ := context_eq_ok hctx
  exact Context.delete_clean hschema hd htable hdraft

/-- Where no text from outside holds an opening brace, a draft is clean, and so is the text behind
it. -/
theorem Makes.clean {d : Description} {part : Draft × String} {ls : List Landmark}
    (h : c.Makes table d part ls) (hd : AllUnbraced d.texts) :
    part.1.1.Clean ∧ Unbraced part.2 := by
  have hempty : Unbraced "" := by decide
  have hsemicolon : Unbraced ";" := by decide
  cases h with
  | select h => exact ⟨selectDraft_clean hschema htable hd h, hempty⟩
  | @findOne q draft h =>
    rw [Description.texts, ← q.texts_limit 1] at hd
    exact ⟨selectDraft_clean hschema htable hd h, hempty⟩
  | count h => exact ⟨(pageDrafts_clean hschema htable hd h).1, hempty⟩
  | base h => exact ⟨(pageDrafts_clean hschema htable hd h).2, hempty⟩
  | window h htail =>
    exact ⟨(pageDrafts_clean hschema htable hd h).2, Dialect.window_unbraced htail⟩
  | validate h => exact ⟨validateDraft_clean hschema htable hd h, hempty⟩
  | insert h | insertRows h => exact ⟨insertDraft_clean hschema htable h, hempty⟩
  | update h => exact ⟨updateAt_clean hschema htable hd h, hempty⟩
  | member hu h =>
    exact ⟨updateAt_clean hschema htable (AllUnbraced.flatMap.mp hd _ hu) h, hsemicolon⟩
  | delete h => exact ⟨deleteDraft_clean hschema htable hd h, hempty⟩

end Compiler

end DynamicSql
