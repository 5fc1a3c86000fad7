import DynamicSql.Proofs.Resolve.Omitted
import DynamicSql.Proofs.Resolve.Pieces
import DynamicSql.Proofs.Statement.Aliases

/-!
# Aliases in front of columns

A column stands behind the alias of a table that was collected for the statement. The statement
brings this table in, too, unless it is below a query that is left out: the table of a branch in the
unions of a joined query, or of another branch, can be referred to and is nowhere introduced
(`aliases_introduced`).
-/

namespace DynamicSql

open Landmark (tokens)

/-- A table that a piece brings in was collected with its token, and a column stands behind the
alias of a collected table. -/
def Piece.Known (references : List (Token × String)) : Piece → Prop
  | .table name token => (token, name) ∈ references
  | .column token _ => token ∈ references.map (·.1)
  | _ => True

/-- All tables of a fragment were collected. -/
def Fragment.Known (references : List (Token × String)) (f : Fragment) : Prop :=
  ∀ piece ∈ f, piece.Known references

namespace Fragment.Known

variable {references : List (Token × String)} {f g : Fragment}

/-- Fragments with collected tables have no others together. -/
theorem append (hf : f.Known references) (hg : g.Known references) :
    Fragment.Known references (f ++ g) := List.forall_mem_append.mpr ⟨hf, hg⟩

/-- A text names no table. -/
theorem text_cons (s : String) (hf : f.Known references) :
    Fragment.Known references (.text s :: f) := List.forall_mem_cons.mpr ⟨trivial, hf⟩

/-- Nor does a text by itself. -/
theorem text (s : String) : Fragment.Known references [.text s] :=
  text_cons s (List.forall_mem_nil _)

end Fragment.Known

namespace Context

open Resolve

variable {ctx : Context} {t : Trace}

/-- What is resolved names collected tables only. -/
theorem known (ctx : Context) :
    ctx.Invariant (fun _ => True) (fun token name => (token, name) ∈ ctx.references)
      (fun _ => True) (fun scope => ∀ token ∈ scope.token?, token ∈ ctx.references.map (·.1))
      (Fragment.Known ctx.references) :=
  pieces (fun _ => trivial) (fun _ => trivial)
    (fun hopened _ => ⟨hopened, List.mem_map_of_mem hopened⟩)
    (fun htable _ => List.mem_map_of_mem (mem_of_lookup htable)) (fun _ htoken => htoken)

section Pieces

variable {opened : Token → String → Prop} {mentioned named : Token → Prop} {P : Piece → Prop}
  (htext : ∀ s, P (.text s)) (hmarker : ∀ slot, P (.marker slot))
  (hcolumn : ∀ {token} name, named token → P (.column token name))

include htext hmarker hcolumn

/-- Assignments name the table of an update only. -/
theorem assignments_pieces {scope : Scope} {qualify : Bool} {path : Path} {sets : List Assignment}
    {i : Nat} (hscope : ∀ token ∈ scope.token?, named token) :
    (assignments scope qualify path i sets).Ensures fun fs => ∀ f ∈ fs, ∀ piece ∈ f, P piece := by
  induction sets generalizing i with
  | nil => exact .pure (List.forall_mem_nil _)
  | cons a rest ih =>
    intro fs t h
    obtain ⟨column, others, t', -, hothers, rfl, -⟩ := assignments_cons_yields h
    refine List.forall_mem_cons.mpr ⟨?_, ih others t' hothers⟩
    have htarget : ∀ piece ∈ Fragment.qualified (if qualify then scope.token? else none) column,
        P piece := by
      split
      · exact qualified_pieces hscope htext hcolumn column
      · exact List.forall_mem_singleton.mpr (htext column)
    have hmarker : ∀ piece ∈ [Piece.text " = ", .marker ⟨.assigned, path, i, none⟩], P piece :=
      List.forall_mem_cons.mpr ⟨htext _, List.forall_mem_singleton.mpr (hmarker _)⟩
    cases a.change <;>
      simp only [assignmentText, List.forall_mem_append, List.forall_mem_cons] at hmarker ⊢
    case set => exact ⟨htarget, hmarker⟩
    case increment | decrement =>
      exact ⟨⟨htarget, htext _, htarget⟩, htext _, hmarker.2⟩

/-- A property of pieces holds of all pieces of an update if texts and markers have it, and columns
of the tables that are named. -/
theorem update_pieces
    (htable : ∀ {token name}, opened token name → mentioned token →
      P (.table name token) ∧ named token)
    (hreference : ∀ {token name}, ctx.references.lookup token = some name → mentioned token →
      named token)
    {u : Update} {table : String} {path : Path}
    (hopened : ∀ r ∈ Compiler.updateReferences u table, opened r.1 r.2) :
    (ctx.update u table path).EnsuresWithin mentioned fun f => ∀ piece ∈ f, P piece := by
  intro f t h ht
  -- One invariant of the resolver carries the property through joins, conditions and ordering.
  have I : ctx.Invariant (fun _ => True) opened mentioned
      (fun scope => ∀ token ∈ scope.token?, named token) (fun f => ∀ piece ∈ f, P piece) :=
    pieces htext hmarker htable hreference hcolumn
  obtain ⟨d, added, t₁, sets, t₂, terms, t₃, orders, t₄, -, hadded, hsets, hterms, horders, rfl,
    rfl⟩ := update_yields h
  simp only [Compiler.updateReferences, List.forall_mem_append, List.forall_mem_cons,
    List.cons_append] at hopened
  obtain ⟨hown, hconditions, hjoins⟩ := hopened
  simp only [Trace.mentioned_append, List.forall_mem_append, List.forall_mem_singleton] at ht
  obtain ⟨htoken, ht₁, -, ht₃, ht₄⟩ := ht
  obtain ⟨htarget, hnamed⟩ := htable hown htoken
  have hscope : ∀ token ∈ (⟨table, some u.token, d⟩ : Scope).token?, named token :=
    fun _ hother => Option.mem_some.mp hother ▸ hnamed
  have hadmitted : ∀ {names : List String}, ∀ s ∈ names, True := fun _ _ => trivial
  have hadded := I.joined u.joins hscope hadmitted hjoins _ _ hadded ht₁
  have hsets := assignments_pieces htext hmarker hcolumn hscope _ _ hsets
  have hterms := I.groupTerms u.conditions hscope hadmitted hconditions _ _ hterms ht₃
  have horders : ∀ f ∈ orders, ∀ piece ∈ f, P piece :=
    Resolve.EnsuresWithin.mapM (fun _ _ => I.orderItem hscope trivial) _ _ horders ht₄
  have hwhere : ∀ piece ∈ combineWhere ctx.root (Term.whereText terms :: added.conditions),
      P piece :=
    I.combineWhere (List.forall_mem_cons.mpr ⟨I.whereText terms hterms, hadded.conditions⟩)
  have hheading : Balanced " ORDER BY ".toList := by decide
  have hcomma : Balanced ", ".toList := by decide
  have htail := I.limit (I.clause hheading hcomma horders) u.limit
  have hassigned := I.join hcomma hsets
  have hsource : ∀ piece ∈ Piece.table table u.token :: added.text, P piece :=
    List.forall_mem_cons.mpr ⟨htarget, hadded.text⟩
  have hhead : ∀ piece ∈ Piece.text "UPDATE " :: (Piece.table table u.token :: added.text),
      P piece := List.forall_mem_cons.mpr ⟨htext _, hsource⟩
  refine I.append (I.append (I.append hhead ?_) ?_) htail
  · exact List.forall_mem_cons.mpr ⟨htext _, hassigned⟩
  · exact List.forall_mem_cons.mpr ⟨htext _, hwhere⟩

end Pieces

/-- An update names collected tables only. -/
theorem update_known {u : Update} {table : String} {path : Path}
    (hreferences : ctx.references = Compiler.updateReferences u table) :
    (ctx.update u table path).Ensures (Fragment.Known ctx.references) := by
  have hcolumn : ∀ {token : Token} (name : String), token ∈ ctx.references.map (·.1) →
      Piece.Known ctx.references (.column token name) := fun _ htoken => htoken
  have htable : ∀ {token : Token} {name : String}, (token, name) ∈ ctx.references → True →
      Piece.Known ctx.references (.table name token) ∧ token ∈ ctx.references.map (·.1) :=
    fun hopened _ => ⟨hopened, List.mem_map_of_mem hopened⟩
  have hpieces : (ctx.update u table path).EnsuresWithin (fun _ => True)
      (Fragment.Known ctx.references) :=
    update_pieces (fun _ => trivial) (fun _ => trivial) hcolumn htable
      (fun hlookup _ => List.mem_map_of_mem (mem_of_lookup hlookup)) fun _ hr => hreferences ▸ hr
  exact hpieces.always

/-- All tables that are collected for a query without unions are shown or left out. -/
theorem selectParts_splits_of_unions_nil {q : Query} {table : String} {path : Path}
    {extent : Extent} {parts : SelectParts} (hunions : q.unions = [])
    (h : (ctx.selectParts table path extent q).Yields parts t) :
    Splits (q.allLandmarks path) q.allOmitted (q.references table) := by
  have hsplits := selectParts_splits q h
  rw [Query.allLandmarks_of_unions_nil hunions]
  obtain ⟨own, token, clauses, conditions, joins, unions⟩ := q
  obtain rfl : unions = [] := hunions
  rw [Query.allOmitted, Query.references, branchOmitted, branchReferences, List.append_nil,
    List.append_nil]
  exact hsplits

/-- All tables that are collected for an update are shown or left out. -/
theorem update_splits {u : Update} {table : String} {path : Path} {f : Fragment}
    (h : (ctx.update u table path).Yields f t) :
    Splits (u.landmarks path) (u.conditions.omitted ++ joinOmitted u.joins)
      (Compiler.updateReferences u table) := by
  obtain ⟨d, added, t₁, sets, t₂, terms, t₃, orders, t₄, -, hadded, -, hterms, -⟩ :=
    update_yields h
  have hjoins := joined_splits u.joins false hadded
  have hconditions := groupTerms_splits u.conditions hterms
  have hsets : Splits (assignedLandmarks (path.child "u") u.sets) [] [] :=
    .of_tokens_eq_nil (tokens_map_value _ _ _)
  have hall := ((hconditions.append hjoins).append hsets).table_cons u.token table
  rw [List.append_nil, List.append_nil] at hall
  refine hall.perm ?_
  rw [Update.landmarks, ← Multiset.coe_eq_coe]
  simp only [JoinLandmarks.all, joinLandmarks_havings, List.append_nil, List.cons_append,
    ← Multiset.cons_coe, ← Multiset.coe_add]
  congr 1
  abel

end Context

/-- The queries that are left out where an update is shown. -/
def Update.omitted (u : Update) : List Query := u.conditions.omitted ++ joinOmitted u.joins

namespace Compiler

variable {c : Compiler} {table : String} {draft : Draft} {references : List (Token × String)}
  {omitted : List Query}

/-- The alias of a token in a draft. -/
def aliasIn (draft : Draft) : Token → String := (Aliases.ofMentions draft.2.mentioned).text

/-- The columns of a draft stand behind the aliases of collected tables, and these are introduced
in the draft unless they are below queries that are left out. A reference that resolves stands for a
column of the very table that was collected with its token. -/
structure Anchored (c : Compiler) (draft : Draft) (references : List (Token × String))
    (omitted : List Query) : Prop where
  distinct : (references.map (·.1)).Nodup
  column : ∀ token name, .column token name ∈ draft.1 → token ∈ references.map (·.1)
  introduced : ∀ r ∈ references, aliasIn draft r.1 ∈ introduced draft ↔ r.1 ∉ omittedTokens omitted
  table : ∀ name token, .table name token ∈ draft.1 ↔
    (token, name) ∈ references ∧ token ∉ omittedTokens omitted
  reference : ∀ scope name token field found t, reference? name = some (token, field) →
    ((Context.mk c.schema c.dialect c.root references).findColumn scope name).Yields found t →
    ∃ table d column, (token, table) ∈ references ∧ c.schema.table table = .ok d ∧
      d.resolve? field = some column ∧ found.fragment = [.column token column]

/-- A draft is anchored where it shows landmarks, names collected tables only, and leaves nothing
else out of the collected tables. -/
theorem anchored_of_context {ctx : Context} {ls : List Landmark}
    (hctx : c.context references = .ok ctx) (hshows : draft.Shows ls)
    (hknown : draft.1.Known ctx.references) (hsplits : Splits ls omitted references) :
    c.Anchored draft references omitted := by
  obtain ⟨hcheck, rfl⟩ := context_eq_ok hctx
  have hdistinct : (references.map (·.1)).Nodup := (checkTokens_eq_ok.mp hcheck).1
  have htables : draft.1.tables = tokens ls := by
    rw [Fragment.tables_eq_marks, hshows.marks_eq, Landmark.tokens_eq_marks]
  have hsplit := hsplits.nodup_iff.mp hdistinct
  -- A collected token is either that of a table in the draft, or below a query that is left out.
  have hshown : ∀ r ∈ references, r.1 ∈ draft.1.tables ↔ r.1 ∉ omittedTokens omitted := by
    intro r hr
    have hmem := hsplits.mem_iff.mp (List.mem_map_of_mem (f := (·.1)) hr)
    rw [htables]
    constructor
    · exact fun htoken homitted => (List.nodup_append.mp hsplit).2.2 _ htoken _ homitted rfl
    · exact (List.mem_append.mp hmem).resolve_right
  refine ⟨hdistinct, fun token name hmem => hknown _ hmem, fun r hr => ?_,
    fun name token => ⟨fun hmem => ?_, fun ⟨hr, homitted⟩ => ?_⟩, ?_⟩
  · rw [← hshown r hr, introduced, List.mem_map]
    constructor
    · rintro ⟨token, htoken, heq⟩
      have hmentioned := hshows.accounts.mentioned (htables ▸ htoken)
      exact Aliases.eq_of_text_eq (Aliases.mem_ofMentions.mpr hmentioned) heq ▸ htoken
    · exact fun htoken => ⟨r.1, htoken, rfl⟩
  · refine ⟨hknown _ hmem, (hshown _ (hknown _ hmem)).mp ?_⟩
    exact List.mem_filterMap.mpr ⟨_, hmem, rfl⟩
  · obtain ⟨piece, hmem, hpiece⟩ := List.mem_filterMap.mp ((hshown _ hr).mpr homitted)
    cases piece with
    | table other token =>
      obtain rfl := Option.some.inj hpiece
      have heq := List.inj_on_of_nodup_map hdistinct (hknown _ hmem) hr rfl
      obtain rfl : other = name := congrArg Prod.snd heq
      exact hmem
    | _ => cases hpiece
  · intro scope name token field found t hreference hfound
    unfold Context.findColumn at hfound
    rw [hreference] at hfound
    obtain ⟨table, d, column, htable, hd, hcolumn, rfl⟩ := Context.findReference_yields hfound
    exact ⟨table, d, column, mem_of_lookup htable, hd, hcolumn, rfl⟩

/-- Counting names no further table. -/
theorem countRows_known {f : Fragment} (h : f.Known references) : (countRows f).Known references :=
  (((h.text_cons "(").append (.text ")")).text_cons _).append (.text _)

section Query

variable {q : Query} {ctx : Context} (hctx : c.queryContext q table = .ok ctx)

include hctx

/-- A query with its unions names collected tables only. -/
theorem compoundSelect_known {path : Path} {f : Fragment} {t : Trace}
    (h : (ctx.compoundSelect table path q).Yields f t) : f.Known ctx.references := by
  obtain ⟨-, rfl⟩ := context_eq_ok hctx
  exact ((Context.known _).compoundSelect (fun _ _ => trivial) fun _ hr => hr).always f t h

/-- So does a query without unions. -/
theorem selectParts_known {path : Path} {extent : Extent} {parts : SelectParts} {t : Trace}
    (h : (ctx.selectParts table path extent q).Yields parts t) :
    parts.All (Fragment.Known ctx.references) := by
  obtain ⟨-, rfl⟩ := context_eq_ok hctx
  obtain ⟨own, token, clauses, conditions, joins, unions⟩ := q
  refine ((Context.known _).selectParts _ (fun _ _ => trivial) ?_ fun r hr => ?_).always parts t h
  · exact List.mem_cons_self
  · exact List.mem_append_left _ (List.mem_cons_of_mem _ hr)

end Query

/-- The columns in the draft of a query stand behind aliases of its tables. -/
theorem selectDraft_anchored {q : Query} (h : c.selectDraft q table = .ok draft) :
    c.Anchored draft (q.references table) q.allOmitted := by
  obtain ⟨ctx, f, hctx, hf, hdraft⟩ := selectDraft_eq_ok h
  refine anchored_of_context hctx (selectDraft_shows h) ?_ (Context.compoundSelect_splits hf)
  rw [hdraft]
  exact (compoundSelect_known hctx hf).append (.text _)

/-- So they do in the drafts of a page of it. -/
theorem pageDrafts_anchored {q : Query} {count base : Draft}
    (h : c.pageDrafts q table = .ok (count, base)) :
    c.Anchored count (q.references table) q.allOmitted ∧
      c.Anchored base (q.references table) q.allOmitted := by
  obtain ⟨hcount, hbase⟩ := pageDrafts_shows h
  obtain ⟨ctx, hctx, -, ⟨hunions, parts, hparts, hselect, hbody⟩ | ⟨hf, hrows⟩⟩ :=
    pageDrafts_eq_ok h
  · have hparts := (Context.shownParts_yields hparts).1
    have hknown := selectParts_known hctx hparts
    have hsplits := Context.selectParts_splits_of_unions_nil hunions hparts
    have hcounted : (countBody parts).Known ctx.references :=
      (ctx.known.body hknown).text_cons _
    refine ⟨anchored_of_context hctx hcount ?_ hsplits, anchored_of_context hctx hbase ?_ hsplits⟩
    · obtain heq | heq := hbody
      · exact heq ▸ hcounted
      · rw [heq]
        exact countRows_known hcounted
    · exact hselect ▸ ctx.known.select hknown
  · have hknown := compoundSelect_known hctx hf
    have hsplits := Context.compoundSelect_splits hf
    refine ⟨anchored_of_context hctx hcount ?_ hsplits, anchored_of_context hctx hbase hknown
      hsplits⟩
    exact hrows ▸ countRows_known hknown

/-- So they do in the draft that counts it. -/
theorem validateDraft_anchored {q : Query} (h : c.validateDraft q table = .ok draft) :
    c.Anchored draft (q.references table) q.allOmitted := by
  have hshows := validateDraft_shows h
  obtain ⟨ctx, hctx, ⟨hunions, parts, hparts, hdraft⟩ | ⟨f, hf, hdraft⟩⟩ := validateDraft_eq_ok h
  · have hknown := selectParts_known hctx hparts
    have hsplits := Context.selectParts_splits_of_unions_nil hunions hparts
    refine anchored_of_context hctx hshows ?_ hsplits
    exact hdraft ▸ (ctx.known.body hknown).text_cons _
  · have hknown := compoundSelect_known hctx hf
    refine anchored_of_context hctx hshows ?_ (Context.compoundSelect_splits hf)
    exact hdraft ▸ countRows_known hknown

/-- So they do in the draft of an update, behind aliases of the tables of the update. -/
theorem updateAt_anchored {u : Update} {n : Nat} (h : c.updateAt u table n = .ok draft) :
    c.Anchored draft (updateReferences u table) u.omitted := by
  obtain ⟨ctx, hctx, hupdate⟩ := updateAt_eq_ok h
  have hsplits := Context.update_splits hupdate
  refine anchored_of_context hctx (updateAt_shows h) ?_ hsplits
  obtain ⟨-, rfl⟩ := context_eq_ok hctx
  exact Context.update_known rfl _ _ hupdate

/-- In every statement, the aliases in front of columns are those of collected tables, and the
statement introduces exactly those of them that are not below a query that is left out. -/
theorem aliases_introduced (c : Compiler) (table : String) :
    (∀ q s, c.select q table = .ok s → ∃ draft, c.selectDraft q table = .ok draft ∧
      s = c.finish draft ∧ c.Anchored draft (q.references table) q.allOmitted) ∧
    (∀ q p, c.page q table = .ok p → ∃ count base, c.pageDrafts q table = .ok (count, base) ∧
      p.countSql = c.render count ∧ p.baseSql = c.render base ∧
      c.Anchored count (q.references table) q.allOmitted ∧
      c.Anchored base (q.references table) q.allOmitted) ∧
    (∀ q s, c.validate q table = .ok s → ∃ draft, c.validateDraft q table = .ok draft ∧
      s = c.finish draft ∧ c.Anchored draft (q.references table) q.allOmitted) ∧
    ∀ u s, c.update u table = .ok s → ∃ draft, c.updateAt u table 0 = .ok draft ∧
      s = c.finish draft ∧ c.Anchored draft (updateReferences u table) u.omitted := by
  refine ⟨fun q s h => ?_, fun q p h => ?_, fun q s h => ?_, fun u s h => ?_⟩
  · obtain ⟨draft, hdraft, h⟩ := except_bind_eq_ok.mp h
    exact ⟨draft, hdraft, (Except.ok.inj h).symm, selectDraft_anchored hdraft⟩
  · obtain ⟨count, base, hdrafts, rfl, -⟩ := page_eq_ok h
    exact ⟨count, base, hdrafts, rfl, rfl, pageDrafts_anchored hdrafts⟩
  · obtain ⟨draft, hdraft, h⟩ := except_bind_eq_ok.mp h
    exact ⟨draft, hdraft, (Except.ok.inj h).symm, validateDraft_anchored hdraft⟩
  · obtain ⟨draft, hdraft, h⟩ := except_bind_eq_ok.mp h
    exact ⟨draft, hdraft, (Except.ok.inj h).symm, updateAt_anchored hdraft⟩

/-- A column of the orders that are united with the joined ones resolves, and stands behind an alias
that the statement does not introduce. -/
theorem joinedUnion_aliases_introduced :
    let orders := (Query.new "o" (some "orders")).union .all (.new "d" (some "orders"))
    let q := ((Query.new "c" (some "customer")).select "#tas_d.total").leftJoin
      (.new "id" "customer_id" orders)
    ∃ s, shop.select q "customer" = .ok s ∧
      s.sql =
        "SELECT t1.total FROM customer t0 LEFT JOIN orders t2 ON (t0.id = t2.customer_id)" ∧
      ∃ draft, shop.selectDraft q "customer" = .ok draft ∧ s = shop.finish draft ∧
        shop.Anchored draft (q.references "customer") q.allOmitted ∧
        aliasIn draft "d" = "t1" ∧ "t1" ∉ introduced draft := by
  intro orders q
  have htext : (shop.select q "customer").toOption.map (·.sql) =
      some "SELECT t1.total FROM customer t0 LEFT JOIN orders t2 ON (t0.id = t2.customer_id)" := by
    decide +kernel
  obtain ⟨s, hs⟩ : ∃ s, shop.select q "customer" = .ok s := except_exists_ok (by decide +kernel)
  obtain ⟨draft, hdraft, hfinish, hanchored⟩ := (aliases_introduced shop "customer").1 q s hs
  have halias : (shop.selectDraft q "customer").toOption.map (aliasIn · "d") = some "t1" := by
    decide +kernel
  rw [hs] at htext
  rw [hdraft] at halias
  have halias : aliasIn draft "d" = "t1" := Option.some.inj halias
  refine ⟨s, hs, Option.some.inj htext, draft, hdraft, hfinish, hanchored, halias, ?_⟩
  have homitted : "d" ∈ omittedTokens q.allOmitted := by decide +kernel
  have hcollected : ("d", "orders") ∈ q.references "customer" := by decide +kernel
  rw [← halias]
  exact fun hmem => (hanchored.introduced _ hcollected).mp hmem homitted

end Compiler

end DynamicSql
