import DynamicSql.Proofs.Resolve.Counting
import DynamicSql.Proofs.Resolve.Coupled
import DynamicSql.Proofs.Resolve.Succeeds
import DynamicSql.Proofs.Resolve.Texts
import DynamicSql.Proofs.Sql.Renaming

/-!
# Resolving renamed descriptions

Tokens are looked up among the tables of a statement and mentioned, and nothing else is done with
them. So when tokens are renamed, resolving takes the same steps: it fails with an error of the same
kind, or it binds the same values, and the mentioned tokens and those in the result are the renamed
ones (`selectParts_renamed`).

The names that are left out of the shown columns are compared as texts, so what they leave out may
depend on tokens. The columns that are kept have to be those that are kept before (`OmitsAlike`).
-/

namespace DynamicSql

/-- What happens while a renamed description is resolved. -/
def Trace.rename (ρ : Renaming) (t : Trace) : Trace := ⟨t.mentioned.map ρ.apply, t.bound⟩

/-- The second error is of the kind of the first one. -/
def Error.SameKind (e e' : Error) : Prop := e'.kind = e.kind

/-- Errors of one kind, and traces that mention renamed tokens. -/
def Coupling.rename (ρ : Renaming) : Coupling where
  errors := Error.SameKind
  traces t u := u = t.rename ρ
  empty := rfl
  append ht hu := by
    rw [ht, hu]
    exact congrArg (Trace.mk · _) List.map_append.symm

/-- What is known while a renamed description is resolved. -/
def Context.rename (ρ : Renaming) (ctx : Context) : Context :=
  { ctx with references := renameReferences ρ ctx.references }

/-- A table that fields are looked up in, where tokens are renamed. -/
def Scope.rename (ρ : Renaming) (scope : Scope) : Scope :=
  { scope with token? := scope.token?.map ρ.apply }

/-- A field that was found, where tokens are renamed. -/
def FoundColumn.rename (ρ : Renaming) (found : FoundColumn) : FoundColumn :=
  { found with fragment := found.fragment.rename ρ }

/-- The columns of a table that are not left out. -/
def Clauses.keptOf (clauses : Clauses) (description : Table) : List Column :=
  description.columns.filter fun c =>
    !clauses.removed.contains c.field && !clauses.removed.contains c.column

/-- When tokens are renamed, a shown query keeps the columns that it has kept before: those that it
asks for or, where it asks for none and is joined to nothing, those of its table. -/
structure Shown.OmitsAlike (ρ : Renaming) (s : Shown) (description : Table) : Prop where
  asked : (s.query.clauses.rename ρ).kept description =
    (s.query.clauses.kept description).map (SelectItem.rename ρ)
  table : s.join? = none → s.query.clauses.columns = [] →
    (s.query.clauses.rename ρ).keptOf description = s.query.clauses.keptOf description

/-- The text that is looked up. -/
def Lookup.text : Lookup → String
  | .field name => name
  | .expression text => text

/-- An item of the `SELECT` list looks its field up, whichever way it does. -/
theorem SelectItem.lookup_text (item : SelectItem) : item.lookup.text = item.field := by
  obtain ⟨field, aggregate, alias?⟩ := item
  cases aggregate <;> rfl

/-- A text is a reference, or it has a word that is one. -/
def HoldsReference (text : String) : Prop :=
  (Lookup.field text).referred ≠ [] ∨ (Lookup.expression text).referred ≠ []

instance : DecidablePred HoldsReference := fun _ => inferInstanceAs (Decidable (_ ∨ _))

section Names

variable {ρ : Renaming}

/-- The token that a field refers to is renamed with the field. -/
theorem referredToken?_field (name : String) :
    referredToken? (ρ.field name) = (referredToken? name).map ρ.apply := by
  rw [referredToken?, ρ.reference?_field, Option.map_map, referredToken?, Option.map_map]
  rfl

/-- So is the token that a lexeme refers to. -/
theorem Lexeme.referred_lexeme (part : Lexeme) :
    (ρ.lexeme part).referred = part.referred.map ρ.apply := by
  cases part with
  | delimiter c => rfl
  | word cs =>
    rw [Renaming.lexeme, referred, String.ofList_toList, referredToken?_field, referred]
    exact Option.toList_map

/-- A name that is no reference stays as it is. -/
theorem Renaming.field_of_referredToken?_eq_none {name : String} (h : referredToken? name = none) :
    ρ.field name = name :=
  ρ.field_of_reference?_eq_none (Option.map_eq_none_iff.mp h)

/-- An expression in which no word is a reference stays as it is. -/
theorem Renaming.expression_of_referred_eq_nil {text : String}
    (h : (Lookup.expression text).referred = []) : ρ.expression text = text := by
  have hpart : ∀ part ∈ lexemes text, (ρ.lexeme part).chars = part.chars := by
    intro part hpart
    cases part with
    | delimiter c => rfl
    | word cs =>
      have hnone := List.flatMap_eq_nil_iff.mp h _ hpart
      rw [Renaming.lexeme, ρ.field_of_referredToken?_eq_none (Option.toList_eq_nil_iff.mp hnone),
        String.toList_ofList]
  rw [Renaming.expression, List.flatMap_congr hpart, flatMap_lexemes, String.ofList_toList]

/-- A text that holds no reference stays as it is, and one that holds a reference goes on to. -/
theorem Renaming.lookup_eq_or_holdsReference (l : Lookup) :
    ρ.lookup l = l.text ∨ HoldsReference l.text ∧ HoldsReference (ρ.lookup l) := by
  cases l with
  | field name =>
    cases href : referredToken? name with
    | none => exact .inl (ρ.field_of_referredToken?_eq_none href)
    | some token =>
      refine .inr ⟨.inl ?_, .inl ?_⟩
      · simp [Lookup.referred, Lookup.text, href]
      · simp [Lookup.referred, Renaming.lookup, referredToken?_field, href]
  | expression text =>
    by_cases href : (Lookup.expression text).referred = []
    · exact .inl (ρ.expression_of_referred_eq_nil href)
    · refine .inr ⟨.inr href, .inr ?_⟩
      have hrenamed : (Lookup.expression (ρ.expression text)).referred =
          (Lookup.expression text).referred.map ρ.apply := by
        simp only [Lookup.referred, ρ.lexemes_expression, List.flatMap_map, List.map_flatMap,
          Lexeme.referred_lexeme]
      rw [Renaming.lookup, hrenamed]
      exact fun hnil => href (List.map_eq_nil_iff.mp hnil)

end Names

/-- Names without references leave out the same columns when tokens are renamed, as long as the
fields of the table are names without references, too. -/
theorem Shown.omitsAlike_of_not_holdsReference {ρ : Renaming} {s : Shown} {description : Table}
    (hkept : ∀ name ∈ s.query.clauses.removed, ρ.removed name = name)
    (hremoved : ∀ name ∈ s.query.clauses.removed, ¬HoldsReference name)
    (hfields : ∀ c ∈ description.columns, ¬HoldsReference c.field) :
    s.OmitsAlike ρ description := by
  have hsame : (s.query.clauses.rename ρ).removed = s.query.clauses.removed := by
    rw [Clauses.rename, List.map_congr_left hkept, List.map_id']
  have hcolumnOf : ∀ {name}, HoldsReference name → description.columnOf? name = none := by
    intro name hname
    unfold Table.columnOf?
    rw [Option.map_eq_none_iff, List.find?_eq_none]
    intro c hc heq
    exact hfields c (List.mem_reverse.mp hc) (beq_iff_eq.mp heq ▸ hname)
  have hcontains : ∀ {name}, HoldsReference name →
      s.query.clauses.removed.contains name = false := by
    intro name hname
    rw [← Bool.not_eq_true, List.contains_iff_mem]
    exact fun hmem => hremoved name hmem hname
  refine ⟨?_, fun _ _ => by rw [Clauses.keptOf, Clauses.keptOf, hsame]⟩
  -- A name that renaming changes is a reference before and after, and no such name is left out.
  have hitem : ∀ scope : Scope, scope.table = description → ∀ item : SelectItem,
      Context.isRemoved s.query.clauses.removed scope (item.rename ρ) =
        Context.isRemoved s.query.clauses.removed scope item := by
    rintro scope rfl item
    have hfield : (item.rename ρ).field = ρ.lookup item.lookup := rfl
    unfold Context.isRemoved
    rw [hfield]
    obtain heq | ⟨hholds, hholds'⟩ := ρ.lookup_eq_or_holdsReference item.lookup
    · rw [heq, item.lookup_text]
      rfl
    · rw [item.lookup_text] at hholds
      rw [hcontains hholds, hcontains hholds', hcolumnOf hholds, hcolumnOf hholds']
      rfl
  unfold Clauses.kept
  rw [hsame]
  have hshows : (s.query.clauses.rename ρ).showsNothing = s.query.clauses.showsNothing := rfl
  rw [hshows]
  split
  · rfl
  · rw [Clauses.rename, List.filter_map]
    refine congrArg (List.map (SelectItem.rename ρ)) (List.filter_congr fun item _ => ?_)
    rw [Function.comp_apply, hitem _ rfl]

/-- When tokens are renamed, all shown queries keep the columns that they have kept before. -/
def Schema.OmitsAlike (schema : Schema) (ρ : Renaming) (shown : List Shown) : Prop :=
  ∀ s ∈ shown, ∀ description, s.table?.bind schema.find? = some description →
    s.OmitsAlike ρ description

namespace Schema.OmitsAlike

variable {schema : Schema} {ρ : Renaming} {a b : List Shown}

/-- Among columns that are left out alike, those of the first queries are. -/
theorem left (h : schema.OmitsAlike ρ (a ++ b)) : schema.OmitsAlike ρ a :=
  fun s hs => h s (List.mem_append_left b hs)

/-- So are those of the later ones. -/
theorem right (h : schema.OmitsAlike ρ (a ++ b)) : schema.OmitsAlike ρ b :=
  fun s hs => h s (List.mem_append_right a hs)

/-- So are those of the first query alone. -/
theorem cons {s : Shown} (h : schema.OmitsAlike ρ (s :: b)) :
    (∀ description, s.table?.bind schema.find? = some description →
      s.OmitsAlike ρ description) ∧ schema.OmitsAlike ρ b :=
  List.forall_mem_cons.mp h

end Schema.OmitsAlike

/-- Where no field of a schema and no name that is left out holds a reference, the same columns are
left out when tokens are renamed. -/
theorem Schema.omitsAlike_of_not_holdsReference {schema : Schema} {ρ : Renaming}
    {shown : List Shown}
    (hfields : ∀ t ∈ schema.tables, ∀ c ∈ t.2.columns, ¬HoldsReference c.field)
    (hremoved : ∀ s ∈ shown, ∀ name ∈ s.query.clauses.removed,
      ρ.removed name = name ∧ ¬HoldsReference name) : schema.OmitsAlike ρ shown := by
  intro s hs description hdescription
  obtain ⟨table, -, htable⟩ := Option.bind_eq_some_iff.mp hdescription
  exact Shown.omitsAlike_of_not_holdsReference (fun name hname => (hremoved s hs name hname).1)
    (fun name hname => (hremoved s hs name hname).2) (hfields _ (mem_of_lookup htable))

namespace Resolve

variable {α β : Type} {ρ : Renaming}

/-- The second run is the first one with renamed tokens; `φ` renames them in what is yielded. -/
abbrev Renamed (ρ : Renaming) (φ : α → β) : Resolve α → Resolve β → Prop :=
  Carried (.rename ρ) φ

/-- A token is mentioned under its new name. -/
theorem mention_renamed (token : Token) :
    Renamed ρ id (mention token) (mention (ρ.apply token)) :=
  .ok ⟨rfl, rfl⟩

/-- Markers and values have no tokens. -/
theorem bound_renamed (slot : Slot) (v : Value) :
    Renamed ρ (Piece.rename ρ) (bound slot v) (bound slot v) :=
  .ok ⟨rfl, rfl⟩

/-- A result from outside has none. -/
theorem ofExcept_renamed (result : Except Error α) :
    Renamed ρ id (ofExcept result) (ofExcept result) :=
  .ofExcept (fun _ => rfl) result

/-- A value that may be missing has none, but the error for it may name other tokens. -/
theorem ofOption_renamed {e e' : Error} (h : e.SameKind e') (found : Option α) :
    Renamed ρ id (ofOption e found) (ofOption e' found) := by
  have hfound := Carried.ofOption (C := .rename ρ) (φ := (id : α → α)) h found
  rwa [Option.map_id] at hfound

end Resolve

namespace Context

open Resolve

variable {ρ : Renaming} {ctx : Context} {scope : Scope}

/-- A renamed table is opened like the table, and its description is known. -/
theorem openScope_renamed (token : Token) (name : String) :
    Coupled (.rename ρ)
      (fun s s' => s' = s.rename ρ ∧ ctx.described? (some name) = some s.table)
      (ctx.openScope token name) ((ctx.rename ρ).openScope (ρ.apply token) name) := by
  refine Coupled.bind (mention_renamed token) fun _ _ _ => ?_
  unfold Context.rename
  cases hname : ctx.schema.table name with
  | error e => exact .fail rfl
  | ok table => exact .pure ⟨rfl, Schema.table_eq_ok.mp hname⟩

/-- A reference to a renamed token is found where the reference is. -/
theorem findReference_renamed (name name' token field : String) :
    Renamed ρ (FoundColumn.rename ρ) (ctx.findReference name token field)
      ((ctx.rename ρ).findReference name' (ρ.apply token) field) := by
  have htable : (ctx.rename ρ).references.lookup (ρ.apply token) = ctx.references.lookup token :=
    lookup_renameReferences ctx.references token
  unfold findReference
  rw [htable]
  refine (ofOption_renamed (by rfl) _).bind fun tableName => ?_
  refine (ofExcept_renamed _).bind fun table => ?_
  refine (ofOption_renamed (by rfl) _).bind fun column => ?_
  refine (mention_renamed token).bind fun _ => ?_
  exact .pure rfl

/-- A renamed name finds the renamed column. -/
theorem findColumn_renamed (name : String) :
    Renamed ρ (FoundColumn.rename ρ) (ctx.findColumn scope name)
      ((ctx.rename ρ).findColumn (scope.rename ρ) (ρ.field name)) := by
  unfold findColumn
  rw [ρ.reference?_field]
  cases href : reference? name with
  | some r => exact findReference_renamed name _ r.1 r.2
  | none =>
    rw [ρ.field_of_reference?_eq_none href]
    refine (ofOption_renamed rfl _).map fun column => ?_
    exact congrArg (FoundColumn.mk · _ _) (Fragment.rename_qualified scope.token? column).symm

/-- A renamed field is resolved to the renamed text. -/
theorem field_renamed (name : String) :
    Renamed ρ (Fragment.rename ρ) (ctx.field scope name)
      ((ctx.rename ρ).field (scope.rename ρ) (ρ.field name)) :=
  (findColumn_renamed name).map fun _ => rfl

/-- So is a renamed lexeme. -/
theorem lexeme_renamed (part : Lexeme) :
    Renamed ρ (Fragment.rename ρ) (ctx.lexeme scope part)
      ((ctx.rename ρ).lexeme (scope.rename ρ) (ρ.lexeme part)) := by
  cases part with
  | delimiter c => exact .pure rfl
  | word cs =>
    have hmark := ρ.isSome_behindMark?_field (String.ofList cs)
    rw [String.toList_ofList] at hmark
    simp only [lexeme, Renaming.lexeme, String.ofList_toList, hmark]
    split
    case isTrue => exact field_renamed _
    case isFalse h =>
      have hnone : behindMark? cs = none := Option.not_isSome_iff_eq_none.mp h
      have href : reference? (String.ofList cs) = none := by
        simp [reference?, hnone]
      have htable : (scope.rename ρ).table = scope.table := rfl
      rw [ρ.field_of_reference?_eq_none href, htable]
      cases scope.table.resolve? (String.ofList cs) with
      | some column => exact .pure (Fragment.rename_qualified scope.token? column).symm
      | none => exact .pure rfl

/-- So is a renamed expression. -/
theorem expression_renamed (text : String) :
    Renamed ρ (Fragment.rename ρ) (ctx.expression scope text)
      ((ctx.rename ρ).expression (scope.rename ρ) (ρ.expression text)) := by
  unfold expression
  rw [ρ.lexemes_expression]
  refine (Carried.mapM fun part _ => lexeme_renamed part).map fun parts => ?_
  exact List.map_flatten.symm

/-- So is the compared side of a condition. -/
theorem comparand_renamed (comparison : Comparison) (name : String) :
    Renamed ρ (Fragment.rename ρ) (ctx.comparand scope comparison name)
      ((ctx.rename ρ).comparand (scope.rename ρ) comparison
        (if comparison.isEquality then ρ.field name else ρ.expression name)) := by
  unfold comparand
  split
  · exact field_renamed name
  · exact expression_renamed name

/-- The alias of a column has no token. -/
theorem rename_named (alias? : Option String) (f : Fragment) :
    (named alias? f).rename ρ = named alias? (f.rename ρ) := by
  cases alias? with
  | none => rfl
  | some name =>
    unfold named
    simp only [Fragment.mapped_ite, Fragment.mapped_append]
    rfl

/-- A function has none. -/
theorem rename_call (function : String) (f : Fragment) :
    (call function f).rename ρ = call function (f.rename ρ) :=
  Fragment.mapped_wrap _ f

/-- The field that a column is shown as has none. -/
theorem rename_shownAs (found : Fragment) (column name : String) :
    (shownAs found column name).rename ρ = shownAs (found.rename ρ) column name := by
  unfold shownAs
  simp only [Fragment.mapped_ite, Fragment.mapped_append]
  rfl

/-- A shown column is resolved like the column before tokens were renamed. -/
theorem selectItem_renamed (item : SelectItem) :
    Renamed ρ (Fragment.rename ρ) (ctx.selectItem scope item)
      ((ctx.rename ρ).selectItem (scope.rename ρ) (item.rename ρ)) := by
  obtain ⟨field, aggregate, alias?⟩ := item
  have hdialect : (ctx.rename ρ).dialect = ctx.dialect := rfl
  cases aggregate with
  | plain =>
    refine (findColumn_renamed field).map fun found => ?_
    exact (rename_shownAs found.fragment found.column _).symm
  | count =>
    simp only [selectItem, SelectItem.rename, SelectItem.lookup, Renaming.lookup,
      ρ.isEmpty_expression]
    split
    · exact .pure (rename_named alias? (.ofText "count(1)")).symm
    · refine (expression_renamed field).map fun operand => ?_
      simp only [rename_named, Fragment.mapped_wrap]
  | sum | avg =>
    refine (expression_renamed field).map fun operand => ?_
    simp only [rename_named, rename_call, hdialect, Fragment.mapped_wrap, SelectItem.rename]
  | max | min | distinct =>
    refine (expression_renamed field).map fun operand => ?_
    simp only [rename_named, rename_call, SelectItem.rename]
  | dateFormat pattern =>
    refine (field_renamed field).map fun operand => ?_
    simp only [rename_named, hdialect, Fragment.mapped_wrap, SelectItem.rename]
  | expression =>
    refine (expression_renamed field).map fun operand => ?_
    simp only [rename_named, SelectItem.rename]

/-- A renamed item of the `GROUP BY` list is resolved to the renamed text. -/
theorem groupItem_renamed (item : GroupItem) :
    Renamed ρ (Fragment.rename ρ) (ctx.groupItem scope item)
      ((ctx.rename ρ).groupItem (scope.rename ρ) (item.rename ρ)) := by
  obtain ⟨field, pattern?⟩ := item
  refine (field_renamed field).map fun operand => ?_
  cases pattern? with
  | none => rfl
  | some pattern => exact (Fragment.mapped_wrap _ operand).symm

/-- So is the compared side of a condition on groups. -/
theorem havingOperand_renamed (item : HavingItem) :
    Renamed ρ (Fragment.rename ρ) (ctx.havingOperand scope item)
      ((ctx.rename ρ).havingOperand (scope.rename ρ) (item.rename ρ)) := by
  obtain ⟨field, operand, comparison, value⟩ := item
  cases operand with
  | plain => exact expression_renamed field
  | count =>
    simp only [havingOperand, HavingItem.rename, ρ.isEmpty_expression]
    split
    · exact .pure rfl
    · refine (expression_renamed field).map fun operand => ?_
      rw [rename_call]

/-- So is a condition on groups. -/
theorem havingItem_renamed (path : Path) (item : HavingItem) (i : Nat) :
    Renamed ρ (Fragment.rename ρ) (ctx.havingItem scope path item i)
      ((ctx.rename ρ).havingItem (scope.rename ρ) path (item.rename ρ) i) := by
  apply (havingOperand_renamed item).bind
  intro operand
  refine (bound_renamed ⟨.comparedGroup, path, i, none⟩ item.value).map fun marker => ?_
  exact (mapped_comparedWith operand item.comparison marker).symm

/-- So is an item of the `ORDER BY` list. -/
theorem orderItem_renamed (item : OrderItem) :
    Renamed ρ (Fragment.rename ρ) (ctx.orderItem scope item)
      ((ctx.rename ρ).orderItem (scope.rename ρ) (item.rename ρ)) := by
  obtain ⟨field, direction, operand⟩ := item
  have hdialect : (ctx.rename ρ).dialect = ctx.dialect := rfl
  have hoperand : Renamed ρ (Fragment.rename ρ) (ctx.orderOperand scope ⟨field, direction, operand⟩)
      ((ctx.rename ρ).orderOperand (scope.rename ρ)
        (OrderItem.rename ρ ⟨field, direction, operand⟩)) := by
    cases operand with
    | plain => exact field_renamed field
    | sum | avg =>
      refine (field_renamed field).map fun found => ?_
      simp only [rename_call, hdialect, Fragment.mapped_wrap]
    | distinct =>
      refine (field_renamed field).map fun found => ?_
      rw [rename_call]
    | expression => exact expression_renamed field
  refine hoperand.map fun found => ?_
  simp only [Fragment.mapped_append]
  rfl

/-- The columns that are asked for are resolved like the ones before. -/
theorem explicitColumns_renamed {clauses : Clauses}
    (h : (clauses.rename ρ).kept scope.table =
      (clauses.kept scope.table).map (SelectItem.rename ρ)) :
    Renamed ρ (List.map (Fragment.rename ρ)) (ctx.explicitColumns scope clauses)
      ((ctx.rename ρ).explicitColumns (scope.rename ρ) (clauses.rename ρ)) := by
  have htable : (scope.rename ρ).table = scope.table := rfl
  rw [explicitColumns_eq, explicitColumns_eq, htable, h]
  exact .mapM fun item _ => selectItem_renamed item

/-- The columns that are shown where none is named are those of the table that are not left out. -/
theorem allColumns_eq (scope : Scope) (clauses : Clauses) : allColumns scope clauses.removed =
    (clauses.keptOf scope.table).map fun c =>
      shownAs (.qualified scope.token? c.column) c.column c.field := rfl

/-- The columns of a query that is joined to nothing are those that were shown before. -/
theorem shownColumns_renamed {q : Query} {table? : Option String}
    (h : Shown.OmitsAlike ρ ⟨table?, q, none⟩ scope.table) :
    Renamed ρ (List.map (Fragment.rename ρ)) (ctx.shownColumns scope q.clauses)
      ((ctx.rename ρ).shownColumns (scope.rename ρ) (q.clauses.rename ρ)) := by
  have hcolumns : (q.clauses.rename ρ).columns.isEmpty = q.clauses.columns.isEmpty :=
    List.isEmpty_map
  have hshows : (q.clauses.rename ρ).showsNothing = q.clauses.showsNothing := rfl
  unfold shownColumns
  rw [hcolumns, hshows]
  split
  case isTrue hempty =>
    rw [Bool.and_eq_true, List.isEmpty_iff] at hempty
    have hkept : (q.clauses.rename ρ).keptOf (scope.rename ρ).table =
        q.clauses.keptOf scope.table := h.table rfl hempty.1
    refine .pure ?_
    rw [allColumns_eq, allColumns_eq, hkept, List.map_map]
    refine List.map_congr_left fun c _ => ?_
    rw [Function.comp_apply, rename_shownAs, Fragment.rename_qualified]
    rfl
  case isFalse => exact explicitColumns_renamed h.asked

/-- A joined query adds the columns that it has added before. -/
theorem joinedColumns_renamed {clauses : Clauses}
    (h : (clauses.rename ρ).kept scope.table =
      (clauses.kept scope.table).map (SelectItem.rename ρ)) :
    Renamed ρ (List.map (Fragment.rename ρ)) (ctx.joinedColumns scope clauses)
      ((ctx.rename ρ).joinedColumns (scope.rename ρ) (clauses.rename ρ)) := by
  have hcolumns : (clauses.rename ρ).columns.isEmpty = clauses.columns.isEmpty :=
    List.isEmpty_map
  unfold joinedColumns
  rw [hcolumns]
  split
  · exact .pure rfl
  · exact explicitColumns_renamed h

/-- Renamed clauses collect the renamed lists. -/
theorem collect_renamed {clauses : Clauses} (path : Path) {columns columns' : Resolve _}
    (extent : Extent) (hcolumns : Renamed ρ (List.map (Fragment.rename ρ)) columns columns') :
    Renamed ρ (Collected.mapped (.rename ρ)) (ctx.collect scope clauses path columns extent)
      ((ctx.rename ρ).collect (scope.rename ρ) (clauses.rename ρ) path columns' extent) := by
  have hgroups : Renamed ρ (List.map (Fragment.rename ρ))
      (clauses.groups.mapM (ctx.groupItem scope))
      ((clauses.rename ρ).groups.mapM ((ctx.rename ρ).groupItem (scope.rename ρ))) :=
    .mapM fun item _ => groupItem_renamed item
  have hhavings : Renamed ρ (List.map (Fragment.rename ρ))
      (clauses.havings.zipIdx.mapM fun x => ctx.havingItem scope path x.1 x.2)
      ((clauses.rename ρ).havings.zipIdx.mapM fun x =>
        (ctx.rename ρ).havingItem (scope.rename ρ) path x.1 x.2) := by
    have hnumbered : (clauses.rename ρ).havings.zipIdx =
        clauses.havings.zipIdx.map (Prod.map (HavingItem.rename ρ) id) := List.zipIdx_map
    rw [hnumbered]
    exact .mapM fun x _ => havingItem_renamed path x.1 x.2
  have horders : Renamed ρ (List.map (Fragment.rename ρ))
      (clauses.orders.mapM (ctx.orderItem scope))
      ((clauses.rename ρ).orders.mapM ((ctx.rename ρ).orderItem (scope.rename ρ))) :=
    .mapM fun item _ => orderItem_renamed item
  cases extent with
  | everything =>
    apply hcolumns.bind
    intro columns
    apply hgroups.bind
    intro groups
    apply hhavings.bind
    intro havings
    exact horders.map fun orders => rfl
  | counting =>
    apply hgroups.bind
    intro groups
    exact hhavings.map fun havings => rfl
  | conditionsOnly => exact .pure rfl

/-- A renamed pair of keys is resolved to the renamed text. -/
theorem keyPair_renamed {parent joined : Scope} (pair : String × String) :
    Renamed ρ (Fragment.rename ρ) (ctx.keyPair parent joined pair)
      ((ctx.rename ρ).keyPair (parent.rename ρ) (joined.rename ρ)
        (ρ.expression pair.1, ρ.expression pair.2)) := by
  apply (expression_renamed pair.1).bind
  intro left
  refine (expression_renamed pair.2).map fun right => ?_
  simp only [Fragment.mapped_append, Fragment.mapped_cons]
  rfl

/-- A single pair of columns is taken as it is, behind the aliases of the renamed tokens. -/
theorem joinKeys_renamed {parent joined : Scope} (keys : JoinKeys) :
    Renamed ρ (Fragment.rename ρ) (ctx.joinKeys parent joined keys)
      ((ctx.rename ρ).joinKeys (parent.rename ρ) (joined.rename ρ) (keys.rename ρ)) := by
  cases keys with
  | single left right =>
    refine .pure ?_
    simp only [Fragment.mapped_append, Fragment.mapped_cons, Fragment.rename_qualified]
    rfl
  | composite pairs =>
    simp only [joinKeys, JoinKeys.rename, List.isEmpty_map]
    split
    · exact .fail rfl
    · refine (Carried.mapM fun pair _ => keyPair_renamed pair).map fun parts => ?_
      exact (Fragment.mapped_join " AND " parts).symm

/-- So is a membership in a list of values. -/
theorem membership_renamed (field : String) (test : Membership) (v : Value) (path : Path)
    (index : Nat) :
    Renamed ρ (Fragment.rename ρ) (ctx.membership scope field test v path index)
      ((ctx.rename ρ).membership (scope.rename ρ) (ρ.field field) test v path index) := by
  refine (ofOption_renamed (by rfl) _).bind fun members => ?_
  rw [id]
  split
  · exact .fail rfl
  · apply (field_renamed field).bind
    intro operand
    have hmarkers : Renamed ρ (List.map (Piece.rename ρ))
        (members.zipIdx.mapM fun x => bound ⟨.compared, path, index, some x.2⟩ x.1)
        (members.zipIdx.mapM fun x => bound ⟨.compared, path, index, some x.2⟩ x.1) :=
      .mapM_same fun x _ => bound_renamed ⟨.compared, path, index, some x.2⟩ x.1
    refine hmarkers.map fun markers => ?_
    simp only [Fragment.mapped_append, Fragment.mapped_cons, Fragment.mapped_parens,
      Fragment.mapped_join, List.map_map]
    rfl

/-- A condition that holds no query is resolved like the condition before. -/
theorem simpleCondition_renamed (path : Path) (index : Nat) (field : String) (filter : Filter) :
    Renamed ρ (Fragment.rename ρ) (ctx.simpleCondition scope path index field filter)
      ((ctx.rename ρ).simpleCondition (scope.rename ρ) path index (filter.renameField ρ field)
        (filter.rename ρ)) := by
  have hmarker : ∀ v, Renamed ρ (Piece.rename ρ)
      (bound ⟨.compared, path, index, none⟩ v) (bound ⟨.compared, path, index, none⟩ v) :=
    bound_renamed _
  have hdialect : (ctx.rename ρ).dialect = ctx.dialect := rfl
  cases filter with
  | compare comparison v =>
    apply (comparand_renamed comparison field).bind
    intro operand
    refine (hmarker v).map fun marker => ?_
    exact (mapped_comparedWith operand comparison marker).symm
  | compareField comparison other =>
    apply (expression_renamed field).bind
    intro left
    refine (expression_renamed other).map fun right => ?_
    simp only [Fragment.mapped_append, Fragment.mapped_cons]
    rfl
  | compareDate comparison pattern v =>
    apply (field_renamed field).bind
    intro operand
    refine (hmarker v).map fun marker => ?_
    simp only [mapped_comparedWith, Fragment.mapped_wrap, hdialect]
    rfl
  | like wildcards v =>
    simp only [simpleCondition, Filter.rename]
    split
    · exact .fail rfl
    · apply (field_renamed field).bind
      intro operand
      refine (hmarker (wildcards.pattern v)).map fun marker => ?_
      simp only [Fragment.mapped_append]
      rfl
  | member test v => exact membership_renamed field test v path index
  | memberOf test query => exact .fail rfl
  | guard guard v =>
    apply (expression_renamed field).bind
    intro operand
    refine (hmarker v).map fun marker => ?_
    simp only [Fragment.mapped_append]
    rfl
  | isNull | isNotNull =>
    refine (expression_renamed field).map fun operand => ?_
    simp only [Fragment.mapped_append]
    rfl

/-- Whether there are columns does not depend on tokens. -/
theorem requireColumns_renamed (parts : SelectParts) (e : Error) :
    Renamed ρ id (requireColumns parts e) (requireColumns (parts.mapped (.rename ρ)) e) := by
  have hcolumns : (parts.mapped (.rename ρ)).collected.columns.isEmpty =
      parts.collected.columns.isEmpty := List.isEmpty_map
  unfold requireColumns
  rw [hcolumns]
  split
  · exact .fail rfl
  · exact .pure rfl

mutual

/-- A `SELECT` is resolved like the one before tokens were renamed. -/
theorem selectParts_renamed : ∀ (q : Query) (table : String) (path : Path) (extent : Extent),
    ctx.schema.OmitsAlike ρ (q.shown (some table)) →
    Renamed ρ (SelectParts.mapped (.rename ρ)) (ctx.selectParts table path extent q)
      ((ctx.rename ρ).selectParts table path extent (q.rename ρ))
  | ⟨own, token, clauses, conditions, joins, unions⟩, table, path, extent, h => by
    rw [Query.shown] at h
    obtain ⟨hself, hothers⟩ := h.cons
    rw [Query.rename, selectParts, selectParts]
    refine Coupled.bind (openScope_renamed token table) fun scope _ hscope => ?_
    obtain ⟨rfl, htable⟩ := hscope
    refine (collect_renamed (path.child "gh") extent
      (shownColumns_renamed (hself scope.table htable))).bind fun own' => ?_
    refine (joined_renamed joins scope (path.child "cl") extent 0 (some table)
      hothers.left).bind fun added => ?_
    refine (groupTerms_renamed conditions scope (path.child "tl")
      hothers.right).map fun terms => ?_
    exact (mapped_assemble ctx (by rfl) own' added terms).symm

/-- Renamed branches are resolved to the renamed text. -/
theorem unionBranches_renamed : ∀ (branches : List UnionBranch) (table : String) (path : Path)
    (k : Nat), ctx.schema.OmitsAlike ρ (branchShown (some table) branches) →
    Renamed ρ (Fragment.rename ρ) (ctx.unionBranches table path k branches)
      ((ctx.rename ρ).unionBranches table path k (renameBranches ρ branches))
  | [], _, _, _, _ => by
    rw [renameBranches, unionBranches, unionBranches]
    exact .pure rfl
  | ⟨kind, ⟨own, token, clauses, conditions, joins, unions⟩⟩ :: rest, table, path, k, h => by
    have htable : own.or (some table) = some (own.getD table) := by cases own <;> rfl
    rw [branchShown, htable] at h
    rw [renameBranches, Query.rename, unionBranches, unionBranches]
    have hparts := selectParts_renamed ⟨own, token, clauses, conditions, joins, unions⟩
      (own.getD table) (path.childAt "un" k) .everything h.left
    rw [Query.rename] at hparts
    refine hparts.bind fun parts => ?_
    refine (requireColumns_renamed parts _).bind fun _ => ?_
    refine (unionBranches_renamed rest table path (k + 1) h.right).map
      fun others => ?_
    simp only [Fragment.mapped_cons, Fragment.mapped_append, Fragment.mapped_parens,
      SelectParts.mapped_select]
    rfl

/-- A renamed group is resolved to the renamed terms. -/
theorem groupTerms_renamed : ∀ (group : ConditionGroup) (scope : Scope) (path : Path),
    ctx.schema.OmitsAlike ρ group.shown →
    Renamed ρ (mappedTerms (.rename ρ)) (ctx.groupTerms scope path group)
      ((ctx.rename ρ).groupTerms (scope.rename ρ) path (group.rename ρ))
  | ⟨conditions, groups⟩, scope, path, h => by
    rw [ConditionGroup.shown] at h
    rw [ConditionGroup.rename, groupTerms, groupTerms]
    refine (conditionTerms_renamed conditions scope path 0 h.left).bind
      fun leaves => ?_
    refine (subgroupTerms_renamed groups scope path 0 h.right).map
      fun others => ?_
    exact (mappedTerms_append leaves others).symm

/-- So are renamed conditions. -/
theorem conditionTerms_renamed : ∀ (conditions : List Condition) (scope : Scope) (path : Path)
    (i : Nat), ctx.schema.OmitsAlike ρ (conditionShown conditions) →
    Renamed ρ (mappedTerms (.rename ρ)) (ctx.conditionTerms scope path i conditions)
      ((ctx.rename ρ).conditionTerms (scope.rename ρ) path i (renameConditions ρ conditions))
  | [], _, _, _, _ => by
    rw [renameConditions, conditionTerms, conditionTerms]
    exact .pure (by rw [mappedTerms])
  | ⟨connector, field, filter⟩ :: rest, scope, path, i, h => by
    rw [conditionShown] at h
    rw [renameConditions, conditionTerms, conditionTerms]
    refine (conditionText_renamed filter scope path i field h.left).bind
      fun text => ?_
    refine (conditionTerms_renamed rest scope path (i + 1) h.right).map
      fun others => ?_
    rw [mappedTerms, Term.mapped]

/-- The query that a condition holds is resolved like the one before, too. -/
theorem conditionText_renamed : ∀ (filter : Filter) (scope : Scope) (path : Path) (i : Nat)
    (field : String), ctx.schema.OmitsAlike ρ filter.shown →
    Renamed ρ (Fragment.rename ρ) (ctx.conditionText scope path i field filter)
      ((ctx.rename ρ).conditionText (scope.rename ρ) path i (filter.renameField ρ field)
        (filter.rename ρ))
  | .memberOf test ⟨some table, token, clauses, conditions, joins, unions⟩, scope, path, i, field,
    h => by
    rw [Filter.shown] at h
    rw [Filter.rename, Query.rename, conditionText, conditionText]
    apply (field_renamed field).bind
    intro operand
    have hparts := selectParts_renamed ⟨some table, token, clauses, conditions, joins, unions⟩
      table (path.childAt "s" i) .everything h.left
    rw [Query.rename] at hparts
    refine hparts.bind fun parts => ?_
    refine (requireColumns_renamed parts _).bind fun _ => ?_
    refine (unionBranches_renamed unions table (path.childAt "s" i) 0
      h.right).map fun branches => ?_
    simp only [Fragment.mapped_append, Fragment.mapped_cons, Fragment.mapped_parens,
      mapped_compound, SelectParts.mapped_select]
    rfl
  | .memberOf test ⟨none, _, _, _, _, _⟩, _, _, _, field, _ => by
    rw [Filter.rename, Query.rename]
    exact .fail rfl
  | .compare comparison v, _, path, i, field, _ => by
    exact simpleCondition_renamed path i field (.compare comparison v)
  | .compareField comparison other, _, path, i, field, _ => by
    exact simpleCondition_renamed path i field (.compareField comparison other)
  | .compareDate comparison pattern v, _, path, i, field, _ => by
    exact simpleCondition_renamed path i field (.compareDate comparison pattern v)
  | .like wildcards v, _, path, i, field, _ => by
    exact simpleCondition_renamed path i field (.like wildcards v)
  | .member test v, _, path, i, field, _ => by
    exact simpleCondition_renamed path i field (.member test v)
  | .guard guard v, _, path, i, field, _ => by
    exact simpleCondition_renamed path i field (.guard guard v)
  | .isNull, _, path, i, field, _ => by exact simpleCondition_renamed path i field .isNull
  | .isNotNull, _, path, i, field, _ => by exact simpleCondition_renamed path i field .isNotNull

/-- So are the renamed groups of a group. -/
theorem subgroupTerms_renamed : ∀ (groups : List Subgroup) (scope : Scope) (path : Path)
    (j : Nat), ctx.schema.OmitsAlike ρ (subgroupShown groups) →
    Renamed ρ (mappedTerms (.rename ρ)) (ctx.subgroupTerms scope path j groups)
      ((ctx.rename ρ).subgroupTerms (scope.rename ρ) path j (renameSubgroups ρ groups))
  | [], _, _, _, _ => by
    rw [renameSubgroups, subgroupTerms, subgroupTerms]
    exact .pure (by rw [mappedTerms])
  | ⟨connector, group⟩ :: rest, scope, path, j, h => by
    rw [subgroupShown] at h
    rw [renameSubgroups, subgroupTerms, subgroupTerms]
    refine (groupTerms_renamed group scope (path.childAt "ot" j) h.left).bind
      fun terms => ?_
    refine (subgroupTerms_renamed rest scope path (j + 1) h.right).map
      fun others => ?_
    rw [isEmpty_mappedTerms]
    split
    · rfl
    · rw [mappedTerms, Term.mapped]

/-- Renamed joins add the renamed parts. -/
theorem joined_renamed : ∀ (joins : List Join) (parent : Scope) (path : Path) (extent : Extent)
    (l : Nat) (table? : Option String), ctx.schema.OmitsAlike ρ (joinShown table? joins) →
    Renamed ρ (Joined.mapped (.rename ρ)) (ctx.joined parent path extent l joins)
      ((ctx.rename ρ).joined (parent.rename ρ) path extent l (renameJoins ρ joins))
  | [], _, _, _, _, _, _ => by
    rw [renameJoins, joined, joined]
    exact .pure rfl
  | ⟨keys, ⟨some table, token, clauses, conditions, joins, unions⟩, on⟩ :: rest, parent, path,
    extent, l, table?, h => by
    rw [joinShown] at h
    obtain ⟨hself, hinside⟩ := h.left.cons
    rw [renameJoins, Query.rename, joined, joined, joinedQuery, joinedQuery]
    refine Carried.bind (?_ : Renamed ρ (Joined.mapped (.rename ρ)) _ _) fun first => ?_
    · refine Coupled.bind (openScope_renamed token table) fun scope _ hscope => ?_
      obtain ⟨rfl, htable⟩ := hscope
      apply (joinKeys_renamed keys).bind
      intro keyText
      refine (collect_renamed (path.childAt "gh" l) extent
        (joinedColumns_renamed (hself scope.table htable).asked)).bind fun own => ?_
      refine (groupTerms_renamed on scope (path.childAt "ofl" l)
        (hinside.left.left)).bind fun extra => ?_
      refine (groupTerms_renamed conditions scope (path.childAt "fl" l)
        (hinside.left.right)).bind fun terms => ?_
      refine (joined_renamed joins scope (path.childAt "j" l) extent 0 (some table)
        hinside.right).map fun inner => ?_
      rw [Joined.mapped_append, mapped_attach ctx (by rfl)]
      rfl
    · refine (joined_renamed rest parent path extent (l + 1) table?
        h.right).map fun others => ?_
      exact (Joined.mapped_append first others).symm
  | ⟨keys, ⟨none, _, _, _, _, _⟩, on⟩ :: rest, parent, path, extent, l, _, _ => by
    rw [renameJoins, Query.rename, joined, joined, joinedQuery, joinedQuery]
    exact .fail rfl

end

end Context

end DynamicSql
