import DynamicSql.Proofs.Query.Renaming
import DynamicSql.Proofs.Schema.Names
import DynamicSql.Query.Build

/-!
# Fields and references to them

A field of the table at hand is found by its name (`findColumn_own`), and the reference that a query
gives to a field of its table is found from everywhere in the statement (`field_fieldRef`), unless a
full stop in the token of the query ends the token early (`reference?_fieldRef`). In an expression,
a reference is a word between delimiters, and the rest of the expression is resolved as it would be
without it (`expression_fieldRef`).
-/

namespace DynamicSql

/-! ## References as texts -/

/-- A reference to a field is its mark, the token of the query, a stop and the field. -/
theorem Query.toList_fieldRef (p : Query) (field : String) : (p.fieldRef field).toList =
    "#tas_".toList ++ (p.token.toList ++ '.' :: field.toList) := by
  simp only [fieldRef, String.toList_append, List.append_assoc]
  rfl

/-- The reference that a query gives is read as one to its own token, unless the token holds a full
stop. -/
theorem Query.reference?_fieldRef (p : Query) (field : String) :
    reference? (p.fieldRef field) = some (p.token, field) ↔ '.' ∉ p.token.toList := by
  rw [reference?_eq_some_iff]
  exact and_iff_right (p.toList_fieldRef field)

/-! ## Words of expressions -/

/-- No word of an expression holds a delimiter. -/
theorem not_isDelimiter_of_mem_lexemesFrom {cs word w : List Char}
    (hword : ∀ c ∈ word, isDelimiter c = false) (h : .word w ∈ lexemesFrom word cs) :
    ∀ c ∈ w, isDelimiter c = false := by
  have hread : ∀ c ∈ word.reverse, isDelimiter c = false :=
    fun c hc => hword c (List.mem_reverse.mp hc)
  -- The word that is being read has no delimiters, and neither have the words behind it.
  induction cs generalizing word with
  | nil =>
    rw [lexemesFrom] at h
    split at h
    · cases h
    · obtain rfl := Lexeme.word.inj (List.mem_singleton.mp h)
      exact hread
  | cons c rest ih =>
    have hempty : ∀ d ∈ ([] : List Char), isDelimiter d = false := List.forall_mem_nil _
    rw [lexemesFrom] at h
    split at h
    case isTrue =>
      split at h
      · obtain heq | h := List.mem_cons.mp h
        · cases heq
        · exact ih hempty h hempty
      · obtain heq | h := List.mem_cons.mp h
        · obtain rfl := Lexeme.word.inj heq
          exact hread
        · obtain heq | h := List.mem_cons.mp h
          · cases heq
          · exact ih hempty h hempty
    case isFalse hc =>
      have hlonger : ∀ d ∈ c :: word, isDelimiter d = false :=
        List.forall_mem_cons.mpr ⟨Bool.eq_false_iff.mpr hc, hword⟩
      exact ih hlonger h fun d hd => hlonger d (List.mem_reverse.mp hd)

/-- A text that is one word has no delimiters. -/
theorem not_isDelimiter_of_lexemes_eq_word {text : String}
    (h : lexemes text = [.word text.toList]) : ∀ c ∈ text.toList, isDelimiter c = false := by
  have hmem : Lexeme.word text.toList ∈ lexemes text := h ▸ List.mem_singleton_self _
  exact not_isDelimiter_of_mem_lexemesFrom (List.forall_mem_nil _) hmem

/-- A text is a single word of an expression when it holds no delimiter. -/
theorem lexemes_eq_word_iff {text : String} (hne : text.toList ≠ []) :
    lexemes text = [.word text.toList] ↔ ∀ c ∈ text.toList, isDelimiter c = false :=
  ⟨not_isDelimiter_of_lexemes_eq_word, fun h => lexemesFrom_word h hne⟩

/-- The reference that a query gives is a single word of an expression, unless a delimiter is in the
token or in the field. -/
theorem Query.lexemes_fieldRef (p : Query) (field : String) :
    lexemes (p.fieldRef field) = [.word (p.fieldRef field).toList] ↔
      ∀ c ∈ p.token.toList ++ field.toList, isDelimiter c = false := by
  have hne : (p.fieldRef field).toList ≠ [] := by
    rw [p.toList_fieldRef field]
    exact List.cons_ne_nil _ _
  have hletters : "#tas_".toList.all (!isDelimiter ·) = true := by decide
  have hmark : ∀ c ∈ "#tas_".toList, isDelimiter c = false :=
    fun c hc => Bool.not_eq_true' _ ▸ List.all_eq_true.mp hletters c hc
  have hstop : isDelimiter '.' = false := by decide
  rw [lexemes_eq_word_iff hne, p.toList_fieldRef field]
  simp only [List.forall_mem_append, List.forall_mem_cons, hstop, true_and]
  exact and_iff_right hmark

/-- A delimiter ends what is in front of it. -/
theorem lexemesFrom_append_delimiter {d : Char} (hd : isDelimiter d = true)
    (word front back : List Char) : lexemesFrom word (front ++ d :: back) =
      lexemesFrom word front ++ .delimiter d :: lexemesFrom [] back := by
  induction front generalizing word with
  | nil =>
    change lexemesFrom word (d :: back) = lexemesFrom word [] ++ _
    rw [lexemesFrom, lexemesFrom, if_pos hd]
    split <;> rfl
  | cons c front ih =>
    rw [List.cons_append, lexemesFrom, lexemesFrom, ih, ih]
    split
    · split <;> rfl
    · rfl

/-- Between two texts, a word stands by itself: delimiters are next to it, or nothing is. -/
structure Apart (front back : String) : Prop where
  front : ∀ c ∈ front.toList.getLast?, isDelimiter c = true
  back : ∀ c ∈ back.toList.head?, isDelimiter c = true

/-- A word that stands by itself is read between the parts of what is around it. -/
theorem lexemesFrom_apart {front back word : List Char}
    (hfront : ∀ c ∈ front.getLast?, isDelimiter c = true)
    (hback : ∀ c ∈ back.head?, isDelimiter c = true) (hne : word ≠ [])
    (hword : ∀ c ∈ word, isDelimiter c = false) : lexemesFrom [] (front ++ (word ++ back)) =
      lexemesFrom [] front ++ .word word :: lexemesFrom [] back := by
  have hbehind : lexemesFrom [] (word ++ back) = .word word :: lexemesFrom [] back := by
    cases back with
    | nil =>
      rw [List.append_nil, lexemesFrom_word hword hne]
      rfl
    | cons d rest =>
      have hd : isDelimiter d = true := hback d rfl
      rw [lexemesFrom_word_delimiter hword hne hd, lexemesFrom_delimiter hd]
  cases front using List.reverseRecOn with
  | nil => exact hbehind
  | append_singleton rest d =>
    have hd : isDelimiter d = true := hfront d List.getLast?_concat
    rw [List.append_assoc, List.singleton_append, lexemesFrom_append_delimiter hd, hbehind,
      lexemesFrom_append_delimiter hd, List.append_assoc]
    rfl

/-- A value that is not missing is the result of a step that does nothing. -/
theorem Resolve.ofOption_some {α : Type} (e : Error) (a : α) : ofOption e (some a) = pure a := rfl

/-- A value from outside is the result of a step that does nothing. -/
theorem Resolve.ofExcept_ok {α : Type} (a : α) : ofExcept (.ok a) = pure a := rfl

namespace Context

open Resolve

variable {ctx : Context} {scope : Scope}

/-! ## Fields of the table at hand -/

/-- A name of the table at hand stands for its column there. -/
theorem findColumn_own {name column : String} (hname : reference? name = none)
    (hcolumn : scope.table.resolve? name = some column) :
    ctx.findColumn scope name = pure ⟨.qualified scope.token? column, column,
      scope.table.fieldFor column name⟩ := by
  rw [findColumn, hname]
  dsimp only
  rw [hcolumn, ofOption_some, pure_bind]

/-- A shown column of the table at hand has the name that it was given, or else the field that the
table gives for the column. -/
theorem selectItem_own {name column field : String} {alias? : Option String}
    (hname : reference? name = none) (hcolumn : scope.table.resolve? name = some column)
    (hfield : scope.table.fieldOf? column = some field) :
    ctx.selectItem scope ⟨name, .plain, alias?⟩ =
      pure (shownAs (.qualified scope.token? column) column (alias?.getD field)) := by
  rw [selectItem, findColumn_own hname hcolumn, Table.fieldFor_of_fieldOf? hfield]
  exact pure_bind _ _

/-! ## Fields of other tables -/

variable {p : Query} {table field column : String} {d : Table}

/-- The reference that a query gives to a field of its table stands for the column there, behind the
alias of the query. -/
theorem field_fieldRef (hlookup : ctx.references.lookup p.token = some table)
    (hd : ctx.schema.table table = .ok d) (hcolumn : d.resolve? field = some column)
    (hstop : '.' ∉ p.token.toList) : ctx.field scope (p.fieldRef field) = do
      mention p.token
      return [.column p.token column] := by
  have hfound : ctx.findReference (p.fieldRef field) p.token field = do
      mention p.token
      return ⟨[.column p.token column], column, d.fieldFor column field⟩ := by
    rw [findReference, hlookup, ofOption_some, pure_bind, hd, ofExcept_ok, pure_bind, hcolumn,
      ofOption_some, pure_bind]
    rfl
  rw [Context.field, findColumn, (p.reference?_fieldRef field).mpr hstop]
  dsimp only
  rw [hfound, bind_assoc]
  simp only [pure_bind]

/-- A reference that stands by itself in an expression is resolved as the field that it is, and the
texts around it are resolved as they are alone. -/
theorem expression_apart {front back name : String} (hapart : Apart front back)
    (hmark : (behindMark? name.toList).isSome) (hname : ∀ c ∈ name.toList, isDelimiter c = false) :
    ctx.expression scope (front ++ name ++ back) = do
      let before ← ctx.expression scope front
      let found ← ctx.field scope name
      let behind ← ctx.expression scope back
      return before ++ found ++ behind := by
  have hne : name.toList ≠ [] := by
    intro hempty
    rw [hempty] at hmark
    cases hmark
  have hfield : ctx.lexeme scope (.word name.toList) = ctx.field scope name := by
    rw [lexeme, if_pos hmark, String.ofList_toList]
  unfold expression
  rw [lexemes, String.toList_append, String.toList_append, List.append_assoc,
    lexemesFrom_apart hapart.front hapart.back hne hname, List.mapM_append, List.mapM_cons, hfield]
  simp only [bind_assoc, pure_bind, List.flatten_append, List.flatten_cons, List.append_assoc]
  rfl

/-- The reference that a query gives to a field of its table may stand in every expression, with
delimiters next to it, as long as it holds none itself. -/
theorem expression_fieldRef {front back : String} (hapart : Apart front back)
    (hlookup : ctx.references.lookup p.token = some table) (hd : ctx.schema.table table = .ok d)
    (hcolumn : d.resolve? field = some column) (hplain : PlainToken p.token)
    (hfield : ∀ c ∈ field.toList, isDelimiter c = false) :
    ctx.expression scope (front ++ p.fieldRef field ++ back) = do
      let before ← ctx.expression scope front
      mention p.token
      let behind ← ctx.expression scope back
      return before ++ .column p.token column :: behind := by
  have hstop : '.' ∉ p.token.toList := fun hmem => (hplain '.' hmem).1 rfl
  have hmark : (behindMark? (p.fieldRef field).toList).isSome := by
    rw [p.toList_fieldRef field]
    rfl
  have hword : ∀ c ∈ (p.fieldRef field).toList, isDelimiter c = false := by
    refine not_isDelimiter_of_lexemes_eq_word ((p.lexemes_fieldRef field).mpr ?_)
    exact List.forall_mem_append.mpr ⟨fun c hc => (hplain c hc).2, hfield⟩
  rw [expression_apart hapart hmark hword, field_fieldRef hlookup hd hcolumn hstop]
  simp only [bind_assoc, pure_bind, List.append_assoc, List.singleton_append]

end Context

end DynamicSql
