import DynamicSql.Proofs.Resolve.Clean
import DynamicSql.Proofs.Resolve.Shown
import DynamicSql.Resolve.References
import Mathlib.Logic.Equiv.Basic

/-!
# Renaming tokens

The tokens of the tables of a description are renamed wherever they are resolved: as the tokens of
queries, and in the references to them, be these fields of their own or words of expressions. A word
of an expression is renamed on its own, so the parts of a renamed expression are the renamed parts
of the expression (`Renaming.lexemes_expression`).

The names that are left out of the shown columns are compared as texts and never resolved. What
becomes of them is left open.
-/

namespace DynamicSql

/-- A token can stand in a reference everywhere: no full stop ends it, and no delimiter cuts it. -/
def PlainToken (token : Token) : Prop :=
  ∀ c ∈ token.toList, c ≠ '.' ∧ isDelimiter c = false

instance : DecidablePred PlainToken := fun token => List.decidableBAll _ token.toList

/-- A one-to-one renaming of plain tokens. Other tokens stay as they are. -/
structure Renaming where
  apply : Token → Token
  injective : Function.Injective apply
  plain : ∀ token, PlainToken token → PlainToken (apply token)
  other : ∀ token, ¬PlainToken token → apply token = token
  /-- What becomes of the names that are left out of the shown columns. -/
  removed : String → String

/-- The front that is cut off ends before the first full stop. -/
theorem not_mem_of_cutAtStop? {cs front back : List Char} (h : cutAtStop? cs = some (front, back)) :
    '.' ∉ front := by
  induction cs generalizing front back with
  | nil => cases h
  | cons c rest ih =>
    unfold cutAtStop? at h
    split at h
    case isTrue =>
      obtain ⟨rfl, -⟩ := Prod.mk.inj (Option.some.inj h)
      exact List.not_mem_nil
    case isFalse hc =>
      obtain ⟨⟨front', back'⟩, hcut, heq⟩ := Option.map_eq_some_iff.mp h
      obtain ⟨rfl, -⟩ := Prod.mk.inj heq
      rw [List.mem_cons, not_or]
      exact ⟨fun heq => hc heq.symm, ih hcut⟩

/-- A text is cut at its first stop. -/
theorem cutAtStop?_append {front : List Char} (h : '.' ∉ front) (back : List Char) :
    cutAtStop? (front ++ '.' :: back) = some (front, back) := by
  induction front with
  | nil => rfl
  | cons c front ih =>
    rw [List.mem_cons, not_or] at h
    rw [List.cons_append, cutAtStop?, if_neg fun heq => h.1 heq.symm, ih h.2]
    rfl

/-- A reference is its mark, a token without a full stop, a full stop and the field. -/
theorem reference?_eq_some_iff {name field : String} {token : Token} :
    reference? name = some (token, field) ↔
      name.toList = "#tas_".toList ++ (token.toList ++ '.' :: field.toList) ∧
        '.' ∉ token.toList := by
  constructor
  · intro h
    refine ⟨reference?_toList h, ?_⟩
    simp only [reference?, Option.bind_eq_bind, Option.bind_eq_some_iff, Option.some.injEq,
      Prod.mk.injEq] at h
    obtain ⟨_, -, ⟨front, back⟩, hcut, rfl, -⟩ := h
    rw [String.toList_ofList]
    exact not_mem_of_cutAtStop? hcut
  · rintro ⟨hname, hstop⟩
    have hbehind : behindMark? name.toList = some (token.toList ++ '.' :: field.toList) := by
      rw [hname]
      rfl
    simp only [reference?, hbehind, Option.bind_eq_bind, Option.bind_some,
      cutAtStop?_append hstop, String.ofList_toList]

/-- A word is read on to its end. -/
theorem lexemesFrom_append {cs : List Char} (h : ∀ c ∈ cs, isDelimiter c = false)
    (word rest : List Char) :
    lexemesFrom word (cs ++ rest) = lexemesFrom (cs.reverse ++ word) rest := by
  induction cs generalizing word with
  | nil => rfl
  | cons c cs ih =>
    obtain ⟨hc, hcs⟩ := List.forall_mem_cons.mp h
    rw [List.cons_append, lexemesFrom, hc, if_neg Bool.false_ne_true, ih hcs, List.reverse_cons,
      List.append_assoc]
    rfl

/-- Characters without a delimiter are one word. -/
theorem lexemesFrom_word {cs : List Char} (h : ∀ c ∈ cs, isDelimiter c = false) (hne : cs ≠ []) :
    lexemesFrom [] cs = [.word cs] := by
  have hread := lexemesFrom_append h [] []
  rw [List.append_nil, List.append_nil] at hread
  rw [hread, lexemesFrom, List.isEmpty_reverse, if_neg (by simpa using hne), List.reverse_reverse]

/-- A delimiter that no word stands in front of is a lexeme. -/
theorem lexemesFrom_delimiter {d : Char} (hd : isDelimiter d = true) (rest : List Char) :
    lexemesFrom [] (d :: rest) = .delimiter d :: lexemesFrom [] rest := by
  rw [lexemesFrom, if_pos hd]
  rfl

/-- A delimiter ends a word. -/
theorem lexemesFrom_word_delimiter {cs : List Char} (h : ∀ c ∈ cs, isDelimiter c = false)
    (hne : cs ≠ []) {d : Char} (hd : isDelimiter d = true) (rest : List Char) :
    lexemesFrom [] (cs ++ d :: rest) = .word cs :: .delimiter d :: lexemesFrom [] rest := by
  rw [lexemesFrom_append h, List.append_nil, lexemesFrom, if_pos hd, List.isEmpty_reverse,
    if_neg (by simpa using hne), List.reverse_reverse]

/-- The lexemes of an expression, put together, are the expression. -/
theorem flatMap_lexemesFrom (word cs : List Char) :
    (lexemesFrom word cs).flatMap Lexeme.chars = word.reverse ++ cs := by
  induction cs generalizing word with
  | nil =>
    rw [lexemesFrom, List.append_nil]
    split
    case isTrue h => rw [List.isEmpty_iff.mp h, List.flatMap_nil, List.reverse_nil]
    case isFalse => rw [List.flatMap_singleton, Lexeme.chars]
  | cons c rest ih =>
    rw [lexemesFrom]
    split
    · split
      case isTrue h =>
        rw [List.flatMap_cons, ih, List.isEmpty_iff.mp h, Lexeme.chars]
        rfl
      case isFalse =>
        rw [List.flatMap_cons, List.flatMap_cons, ih, Lexeme.chars, Lexeme.chars]
        rfl
    · rw [ih, List.reverse_cons, List.append_assoc, List.singleton_append]

/-- The parts of an expression make up the expression. -/
theorem flatMap_lexemes (text : String) : (lexemes text).flatMap Lexeme.chars = text.toList :=
  flatMap_lexemesFrom [] text.toList

namespace Renaming

variable (ρ : Renaming)

/-- A field, where the token of a reference is renamed. -/
def field (name : String) : String :=
  match reference? name with
  | some (token, field) => "#tas_" ++ ρ.apply token ++ "." ++ field
  | none => name

/-- A part of an expression, where the token of a reference is renamed. -/
def lexeme : Lexeme → Lexeme
  | .word cs => .word (ρ.field (String.ofList cs)).toList
  | .delimiter c => .delimiter c

/-- An expression, where the tokens of references are renamed. -/
def expression (text : String) : String :=
  String.ofList ((lexemes text).flatMap fun part => (ρ.lexeme part).chars)

/-- A text that is looked up among columns, where the tokens of references are renamed. -/
def lookup : Lookup → String
  | .field name => ρ.field name
  | .expression text => ρ.expression text

/-- A token without a full stop is given one without a full stop. -/
theorem stop_notMem {token : Token} (h : '.' ∉ token.toList) : '.' ∉ (ρ.apply token).toList := by
  by_cases hplain : PlainToken token
  · exact fun hmem => (ρ.plain token hplain '.' hmem).1 rfl
  · rwa [ρ.other token hplain]

/-- A renamed reference refers to the renamed token. -/
theorem reference?_field (name : String) :
    reference? (ρ.field name) = (reference? name).map fun r => (ρ.apply r.1, r.2) := by
  unfold field
  split
  case h_1 token field href =>
    rw [href, Option.map_some, reference?_eq_some_iff]
    obtain ⟨-, hstop⟩ := reference?_eq_some_iff.mp href
    exact ⟨by simp, ρ.stop_notMem hstop⟩
  case h_2 href => rw [href, Option.map_none]

/-- What is no reference keeps its name. -/
theorem field_of_reference?_eq_none {name : String} (h : reference? name = none) :
    ρ.field name = name := by
  rw [field, h]

/-- A renamed word begins with the mark of a reference when the word does. -/
theorem isSome_behindMark?_field (name : String) :
    (behindMark? (ρ.field name).toList).isSome = (behindMark? name.toList).isSome := by
  cases href : reference? name with
  | none => rw [ρ.field_of_reference?_eq_none href]
  | some r =>
    have hrenamed := ρ.reference?_field name
    rw [href] at hrenamed
    obtain ⟨hname, -⟩ := reference?_eq_some_iff.mp href
    obtain ⟨hname', -⟩ := reference?_eq_some_iff.mp hrenamed
    rw [hname, hname']
    rfl

/-- Words stay words: a renamed word has no delimiters, and it is not empty. -/
theorem field_word {cs : List Char} (h : ∀ c ∈ cs, isDelimiter c = false) :
    (∀ c ∈ (ρ.field (String.ofList cs)).toList, isDelimiter c = false) ∧
      (cs ≠ [] → (ρ.field (String.ofList cs)).toList ≠ []) := by
  cases href : reference? (String.ofList cs) with
  | none =>
    rw [ρ.field_of_reference?_eq_none href, String.toList_ofList]
    exact ⟨h, id⟩
  | some r =>
    obtain ⟨token, field⟩ := r
    have hrenamed := ρ.reference?_field (String.ofList cs)
    rw [href] at hrenamed
    obtain ⟨hname, hstop⟩ := reference?_eq_some_iff.mp href
    obtain ⟨hname', -⟩ := reference?_eq_some_iff.mp hrenamed
    rw [String.toList_ofList] at hname
    rw [hname] at h
    obtain ⟨hmark, hbehind⟩ := List.forall_mem_append.mp h
    obtain ⟨htoken, hfield⟩ := List.forall_mem_append.mp hbehind
    have hplain : PlainToken token := fun c hc => ⟨fun heq => hstop (heq ▸ hc), htoken c hc⟩
    rw [hname']
    refine ⟨?_, fun _ => by simp⟩
    refine List.forall_mem_append.mpr ⟨hmark, List.forall_mem_append.mpr ⟨?_, hfield⟩⟩
    exact fun c hc => (ρ.plain token hplain c hc).2

/-- Behind a word without delimiters, what has been read as parts is read as the renamed parts when
renamed. -/
theorem lexemesFrom_renamed (cs : List Char) {word : List Char}
    (hword : ∀ c ∈ word, isDelimiter c = false) :
    lexemesFrom [] ((lexemesFrom [] (word ++ cs)).flatMap fun part => (ρ.lexeme part).chars) =
      (lexemesFrom [] (word ++ cs)).map ρ.lexeme := by
  have hnil : ∀ c ∈ ([] : List Char), isDelimiter c = false := List.forall_mem_nil _
  obtain ⟨hrenamed, hne⟩ := ρ.field_word hword
  -- The word that has been read so far is renamed to a word without delimiters, whatever comes
  -- next.
  induction cs generalizing word with
  | nil =>
    rw [List.append_nil]
    by_cases hempty : word = []
    · rw [hempty]
      rfl
    · rw [lexemesFrom_word hword hempty, List.flatMap_singleton]
      exact lexemesFrom_word hrenamed (hne hempty)
  | cons c rest ih =>
    by_cases hc : isDelimiter c = true
    · have hrest := ih hnil (ρ.field_word hnil).1 (ρ.field_word hnil).2
      rw [List.nil_append] at hrest
      by_cases hempty : word = []
      · rw [hempty, List.nil_append, lexemesFrom_delimiter hc, List.flatMap_cons, List.map_cons,
          ← hrest]
        exact lexemesFrom_delimiter hc _
      · rw [lexemesFrom_word_delimiter hword hempty hc, List.flatMap_cons, List.flatMap_cons,
          List.map_cons, List.map_cons, ← hrest]
        exact lexemesFrom_word_delimiter hrenamed (hne hempty) hc _
    · have hlonger : ∀ d ∈ word ++ [c], isDelimiter d = false :=
        List.forall_mem_append.mpr ⟨hword, List.forall_mem_singleton.mpr (by simpa using hc)⟩
      have hread := ih hlonger (ρ.field_word hlonger).1 (ρ.field_word hlonger).2
      rwa [List.append_assoc] at hread

/-- The parts of a renamed expression are the renamed parts of the expression. -/
theorem lexemes_expression (text : String) :
    lexemes (ρ.expression text) = (lexemes text).map ρ.lexeme := by
  unfold expression lexemes
  have hnil : ∀ c ∈ ([] : List Char), isDelimiter c = false := List.forall_mem_nil _
  rw [String.toList_ofList]
  exact ρ.lexemesFrom_renamed text.toList hnil

/-- An expression without parts is empty. -/
theorem lexemes_eq_nil {text : String} : lexemes text = [] ↔ text = "" := by
  constructor
  · intro h
    rw [← String.toList_inj]
    unfold lexemes at h
    cases hchars : text.toList with
    | nil => rfl
    | cons c rest =>
      have hread : ∀ (cs word : List Char), word ≠ [] → lexemesFrom word cs ≠ [] := by
        intro cs
        induction cs with
        | nil => exact fun word hword => by simp [lexemesFrom, hword]
        | cons d cs ih =>
          intro word hword
          rw [lexemesFrom]
          split
          · simp [hword]
          · exact ih (d :: word) (List.cons_ne_nil d word)
      rw [hchars, lexemesFrom] at h
      split at h
      · cases h
      · exact absurd h (hread rest [c] (List.cons_ne_nil c []))
  · rintro rfl
    rfl

/-- Only the empty expression becomes empty when tokens are renamed. -/
theorem isEmpty_expression (text : String) : (ρ.expression text).isEmpty = text.isEmpty := by
  rw [Bool.eq_iff_iff, String.isEmpty_iff, String.isEmpty_iff, ← lexemes_eq_nil,
    ρ.lexemes_expression, List.map_eq_nil_iff, lexemes_eq_nil]

/-- Two plain tokens change places. -/
def swap (a b : Token) (ha : PlainToken a) (hb : PlainToken b) : Renaming where
  apply := Equiv.swap a b
  injective := (Equiv.swap a b).injective
  plain token htoken := by
    by_cases heq : token = a
    · rwa [heq, Equiv.swap_apply_left]
    · by_cases heq' : token = b
      · rwa [heq', Equiv.swap_apply_right]
      · rwa [Equiv.swap_apply_of_ne_of_ne heq heq']
  other token htoken :=
    Equiv.swap_apply_of_ne_of_ne (fun heq => htoken (heq ▸ ha)) fun heq => htoken (heq ▸ hb)
  removed := id

/-- One renaming after another. -/
def andThen (ρ σ : Renaming) : Renaming where
  apply token := σ.apply (ρ.apply token)
  injective := σ.injective.comp ρ.injective
  plain token htoken := σ.plain _ (ρ.plain token htoken)
  other token htoken := by rw [ρ.other token htoken, σ.other token htoken]
  removed name := σ.removed (ρ.removed name)

/-- Any one-to-one choice of plain tokens for some plain tokens belongs to a renaming. -/
theorem exists_of_injOn {choice : Token → Token} (removed : String → String) (tokens : List Token)
    (hplain : ∀ token ∈ tokens, PlainToken token ∧ PlainToken (choice token))
    (hinjective : ∀ t ∈ tokens, ∀ u ∈ tokens, choice t = choice u → t = u) :
    ∃ ρ : Renaming, ρ.removed = removed ∧ ∀ token ∈ tokens, ρ.apply token = choice token := by
  induction tokens with
  | nil =>
    exact ⟨⟨id, Function.injective_id, fun _ h => h, fun _ _ => rfl, removed⟩, rfl,
      List.forall_mem_nil _⟩
  | cons first rest ih =>
    obtain ⟨ρ, hremoved, hρ⟩ := ih (fun token h => hplain token (List.mem_cons_of_mem first h))
      fun t ht u hu =>
        hinjective t (List.mem_cons_of_mem first ht) u (List.mem_cons_of_mem first hu)
    obtain ⟨hfirst, hchoice⟩ := hplain first List.mem_cons_self
    -- The token that the first one has so far and the one it is to have change places.
    refine ⟨ρ.andThen (swap (ρ.apply first) (choice first) (ρ.plain first hfirst) hchoice),
      hremoved, List.forall_mem_cons.mpr ⟨Equiv.swap_apply_left _ _, fun token htoken => ?_⟩⟩
    by_cases heq : token = first
    · rw [heq]
      exact Equiv.swap_apply_left _ _
    · have hkept : ρ.apply token ≠ choice first := fun hsame => heq <|
        hinjective token (List.mem_cons_of_mem first htoken) first List.mem_cons_self
          ((hρ token htoken).symm.trans hsame)
      rw [← hρ token htoken]
      exact Equiv.swap_apply_of_ne_of_ne (fun hsame => heq (ρ.injective hsame)) hkept

end Renaming

section Descriptions

variable (ρ : Renaming)

/-- A shown column, where tokens are renamed. -/
def SelectItem.rename (item : SelectItem) : SelectItem :=
  { item with field := ρ.lookup item.lookup }

/-- A grouping, where tokens are renamed. -/
def GroupItem.rename (item : GroupItem) : GroupItem :=
  { item with field := ρ.field item.field }

/-- A condition on groups, where tokens are renamed. -/
def HavingItem.rename (item : HavingItem) : HavingItem :=
  { item with field := ρ.expression item.field }

/-- An ordering, where tokens are renamed. -/
def OrderItem.rename (item : OrderItem) : OrderItem :=
  { item with field := ρ.lookup item.lookup }

/-- Clauses, where tokens are renamed. -/
def Clauses.rename (clauses : Clauses) : Clauses :=
  { clauses with
    columns := clauses.columns.map (SelectItem.rename ρ)
    removed := clauses.removed.map ρ.removed
    groups := clauses.groups.map (GroupItem.rename ρ)
    havings := clauses.havings.map (HavingItem.rename ρ)
    orders := clauses.orders.map (OrderItem.rename ρ) }

/-- The keys of a join, where tokens are renamed. A single pair of columns is taken as it is. -/
def JoinKeys.rename : JoinKeys → JoinKeys
  | .single left right => .single left right
  | .composite pairs => .composite (pairs.map fun p => (ρ.expression p.1, ρ.expression p.2))

/-- The field that something is said of, where tokens are renamed. -/
def Filter.renameField (field : String) : Filter → String
  | .compare comparison _ => if comparison.isEquality then ρ.field field else ρ.expression field
  | .compareField _ _ | .guard _ _ | .isNull | .isNotNull => ρ.expression field
  | .compareDate _ _ _ | .like _ _ | .member _ _ | .memberOf _ _ => ρ.field field

mutual

/-- A query, where tokens are renamed. -/
def Query.rename : Query → Query
  | ⟨own, token, clauses, conditions, joins, unions⟩ =>
    ⟨own, ρ.apply token, clauses.rename ρ, conditions.rename, renameJoins joins,
      renameBranches unions⟩

/-- Branches, where tokens are renamed. -/
def renameBranches : List UnionBranch → List UnionBranch
  | [] => []
  | ⟨kind, query⟩ :: rest => ⟨kind, query.rename⟩ :: renameBranches rest

/-- A group of conditions, where tokens are renamed. -/
def ConditionGroup.rename : ConditionGroup → ConditionGroup
  | ⟨conditions, groups⟩ => ⟨renameConditions conditions, renameSubgroups groups⟩

/-- Conditions, where tokens are renamed. -/
def renameConditions : List Condition → List Condition
  | [] => []
  | ⟨connector, field, filter⟩ :: rest =>
    ⟨connector, filter.renameField ρ field, filter.rename⟩ :: renameConditions rest

/-- What a condition says of its field, where tokens are renamed. -/
def Filter.rename : Filter → Filter
  | .compareField comparison other => .compareField comparison (ρ.expression other)
  | .memberOf test query => .memberOf test query.rename
  | filter => filter

/-- Groups, where tokens are renamed. -/
def renameSubgroups : List Subgroup → List Subgroup
  | [] => []
  | ⟨connector, group⟩ :: rest => ⟨connector, group.rename⟩ :: renameSubgroups rest

/-- Joins, where tokens are renamed. -/
def renameJoins : List Join → List Join
  | [] => []
  | ⟨keys, query, on⟩ :: rest => ⟨keys.rename ρ, query.rename, on.rename⟩ :: renameJoins rest

end

/-- An update, where tokens are renamed. -/
def Update.rename (u : Update) : Update :=
  { u with
    token := ρ.apply u.token
    joins := renameJoins ρ u.joins
    conditions := u.conditions.rename ρ
    orders := u.orders.map (OrderItem.rename ρ) }

/-- A deletion, where tokens are renamed. -/
def Delete.rename (d : Delete) : Delete :=
  { d with conditions := d.conditions.rename ρ }

/-- Collected tables, where tokens are renamed. -/
def renameReferences (references : List (Token × String)) : List (Token × String) :=
  references.map fun r => (ρ.apply r.1, r.2)

end Descriptions

section References

variable {ρ : Renaming}

/-- References are renamed list by list. -/
theorem renameReferences_append (a b : List (Token × String)) :
    renameReferences ρ (a ++ b) = renameReferences ρ a ++ renameReferences ρ b :=
  List.map_append

mutual

/-- The tables of a renamed query are those of the query, with renamed tokens. -/
theorem Query.references_rename : ∀ (q : Query) (table : String),
    (q.rename ρ).references table = renameReferences ρ (q.references table)
  | ⟨_, _, _, conditions, joins, unions⟩, table => by
    simp only [Query.rename, Query.references, conditions.references_rename,
      joinReferences_rename joins, branchReferences_rename unions, renameReferences_append]
    rfl

/-- The references of a group with renamed tokens are the renamed references. -/
theorem ConditionGroup.references_rename : ∀ g : ConditionGroup,
    (g.rename ρ).references = renameReferences ρ g.references
  | ⟨conditions, groups⟩ => by
    simp only [ConditionGroup.rename, ConditionGroup.references,
      conditionReferences_rename conditions, subgroupReferences_rename groups,
      renameReferences_append]

/-- So are those of conditions. -/
theorem conditionReferences_rename : ∀ conditions : List Condition,
    conditionReferences (renameConditions ρ conditions) =
      renameReferences ρ (conditionReferences conditions)
  | [] => by
    rw [renameConditions, conditionReferences]
    rfl
  | ⟨_, _, filter⟩ :: rest => by
    simp only [renameConditions, conditionReferences, filter.references_rename,
      conditionReferences_rename rest, renameReferences_append]

/-- So are those of a query inside a condition. -/
theorem Filter.references_rename : ∀ filter : Filter,
    (filter.rename ρ).references = renameReferences ρ filter.references
  | .memberOf _ query => by
    rw [Filter.rename, Filter.references, Filter.references, query.ownReferences_rename]
  | .compare _ _ | .compareField _ _ | .compareDate _ _ _ | .like _ _ | .member _ _ | .guard _ _
  | .isNull | .isNotNull => by
    rfl

/-- So are those of a query with a table of its own. -/
theorem Query.ownReferences_rename : ∀ q : Query,
    (q.rename ρ).ownReferences = renameReferences ρ q.ownReferences
  | ⟨some _, _, _, conditions, joins, unions⟩ => by
    simp only [Query.rename, Query.ownReferences, conditions.references_rename,
      joinReferences_rename joins, branchReferences_rename unions, renameReferences_append]
    rfl
  | ⟨none, _, _, _, _, _⟩ => by
    rw [Query.rename, Query.ownReferences, Query.ownReferences]
    rfl

/-- So are those of the groups in a group. -/
theorem subgroupReferences_rename : ∀ groups : List Subgroup,
    subgroupReferences (renameSubgroups ρ groups) = renameReferences ρ (subgroupReferences groups)
  | [] => by
    rw [renameSubgroups, subgroupReferences]
    rfl
  | ⟨_, group⟩ :: rest => by
    simp only [renameSubgroups, subgroupReferences, group.references_rename,
      subgroupReferences_rename rest, renameReferences_append]

/-- So are those of joins. -/
theorem joinReferences_rename : ∀ joins : List Join,
    joinReferences (renameJoins ρ joins) = renameReferences ρ (joinReferences joins)
  | [] => by
    rw [renameJoins, joinReferences]
    rfl
  | ⟨_, query, on⟩ :: rest => by
    simp only [renameJoins, joinReferences, query.ownReferences_rename, on.references_rename,
      joinReferences_rename rest, renameReferences_append]

/-- So are those of branches. -/
theorem branchReferences_rename : ∀ (branches : List UnionBranch) (table : String),
    branchReferences table (renameBranches ρ branches) =
      renameReferences ρ (branchReferences table branches)
  | [], _ => by
    rw [renameBranches, branchReferences]
    rfl
  | ⟨_, query⟩ :: rest, table => by
    simp only [renameBranches, branchReferences, query.branchReferences_rename,
      branchReferences_rename rest, renameReferences_append]

/-- So are those of a branch, which may take its table from outside. -/
theorem Query.branchReferences_rename : ∀ (q : Query) (table : String),
    (q.rename ρ).branchReferences table = renameReferences ρ (q.branchReferences table)
  | ⟨_, _, _, conditions, joins, unions⟩, table => by
    simp only [Query.rename, Query.branchReferences, conditions.references_rename,
      joinReferences_rename joins, DynamicSql.branchReferences_rename unions,
      renameReferences_append]
    rfl

end

/-- A renamed token has the table that the token has. -/
theorem lookup_renameReferences (references : List (Token × String)) (token : Token) :
    (renameReferences ρ references).lookup (ρ.apply token) = references.lookup token := by
  induction references with
  | nil => rfl
  | cons r rest ih =>
    have hsame : (ρ.apply token == ρ.apply r.1) = (token == r.1) := by
      rw [Bool.eq_iff_iff, beq_iff_eq, beq_iff_eq, ρ.injective.eq_iff]
    rw [renameReferences, List.map_cons, List.lookup_cons, List.lookup_cons, hsame]
    split
    · rfl
    · exact ih

end References

end DynamicSql
