import DynamicSql.Proofs.Resolve.Upheld
import DynamicSql.Proofs.Sql.Keys
import DynamicSql.Proofs.Sql.Words

/-!
# Resolved text is balanced

Where the names from outside are plain, a field resolves to plain text, and all that is resolved is
balanced. An expression is cut into words without regard to literals, so that a name is replaced
inside a literal, too: a column that is named there has to be balanced when it is read from inside a
literal (`Schema.Admits`).
-/

namespace DynamicSql

open Nesting

/-- Aliases that consist of a `t` and digits. -/
def Numbered (aliasOf : Token → String) : Prop :=
  ∀ token, ∃ digits : List Char, (aliasOf token).toList = 't' :: digits ∧ ∀ c ∈ digits, c.isDigit

/-- The aliases of a statement consist of a `t` and digits. -/
theorem Aliases.numbered (a : Aliases) : Numbered a.text := fun token =>
  ⟨Nat.toDigits 10 (a.tokens.idxOf token), by simp [text, Nat.toString_eq_repr],
    fun _ hc => Nat.isDigit_of_mem_toDigits (by decide) (by decide) hc⟩

/-- While the numbers of aliases are open, aliases are numbered, too. -/
theorem numbered_outline : Numbered fun _ => "t" := fun _ => ⟨[], by simp, List.forall_mem_nil _⟩

namespace Numbered

variable {aliasOf : Token → String} (h : Numbered aliasOf) (token : Token)

include h

/-- A numbered alias consists of letters and digits. -/
theorem isAlphanum {c : Char} (hc : c ∈ (aliasOf token).toList) : c.isAlphanum := by
  obtain ⟨digits, htext, hdigits⟩ := h token
  rw [htext] at hc
  obtain rfl | hc := List.mem_cons.mp hc
  · rfl
  · rw [Char.isAlphanum, hdigits c hc, Bool.or_true]

/-- A numbered alias leaves the nesting as it is. -/
theorem keeps (s : Nesting) : s.Keeps (aliasOf token).toList :=
  keeps_of_inert fun _ hc => inert_of_isAlphanum (h.isAlphanum token hc)

/-- A numbered alias is plain text. -/
theorem plain : Plain (aliasOf token).toList := by
  refine .of_word (fun c hc => ?_) (fun c hc => inert_of_isAlphanum (h.isAlphanum token hc)) ?_
  · simp [isWordChar, h.isAlphanum token hc]
  · obtain ⟨digits, htext, -⟩ := h token
    have hletter : 't'.toUpper = 'T' := rfl
    simp [htext, connector?, hletter]

end Numbered

/-- The names of a column are plain. -/
structure Column.Sound (c : Column) : Prop where
  field : Plain c.field.toList
  column : Plain c.column.toList

instance : DecidablePred Column.Sound := fun _ =>
  decidable_of_iff (Plain _ ∧ Plain _)
    ⟨fun ⟨hfield, hcolumn⟩ => ⟨hfield, hcolumn⟩, fun ⟨hfield, hcolumn⟩ => ⟨hfield, hcolumn⟩⟩

/-- The columns of all tables. -/
def Schema.columns (s : Schema) : List Column := s.tables.flatMap (·.2.columns)

/-- All columns of all tables are sound. -/
def Schema.Sound (s : Schema) : Prop := ∀ c ∈ s.columns, c.Sound

instance : DecidablePred Schema.Sound := fun s =>
  inferInstanceAs (Decidable (∀ c ∈ s.columns, c.Sound))

/-- The columns of a table are among those of the schema that the table is found in. -/
theorem Schema.columns_subset {s : Schema} {name : String} {t : Table}
    (ht : s.table name = .ok t) : t.columns ⊆ s.columns :=
  fun _ hc => List.mem_flatMap.mpr ⟨_, mem_of_table ht, hc⟩

/-- A column has a name: its field, or what the database calls it. -/
def Column.HasName (c : Column) (name : String) : Prop := c.field = name ∨ c.column = name

instance (c : Column) : DecidablePred c.HasName := fun _ => inferInstanceAs (Decidable (_ ∨ _))

/-- A sound column has plain names only. -/
theorem Column.Sound.plain {c : Column} (h : c.Sound) {name : String} (hname : c.HasName name) :
    Plain name.toList := by
  obtain rfl | rfl := hname
  · exact h.field
  · exact h.column

/-- The name that a word asks for: what stands behind the token if the word is a reference, and
otherwise the word itself. -/
def askedFor (word : String) : String := ((reference? word).map (·.2)).getD word

/-- Whether the end of a text is inside a literal, if its beginning is or is not. -/
def endsQuoted (quoted : Bool) (cs : List Char) : Bool :=
  cs.foldl (fun quoted c => quoted ^^ (c == '\'')) quoted

/-- The words of an expression that begin inside a literal. -/
def quotedWords (quoted : Bool) : List Lexeme → List (List Char)
  | [] => []
  | .delimiter _ :: rest => quotedWords quoted rest
  | .word cs :: rest => (if quoted then [cs] else []) ++ quotedWords (endsQuoted quoted cs) rest

/-- A word may begin inside a literal: all columns that it may name are balanced there. -/
def Schema.Quotable (s : Schema) (word : List Char) : Prop :=
  ∀ c ∈ s.columns, c.HasName (askedFor (String.ofList word)) → Keeps ⟨true, 0⟩ c.column.toList

instance (s : Schema) : DecidablePred s.Quotable := fun _ =>
  inferInstanceAs (Decidable (∀ c ∈ s.columns, _ → _))

/-- A text from outside that leaves the text around it as it is: it is plain, and no word in a
literal of it names a column that is unbalanced there. -/
structure Schema.Admits (s : Schema) (text : String) : Prop where
  plain : Plain text.toList
  quotable : ∀ word ∈ quotedWords false (lexemes text), s.Quotable word

instance (s : Schema) : DecidablePred s.Admits := fun _ =>
  decidable_of_iff (Plain _ ∧ ∀ word ∈ quotedWords false (lexemes _), s.Quotable word)
    ⟨fun ⟨hplain, hquotable⟩ => ⟨hplain, hquotable⟩,
      fun ⟨hplain, hquotable⟩ => ⟨hplain, hquotable⟩⟩

/-- Any character but a quotation mark leaves literals as they are. -/
theorem Nesting.read_quoted {s t : Nesting} {c : Char} (h : s.read c = some t) :
    t.quoted = (s.quoted ^^ (c == '\'')) := by
  obtain ⟨quoted, depth⟩ := s
  unfold read at h
  split at h
  case isTrue hquote =>
    obtain rfl := Option.some.inj h
    rw [hquote, beq_self_eq_true, Bool.xor_true]
  case isFalse hquote =>
    rw [beq_false_of_ne hquote, Bool.xor_false]
    dsimp only at h ⊢
    split at h
    · obtain rfl := Option.some.inj h
      rfl
    case isFalse hquoted =>
      rw [Bool.not_eq_true] at hquoted
      rw [hquoted]
      split at h
      · obtain rfl := Option.some.inj h
        rfl
      · split at h
        · split at h
          · cases h
          · obtain rfl := Option.some.inj h
            rfl
        · obtain rfl := Option.some.inj h
          exact hquoted

/-- Whether a text that is read on over ends inside a literal is told by its quotation marks. -/
theorem Nesting.readAll_quoted {s t : Nesting} {a : List Char} (h : s.readAll a = some t) :
    t.quoted = endsQuoted s.quoted a := by
  induction a generalizing s with
  | nil =>
    obtain rfl := Option.some.inj h
    rfl
  | cons c a ih =>
    rw [readAll_cons, Option.bind_eq_some_iff] at h
    obtain ⟨u, hu, hrest⟩ := h
    rw [ih hrest, read_quoted hu]
    rfl

/-- A text may stand for another one that begins inside a literal or outside: the text around it is
read as before, and no connector comes in. -/
structure StandsFor (quoted : Bool) (b a : List Char) : Prop where
  readAll : ∀ depth, Nesting.readAll ⟨quoted, depth⟩ b = Nesting.readAll ⟨quoted, depth⟩ a
  runs : (∀ w ∈ runs a, connector? w = none) → ∀ w ∈ runs b, connector? w = none

namespace StandsFor

variable {quoted : Bool} {a b a' b' : List Char}

/-- A text may stand for itself. -/
theorem refl (a : List Char) : StandsFor quoted a a := ⟨fun _ => rfl, id⟩

/-- What stands for a plain text is plain. -/
theorem plain (h : StandsFor false b a) (ha : Plain a) : Plain b :=
  ⟨(h.readAll 0).trans ha.1, h.runs ha.2⟩

/-- A sign keeps replaced texts apart. -/
theorem sign {c : Char} (h : StandsFor quoted b a) (h' : StandsFor (endsQuoted quoted a) b' a')
    (hc : isWordChar c = false) (hquote : c ≠ '\'') :
    StandsFor quoted (b ++ c :: b') (a ++ c :: a') := by
  constructor
  · intro depth
    rw [readAll_append, readAll_append, h.readAll]
    cases ht : Nesting.readAll ⟨quoted, depth⟩ a with
    | none => rfl
    | some t =>
      rw [Option.bind_some, Option.bind_some, readAll_cons, readAll_cons]
      cases hu : t.read c with
      | none => rfl
      | some u =>
        have hquoted : u.quoted = endsQuoted quoted a := by
          rw [read_quoted hu, readAll_quoted ht, beq_false_of_ne hquote, Bool.xor_false]
        have hread := h'.readAll u.depth
        rw [← hquoted] at hread
        exact hread
  · intro ha
    rw [runs_sign hc, List.forall_mem_append] at ha ⊢
    exact ⟨h.runs ha.1, h'.runs ha.2⟩

/-- Where both texts are balanced, only the runs matter. -/
theorem of_keeps (ha : ∀ depth, Keeps ⟨quoted, depth⟩ a) (hb : ∀ depth, Keeps ⟨quoted, depth⟩ b)
    (hplain : Plain b) : StandsFor quoted b a :=
  ⟨fun depth => (hb depth).trans (ha depth).symm, fun _ => hplain.2⟩

end StandsFor

/-- What separates the words of an expression separates runs, too. -/
theorem isWordChar_of_isDelimiter {c : Char} (h : isDelimiter c = true) : isWordChar c = false := by
  simp only [isDelimiter, Bool.or_eq_true, beq_iff_eq] at h
  obtain ((((((rfl | rfl) | rfl) | rfl) | rfl) | rfl) | rfl) | rfl := h <;> decide

namespace Context

open Fragment Resolve

variable {ctx : Context} {scope : Scope} {root : String} {aliasOf : Token → String}

section Qualified

variable (halias : Numbered aliasOf) (token? : Option Token) {column : String}

include halias

/-- Behind an alias, a column is balanced where it is balanced alone. -/
theorem keeps_qualified {s : Nesting} (hcolumn : s.Keeps column.toList) :
    s.Keeps ((qualified token? column).chars root aliasOf) := by
  cases token? with
  | none =>
    rw [qualified, chars_cons, chars_nil, List.append_nil]
    exact hcolumn
  | some token =>
    rw [qualified, chars_cons, chars_nil, List.append_nil, pieceChars]
    refine (halias.keeps token s).append ?_
    exact Keeps.append (a := ['.']) (keeps_of_inert (by simp [Inert])) hcolumn

/-- Behind an alias, a plain column is plain. -/
theorem plain_qualified (hcolumn : Plain column.toList) :
    Plain ((qualified token? column).chars root aliasOf) := by
  cases token? with
  | none =>
    rw [qualified, chars_cons, chars_nil, List.append_nil]
    exact hcolumn
  | some token =>
    rw [qualified, chars_cons, chars_nil, List.append_nil, pieceChars]
    exact (halias.plain token).sign hcolumn (by decide)

end Qualified

/-- A delimiter stays in front of what the rest of an expression resolves to. -/
theorem delimiter_standsFor {quoted : Bool} {c : Char} {lexemes : List Lexeme} {rest : List Char}
    (hrest : (lexemes.mapM (ctx.lexeme scope)).Ensures fun fs =>
      StandsFor quoted (chars root aliasOf fs.flatten) rest) :
    ((Lexeme.delimiter c :: lexemes).mapM (ctx.lexeme scope)).Ensures fun fs =>
      ∃ tail, chars root aliasOf fs.flatten = c :: tail ∧ StandsFor quoted tail rest := by
  rw [List.mapM_cons]
  refine .bind (.pure (P := (· = ofText (String.ofList [c]))) rfl) fun f hf => ?_
  refine .bind hrest fun fs hfs => .pure ⟨_, ?_, hfs⟩
  rw [hf, List.flatten_cons, chars_append, ofText, chars_cons, chars_nil, pieceChars,
    String.toList_ofList]
  rfl

section Scope

variable (hschema : ctx.schema.Sound) (htokens : ∀ r ∈ ctx.references, Balanced r.1.toList)
  (hscope : scope.table.columns ⊆ ctx.schema.columns)

include hschema htokens hscope

/-- A name that is found stands for a column that has this name, and it may be taken out of any text
where it is a word. -/
theorem findColumn_sound {name : String} : (ctx.findColumn scope name).Ensures fun found =>
    (∃ token?, ∃ c ∈ ctx.schema.columns, c.HasName (askedFor name) ∧
      found.fragment = qualified token? c.column) ∧
      Plain found.field.toList ∧
      ((∀ c ∈ name.toList, c ≠ '(' ∧ c ≠ ')') → ∀ s : Nesting, s.Keeps name.toList) := by
  intro found t h
  unfold findColumn at h
  -- A reference looks its table up by the token; any other name belongs to the own table.
  split at h
  case h_1 token field hreference =>
    obtain ⟨table, d, column, htable, hd, hcolumn, rfl⟩ := findReference_yields h
    have hsubset := Schema.columns_subset hd
    obtain ⟨c, hc, rfl, hname⟩ := Table.resolve?_eq_some hcolumn
    obtain ⟨shown, hshown, heq⟩ := Table.fieldFor_of_mem field hc
    have hasked : askedFor name = field := by rw [askedFor, hreference]; rfl
    refine ⟨⟨some token, c, hsubset hc, hasked.symm ▸ hname, rfl⟩, ?_, fun hparens s => ?_⟩
    · rw [heq]
      exact (hschema shown (hsubset hshown)).field
    · rw [reference?_toList hreference] at hparens ⊢
      simp only [List.forall_mem_append, List.forall_mem_cons] at hparens
      obtain ⟨-, htoken, -, hfieldParens⟩ := hparens
      have hmark : s.Keeps "#tas_".toList := keeps_of_inert (by simp [Inert])
      have hstop : s.Keeps ['.'] := keeps_of_inert (by simp [Inert])
      have hbalanced := htokens _ (mem_of_lookup htable)
      have hfield : Plain field.toList := (hschema c (hsubset hc)).plain hname
      exact hmark.append ((hbalanced.keeps_of_no_parens htoken s).append
        (hstop.append (hfield.1.keeps_of_no_parens hfieldParens s)))
  case h_2 hreference =>
    simp only [bind_yields, ofOption_yields, pure_yields] at h
    obtain ⟨column, _, _, ⟨hcolumn, -⟩, ⟨rfl, -⟩, -⟩ := h
    obtain ⟨c, hc, rfl, hname⟩ := Table.resolve?_eq_some hcolumn
    obtain ⟨shown, hshown, heq⟩ := Table.fieldFor_of_mem name hc
    have hasked : askedFor name = name := by rw [askedFor, hreference]; rfl
    have hplain : Plain name.toList := (hschema c (hscope hc)).plain hname
    refine ⟨⟨scope.token?, c, hscope hc, hasked.symm ▸ hname, rfl⟩, ?_, hplain.1.keeps_of_no_parens⟩
    rw [heq]
    exact (hschema shown (hscope hshown)).field

/-- A field resolves to plain text. -/
theorem field_plain {name : String} (halias : Numbered aliasOf) :
    (ctx.field scope name).Ensures fun f => Plain (f.chars root aliasOf) := by
  refine .bind (findColumn_sound hschema htokens hscope) fun found hfound => .pure ?_
  obtain ⟨⟨token?, c, hc, -, hfragment⟩, -⟩ := hfound
  rw [hfragment]
  exact plain_qualified halias token? (hschema c hc).column

/-- A word of an expression is kept, or replaced by what may stand for it. -/
theorem lexeme_standsFor {quoted : Bool} {cs : List Char} (halias : Numbered aliasOf)
    (hcs : ∀ c ∈ cs, isDelimiter c = false)
    (hquotable : quoted = true → ctx.schema.Quotable cs) :
    (ctx.lexeme scope (.word cs)).Ensures fun f =>
      StandsFor quoted (f.chars root aliasOf) cs := by
  have hparens : ∀ c ∈ cs, c ≠ '(' ∧ c ≠ ')' := by
    intro c hc
    constructor <;> rintro rfl <;> exact absurd (hcs _ hc) (by decide)
  have hreplaced : ∀ (token? : Option Token), ∀ c ∈ ctx.schema.columns,
      c.HasName (askedFor (String.ofList cs)) → (∀ s : Nesting, s.Keeps cs) →
      StandsFor quoted ((qualified token? c.column).chars root aliasOf) cs := by
    intro token? c hc hname hkeeps
    refine .of_keeps (fun depth => hkeeps _) (fun depth => keeps_qualified halias token? ?_)
      (plain_qualified halias token? (hschema c hc).column)
    -- Outside literals, any sound column is balanced; inside, those that the word may name are.
    cases quoted with
    | false => exact (hschema c hc).column.1.keeps depth
    | true => simpa using (hquotable rfl c hc hname).deepen depth
  dsimp only [lexeme]
  split
  · refine .bind (findColumn_sound hschema htokens hscope) fun found hfound => .pure ?_
    obtain ⟨⟨token?, c, hc, hasked, hfragment⟩, -, hname⟩ := hfound
    rw [String.toList_ofList] at hname
    rw [hfragment]
    exact hreplaced token? c hc hasked (hname hparens)
  case isFalse hmark =>
    split
    case h_1 column hcolumn =>
      obtain ⟨c, hc, rfl, hname⟩ := Table.resolve?_eq_some hcolumn
      have hplain := (hschema c (hscope hc)).plain hname
      rw [String.toList_ofList] at hplain
      have hasked : askedFor (String.ofList cs) = String.ofList cs := by
        rw [askedFor, reference?, String.toList_ofList, Option.not_isSome_iff_eq_none.mp hmark]
        rfl
      exact .pure (hreplaced scope.token? c (hscope hc) (hasked.symm ▸ hname)
        (hplain.1.keeps_of_no_parens hparens))
    case h_2 =>
      refine .pure ?_
      rw [ofText, chars_cons, chars_nil, List.append_nil, pieceChars, String.toList_ofList]
      exact .refl cs

/-- An expression resolves word by word; `word` is the word begun so far, reversed, and `quoted`
tells whether that word begins inside a literal. -/
theorem lexemes_standsFor (halias : Numbered aliasOf) (cs : List Char) {quoted : Bool}
    {word : List Char} (hword : ∀ c ∈ word, isDelimiter c = false)
    (hquotable : ∀ w ∈ quotedWords quoted (lexemesFrom word cs), ctx.schema.Quotable w) :
    ((lexemesFrom word cs).mapM (ctx.lexeme scope)).Ensures fun fs =>
      StandsFor quoted (chars root aliasOf fs.flatten) (word.reverse ++ cs) := by
  have hfirst : ∀ (quoted : Bool) {word : List Char}, (∀ c ∈ word, isDelimiter c = false) →
      (quoted = true → ctx.schema.Quotable word.reverse) →
      (ctx.lexeme scope (.word word.reverse)).Ensures fun f =>
        StandsFor quoted (f.chars root aliasOf) word.reverse :=
    fun _ _ hword => lexeme_standsFor hschema htokens hscope halias
      fun c hc => hword c (List.mem_reverse.mp hc)
  induction cs generalizing quoted word with
  | nil =>
    unfold lexemesFrom at hquotable ⊢
    split
    case isTrue hempty =>
      rw [List.isEmpty_iff.mp hempty, List.mapM_nil]
      exact .pure (.refl [])
    case isFalse hempty =>
      rw [if_neg hempty, quotedWords, List.forall_mem_append] at hquotable
      rw [List.mapM_cons, List.append_nil]
      refine .bind (hfirst quoted hword ?_) fun f hf => ?_
      · rintro rfl
        exact hquotable.1 _ (List.mem_singleton_self _)
      · rw [List.mapM_nil]
        refine .bind (.pure (P := (· = [])) rfl) fun fs hfs => .pure ?_
        rw [hfs, List.flatten_singleton]
        exact hf
  | cons c rest ih =>
    unfold lexemesFrom at hquotable ⊢
    split
    case isTrue hc =>
      have hsign := isWordChar_of_isDelimiter hc
      have hquote : c ≠ '\'' := by
        rintro rfl
        exact absurd hc (by decide)
      rw [if_pos hc] at hquotable
      split
      case isTrue hempty =>
        rw [if_pos hempty, quotedWords] at hquotable
        rw [List.isEmpty_iff.mp hempty]
        refine (delimiter_standsFor (c := c) (ih (List.forall_mem_nil _) hquotable)).mono
          fun fs hfs => ?_
        obtain ⟨tail, htail, hstands⟩ := hfs
        rw [htail]
        exact (StandsFor.refl []).sign hstands hsign hquote
      case isFalse hempty =>
        rw [if_neg hempty, quotedWords, quotedWords, List.forall_mem_append] at hquotable
        rw [List.mapM_cons]
        refine .bind (hfirst quoted hword ?_) fun f hf => ?_
        · rintro rfl
          exact hquotable.1 _ (List.mem_singleton_self _)
        -- Behind the delimiter, a new word begins.
        refine .bind (delimiter_standsFor (c := c) (ih (List.forall_mem_nil _) hquotable.2))
          fun fs hfs => .pure ?_
        obtain ⟨tail, htail, hstands⟩ := hfs
        rw [List.flatten_cons, chars_append, htail]
        exact hf.sign hstands hsign hquote
    case isFalse hc =>
      rw [if_neg hc] at hquotable
      have hword : ∀ d ∈ c :: word, isDelimiter d = false :=
        List.forall_mem_cons.mpr ⟨by simpa using hc, hword⟩
      have hall := ih hword hquotable
      rwa [List.reverse_cons, List.append_assoc] at hall

/-- An expression that may come from outside resolves to plain text. -/
theorem expression_plain {text : String} (halias : Numbered aliasOf)
    (htext : ctx.schema.Admits text) :
    (ctx.expression scope text).Ensures fun f => Plain (f.chars root aliasOf) :=
  .bind (lexemes_standsFor hschema htokens hscope halias text.toList (List.forall_mem_nil _)
    htext.quotable) fun _ hparts => .pure (hparts.plain htext.plain)

end Scope

end Context

end DynamicSql
