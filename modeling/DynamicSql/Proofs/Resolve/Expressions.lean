import DynamicSql.Proofs.Resolve.Fields
import DynamicSql.Proofs.Resolve.Succeeds
import DynamicSql.Proofs.Sql.Chars
import DynamicSql.Proofs.Text.Weave

/-!
# Expressions run by run

An expression is cut at its delimiters, each run between them is resolved by itself, and the
delimiters are put back (`expression_eq_weave`). Only references can fail, so the first one that
does gives the error of the whole expression (`expression_eq_error`), and an expression without
names of columns comes back as it is (`expression_unnamed`).
-/

namespace DynamicSql

open Text

namespace Resolve

variable {α β : Type}

/-- Two steps in a row fail when one of them does. -/
theorem bind_eq_error {x : Resolve α} {f : α → Resolve β} {e : Error} :
    (x >>= f).run = .error e ↔ x.run = .error e ∨ ∃ a t, x.Yields a t ∧ (f a).run = .error e := by
  unfold Yields
  rw [run_bind]
  cases x.run with
  | error e' => simp
  | ok result =>
    obtain ⟨a, t⟩ := result
    cases hf : (f a).run with
    | error e' => simp [hf]
    | ok result => simp [hf]

/-- What is made of a result changes no error. -/
theorem map_eq_error {x : Resolve α} {f : α → β} {e : Error} :
    (x >>= fun a => pure (f a)).run = .error e ↔ x.run = .error e := by
  rw [bind_eq_error]
  simp [run_pure]

/-- A list fails at the first of its members that fails. -/
theorem mapM_eq_error {f : α → Resolve β} {xs : List α} {e : Error} :
    (xs.mapM f).run = .error e ↔ ∃ front x back, xs = front ++ x :: back ∧
      (∀ y ∈ front, (f y).Succeeds) ∧ (f x).run = .error e := by
  induction xs with
  | nil => simp [run_pure]
  | cons x xs ih =>
    rw [List.mapM_cons, bind_eq_error]
    simp only [map_eq_error, ih]
    constructor
    · rintro (hx | ⟨y, t, hy, front, x', back, rfl, hfront, hx'⟩)
      · exact ⟨[], x, xs, rfl, List.forall_mem_nil _, hx⟩
      · exact ⟨x :: front, x', back, rfl, List.forall_mem_cons.mpr ⟨⟨y, t, hy⟩, hfront⟩, hx'⟩
    · rintro ⟨front, x', back, hxs, hfront, hx'⟩
      cases front with
      | nil =>
        obtain ⟨rfl, rfl⟩ := List.cons.inj hxs
        exact Or.inl hx'
      | cons first front =>
        obtain ⟨rfl, rfl⟩ := List.cons.inj hxs
        obtain ⟨⟨y, t, hy⟩, hfront⟩ := List.forall_mem_cons.mp hfront
        exact Or.inr ⟨y, t, hy, front, x', back, rfl, hfront, hx'⟩

/-- Parts that are resolved one after the other and put together may be put together in two
steps. -/
theorem mapM_flatten_append {f : α → Resolve Fragment} (xs ys : List α) :
    ((xs ++ ys).mapM f >>= fun parts => pure parts.flatten) = do
      let front ← xs.mapM f >>= fun parts => pure parts.flatten
      let back ← ys.mapM f >>= fun parts => pure parts.flatten
      return front ++ back := by
  rw [List.mapM_append]
  simp only [bind_assoc, pure_bind, List.flatten_append]

end Resolve

/-- The mark of a reference is in front of what is behind it. -/
theorem isSome_behindMark? {cs : List Char} :
    (behindMark? cs).isSome ↔ "#tas_".toList <+: cs := by
  constructor
  · intro h
    obtain ⟨rest, hrest⟩ := Option.isSome_iff_exists.mp h
    exact ⟨rest, (behindMark?_eq_some hrest).symm⟩
  · rintro ⟨rest, rfl⟩
    rfl

/-- A delimiter as a part of a statement. -/
def delimiterText (c : Char) : Fragment := .ofText (String.ofList [c])

/-- A run of an expression names a column: by the mark of a reference, or as a field or a column of
the table at hand. -/
def Scope.Names (scope : Scope) (cs : List Char) : Prop :=
  cs ≠ [] ∧ ("#tas_".toList <+: cs ∨ (scope.table.resolve? (String.ofList cs)).isSome)

instance (scope : Scope) (cs : List Char) : Decidable (scope.Names cs) :=
  inferInstanceAs (Decidable (_ ∧ _))

namespace Context

open Resolve

variable {ctx : Context} {scope : Scope}

/-- The text of a run without delimiters. A reference stands for its field, another name of a field
or a column of the table at hand for its column, and everything else for itself. -/
def run (ctx : Context) (scope : Scope) (cs : List Char) : Resolve Fragment :=
  if cs = [] then pure []
  else if "#tas_".toList <+: cs then ctx.field scope (String.ofList cs)
  else pure <|
    match scope.table.resolve? (String.ofList cs) with
    | some column => .qualified scope.token? column
    | none => .ofText (String.ofList cs)

/-- A word of an expression is a run that is not empty. -/
theorem lexeme_word {cs : List Char} (hne : cs ≠ []) :
    ctx.lexeme scope (.word cs) = ctx.run scope cs := by
  rw [lexeme, run, if_neg hne]
  by_cases hmark : "#tas_".toList <+: cs
  · rw [if_pos hmark, if_pos (isSome_behindMark?.mpr hmark)]
  · rw [if_neg hmark, if_neg (mt isSome_behindMark?.mp hmark)]
    cases scope.table.resolve? (String.ofList cs) <;> rfl

/-- The words and delimiters of an expression are its runs and delimiters; `word` is what has been
read of the first run, reversed. -/
theorem lexemesFrom_eq_weave (word cs : List Char) :
    ((lexemesFrom word cs).mapM (ctx.lexeme scope) >>= fun parts => pure parts.flatten) = do
      let parts ← (cs.splitOnPPrepend isDelimiter word).mapM (ctx.run scope)
      return weave parts ((cs.filter isDelimiter).map delimiterText) := by
  have hlast : ∀ word : List Char,
      ((lexemesFrom word []).mapM (ctx.lexeme scope) >>= fun parts => pure parts.flatten) =
        ctx.run scope word.reverse := by
    intro word
    rw [lexemesFrom]
    cases word with
    | nil => rfl
    | cons c word =>
      have hne : (c :: word).reverse ≠ [] := by simp
      rw [List.isEmpty_cons, if_neg Bool.false_ne_true, List.mapM_cons, lexeme_word hne]
      simp only [List.mapM_nil, bind_assoc, pure_bind, List.flatten_cons, List.flatten_nil,
        List.append_nil, bind_pure]
  -- The scan carries the word that it has read so far, back to front, as splitting does.
  induction cs generalizing word with
  | nil =>
    rw [hlast, List.splitOnPPrepend_nil, List.mapM_cons]
    simp only [List.mapM_nil, bind_assoc, pure_bind, List.filter_nil, List.map_nil,
      weave_singleton, bind_pure]
  | cons c cs ih =>
    cases hc : isDelimiter c with
    | true =>
      have hcut := lexemesFrom_append_delimiter hc word [] cs
      have hrest := congrArg (· >>= fun behind => pure (delimiterText c ++ behind)) (ih [])
      simp only [bind_assoc, pure_bind, List.splitOnPPrepend_nil_right] at hrest
      have hdelimiter : ctx.lexeme scope (.delimiter c) = pure (delimiterText c) := rfl
      rw [List.nil_append] at hcut
      rw [hcut, mapM_flatten_append, hlast, List.mapM_cons, hdelimiter,
        List.splitOnPPrepend_cons_pos hc, List.mapM_cons, List.filter_cons, if_pos hc,
        List.map_cons]
      simp only [bind_assoc, pure_bind, List.flatten_cons, hrest, weave_cons]
    | false =>
      rw [lexemesFrom, hc, if_neg Bool.false_ne_true, ih, List.splitOnPPrepend_cons_neg hc,
        List.filter_cons, hc, if_neg Bool.false_ne_true]

/-- An expression is woven from its resolved runs and its delimiters. -/
theorem expression_eq_weave (ctx : Context) (scope : Scope) (text : String) :
    ctx.expression scope text = do
      let parts ← (text.toList.splitOnP isDelimiter).mapM (ctx.run scope)
      return weave parts ((text.toList.filter isDelimiter).map delimiterText) :=
  lexemesFrom_eq_weave [] text.toList

/-- A run with the mark of a reference is resolved as a field. -/
theorem run_marked {cs : List Char} (h : "#tas_".toList <+: cs) :
    ctx.run scope cs = ctx.field scope (String.ofList cs) := by
  have hne : cs ≠ [] := by
    rintro rfl
    exact absurd h (by decide)
  rw [run, if_neg hne, if_pos h]

/-- Every other run is resolved to something, and nothing happens on the way. -/
theorem exists_run_eq_pure (ctx : Context) (scope : Scope) {cs : List Char}
    (h : ¬"#tas_".toList <+: cs) : ∃ f, ctx.run scope cs = pure f := by
  unfold run
  split
  · exact ⟨_, rfl⟩
  · exact ⟨_, rfl⟩

/-- Only a reference can fail. -/
theorem run_eq_error {cs : List Char} {e : Error} : (ctx.run scope cs).run = .error e ↔
    "#tas_".toList <+: cs ∧ (ctx.field scope (String.ofList cs)).run = .error e := by
  by_cases hmark : "#tas_".toList <+: cs
  · rw [run_marked hmark]
    exact (and_iff_right hmark).symm
  · obtain ⟨f, hf⟩ := exists_run_eq_pure ctx scope hmark
    rw [hf, run_pure]
    exact ⟨nofun, fun h => absurd h.1 hmark⟩

/-- A run of characters resolves unless it is a reference that does not. -/
theorem run_succeeds {cs : List Char} : (ctx.run scope cs).Succeeds ↔
    ("#tas_".toList <+: cs → (ctx.field scope (String.ofList cs)).Succeeds) := by
  by_cases hmark : "#tas_".toList <+: cs
  · rw [run_marked hmark]
    exact ⟨fun h _ => h, fun h => h hmark⟩
  · obtain ⟨f, hf⟩ := exists_run_eq_pure ctx scope hmark
    rw [hf, pure_succeeds]
    exact ⟨fun _ h => absurd h hmark, fun _ => trivial⟩

/-- The first reference that fails gives the error of the expression. -/
theorem expression_eq_error {text : String} {e : Error} :
    (ctx.expression scope text).run = .error e ↔
      ∃ front run back, text.toList.splitOnP isDelimiter = front ++ run :: back ∧
        (∀ earlier ∈ front, "#tas_".toList <+: earlier →
          (ctx.field scope (String.ofList earlier)).Succeeds) ∧
        "#tas_".toList <+: run ∧ (ctx.field scope (String.ofList run)).run = .error e := by
  rw [expression_eq_weave, map_eq_error, mapM_eq_error]
  simp only [run_succeeds, run_eq_error]

/-! ## Texts of expressions -/

/-- A fragment that is a text shows that text. -/
theorem chars_ofText {root : String} {aliasOf : Token → String} (cs : List Char) :
    (Fragment.ofText (String.ofList cs)).chars root aliasOf = cs := by
  rw [Fragment.ofText, Fragment.chars_cons, Fragment.chars_nil, Fragment.pieceChars,
    String.toList_ofList, List.append_nil]

/-- The characters of a woven fragment are woven from those of its parts. -/
theorem chars_weave (root : String) (aliasOf : Token → String) (parts : List Fragment)
    (delimiters : List Char) :
    Fragment.chars root aliasOf (weave parts (delimiters.map delimiterText)) =
      weave (parts.map (Fragment.chars root aliasOf)) (delimiters.map ([·])) := by
  have hseparators : (delimiters.map delimiterText).map (Fragment.chars root aliasOf) =
      delimiters.map ([·]) := by
    rw [List.map_map]
    exact List.map_congr_left fun c _ => chars_ofText [c]
  rw [map_weave Fragment.chars_nil (fun _ _ => Fragment.chars_append), hseparators]

/-- A run that names no column is kept. -/
theorem run_unnamed (ctx : Context) {cs : List Char} (h : ¬scope.Names cs) :
    ∃ f, ctx.run scope cs = pure f ∧ ∀ root aliasOf, f.chars root aliasOf = cs := by
  by_cases hempty : cs = []
  · exact ⟨[], if_pos hempty, fun _ _ => hempty.symm⟩
  · obtain ⟨hmark, hnone⟩ := not_or.mp fun hnamed => h ⟨hempty, hnamed⟩
    refine ⟨.ofText (String.ofList cs), ?_, fun _ _ => chars_ofText cs⟩
    rw [run, if_neg hempty, if_neg hmark, Option.not_isSome_iff_eq_none.mp hnone]

/-- Runs of characters that name nothing are kept as they are. -/
theorem mapM_run_unnamed (ctx : Context) {runs : List (List Char)}
    (h : ∀ cs ∈ runs, ¬scope.Names cs) :
    ∃ parts, runs.mapM (ctx.run scope) = pure parts ∧
      ∀ root aliasOf, parts.map (Fragment.chars root aliasOf) = runs := by
  induction runs with
  | nil => exact ⟨[], rfl, fun _ _ => rfl⟩
  | cons cs runs ih =>
    obtain ⟨hcs, hruns⟩ := List.forall_mem_cons.mp h
    obtain ⟨f, hf, hchars⟩ := run_unnamed ctx hcs
    obtain ⟨parts, hparts, hmap⟩ := ih hruns
    refine ⟨f :: parts, ?_, fun root aliasOf => ?_⟩
    · rw [List.mapM_cons, hf, hparts, pure_bind, pure_bind]
    · rw [List.map_cons, hchars, hmap]

/-- An expression without names of columns comes back as it is. -/
theorem expression_unnamed {text : String}
    (h : ∀ cs ∈ text.toList.splitOnP isDelimiter, ¬scope.Names cs) :
    ∃ f, ctx.expression scope text = pure f ∧
      ∀ root aliasOf, f.chars root aliasOf = text.toList := by
  obtain ⟨parts, hparts, hmap⟩ := mapM_run_unnamed ctx h
  refine ⟨weave parts ((text.toList.filter isDelimiter).map delimiterText), ?_,
    fun root aliasOf => ?_⟩
  · rw [expression_eq_weave, hparts, pure_bind]
  · rw [chars_weave, hmap, weave_splitOnP]

/-- What an expression yields is woven from the characters of its resolved runs and from its
delimiters. -/
theorem expression_chars {text : String} {f : Fragment} {t : Trace}
    (h : (ctx.expression scope text).Yields f t) :
    ∃ parts, ((text.toList.splitOnP isDelimiter).mapM (ctx.run scope)).Yields parts t ∧
      ∀ root aliasOf, f.chars root aliasOf = weave (parts.map (Fragment.chars root aliasOf))
        ((text.toList.filter isDelimiter).map ([·])) := by
  rw [expression_eq_weave, bind_yields] at h
  obtain ⟨parts, t₁, t₂, hparts, hf, rfl⟩ := h
  obtain ⟨rfl, rfl⟩ := pure_yields.mp hf
  refine ⟨parts, ?_, fun root aliasOf => chars_weave root aliasOf parts _⟩
  rwa [Trace.append_empty]

/-- An expression is cut into its longest runs without delimiters, each of them is resolved by
itself, and the delimiters are put back in their places. It fails at the first reference that
fails, with its error. An expression without names of columns comes back as it is, and where the
columns hold no delimiters, the delimiters of the result are those of the expression. -/
theorem expression_by_runs (ctx : Context) (scope : Scope) (text : String) :
    let runs := text.toList.splitOnP isDelimiter
    let delimiters := text.toList.filter isDelimiter
    (weave runs (delimiters.map ([·])) = text.toList ∧ runs.length = delimiters.length + 1 ∧
      ∀ cs ∈ runs, ∀ c ∈ cs, isDelimiter c = false) ∧
    (ctx.expression scope text = do
      let parts ← runs.mapM (ctx.run scope)
      return weave parts (delimiters.map delimiterText)) ∧
    (∀ f t, (ctx.expression scope text).Yields f t → ∃ parts,
      (runs.mapM (ctx.run scope)).Yields parts t ∧ ∀ root aliasOf,
        let texts := parts.map (Fragment.chars root aliasOf)
        f.chars root aliasOf = weave texts (delimiters.map ([·])) ∧
        ((∀ cs ∈ texts, ∀ c ∈ cs, isDelimiter c = false) →
          (f.chars root aliasOf).filter isDelimiter = delimiters)) ∧
    (∀ e, (ctx.expression scope text).run = .error e ↔
      ∃ front cs back, runs = front ++ cs :: back ∧
        (∀ earlier ∈ front, "#tas_".toList <+: earlier →
          (ctx.field scope (String.ofList earlier)).Succeeds) ∧
        "#tas_".toList <+: cs ∧ (ctx.field scope (String.ofList cs)).run = .error e) ∧
    ((∀ cs ∈ runs, ¬scope.Names cs) → ∃ f, ctx.expression scope text = pure f ∧
      ∀ root aliasOf, f.chars root aliasOf = text.toList) := by
  intro runs delimiters
  refine ⟨⟨weave_splitOnP _ _, length_splitOnP _ _, fun cs => eq_false_of_mem_splitOnP⟩,
    expression_eq_weave ctx scope text, fun f t h => ?_, fun e => expression_eq_error,
    expression_unnamed⟩
  obtain ⟨parts, hparts, hchars⟩ := expression_chars h
  refine ⟨parts, hparts, fun root aliasOf => ⟨hchars root aliasOf, fun hplain => ?_⟩⟩
  -- Without delimiters in the parts, those of the result are what stands between the parts.
  have hlength : (parts.map (Fragment.chars root aliasOf)).length =
      (delimiters.map ([·])).length + 1 := by
    rw [List.length_map, List.length_map, length_of_mapM_yields hparts]
    exact length_splitOnP _ _
  have hdelimiters : ∀ separator ∈ delimiters.map ([·]), ∀ c ∈ separator, isDelimiter c = true := by
    intro separator hseparator c hc
    obtain ⟨d, hd, rfl⟩ := List.mem_map.mp hseparator
    obtain rfl := List.mem_singleton.mp hc
    exact (List.mem_filter.mp hd).2
  rw [hchars, filter_weave hlength hplain hdelimiters, ← List.flatMap_def,
    List.flatMap_singleton']

/-- The name of a customer and a field of their orders are replaced, and the delimiters stay.
Without an alias, the first of two references that fail gives the error, and an expression without
columns is kept. -/
theorem shares_by_runs :
    let ctx : Context := ⟨⟨[("orders", ⟨[⟨"id", "id"⟩, ⟨"buyer", "customer_id"⟩]⟩)]⟩, .mySql,
      "request", [("o", "orders")]⟩
    let customers : Table := ⟨[⟨"id", "id"⟩, ⟨"name", "name"⟩]⟩
    (∃ f t,
      (ctx.expression ⟨"customer", some "c", customers⟩ "(name-é)/#tas_o.buyer, 2").Yields f t ∧
      f.chars "request" id = "(c.name-é)/o.customer_id, 2".toList ∧
      (f.chars "request" id).filter isDelimiter = "(-)/, ".toList) ∧
    (ctx.expression ⟨"customer", none, customers⟩ "name+#tas_o.id*#tas_o.nope-#tas_x.id").run =
      .error (.unknownField "nope" "orders") ∧
    ∃ f, ctx.expression ⟨"customer", none, customers⟩ "round(1, é)" = pure f ∧
      ∀ root aliasOf, f.chars root aliasOf = "round(1, é)".toList := by
  intro ctx customers
  obtain ⟨-, -, hchars, -, -⟩ :=
    expression_by_runs ctx ⟨"customer", some "c", customers⟩ "(name-é)/#tas_o.buyer, 2"
  obtain ⟨-, -, -, herror, -⟩ :=
    expression_by_runs ctx ⟨"customer", none, customers⟩ "name+#tas_o.id*#tas_o.nope-#tas_x.id"
  obtain ⟨-, -, -, -, hunnamed⟩ :=
    expression_by_runs ctx ⟨"customer", none, customers⟩ "round(1, é)"
  have hyields : (ctx.expression ⟨"customer", some "c", customers⟩
      "(name-é)/#tas_o.buyer, 2").Yields
      [.text "(", .column "c" "name", .text "-", .text "é", .text ")", .text "/",
        .column "o" "customer_id", .text ",", .text " ", .text "2"] ⟨["o"], []⟩ := by
    rfl
  have hruns : (("(name-é)/#tas_o.buyer, 2".toList.splitOnP isDelimiter).mapM
      (ctx.run ⟨"customer", some "c", customers⟩)).Yields
      [[], [.column "c" "name"], [.text "é"], [], [.column "o" "customer_id"], [], [.text "2"]]
      ⟨["o"], []⟩ := by
    rfl
  obtain ⟨parts, hparts, htexts⟩ := hchars _ _ hyields
  obtain ⟨hwoven, hdelimiters⟩ := htexts "request" id
  obtain ⟨rfl, -⟩ := Prod.mk.inj (Except.ok.inj (hparts.symm.trans hruns))
  refine ⟨⟨_, _, hyields, hwoven.trans (by decide +kernel), ?_⟩, ?_, hunnamed ?_⟩
  · refine (hdelimiters ?_).trans (by decide +kernel)
    simp only [← Bool.not_eq_true', ← List.all_eq_true]
    decide +kernel
  · refine (herror _).mpr ⟨["name".toList, "#tas_o.id".toList], "#tas_o.nope".toList,
      ["#tas_x.id".toList], by decide +kernel, ?_, by decide, rfl⟩
    intro earlier hearlier hmark
    obtain rfl | rfl : earlier = "name".toList ∨ earlier = "#tas_o.id".toList := by
      simpa using hearlier
    · exact absurd hmark (by decide)
    · exact ⟨[.column "o" "id"], ⟨["o"], []⟩, rfl⟩
  · decide +kernel

end Context

end DynamicSql
