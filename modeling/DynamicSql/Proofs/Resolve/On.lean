import DynamicSql.Proofs.Resolve.Joins
import DynamicSql.Proofs.Resolve.Meaning
import DynamicSql.Proofs.Sql.Keyed

/-!
# The meaning of the text behind `ON`

Where a join has conditions of its own behind `ON`, what stands there is one formula over its keys
and these conditions, in their order. They are written behind the keys without parentheses around
them all, so the keys are demanded together with the conditions if and only if no `OR` stands
between these (`JoinAttaches.readsOn`).
-/

namespace DynamicSql

/-- The place of the `ON` conditions of a join. -/
def PlacedJoin.onPlace (j : PlacedJoin) : Place :=
  ⟨j.join.query.table.getD "", some j.join.query.token, j.path.childAt "ofl" j.index⟩

/-- The `ON` conditions of a join and their groups, each behind its connector. -/
def PlacedJoin.onItems (j : PlacedJoin) : List (Connector × Formula Leaf) :=
  j.join.on.items j.onPlace

/-- All `ON` conditions of a join, at any depth. -/
def PlacedJoin.onLeaves (j : PlacedJoin) : List Leaf := j.join.on.leaves j.onPlace

namespace Context

open Fragment Resolve

/-- The text of a key or of an `ON` condition. -/
def keyedText (ctx : Context) : Keyed (Fragment × Fragment) Leaf → Fragment
  | .key k => k.1 ++ .text " = " :: k.2
  | .front leaf => (ctx.written leaf).trimStart
  | .further leaf => ctx.written leaf

/-- Whether the text of the `ON` conditions opens with a connector, as an expression from outside
may do. Then no other one is put in front of it. -/
def bringsConnector (ctx : Context) (j : PlacedJoin) : Bool :=
  (j.join.on.formula? j.onPlace).any fun F =>
    let opening := (F.text ctx.written).trimStart.outline ctx.root
    startsWith "AND " opening || startsWith "OR " opening

/-- Conditions that begin with a column bring no connector. -/
theorem bringsConnector_of_column {ctx : Context} {j : PlacedJoin} {connector : Connector}
    {first : Leaf} {rest : List (Connector × Formula Leaf)} {token : Token} {column : String}
    {f : Fragment} (hitems : j.onItems = (connector, .atom first) :: rest)
    (hfirst : ctx.written first = .column token column :: f) : ctx.bringsConnector j = false := by
  have hformula : j.join.on.formula? j.onPlace = some (.group (.atom first) rest) :=
    congrArg Formula.ofItems? hitems
  have htext : (Formula.group (.atom first) rest).text ctx.written =
      .column token column :: (f ++ Formula.restText ctx.written rest) := by
    rw [← List.cons_append, ← hfirst]
    rfl
  have houtline : (trimStart (.column token column :: (f ++ Formula.restText ctx.written rest))
      ).outline ctx.root = 't' :: '.' :: (column.toList ++
        (f ++ Formula.restText ctx.written rest).outline ctx.root) := by
    simp [trimStart, outline, pieceChars]
  rw [bringsConnector, hformula, Option.any_some, htext]
  dsimp only
  rw [houtline]
  rfl

/-- What stands behind `ON` of a join is the text of a formula over the keys of the join and its
`ON` conditions. -/
structure ReadsOn (ctx : Context) (names : List String) (aliases : Aliases) (j : PlacedJoin)
    (p : JoinParts) (G : Formula (Keyed (Fragment × Fragment) Leaf)) : Prop where
  parent : ctx.IsScope j.parent p.parent
  scope : ctx.IsScope (j.join.query.table, j.join.query.token) p.scope
  keys : ctx.KeySides p.parent p.scope j.join.keys p.keys
  distinct : j.onLeaves.Nodup
  writes : ∀ leaf ∈ j.onLeaves, ctx.Writes leaf
  atoms : ∃ first rest, j.onLeaves = first :: rest ∧
    G.atoms = p.keys.map .key ++ .front first :: rest.map .further
  text : p.on ctx.root = G.text ctx.keyedText
  guarded : (∀ agrees ρ, G.value (Keyed.holds agrees ρ) =
      (p.keys.all agrees && j.join.on.value ρ j.onPlace)) ↔ ∀ x ∈ j.onItems.tail, x.1 = .and
  bypassed : (∃ x ∈ j.onItems.tail, x.1 = .or) →
    G.value (Keyed.holds (fun _ => false) fun _ => true) = true
  read : ctx.PlainNames names →
    (∀ leaf ∈ j.onLeaves.head?, (ctx.written leaf).trimStart = ctx.written leaf) →
    readCondition ((p.on ctx.root).render ctx.root aliases).toList =
      G.map fun a => ((ctx.keyedText a).render ctx.root aliases).toList

variable {ctx : Context}

section Text

/-- Own conditions of a group stand in front of its groups, and the text behind `ON` begins with the
first of them. -/
theorem groupTerms_onText {g : ConditionGroup} {place : Place} {terms : List Term} {t : Trace}
    (hown : g.conditions ≠ [])
    (h : (ctx.groupTerms (ctx.scopeAt place) place.path g).Yields terms t) :
    ∃ connector leaf rest, g.items place = (connector, .atom leaf) :: rest ∧
      Term.onText terms = ctx.written leaf ++ Formula.restText ctx.written rest ∧
      ∀ leaf ∈ g.leaves place, ctx.Writes leaf := by
  obtain ⟨hwritten, hitemWrites⟩ := groupTerms_written g place h
  have hwrites : ∀ leaf ∈ g.leaves place, ctx.Writes leaf := by
    intro leaf hleaf
    rw [← g.atoms_items, List.mem_flatMap] at hleaf
    obtain ⟨x, hx, hleaf⟩ := hleaf
    exact hitemWrites x hx leaf hleaf
  obtain ⟨conditions, groups⟩ := g
  obtain ⟨⟨connector, field, filter⟩, others, rfl⟩ := List.exists_cons_of_ne_nil hown
  obtain ⟨leaves, t₁, inner, t₂, hleaves, -, rfl, -⟩ := groupTerms_yields h
  obtain ⟨text, u₁, further, u₂, -, -, rfl, -⟩ := conditionTerms_cons_yields hleaves
  have hitems : ConditionGroup.items place ⟨⟨connector, field, filter⟩ :: others, groups⟩ =
      (connector, .atom ⟨place, 0, field, filter⟩) ::
        (conditionItems place 1 others ++ subgroupItems place 0 groups) := rfl
  refine ⟨connector, _, _, hitems, ?_, hwrites⟩
  rw [hitems] at hwritten
  exact (List.cons.inj hwritten).2

/-- The extra conditions of a join are behind `AND`, without the white space at the front of the
first of them, unless they open with a connector. -/
theorem onTail_eq {root : String} {extra : List Term} {f g : Fragment} (hf : f.Inked)
    (hextra : Term.onText extra = f ++ g)
    (hopen : (startsWith "AND " ((f ++ g).trimStart.outline root) ||
      startsWith "OR " ((f ++ g).trimStart.outline root)) = false) :
    onTail root extra = .text " AND " :: (f.trimStart ++ g) := by
  have hfront : (f ++ g).trimStart = f.trimStart ++ g := by
    rw [trimStart_append, if_neg hf.trimStart_ne_nil]
  have hempty : (f.trimStart ++ g).isEmpty = false := by
    rw [List.isEmpty_eq_false_iff]
    exact List.append_ne_nil_of_left_ne_nil hf.trimStart_ne_nil g
  rw [hfront] at hopen
  unfold onTail
  dsimp only
  rw [hextra, hfront, hempty, hopen]
  rfl

/-- The text of the formula over keys and conditions: the keys behind `AND`, and the conditions
behind another one. -/
theorem text_keyed {keys : List (Fragment × Fragment)} {first : Leaf}
    {rest : List (Connector × Formula Leaf)} {G : Formula (Keyed (Fragment × Fragment) Leaf)}
    (hkeys : keys ≠ []) (hG : Formula.ofItems? (Keyed.items keys first rest) = some G) :
    G.text ctx.keyedText =
      Fragment.join " AND " (keys.map fun k => k.1 ++ .text " = " :: k.2) ++
        .text " AND " :: ((ctx.written first).trimStart ++ Formula.restText ctx.written rest) := by
  obtain ⟨k, others, rfl⟩ := List.exists_cons_of_ne_nil hkeys
  obtain rfl := Option.some.inj hG
  -- Behind the first key, each one follows an `AND`, and so do the conditions.
  have hothers : ∀ ks : List (Fragment × Fragment),
      Formula.restText ctx.keyedText (Keyed.keyItems ks) =
        (ks.map fun k => k.1 ++ .text " = " :: k.2).flatMap (Piece.text " AND " :: ·) := by
    intro ks
    induction ks with
    | nil => rfl
    | cons k ks ih =>
      rw [List.map_cons, List.flatMap_cons, ← ih]
      rfl
  have hfurther : Formula.restText ctx.keyedText (Formula.mapRest .further rest) =
      Formula.restText ctx.written rest := Formula.restText_map _ _ rest
  rw [List.map_cons, join_cons, ← hothers, List.append_assoc, ← hfurther]
  change (k.1 ++ .text " = " :: k.2) ++ Formula.restText ctx.keyedText (Keyed.keyItems others ++
    (.and, .atom (.front first)) :: Formula.mapRest .further rest) = _
  rw [Formula.restText_append]
  rfl

end Text

/-- A join has a key. -/
theorem KeySides.ne_nil {parent joined : Scope} {keys : JoinKeys}
    {sides : List (Fragment × Fragment)} (h : ctx.KeySides parent joined keys sides) :
    sides ≠ [] := by
  cases keys with
  | single left right =>
    obtain rfl := h
    exact List.cons_ne_nil _ _
  | composite pairs =>
    obtain ⟨hpairs, hsides⟩ := h
    rintro rfl
    cases hsides
    exact hpairs rfl

/-- The columns in the scope of a table are columns of the schema. -/
theorem IsScope.columns_subset {table : Option String × Token} {scope : Scope}
    (h : ctx.IsScope table scope) : scope.table.columns ⊆ ctx.schema.columns :=
  Schema.columns_subset h.described

/-- Where the names from outside are plain, each key of a join is an atom. -/
theorem KeySides.atomic {names : List String} {parent joined : Scope} {keys : JoinKeys}
    {sides : List (Fragment × Fragment)} (h : ctx.KeySides parent joined keys sides)
    (hplain : ctx.PlainNames names) (hnames : keys.texts ⊆ names)
    (hparent : parent.table.columns ⊆ ctx.schema.columns)
    (hjoined : joined.table.columns ⊆ ctx.schema.columns) :
    ∀ k ∈ sides, Always ctx.root Atomic (k.1 ++ .text " = " :: k.2) := by
  have hequality : Quiet "=".toList := by decide
  have htokens : ∀ r ∈ ctx.references, Balanced r.1.toList :=
    fun r hr => (hplain.references r hr).1
  cases keys with
  | single left right =>
    obtain rfl := h
    have hside : ∀ (token? : Option Token), ∀ column ∈ [left, right],
        Always ctx.root Quiet (qualified token? column) :=
      fun token? column hcolumn aliasOf halias _ =>
        (plain_qualified halias token? (hplain.names _ (hnames hcolumn)).plain).quiet
    refine List.forall_mem_singleton.mpr ?_
    exact (hside _ left (by simp)).operator (hside _ right (by simp)) hequality
  | composite pairs =>
    obtain ⟨-, hsides⟩ := h
    have hside : ∀ {scope : Scope} {text : String} {f : Fragment},
        scope.table.columns ⊆ ctx.schema.columns → ctx.schema.Admits text →
        (ctx.expression scope text).Gives f → Always ctx.root Quiet f := by
      rintro scope text f hscope htext ⟨t, hf⟩ aliasOf halias -
      exact (expression_plain hplain.schema htokens hscope halias htext f t hf).quiet
    have hpairs : ∀ pair ∈ pairs, ctx.schema.Admits pair.1 ∧ ctx.schema.Admits pair.2 := by
      intro pair hpair
      exact ⟨hplain.names _ (hnames (List.mem_flatMap.mpr ⟨pair, hpair, by simp⟩)),
        hplain.names _ (hnames (List.mem_flatMap.mpr ⟨pair, hpair, by simp⟩))⟩
    -- The names speak of all pairs at once, so the induction does without them.
    clear hnames
    induction hsides with
    | nil => exact List.forall_mem_nil _
    | cons hpair _ ih =>
      obtain ⟨⟨hleftText, hrightText⟩, hothers⟩ := List.forall_mem_cons.mp hpairs
      refine List.forall_mem_cons.mpr ⟨?_, ih hothers⟩
      exact (hside hparent hleftText hpair.1).operator (hside hjoined hrightText hpair.2) hequality

/-- Where the keys and the conditions are atoms, and the first condition has no white space at its
front, every leaf of the formula over them is written as an atom. -/
theorem keyedText_atomic {keys : List (Fragment × Fragment)} {first : Leaf} {others : List Leaf}
    (hkeys : ∀ k ∈ keys, Always ctx.root Atomic (k.1 ++ .text " = " :: k.2))
    (hleaves : ∀ leaf ∈ first :: others, Always ctx.root Atomic (ctx.written leaf))
    (hsolid : (ctx.written first).trimStart = ctx.written first) :
    ∀ a ∈ keys.map Keyed.key ++ .front first :: others.map .further,
      Always ctx.root Atomic (ctx.keyedText a) := by
  obtain ⟨hfirst, hothers⟩ := List.forall_mem_cons.mp hleaves
  refine List.forall_mem_append.mpr ⟨List.forall_mem_map.mpr hkeys, List.forall_mem_cons.mpr
    ⟨?_, List.forall_mem_map.mpr hothers⟩⟩
  change Always ctx.root Atomic (ctx.written first).trimStart
  rwa [hsolid]

/-- The conditions of a group are different leaves. -/
theorem leaves_nodup (g : ConditionGroup) (place : Place) : (g.leaves place).Nodup := by
  have hnodup := (g.leaves_fresh place).nodup.of_map
  rw [slots_leafPlaces] at hnodup
  exact hnodup.of_map

variable {names : List String} {aliases : Aliases} {extent : Extent} {j : PlacedJoin}
  {p : JoinParts}

/-- The `ON` conditions of a join are resolved at their place. -/
theorem JoinAttaches.scopeAt_onPlace (h : ctx.JoinAttaches extent j p) :
    ctx.scopeAt j.onPlace = p.scope := by
  have hname : j.join.query.table = some p.scope.name := h.scope.name
  have htoken : p.scope.token? = some j.join.query.token := h.scope.token
  have htable : j.onPlace.table = p.scope.name := by
    rw [PlacedJoin.onPlace, hname]
    rfl
  rw [scopeAt_eq j.onPlace (htable ▸ h.scope.described), htable]
  change (⟨p.scope.name, some j.join.query.token, p.scope.table⟩ : Scope) = p.scope
  rw [← htoken]

/-- What stands behind `ON` of a join with conditions of its own is a formula over its keys and
these conditions, unless they bring a connector. Where only `AND` stands between the conditions, it
holds if and only if all keys agree and the conditions hold; where `OR` does, it may hold without
any key. -/
theorem JoinAttaches.readsOn (h : ctx.JoinAttaches extent j p) (hown : j.join.on.conditions ≠ [])
    (hopen : ctx.bringsConnector j = false)
    (hnames : j.join.keys.texts ++ j.join.on.names ⊆ names)
    (hreferences : j.join.on.references ⊆ ctx.references)
    (hlettered : (p.on ctx.root).Lettered) : ∃ G, ctx.ReadsOn names aliases j p G := by
  obtain ⟨hkeyNames, honNames⟩ := List.append_subset.mp hnames
  obtain ⟨t, hextra⟩ := h.extra
  rw [← h.scopeAt_onPlace] at hextra
  obtain ⟨connector, first, rest, hitems, hextra, hwrites⟩ := groupTerms_onText hown hextra
  have hleaves : j.onLeaves = first :: Formula.restAtoms rest := by
    rw [PlacedJoin.onLeaves, ← j.join.on.atoms_items, hitems, Formula.restAtoms_eq]
    rfl
  have hmem : first ∈ j.onLeaves := hleaves ▸ List.mem_cons_self
  have hfirst : ctx.Writes first := hwrites first hmem
  have hformula : j.join.on.formula? j.onPlace = some (.group (.atom first) rest) := by
    rw [ConditionGroup.formula?, hitems]
    rfl
  have hkeys := h.keys.ne_nil
  -- The conditions stand behind the keys, so both make up one formula.
  obtain ⟨G, hG⟩ := exists_keyed p.keys first rest
  have htext : p.on ctx.root = G.text ctx.keyedText := by
    rw [bringsConnector, hformula] at hopen
    rw [JoinParts.on, onTail_eq hfirst.inked hextra hopen, text_keyed hkeys hG]
  have hvalue : ∀ ρ, j.join.on.value ρ j.onPlace =
      chain (ρ first) (Formula.restValues ρ rest) := by
    intro ρ
    rw [ConditionGroup.value_eq, hitems, Formula.restValues_eq]
    rfl
  have htail : j.onItems.tail = rest := by
    rw [PlacedJoin.onItems, hitems]
    rfl
  have hatoms := atoms_keyed hG
  refine ⟨G, h.parent, h.scope, h.keys, leaves_nodup _ _, hwrites, ⟨first, _, hleaves, hatoms⟩,
    htext, ?_, ?_, fun hplain hsolid => ?_⟩
  · simp only [hvalue, htail]
    exact value_keyed_iff hG hkeys
  · rw [htail]
    exact value_keyed_of_or hG
  · have hsides := h.keys.atomic hplain hkeyNames h.parent.columns_subset h.scope.columns_subset
    have hleaf : ∀ leaf ∈ j.onLeaves, Always ctx.root Atomic (ctx.written leaf) := by
      intro leaf hleaf
      have hwithin := (j.join.on.leaves_within j.onPlace leaf hleaf).mono honNames hreferences
      exact hplain.atomic hwithin (hwrites leaf hleaf)
    rw [hleaves] at hleaf hsolid
    have hatomic := keyedText_atomic hsides hleaf (hsolid first rfl)
    rw [← hatoms] at hatomic
    simp only [render, String.toList_ofList]
    rw [htext]
    refine Formula.readCondition_of_ofItems? ctx.keyedText hG fun a ha => ?_
    refine hatomic a ha aliases.text aliases.numbered fun slot hslot => hlettered slot ?_
    rw [htext]
    exact Formula.mem_text ha hslot

/-- The names and the tables of joins that are resolved, at any depth, are among those of all
joins. -/
theorem joined_within : ∀ (joins : List Join) {parent : Scope} {path : Path} {extent : Extent}
    {l : Nat} {added : Joined} {t : Trace},
    (ctx.joined parent path extent l joins).Yields added t → ∀ join ∈ nestedJoins joins,
      join.keys.texts ++ join.on.names ⊆ joinNames joins ∧
        join.on.references ⊆ joinReferences joins
  | [], _, _, _, _, _, _, _, _, hjoin => absurd hjoin List.not_mem_nil
  | ⟨keys, ⟨_, token, clauses, conditions, joins, unions⟩, on⟩ :: rest, _, _, _, _, _, _, h, join,
    hjoin => by
    obtain ⟨table, d, keyText, t₁, lists, t₂, extra, t₃, terms, t₄, inner, t₅, others, t₆, rfl, -,
      -, -, -, -, hinner, hothers, -, -⟩ := joined_cons_yields h
    rw [nestedJoins, Query.allJoins, List.cons_append, List.mem_cons, List.mem_append] at hjoin
    rw [joinNames, joinReferences, Query.names, Query.ownReferences]
    obtain rfl | hjoin | hjoin := hjoin
    · refine ⟨fun s hs => ?_, fun r hr => by simp [hr]⟩
      obtain hs | hs := List.mem_append.mp hs <;> simp [hs]
    · obtain ⟨hnames, hreferences⟩ := joined_within joins hinner join hjoin
      exact ⟨fun s hs => by simp [hnames hs], fun r hr => by simp [hreferences hr]⟩
    · obtain ⟨hnames, hreferences⟩ := joined_within rest hothers join hjoin
      exact ⟨List.subset_append_of_subset_right _ hnames,
        List.subset_append_of_subset_right _ hreferences⟩

/-- Every one of several joins that has an `ON` condition of its own, and whose `ON` conditions
bring no connector, stands in a fragment and is read as a formula over its keys and these
conditions. -/
def ReadsJoins (ctx : Context) (names : List String) (aliases : Aliases)
    (placed : List PlacedJoin) (f : Fragment) : Prop :=
  ∀ j ∈ placed, j.join.on.conditions ≠ [] → ctx.bringsConnector j = false →
    ∃ p G, ctx.ReadsOn names aliases j p G ∧ p.source ctx.root <:+: f

/-- All joins of a table are read, those of the joined queries among them. -/
theorem joined_readsJoins {joins : List Join} {parent : Scope} {table : Option String × Token}
    {path : Path} {l : Nat} {added : Joined} {t : Trace} (aliases : Aliases)
    (hparent : ctx.IsScope table parent)
    (h : (ctx.joined parent path extent l joins).Yields added t)
    (hnames : joinNames joins ⊆ names) (hreferences : joinReferences joins ⊆ ctx.references)
    (hlettered : added.text.Lettered) :
    ctx.ReadsJoins names aliases (placedJoins table path l joins) added.text := by
  intro j hj hown hopen
  obtain ⟨parts, hparts, rfl⟩ := joined_attaches joins hparent h
  obtain ⟨p, hp, hattaches⟩ := exists_of_forall₂_mem hparts.flip hj
  have hjoin : j.join ∈ nestedJoins joins :=
    map_join_placedJoins joins table path l ▸ List.mem_map_of_mem hj
  obtain ⟨hjoinNames, hjoinReferences⟩ := joined_within joins h j.join hjoin
  have hsource : p.source ctx.root <:+: parts.flatMap (JoinParts.source ctx.root) :=
    List.infix_of_mem_flatten (List.mem_map_of_mem hp)
  have hon : p.on ctx.root <:+: p.source ctx.root :=
    (infix_parens _).trans (List.infix_cons (List.infix_cons (List.infix_cons (List.infix_refl _))))
  obtain ⟨G, hG⟩ := hattaches.readsOn hown hopen (List.Subset.trans hjoinNames hnames)
    (List.Subset.trans hjoinReferences hreferences)
    fun slot hslot => hlettered slot ((hon.trans hsource).subset hslot)
  exact ⟨p, G, hG, hsource⟩

/-- Joins that are read in a part of a fragment are read in the fragment. -/
theorem ReadsJoins.mono {aliases : Aliases} {placed : List PlacedJoin} {f g : Fragment}
    (h : ctx.ReadsJoins names aliases placed f) (hfg : f <:+: g) :
    ctx.ReadsJoins names aliases placed g := by
  intro j hj hown hopen
  obtain ⟨p, G, hG, hsource⟩ := h j hj hown hopen
  exact ⟨p, G, hG, hsource.trans hfg⟩

end Context

end DynamicSql
