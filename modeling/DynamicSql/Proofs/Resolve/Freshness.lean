import DynamicSql.Proofs.Resolve.Landmarks
import DynamicSql.Proofs.Sql.Keys

/-!
# Places are used once

Every value of a description has a place of its own. Seen from a step of the way down, what lies
below it is told apart by the next step: by its tag where the parts of a query part ways, and by
its number where the conditions of a group or the joins of a table do. `Fresh` is the invariant
that carries this through the nesting.
-/

namespace DynamicSql

open Landmark (slots values)

/-- The places of the values among landmarks lie below a way, no two of them are reached by the
same way, and the next step to each is of a given kind. -/
structure Fresh (way : List Segment) (next : Segment → Prop) (ls : List Landmark) : Prop where
  nodup : ((slots ls).map Slot.way).Nodup
  below : ∀ s ∈ slots ls, ∃ g more, next g ∧ s.way = way ++ g :: more
  lettered : (∀ g ∈ way, g.Lettered) → ∀ s ∈ slots ls, s.path.Lettered

namespace Segment

/-- A step with one of several tags and one of several numbers. -/
def Among (tags : List String) (numbers : Option Nat → Prop) (g : Segment) : Prop :=
  g.tag ∈ tags ∧ numbers g.number?

/-- A step with one of several tags. -/
abbrev Any (tags : List String) : Segment → Prop := Among tags fun _ => True

/-- A step with one of several tags and a given number. -/
abbrev Nth (tags : List String) (n : Nat) : Segment → Prop := Among tags (· = some n)

/-- A step with one of several tags and a number that is not below a given one. -/
abbrev From (tags : List String) (n : Nat) : Segment → Prop :=
  Among tags fun m => ∃ k, n ≤ k ∧ m = some k

/-- A number alone is a step without a tag. -/
theorem ofNumber_nth (tags : List String) (n : Nat) : Nth ("" :: tags) n (ofNumber n) :=
  ⟨List.mem_cons_self, rfl⟩

end Segment

namespace Fresh

variable {way : List Segment} {next other : Segment → Prop} {a b : List Landmark}

/-- Tables have no places. -/
theorem of_slots_eq_nil (h : slots a = []) : Fresh way next a where
  nodup := by simp [h]
  below := by simp [h]
  lettered := by simp [h]

/-- Places that begin with steps of one kind begin with steps of every wider kind. -/
theorem mono (h : Fresh way next a) (hnext : ∀ g, next g → other g) : Fresh way other a where
  nodup := h.nodup
  below s hs := by
    obtain ⟨g, more, hg, hway⟩ := h.below s hs
    exact ⟨g, more, hnext g hg, hway⟩
  lettered := h.lettered

/-- The order of landmarks does not matter for their places. -/
theorem perm (h : Fresh way next a) (hab : a.Perm b) : Fresh way next b := by
  have hslots : (slots a).Perm (slots b) := (hab.filterMap _).map _
  exact ⟨(hslots.map _).nodup_iff.mp h.nodup, fun s hs => h.below s (hslots.mem_iff.mpr hs),
    fun hw s hs => h.lettered hw s (hslots.mem_iff.mpr hs)⟩

/-- What goes on by different steps stays apart. -/
theorem append (h : Fresh way next a) (k : Fresh way other b)
    (hapart : ∀ g, next g → ¬other g) : Fresh way (fun g => next g ∨ other g) (a ++ b) where
  nodup := by
    rw [Landmark.slots_append, List.map_append]
    refine h.nodup.append k.nodup fun w hwa hwb => ?_
    obtain ⟨s, hs, rfl⟩ := List.mem_map.mp hwa
    obtain ⟨s', hs', hways⟩ := List.mem_map.mp hwb
    obtain ⟨g, more, hg, hway⟩ := h.below s hs
    obtain ⟨g', more', hg', hway'⟩ := k.below s' hs'
    -- Two ways below the same one differ where they go on.
    rw [hway, hway'] at hways
    obtain ⟨rfl, -⟩ := List.cons.inj (List.append_cancel_left hways)
    exact hapart g' hg hg'
  below s hs := by
    rw [Landmark.slots_append, List.mem_append] at hs
    obtain hs | hs := hs
    · obtain ⟨g, more, hg, hway⟩ := h.below s hs
      exact ⟨g, more, .inl hg, hway⟩
    · obtain ⟨g, more, hg, hway⟩ := k.below s hs
      exact ⟨g, more, .inr hg, hway⟩
  lettered hw s hs := by
    rw [Landmark.slots_append, List.mem_append] at hs
    exact hs.elim (h.lettered hw s) (k.lettered hw s)

/-- Seen from one step further up, everything lies behind one step. -/
theorem up {g : Segment} (hg : g.Lettered) (h : Fresh (way ++ [g]) next a) :
    Fresh way (· = g) a where
  nodup := h.nodup
  below s hs := by
    obtain ⟨g', more, -, hway⟩ := h.below s hs
    exact ⟨g, g' :: more, rfl, by rw [hway, List.append_assoc]; rfl⟩
  lettered hw := h.lettered fun x hx => (List.mem_append.mp hx).elim (hw x) fun hx =>
    List.mem_singleton.mp hx ▸ hg

/-- Seen from a path, everything below a child lies behind its tag. -/
theorem ofChild {path : Path} {tag : String} {tags : List String} (hmem : tag ∈ tags)
    (hletters : tag.toList.all Char.isAlpha) (h : Fresh (path.child tag).way next a) :
    Fresh path.way (Segment.Any tags) a := by
  have hg : Segment.Lettered ⟨tag, none⟩ := List.all_eq_true.mp hletters
  exact (up hg h).mono fun _ heq => heq ▸ ⟨hmem, trivial⟩

/-- Seen from a path, everything below a numbered child lies behind its tag and its number. -/
theorem ofChildAt {path : Path} {tag : String} {tags : List String} {n : Nat} (hmem : tag ∈ tags)
    (hletters : tag.toList.all Char.isAlpha) (h : Fresh (path.childAt tag n).way next a) :
    Fresh path.way (Segment.Nth tags n) a := by
  have hg : Segment.Lettered ⟨tag, some n⟩ := List.all_eq_true.mp hletters
  exact (up hg h).mono fun _ heq => heq ▸ ⟨hmem, rfl⟩

/-- A table in front has no place. -/
theorem table_cons (token : Token) (h : Fresh way next a) : Fresh way next (.table token :: a) :=
  ⟨h.nodup, h.below, h.lettered⟩

/-- Two parts that part ways by their tags. -/
theorem appendTags {tags others : List String} {numbers : Option Nat → Prop}
    (h : Fresh way (Segment.Among tags numbers) a) (k : Fresh way (Segment.Among others numbers) b)
    (hapart : ∀ tag ∈ tags, tag ∉ others) :
    Fresh way (Segment.Among (tags ++ others) numbers) (a ++ b) := by
  refine (h.append k fun g hg hg' => hapart g.tag hg.1 hg'.1).mono ?_
  rintro g (⟨htag, hn⟩ | ⟨htag, hn⟩)
  · exact ⟨List.mem_append_left _ htag, hn⟩
  · exact ⟨List.mem_append_right _ htag, hn⟩

/-- The first of several numbered parts stays apart from those behind it. -/
theorem appendFrom {tags : List String} {n : Nat} (h : Fresh way (Segment.Nth tags n) a)
    (k : Fresh way (Segment.From tags (n + 1)) b) :
    Fresh way (Segment.From tags n) (a ++ b) := by
  refine (h.append k ?_).mono ?_
  · rintro g ⟨-, hn⟩ ⟨-, m, hm, hm'⟩
    rw [hn, Option.some.injEq] at hm'
    omega
  · rintro g (⟨htag, hn⟩ | ⟨htag, m, hm, hm'⟩)
    · exact ⟨htag, n, Nat.le_refl n, hn⟩
    · exact ⟨htag, m, Nat.le_of_succ_le hm, hm'⟩

/-- Values whose places are numbered on behind a way. -/
theorem numbered {α : Type} {f : α × Nat → Landmark} {value : α → Value} (slot : Nat → Slot)
    (xs : List α) (hf : ∀ x n, f (x, n) = .value (slot n) (value x))
    (hway : ∀ n, (slot n).way = way ++ [.ofNumber n])
    (hlettered : (∀ g ∈ way, g.Lettered) → ∀ n, (slot n).path.Lettered) :
    Fresh way (Segment.From [""] 0) (xs.zipIdx.map f) := by
  -- Places with numbers differ in their numbers, and those follow one another.
  have hslots : slots (xs.zipIdx.map f) = (List.range xs.length).map slot := by
    unfold Landmark.slots Landmark.values
    rw [List.filterMap_map, List.range_eq_range', ← List.zipIdx_map_snd 0 xs, List.map_map]
    simp [Function.comp_def, hf, Landmark.value?]
  refine ⟨?_, ?_, ?_⟩
  · rw [hslots, List.map_map]
    refine List.nodup_range.map fun m n hmn => ?_
    simp only [Function.comp_apply, hway, List.append_cancel_left_eq, List.cons.injEq,
      and_true] at hmn
    simpa [Segment.ofNumber] using hmn
  · intro s hs
    rw [hslots, List.mem_map] at hs
    obtain ⟨n, -, rfl⟩ := hs
    exact ⟨.ofNumber n, [], ⟨List.mem_singleton_self _, n, Nat.zero_le n, rfl⟩, hway n⟩
  · intro hw s hs
    rw [hslots, List.mem_map] at hs
    obtain ⟨n, -, rfl⟩ := hs
    exact hlettered hw n

/-- A single value at a place of its own. -/
theorem single {slot : Slot} {v : Value} {g : Segment} (hway : slot.way = way ++ [g])
    (hlettered : (∀ g ∈ way, g.Lettered) → slot.path.Lettered) (hg : next g) :
    Fresh way next [.value slot v] where
  nodup := List.nodup_singleton _
  below s hs := by
    obtain rfl := List.mem_singleton.mp hs
    exact ⟨g, [], hg, hway⟩
  lettered hw s hs := by
    obtain rfl := List.mem_singleton.mp hs
    exact hlettered hw

end Fresh

/-- The way to a path leads through its segments. -/
theorem Path.lettered_of_way {p : Path} (h : ∀ g ∈ p.way, g.Lettered) : p.Lettered :=
  fun g hg => h g (List.mem_cons_of_mem _ hg)

/-- Conditions on groups have places of their own, told apart by their numbers. -/
theorem havingLandmarks_fresh (grouped : Bool) (path : Path) (havings : List HavingItem) :
    Fresh path.way (Segment.From [""] 0) (havingLandmarks grouped path havings) := by
  unfold havingLandmarks
  split
  · exact .numbered (fun i => ⟨.comparedGroup, path, i, none⟩) havings (fun _ _ => rfl)
      (fun _ => rfl) fun h _ => Path.lettered_of_way h
  · exact .of_slots_eq_nil rfl

mutual

/-- The conditions, the joins and the conditions on groups of a query part ways at once. -/
theorem Query.landmarks_fresh : ∀ (q : Query) (path : Path),
    Fresh path.way (Segment.Any ["cl", "tl", "gh"]) (q.landmarks path)
  | ⟨own, token, clauses, conditions, joins, unions⟩, path => by
    have hjoins : Fresh path.way (Segment.Any ["cl"]) _ :=
      (joinLandmarks_fresh joins true (path.child "cl") 0).ofChild (by decide) (by decide)
    have hconditions : Fresh path.way (Segment.Any ["tl"]) _ :=
      (conditions.landmarks_fresh (path.child "tl")).ofChild (by decide) (by decide)
    have hhavings : Fresh path.way (Segment.Any ["gh"]) _ :=
      (havingLandmarks_fresh true (path.child "gh") clauses.havings).ofChild (by decide) (by decide)
    have hall := (hjoins.appendTags hconditions (by decide)).appendTags hhavings (by decide)
    exact (hall.table_cons token).perm
      (Query.landmarks_perm own token clauses conditions joins unions path).symm

/-- The branches of a union are told apart by their numbers. -/
theorem branchLandmarks_fresh : ∀ (branches : List UnionBranch) (path : Path) (k : Nat),
    Fresh path.way (Segment.From ["un"] k) (branchLandmarks path k branches)
  | [], _, _ => .of_slots_eq_nil rfl
  | ⟨_, q⟩ :: rest, path, k => by
    rw [branchLandmarks]
    have hfirst := q.landmarks_fresh (path.childAt "un" k)
    exact (hfirst.ofChildAt (by decide) (by decide)).appendFrom
      (branchLandmarks_fresh rest path (k + 1))

/-- The conditions of a group have places of their own, those in groups and queries inside it among
them. -/
theorem ConditionGroup.landmarks_fresh : ∀ (g : ConditionGroup) (path : Path),
    Fresh path.way (Segment.Any ["", "s", "ot"]) (g.landmarks path)
  | ⟨conditions, groups⟩, path => by
    have hconditions : Fresh path.way (Segment.Any ["", "s"]) _ :=
      (conditionLandmarks_fresh conditions path 0).mono fun _ hg => ⟨hg.1, trivial⟩
    have hgroups : Fresh path.way (Segment.Any ["ot"]) _ :=
      (subgroupLandmarks_fresh groups path 0).mono fun _ hg => ⟨hg.1, trivial⟩
    rw [ConditionGroup.landmarks]
    exact hconditions.appendTags hgroups (by decide)

/-- The conditions of a group are told apart by their numbers. -/
theorem conditionLandmarks_fresh : ∀ (conditions : List Condition) (path : Path) (i : Nat),
    Fresh path.way (Segment.From ["", "s"] i) (conditionLandmarks path i conditions)
  | [], _, _ => .of_slots_eq_nil rfl
  | ⟨_, _, filter⟩ :: rest, path, i => by
    rw [conditionLandmarks]
    exact (filter.landmarks_fresh path i).appendFrom (conditionLandmarks_fresh rest path (i + 1))

/-- What a condition binds lies behind its number, and what its query binds behind a step of its
own. -/
theorem Filter.landmarks_fresh : ∀ (filter : Filter) (path : Path) (i : Nat),
    Fresh path.way (Segment.Nth ["", "s"] i) (filter.landmarks path i)
  | .compare _ _, _, _ | .compareDate _ _ _, _, _ | .guard _ _, _, _ | .like _ _, _, _ =>
    .single rfl Path.lettered_of_way (Segment.ofNumber_nth ["s"] _)
  | .member _ v, path, i => by
    have hway : ∀ n, (⟨.compared, path, i, some n⟩ : Slot).way =
        path.way ++ [.ofNumber i] ++ [.ofNumber n] := fun n => by simp [Slot.way]
    have hlettered : (∀ g ∈ path.way ++ [.ofNumber i], g.Lettered) → ∀ _ : Nat, path.Lettered :=
      fun h _ => Path.lettered_of_way fun g hg => h g (List.mem_append_left _ hg)
    rw [Filter.landmarks]
    refine Fresh.mono (.up (Segment.ofNumber_lettered i)
      (.numbered _ (v.members?.getD []) (fun _ _ => rfl) hway hlettered)) ?_
    exact fun _ hg => hg ▸ Segment.ofNumber_nth ["s"] i
  | .memberOf _ ⟨own, token, clauses, conditions, joins, unions⟩, path, i => by
    have hquery : Fresh (path.childAt "s" i).way (Segment.Any ["cl", "tl", "gh"]) _ :=
      Query.landmarks_fresh ⟨own, token, clauses, conditions, joins, unions⟩ (path.childAt "s" i)
    have hbranches : Fresh (path.childAt "s" i).way (Segment.Any ["un"]) _ :=
      (branchLandmarks_fresh unions (path.childAt "s" i) 0).mono fun _ hg => ⟨hg.1, trivial⟩
    rw [Filter.landmarks]
    exact (hquery.appendTags hbranches (by decide)).ofChildAt (by decide) (by decide)
  | .compareField _ _, _, _ | .isNull, _, _ | .isNotNull, _, _ => .of_slots_eq_nil rfl

/-- The groups of a group are told apart by their numbers. -/
theorem subgroupLandmarks_fresh : ∀ (groups : List Subgroup) (path : Path) (j : Nat),
    Fresh path.way (Segment.From ["ot"] j) (subgroupLandmarks path j groups)
  | [], _, _ => .of_slots_eq_nil rfl
  | ⟨_, group⟩ :: rest, path, j => by
    rw [subgroupLandmarks]
    have hfirst := group.landmarks_fresh (path.childAt "ot" j)
    exact (hfirst.ofChildAt (by decide) (by decide)).appendFrom
      (subgroupLandmarks_fresh rest path (j + 1))

/-- The joins of a table are told apart by their numbers, and the parts of a join by their tags. -/
theorem joinLandmarks_fresh : ∀ (joins : List Join) (grouped : Bool) (path : Path) (l : Nat),
    Fresh path.way (Segment.From ["ofl", "fl", "gh", "j"] l)
      (joinLandmarks grouped path l joins).all
  | [], _, _, _ => .of_slots_eq_nil rfl
  | ⟨_, ⟨_, token, clauses, conditions, joins, _⟩, on⟩ :: rest, grouped, path, l => by
    have hon : Fresh path.way (Segment.Nth ["ofl"] l) _ :=
      (on.landmarks_fresh (path.childAt "ofl" l)).ofChildAt (by decide) (by decide)
    have hconditions : Fresh path.way (Segment.Nth ["fl"] l) _ :=
      (conditions.landmarks_fresh (path.childAt "fl" l)).ofChildAt (by decide) (by decide)
    have hhavings : Fresh path.way (Segment.Nth ["gh"] l) _ :=
      (havingLandmarks_fresh grouped (path.childAt "gh" l) clauses.havings).ofChildAt (by decide)
        (by decide)
    have hinner : Fresh path.way (Segment.Nth ["j"] l) _ :=
      (joinLandmarks_fresh joins grouped (path.childAt "j" l) 0).ofChildAt (by decide) (by decide)
    have hown := (hon.appendTags hconditions (by decide)).appendTags hhavings (by decide)
    have hall := (hown.table_cons token).appendTags hinner (by decide)
    have hrest := joinLandmarks_fresh rest grouped path (l + 1)
    rw [joinLandmarks]
    exact (hall.appendFrom hrest).perm
      (((JoinLandmarks.all_append_perm ⟨_ :: _, _, _⟩ _).append_right _).trans
        (JoinLandmarks.all_append_perm _ _))

end

/-- A query with its unions uses every place once. -/
theorem Query.allLandmarks_fresh (q : Query) (path : Path) :
    Fresh path.way (Segment.Any ["cl", "tl", "gh", "un"]) (q.allLandmarks path) :=
  (q.landmarks_fresh path).appendTags
    ((branchLandmarks_fresh q.unions path 0).mono fun _ hg => ⟨hg.1, trivial⟩) (by decide)

namespace Fresh

variable {next : Segment → Prop} {ls : List Landmark}

/-- Seen from outside, everything lies behind the number of the statement. -/
theorem ofRoot {n : Nat} (h : Fresh (Path.ofRoot n).way next ls) :
    Fresh [] (Segment.Nth [""] n) ls := by
  have hroot : Fresh ([] ++ [.ofNumber n]) next ls := h
  exact (hroot.up (Segment.ofNumber_lettered n)).mono fun _ hg => hg ▸ Segment.ofNumber_nth [] n

/-- Where every place is used once, so is every key of a set. -/
theorem keys_nodup (h : Fresh [] next ls) :
    ((slots ls).map fun s => (s.purpose.space, s.key)).Nodup := by
  have hlettered := h.lettered (List.forall_mem_nil _)
  refine h.nodup.of_map.map_on fun s hs t ht heq => ?_
  obtain ⟨hspace, hkey⟩ := Prod.mk.inj heq
  exact List.inj_on_of_nodup_map h.nodup hs ht
    (Slot.way_eq_of_key_eq (hlettered s hs) (hlettered t ht) hspace hkey)

end Fresh

end DynamicSql
