import DynamicSql.Proofs.Resolve.Renumber
import DynamicSql.Proofs.Statement.Placeholders

/-!
# Members of a batch

A batch of updates is as good as its members one by one. It fails with the error of the first
member that fails alone, and otherwise its text consists of the texts of its members, each under a
number of its own, and it binds the values of all members side by side (`updateBatch_isolated`).
Nothing is carried over from one member to the next, not even aliases.
-/

namespace DynamicSql

/-- Two steps in a row fail when one of them does. -/
theorem except_bind_eq_error {α β : Type} {x : Except Error α} {f : α → Except Error β}
    {e : Error} : (x >>= f) = .error e ↔ x = .error e ∨ ∃ a, x = .ok a ∧ f a = .error e := by
  cases x with
  | error e' =>
    have hbind : (Except.error e' >>= f : Except Error β) = .error e' := rfl
    simp [hbind]
  | ok a =>
    have hbind : (Except.ok a >>= f : Except Error β) = f a := rfl
    simp [hbind]

/-- A list of steps fails in its first step, or behind it. -/
theorem except_mapM_cons_eq_error {α β : Type} {f : α → Except Error β} {x : α} {xs : List α}
    {e : Error} : (x :: xs).mapM f = .error e ↔
      f x = .error e ∨ (∃ b, f x = .ok b) ∧ xs.mapM f = .error e := by
  have hpure : ∀ bs : List β, (pure bs : Except Error (List β)) ≠ .error e := by
    intro bs h
    cases h
  simp only [List.mapM_cons, except_bind_eq_error, hpure, and_false, exists_false, or_false,
    exists_and_right]

/-- A list of steps fails with the error of the first step that fails. -/
theorem except_mapM_eq_error {α β : Type} {f : α → Except Error β} {xs : List α} {e : Error} :
    xs.mapM f = .error e ↔ ∃ former x rest, xs = former ++ x :: rest ∧
      (∀ y ∈ former, ∃ b, f y = .ok b) ∧ f x = .error e := by
  induction xs with
  | nil =>
    constructor
    · intro h
      cases h
    · rintro ⟨former, x, rest, hxs, -⟩
      simp at hxs
  | cons x xs ih =>
    rw [except_mapM_cons_eq_error, ih]
    constructor
    · rintro (hx | ⟨hx, former, y, rest, rfl, hformer, hy⟩)
      · exact ⟨[], x, xs, rfl, List.forall_mem_nil _, hx⟩
      · exact ⟨x :: former, y, rest, rfl, List.forall_mem_cons.mpr ⟨hx, hformer⟩, hy⟩
    · rintro ⟨former, y, rest, hxs, hformer, hy⟩
      cases former with
      | nil =>
        obtain ⟨rfl, -⟩ := List.cons.inj hxs
        exact .inl hy
      | cons z former =>
        obtain ⟨rfl, rfl⟩ := List.cons.inj hxs
        obtain ⟨hx, hformer⟩ := List.forall_mem_cons.mp hformer
        exact .inr ⟨hx, former, y, rest, rfl, hformer, hy⟩

/-- A value is put beside the others under a key that is not there yet. -/
theorem KeyMap.insert_perm {α : Type} {key : String} {value : α} {m : KeyMap α}
    (h : key ∉ m.map (·.1)) : (m.insert key value).Perm ((key, value) :: m) := by
  induction m with
  | nil => exact .refl _
  | cons entry rest ih =>
    obtain ⟨k, v⟩ := entry
    rw [List.map_cons, List.mem_cons, not_or] at h
    unfold insert
    split
    · exact .refl _
    · rw [if_neg h.1]
      exact ((ih h.2).cons (k, v)).trans (.swap _ _ _)

namespace Params

/-- The entries of one set among bound values. -/
def entries (space : Namespace) (bound : List (Slot × Value)) : List (String × Value) :=
  (bound.filter fun b => b.1.purpose.space = space).map fun b => (b.1.key, b.2)

/-- Where no key of a set is used twice, a set consists of the values that were bound in it. -/
theorem set_ofBound_perm {bound : List (Slot × Value)} (space : Namespace)
    (hnodup : (bound.map (·.1.shown)).Nodup) :
    ((ofBound bound).set space).Perm (entries space bound) := by
  induction bound using List.reverseRecOn with
  | nil => cases space <;> exact .refl _
  | append_singleton bound last ih =>
    obtain ⟨slot, v⟩ := last
    rw [List.map_append, List.nodup_append] at hnodup
    have hset := ih hnodup.1
    -- The last value meets no former one under its key, so it takes no place from another.
    have hfresh : slot.key ∉ (ofBound bound).keys slot.purpose.space := by
      rw [mem_keys_ofBound]
      intro hmem
      exact hnodup.2.2 _ hmem _ (List.mem_singleton_self _) rfl
    unfold ofBound entries at hset ⊢
    rw [List.foldl_append, List.foldl_cons, List.foldl_nil, set_insert, List.filter_append,
      List.map_append]
    by_cases hspace : space = slot.purpose.space
    · subst hspace
      rw [if_pos rfl]
      refine (KeyMap.insert_perm hfresh).trans ((hset.cons _).trans ?_)
      simpa using (List.perm_append_singleton _ _).symm
    · rw [if_neg hspace]
      simpa [Ne.symm hspace] using hset

/-- A value that is bound under a key changes no positional one. -/
theorem positional_insert (p : Params) (space : Namespace) (key : String) (v : Value) :
    (p.insert space key v).positional = p.positional := by
  cases space <;> rfl

/-- Values that are bound under keys are not positional. -/
theorem positional_ofBound (bound : List (Slot × Value)) : (ofBound bound).positional = [] := by
  induction bound using List.reverseRecOn with
  | nil => rfl
  | append_singleton bound last ih =>
    unfold ofBound at ih ⊢
    rw [List.foldl_append, List.foldl_cons, List.foldl_nil, positional_insert, ih]

/-- Where no key is used twice among bound values, none is used twice in a set. -/
theorem keys_nodup {bound : List (Slot × Value)} (hnodup : (bound.map (·.1.shown)).Nodup)
    (space : Namespace) : ((ofBound bound).keys space).Nodup := by
  have hperm : ((ofBound bound).keys space).Perm ((entries space bound).map (·.1)) :=
    (set_ofBound_perm space hnodup).map _
  have hshown : ((entries space bound).map (·.1)).map (space, ·) =
      (bound.filter fun b => b.1.purpose.space = space).map (·.1.shown) := by
    unfold entries
    rw [List.map_map, List.map_map]
    apply List.map_congr_left
    intro b hb
    have hspace : b.1.purpose.space = space := by simpa using (List.mem_filter.mp hb).2
    rw [← hspace]
    rfl
  rw [hperm.nodup_iff]
  apply List.Nodup.of_map (space, ·)
  rw [hshown]
  exact hnodup.sublist (List.filter_sublist.map _)

/-- The entries of several lists of values are those of each. -/
theorem entries_flatMap {α : Type} (space : Namespace) (xs : List α)
    (f : α → List (Slot × Value)) :
    entries space (xs.flatMap f) = xs.flatMap fun x => entries space (f x) := by
  unfold entries
  rw [List.filter_flatMap, List.map_flatMap]

end Params

/-- The draft of the statement with another number. -/
def Draft.renumber (n : Nat) (draft : Draft) : Draft := (draft.1.renumber n, draft.2.renumber n)

/-- The places that a draft shows or binds values at. -/
def Draft.places (draft : Draft) : List Slot := draft.1.slots ++ draft.2.bound.map (·.1)

/-- The values of a statement with another number are bound to renumbered keys. -/
theorem Params.entries_renumber (space : Namespace) (n : Nat) (t : Trace) :
    entries space (t.renumber n).bound =
      (entries space t.bound).map fun entry => (renumberKey n entry.1, entry.2) := by
  have hspace : ((fun b : Slot × Value => decide (b.1.purpose.space = space)) ∘
      fun b : Slot × Value => (b.1.renumber n, b.2)) =
      fun b => decide (b.1.purpose.space = space) := rfl
  unfold entries Trace.renumber
  rw [List.filter_map, hspace, List.map_map, List.map_map]
  apply List.map_congr_left
  intro b _
  exact congrArg (·, b.2) (b.1.key_renumber n)

/-- The places of a draft get another number each. -/
theorem Draft.places_renumber (n : Nat) (draft : Draft) :
    (draft.renumber n).places = draft.places.map (Slot.renumber n) := by
  have hslot : ∀ piece : Piece, (piece.renumber n).slot? = piece.slot?.map (Slot.renumber n) := by
    intro piece
    cases piece <;> rfl
  have hslots : (draft.1.renumber n).slots = draft.1.slots.map (Slot.renumber n) := by
    unfold Fragment.slots Fragment.renumber
    rw [List.filterMap_map, List.map_filterMap]
    exact congrArg (List.filterMap · draft.1) (funext hslot)
  unfold places renumber
  rw [List.map_append, hslots]
  simp [Trace.renumber]

/-- The keys of a draft that is left alone by the number zero show this number, and under another
number they show that one in its place. -/
theorem Draft.exists_keys {draft : Draft} (h : draft.renumber 0 = draft) {slot : Slot}
    (hslot : slot ∈ draft.places) :
    ∃ rest, slot.key = slot.purpose.stem ++ "0_" ++ rest ∧
      ∀ n, (slot.renumber n).key = slot.purpose.stem ++ toString n ++ "_" ++ rest := by
  have hplaces := draft.places_renumber 0
  rw [h] at hplaces
  obtain ⟨slot', -, rfl⟩ := List.mem_map.mp (hplaces ▸ hslot)
  obtain ⟨rest, hrest⟩ := slot'.exists_key_renumber
  have hzero : "0_" = toString 0 ++ "_" := by decide
  refine ⟨rest, ?_, hrest⟩
  rw [hrest 0, hzero, ← String.append_assoc]
  rfl

namespace Compiler

variable {c : Compiler} {table : String}

/-- A draft of the statement with one number, and of that with another one. -/
theorem run_renumber {n : Nat} {x y : Resolve Fragment}
    (h : Resolve.Renumbered n (Fragment.renumber n) x y) :
    y.run = x.run.map (Draft.renumber n) := by
  have hmapped : x.run.map (Draft.renumber n) = y.run.map id := by
    refine Matched.map_eq h fun draft other hboth => ?_
    obtain ⟨hfragment, htrace⟩ := hboth
    exact (Prod.ext hfragment htrace : other = draft.renumber n).symm
  rw [hmapped, Except.map_id, id]

/-- An update is the same under every number. -/
theorem updateAt_renumber (u : Update) (m n : Nat) :
    c.updateAt u table n = (c.updateAt u table m).map (Draft.renumber n) := by
  have hrun : ∀ ctx : Context, (ctx.update u table (.ofRoot n)).run =
      (ctx.update u table (.ofRoot m)).run.map (Draft.renumber n) := fun ctx =>
    run_renumber (ctx.update_renumber u table (.ofRoot m))
  rw [updateAt_eq, updateAt_eq]
  cases c.checkUpdate u table with
  | error e => rfl
  | ok _ =>
    cases c.context (updateReferences u table) with
    | error e => rfl
    | ok ctx => exact hrun ctx

/-- Several updates are resolved one by one, as if each were alone, and then numbered. -/
theorem mapM_updateAt (us : List Update) (k : Nat) :
    ((us.zipIdx k).mapM fun x => c.updateAt x.1 table x.2) =
      (us.mapM fun u => c.updateAt u table 0).map fun drafts =>
        (drafts.zipIdx k).map fun x => x.1.renumber x.2 := by
  induction us generalizing k with
  | nil => rfl
  | cons u us ih =>
    rw [List.zipIdx_cons, List.mapM_cons, List.mapM_cons, ih, updateAt_renumber u 0 k]
    cases c.updateAt u table 0 with
    | error e => rfl
    | ok draft =>
      cases us.mapM fun u => c.updateAt u table 0 with
      | error e => rfl
      | ok drafts => rfl

/-- An update that is compiled alone. Its keys show the number zero, and under another number they
show that one in its place. -/
structure Alone (c : Compiler) (table : String) (u : Update) (draft : Draft) : Prop where
  made : c.updateAt u table 0 = .ok draft
  statement : c.update u table = .ok (c.finish draft)
  keys : ∀ slot ∈ draft.places, ∃ rest, slot.key = slot.purpose.stem ++ "0_" ++ rest ∧
    ∀ n, (slot.renumber n).key = slot.purpose.stem ++ toString n ++ "_" ++ rest

/-- An update that is made under the number zero is compiled alone. -/
theorem alone_of_updateAt {u : Update} {draft : Draft} (h : c.updateAt u table 0 = .ok draft) :
    c.Alone table u draft := by
  have hzero : draft.renumber 0 = draft := by
    have hself : c.updateAt u table 0 = (c.updateAt u table 0).map (Draft.renumber 0) :=
      updateAt_renumber u 0 0
    rw [h] at hself
    exact (Except.ok.inj hself).symm
  refine ⟨h, ?_, fun slot hslot => Draft.exists_keys hzero hslot⟩
  rw [update, h]
  rfl

/-- An update is made just if its draft is. -/
theorem update_eq_ok {u : Update} {s : Statement} :
    c.update u table = .ok s ↔ ∃ draft, c.updateAt u table 0 = .ok draft ∧ s = c.finish draft := by
  unfold update
  rw [except_bind_eq_ok]
  simp only [pure, Except.pure, Except.ok.injEq, eq_comm]

/-- An update is compiled when its draft can be made. -/
theorem exists_update_eq_ok {u : Update} :
    (∃ s, c.update u table = .ok s) ↔ ∃ draft, c.updateAt u table 0 = .ok draft := by
  constructor
  · rintro ⟨s, hs⟩
    obtain ⟨draft, hdraft, -⟩ := update_eq_ok.mp hs
    exact ⟨draft, hdraft⟩
  · rintro ⟨draft, hdraft⟩
    exact ⟨c.finish draft, update_eq_ok.mpr ⟨draft, hdraft, rfl⟩⟩

/-- An update fails as its draft does. -/
theorem update_eq_error {u : Update} {e : Error} :
    c.update u table = .error e ↔ c.updateAt u table 0 = .error e := by
  unfold update
  rw [except_bind_eq_error]
  simp [pure, Except.pure]

/-- The drafts of a batch are those of its members, each under its number. -/
theorem batchDrafts_eq (us : List Update) :
    c.batchDrafts us table =
      if us = [] then .error (.emptyBatch table)
      else (us.mapM fun u => c.updateAt u table 0).map fun drafts =>
        drafts.zipIdx.map fun x => x.1.renumber x.2 := by
  unfold batchDrafts
  rw [mapM_updateAt]
  cases us <;> rfl

/-- What a batch is made of, where it is made. -/
theorem renumbered_of_updateBatch {us : List Update} {s : Statement}
    (h : c.updateBatch us table = .ok s) :
    us ≠ [] ∧ ∃ drafts numbered,
      List.Forall₂ (fun u draft => c.updateAt u table 0 = .ok draft) us drafts ∧
      c.batchDrafts us table = .ok numbered ∧
      numbered = drafts.zipIdx.map (fun x => x.1.renumber x.2) ∧
      s = ⟨String.join (numbered.map fun draft => c.render draft ++ ";"),
        .ofBound (numbered.flatMap (·.2.bound))⟩ := by
  obtain ⟨numbered, hnumbered, hs⟩ := except_bind_eq_ok.mp h
  have hbatch := hnumbered
  rw [batchDrafts_eq] at hbatch
  split at hbatch
  case isTrue => cases hbatch
  case isFalse hne =>
    cases hdrafts : us.mapM fun u => c.updateAt u table 0 with
    | error e => simp [hdrafts, Except.map] at hbatch
    | ok drafts =>
      rw [hdrafts] at hbatch
      exact ⟨hne, drafts, numbered, except_mapM_eq_ok.mp hdrafts, hnumbered,
        (Except.ok.inj hbatch).symm, (Except.ok.inj hs).symm⟩

/-- A batch fails when it has no members, or with the error of the first member that fails
alone. -/
theorem updateBatch_eq_error {us : List Update} {e : Error} :
    c.updateBatch us table = .error e ↔ us = [] ∧ e = .emptyBatch table ∨
      ∃ former u rest, us = former ++ u :: rest ∧
        (∀ v ∈ former, ∃ s, c.update v table = .ok s) ∧ c.update u table = .error e := by
  have hbatch : c.updateBatch us table = .error e ↔ c.batchDrafts us table = .error e := by
    unfold updateBatch
    rw [except_bind_eq_error]
    simp [pure, Except.pure]
  simp only [exists_update_eq_ok, update_eq_error]
  rw [hbatch, batchDrafts_eq, ← except_mapM_eq_error]
  cases us with
  | nil => simp [pure, Except.pure, eq_comm]
  | cons u us =>
    rw [if_neg (List.cons_ne_nil u us)]
    cases (u :: us).mapM fun u => c.updateAt u table 0 <;> simp [Except.map]

/-- A batch succeeds when it has members and each of them succeeds alone. -/
theorem exists_updateBatch_eq_ok {us : List Update} :
    (∃ s, c.updateBatch us table = .ok s) ↔
      us ≠ [] ∧ ∀ u ∈ us, ∃ s, c.update u table = .ok s := by
  constructor
  · rintro ⟨s, hs⟩
    obtain ⟨hne, drafts, -, hdrafts, -⟩ := renumbered_of_updateBatch hs
    refine ⟨hne, fun u hu => ?_⟩
    obtain ⟨draft, -, hdraft⟩ := exists_of_forall₂_mem hdrafts.flip hu
    exact exists_update_eq_ok.mpr ⟨draft, hdraft⟩
  · rintro ⟨hne, hmembers⟩
    cases hbatch : c.updateBatch us table with
    | ok s => exact ⟨s, rfl⟩
    | error e =>
      rcases updateBatch_eq_error.mp hbatch with ⟨hnil, -⟩ | ⟨former, u, rest, rfl, -, hu⟩
      · exact absurd hnil hne
      · obtain ⟨s, hs⟩ := hmembers u (by simp)
        cases hs.symm.trans hu

/-- The keys that one update binds values to are its own. -/
theorem updateAt_bound_nodup {u : Update} {draft : Draft}
    (h : c.updateAt u table 0 = .ok draft) : (draft.2.bound.map (·.1.shown)).Nodup := by
  have hscripts : c.scripts table (.update u) = .ok [script draft] := by
    rw [scripts, h]
    rfl
  exact draft_bound_nodup hscripts

/-- So are those of all updates of a batch. -/
theorem batchDrafts_bound_nodup {us : List Update} {numbered : List Draft}
    (h : c.batchDrafts us table = .ok numbered) :
    ((numbered.flatMap (·.2.bound)).map (·.1.shown)).Nodup := by
  have hscripts : c.scripts table (.updateBatch us) = .ok [numbered.map (·, ";")] := by
    rw [scripts, h]
    rfl
  have hnodup := bound_nodup hscripts (List.mem_singleton_self _)
  rwa [bound, List.flatMap_map] at hnodup

/-- One set of the values of a batch consists of the values of its members, under their
numbers. -/
theorem set_numbered_perm {us : List Update} {drafts : List Draft}
    (hdrafts : List.Forall₂ (fun u draft => c.updateAt u table 0 = .ok draft) us drafts)
    (hbound : ((drafts.zipIdx.flatMap fun x => (x.1.renumber x.2).2.bound).map (·.1.shown)).Nodup)
    (space : Namespace) :
    ((Params.ofBound (drafts.zipIdx.flatMap fun x => (x.1.renumber x.2).2.bound)).set space).Perm
      (drafts.zipIdx.flatMap fun x => ((c.finish x.1).params.set space).map
        fun entry => (renumberKey x.2 entry.1, entry.2)) := by
  apply (Params.set_ofBound_perm space hbound).trans
  rw [Params.entries_flatMap]
  apply List.Perm.flatMap_left
  intro x hx
  obtain ⟨u, -, hu⟩ := exists_of_forall₂_mem hdrafts (List.fst_mem_of_mem_zipIdx hx)
  have hentries : Params.entries space (x.1.renumber x.2).2.bound =
      (Params.entries space x.1.2.bound).map fun entry => (renumberKey x.2 entry.1, entry.2) :=
    Params.entries_renumber space x.2 x.1.2
  rw [hentries]
  exact ((Params.set_ofBound_perm space (updateAt_bound_nodup hu)).map _).symm

/-- The members of a batch do not touch each other. A batch is compiled when it has members and
each of them is compiled alone; otherwise the error is that of the first member that fails alone.
Its text consists of the texts that the members have alone, up to the numbers in their keys, each
closed by a semicolon, and its values are those of its members under these keys, each set of them
with keys of its own. -/
theorem updateBatch_isolated (c : Compiler) (us : List Update) (table : String) :
    ((∃ s, c.updateBatch us table = .ok s) ↔
      us ≠ [] ∧ ∀ u ∈ us, ∃ s, c.update u table = .ok s) ∧
    (∀ e, c.updateBatch us table = .error e ↔ us = [] ∧ e = .emptyBatch table ∨
      ∃ former u rest, us = former ++ u :: rest ∧
        (∀ v ∈ former, ∃ s, c.update v table = .ok s) ∧ c.update u table = .error e) ∧
    ∀ s, c.updateBatch us table = .ok s → ∃ drafts, List.Forall₂ (c.Alone table) us drafts ∧
      s.sql = String.join (drafts.zipIdx.map fun x => c.render (x.1.renumber x.2) ++ ";") ∧
      s.params.positional = [] ∧ ∀ space, (s.params.keys space).Nodup ∧
        (s.params.set space).Perm (drafts.zipIdx.flatMap fun x =>
          ((c.finish x.1).params.set space).map
            fun entry => (renumberKey x.2 entry.1, entry.2)) := by
  refine ⟨exists_updateBatch_eq_ok, fun e => updateBatch_eq_error, fun s hs => ?_⟩
  obtain ⟨-, drafts, numbered, hdrafts, hnumbered, rfl, rfl⟩ := renumbered_of_updateBatch hs
  have hbound := batchDrafts_bound_nodup hnumbered
  rw [List.map_map, List.flatMap_map]
  rw [List.flatMap_map] at hbound
  exact ⟨drafts, hdrafts.imp fun _ _ => alone_of_updateAt, rfl, Params.positional_ofBound _,
    fun space => ⟨Params.keys_nodup hbound space, set_numbered_perm hdrafts hbound space⟩⟩

/-- The second of two updates of orders has the alias that the first one has, as it has alone, and a
third one that sets nothing is refused as it is alone. -/
theorem orderChanges_isolated :
    (∃ s, shop.updateBatch orderChanges "orders" = .ok s ∧
      ∃ drafts, List.Forall₂ (shop.Alone "orders") orderChanges drafts ∧
        s.sql = String.join (drafts.zipIdx.map fun x => shop.render (x.1.renumber x.2) ++ ";") ∧
        (∀ space, (s.params.keys space).Nodup) ∧
        s.params.keys .field = ["field_v0_u_0", "field_v1_u_0"]) ∧
    shop.updateBatch (orderChanges ++ [Update.new "c"]) "orders" =
      .error (.nothingToSet "orders") := by
  obtain ⟨-, -, hmembers⟩ := updateBatch_isolated shop orderChanges "orders"
  obtain ⟨-, hfails, -⟩ := updateBatch_isolated shop (orderChanges ++ [Update.new "c"]) "orders"
  obtain ⟨s, hs⟩ : ∃ s, shop.updateBatch orderChanges "orders" = .ok s :=
    except_exists_ok (by decide +kernel)
  have hkeys : (shop.updateBatch orderChanges "orders").toOption.map (·.params.keys .field) =
      some ["field_v0_u_0", "field_v1_u_0"] := by
    decide +kernel
  rw [hs] at hkeys
  obtain ⟨drafts, halone, hsql, -, hsets⟩ := hmembers s hs
  refine ⟨⟨s, hs, drafts, halone, hsql, fun space => (hsets space).1, Option.some.inj hkeys⟩, ?_⟩
  apply (hfails _).mpr
  refine .inr ⟨orderChanges, Update.new "c", [], rfl, ?_, rfl⟩
  have hok : ∀ u ∈ orderChanges, (shop.update u "orders").isOk = true := by decide +kernel
  exact fun u hu => except_exists_ok (hok u hu)

end Compiler

end DynamicSql
