import DynamicSql.Proofs.Resolve.Freshness
import DynamicSql.Proofs.Statement.Description

/-!
# Landmarks of descriptions

The tables and values of every description, one list for each draft that a text of the description
is printed from, and the main fact about them as places: no key of a set is used twice, not even by
different updates of a batch or different rows of an insertion.

What holds of every draft is shown along the ways in which drafts are made (`Compiler.Makes`).
-/

namespace DynamicSql

/-- The values of a row to insert; `r` is its number. -/
def Insert.landmarks (r : Nat) (row : Insert) : List Landmark :=
  row.values.zipIdx.map fun x => .value ⟨.assigned, (Path.ofRoot r).child "i", x.2, none⟩ x.1.2

/-- The values of rows to insert, the first of which has the given number. -/
def rowLandmarks (r : Nat) (rows : List Insert) : List Landmark :=
  (rows.zipIdx r).flatMap fun x => x.1.landmarks x.2

/-- The values that fields are set to. -/
def assignedLandmarks (path : Path) (sets : List Assignment) : List Landmark :=
  sets.zipIdx.map fun x => .value ⟨.assigned, path, x.2, none⟩ x.1.value

/-- The landmarks of an update. Its joins do not group rows. -/
def Update.landmarks (path : Path) (u : Update) : List Landmark :=
  let added := joinLandmarks false (path.child "cl") 0 u.joins
  .table u.token :: added.source ++ assignedLandmarks (path.child "u") u.sets ++
    u.conditions.landmarks (path.child "ut") ++ added.conditions

/-- The landmarks of a description, draft by draft. -/
def Description.landmarks : Description → List (List Landmark)
  | .select q | .page q | .pageAt q _ _ | .validate q => [q.allLandmarks (.ofRoot 0)]
  | .findOne q => [(q.limit 1).allLandmarks (.ofRoot 0)]
  | .insert row => [rowLandmarks 0 [row]]
  | .insertRows rows => [rowLandmarks 0 rows]
  | .update u => [u.landmarks (.ofRoot 0)]
  | .updateBatch us => us.zipIdx.map fun x => x.1.landmarks (.ofRoot x.2)
  | .delete d => [d.conditions.landmarks ((Path.ofRoot 0).child "dt")]

/-- The values of a row are bound under the number of the row. -/
theorem Insert.landmarks_fresh (row : Insert) (r : Nat) :
    Fresh [] (Segment.Nth [""] r) (row.landmarks r) := by
  have hvalues : Fresh ((Path.ofRoot r).child "i").way (Segment.From [""] 0) (row.landmarks r) := by
    unfold landmarks
    exact .numbered (fun i => ⟨.assigned, (Path.ofRoot r).child "i", i, none⟩) row.values
      (fun _ _ => rfl) (fun _ => rfl) fun h _ => Path.lettered_of_way h
  have htag : Fresh (Path.ofRoot r).way (Segment.Any ["i"]) _ :=
    hvalues.ofChild (by decide) (by decide)
  exact htag.ofRoot

/-- Rows are told apart by their numbers. -/
theorem rowLandmarks_fresh (rows : List Insert) (r : Nat) :
    Fresh [] (Segment.From [""] r) (rowLandmarks r rows) := by
  induction rows generalizing r with
  | nil => exact .of_slots_eq_nil rfl
  | cons row rest ih =>
    rw [rowLandmarks, List.zipIdx_cons, List.flatMap_cons]
    exact (row.landmarks_fresh r).appendFrom (ih (r + 1))

/-- Joins that do not group rows have no conditions on groups. -/
theorem joinLandmarks_havings (joins : List Join) (path : Path) (l : Nat) :
    (joinLandmarks false path l joins).havings = [] := by
  cases joins with
  | nil => rfl
  | cons join rest =>
    obtain ⟨_, ⟨_, _, _, _, joins, _⟩, _⟩ := join
    rw [joinLandmarks]
    change ([] ++ (joinLandmarks false (path.childAt "j" l) 0 joins).havings) ++
      (joinLandmarks false path (l + 1) rest).havings = []
    rw [joinLandmarks_havings joins, joinLandmarks_havings rest]
    rfl

/-- Assignments bind their values under the path of the update, one number each. -/
theorem assignedLandmarks_fresh (path : Path) (sets : List Assignment) :
    Fresh path.way (Segment.From [""] 0) (assignedLandmarks path sets) := by
  unfold assignedLandmarks
  exact .numbered (fun i => ⟨.assigned, path, i, none⟩) sets (fun _ _ => rfl) (fun _ => rfl)
    fun h _ => Path.lettered_of_way h

/-- The landmarks of an update may be sorted by the parts of the update. -/
theorem Update.landmarks_perm (u : Update) (path : Path) : (u.landmarks path).Perm
    (.table u.token :: ((joinLandmarks false (path.child "cl") 0 u.joins).all ++
      assignedLandmarks (path.child "u") u.sets ++ u.conditions.landmarks (path.child "ut"))) := by
  simp only [landmarks, List.cons_append]
  refine .cons _ ?_
  rw [← Multiset.coe_eq_coe]
  simp only [JoinLandmarks.all, joinLandmarks_havings, List.append_nil, ← Multiset.coe_add]
  abel

/-- The joins, the assignments and the conditions of an update part ways at once. -/
theorem Update.landmarks_fresh (u : Update) (n : Nat) :
    Fresh [] (Segment.Nth [""] n) (u.landmarks (.ofRoot n)) := by
  have hjoins : Fresh (Path.ofRoot n).way (Segment.Any ["cl"]) _ :=
    (joinLandmarks_fresh u.joins false ((Path.ofRoot n).child "cl") 0).ofChild (by decide)
      (by decide)
  have hsets : Fresh (Path.ofRoot n).way (Segment.Any ["u"]) _ :=
    (assignedLandmarks_fresh ((Path.ofRoot n).child "u") u.sets).ofChild (by decide) (by decide)
  have hconditions : Fresh (Path.ofRoot n).way (Segment.Any ["ut"]) _ :=
    (u.conditions.landmarks_fresh ((Path.ofRoot n).child "ut")).ofChild (by decide) (by decide)
  have hall := (hjoins.appendTags hsets (by decide)).appendTags hconditions (by decide)
  exact ((hall.table_cons u.token).perm (u.landmarks_perm (.ofRoot n)).symm).ofRoot

/-- The updates of a batch are told apart by their numbers. -/
theorem batchLandmarks_fresh (us : List Update) (n : Nat) :
    Fresh [] (Segment.From [""] n)
      ((us.zipIdx n).map fun x => x.1.landmarks (.ofRoot x.2)).flatten := by
  induction us generalizing n with
  | nil => exact .of_slots_eq_nil rfl
  | cons u rest ih =>
    rw [List.zipIdx_cons, List.map_cons, List.flatten_cons]
    exact (u.landmarks_fresh n).appendFrom (ih (n + 1))

/-- All values of a description have places of their own. -/
theorem Description.landmarks_fresh (d : Description) :
    Fresh [] (Segment.From [""] 0) d.landmarks.flatten := by
  have hfirst : ∀ {ls : List Landmark}, Fresh [] (Segment.Nth [""] 0) ls →
      Fresh [] (Segment.From [""] 0) [ls].flatten := fun h =>
    (h.mono fun _ hg => ⟨hg.1, 0, Nat.le_refl 0, hg.2⟩).perm (by simp)
  cases d with
  | select q | page q | pageAt q | validate q =>
    exact hfirst (q.allLandmarks_fresh (.ofRoot 0)).ofRoot
  | findOne q => exact hfirst ((q.limit 1).allLandmarks_fresh (.ofRoot 0)).ofRoot
  | insert row => exact (rowLandmarks_fresh [row] 0).perm (by simp [landmarks])
  | insertRows rows => exact (rowLandmarks_fresh rows 0).perm (by simp [landmarks])
  | update u => exact hfirst (u.landmarks_fresh 0)
  | updateBatch us => exact batchLandmarks_fresh us 0
  | delete d =>
    have hconditions : Fresh (Path.ofRoot 0).way (Segment.Any ["dt"]) _ :=
      (d.conditions.landmarks_fresh ((Path.ofRoot 0).child "dt")).ofChild (by decide) (by decide)
    exact hfirst hconditions.ofRoot

namespace Compiler

variable {c : Compiler} {table : String}

/-- How a draft and the text behind it come from a description, with the landmarks of the part of
the description that the draft is made from. -/
inductive Makes (c : Compiler) (table : String) :
    Description → Draft × String → List Landmark → Prop
  | select {q draft} : c.selectDraft q table = .ok draft →
      Makes c table (.select q) (draft, "") (q.allLandmarks (.ofRoot 0))
  | findOne {q draft} : c.selectDraft (q.limit 1) table = .ok draft →
      Makes c table (.findOne q) (draft, "") ((q.limit 1).allLandmarks (.ofRoot 0))
  | count {q count base} : c.pageDrafts q table = .ok (count, base) →
      Makes c table (.page q) (count, "") (q.allLandmarks (.ofRoot 0))
  | base {q count base} : c.pageDrafts q table = .ok (count, base) →
      Makes c table (.page q) (base, "") (q.allLandmarks (.ofRoot 0))
  | window {q number size count base tail} : c.pageDrafts q table = .ok (count, base) →
      c.dialect.pageClause "" number size = .ok tail →
      Makes c table (.pageAt q number size) (base, tail) (q.allLandmarks (.ofRoot 0))
  | validate {q draft} : c.validateDraft q table = .ok draft →
      Makes c table (.validate q) (draft, "") (q.allLandmarks (.ofRoot 0))
  | insert {row draft} : c.insertDraft [row] table = .ok draft →
      Makes c table (.insert row) (draft, "") (rowLandmarks 0 [row])
  | insertRows {rows draft} : c.insertDraft rows table = .ok draft →
      Makes c table (.insertRows rows) (draft, "") (rowLandmarks 0 rows)
  | update {u draft} : c.updateAt u table 0 = .ok draft →
      Makes c table (.update u) (draft, "") (u.landmarks (.ofRoot 0))
  | member {us u n draft} : u ∈ us → c.updateAt u table n = .ok draft →
      Makes c table (.updateBatch us) (draft, ";") (u.landmarks (.ofRoot n))
  | delete {d draft} : c.deleteDraft d table = .ok draft →
      Makes c table (.delete d) (draft, "") (d.conditions.landmarks ((Path.ofRoot 0).child "dt"))

/-- Every draft of a script comes from its part of the description. -/
theorem scripts_made {d : Description} {scripts : List Script}
    (h : c.scripts table d = .ok scripts) :
    ∀ s ∈ scripts, List.Forall₂ (c.Makes table d) s d.landmarks := by
  have hsingle : ∀ {x : Except Error Draft} {ls : List Landmark}, d.landmarks = [ls] →
      (do return [script (← x)] : Except Error (List Script)) = .ok scripts →
      (∀ draft, x = .ok draft → c.Makes table d (draft, "") ls) →
      ∀ s ∈ scripts, List.Forall₂ (c.Makes table d) s d.landmarks := by
    intro x ls hls hscripts hmakes s hs
    obtain ⟨draft, hdraft, rfl⟩ := single_eq_ok hscripts
    rw [List.mem_singleton.mp hs, hls]
    exact .cons (hmakes draft hdraft) .nil
  -- Pages and batches have several drafts, every other description has a single one.
  cases d with
  | select q => exact hsingle rfl h fun _ => .select
  | findOne q => exact hsingle rfl h fun _ => .findOne
  | page q =>
    obtain ⟨⟨count, base⟩, hdrafts, h⟩ := except_bind_eq_ok.mp h
    obtain rfl := Except.ok.inj h
    rw [List.forall_mem_cons, List.forall_mem_singleton]
    exact ⟨.cons (.count hdrafts) .nil, .cons (.base hdrafts) .nil⟩
  | pageAt q number size =>
    obtain ⟨⟨count, base⟩, hdrafts, h⟩ := except_bind_eq_ok.mp h
    obtain ⟨tail, htail, h⟩ := except_bind_eq_ok.mp h
    obtain rfl := Except.ok.inj h
    exact List.forall_mem_singleton.mpr (.cons (.window hdrafts htail) .nil)
  | validate q => exact hsingle rfl h fun _ => .validate
  | insert row => exact hsingle rfl h fun _ => .insert
  | insertRows rows => exact hsingle rfl h fun _ => .insertRows
  | update u => exact hsingle rfl h fun _ => .update
  | updateBatch us =>
    obtain ⟨drafts, hdrafts, h⟩ := except_bind_eq_ok.mp h
    obtain rfl := Except.ok.inj h
    have hmembers := (List.forall₂_and_left us.zipIdx drafts).mpr
      ⟨fun _ hx => hx, batchDrafts_eq_ok hdrafts⟩
    rw [List.forall_mem_singleton, Description.landmarks, List.forall₂_map_left_iff,
      List.forall₂_map_right_iff]
    exact (hmembers.imp fun x _ hx => .member (List.fst_mem_of_mem_zipIdx hx.1) hx.2).flip
  | delete d => exact hsingle rfl h fun _ => .delete

/-- A draft of a script is made from some part of the description. -/
theorem exists_makes {d : Description} {scripts : List Script}
    (h : c.scripts table d = .ok scripts) {s : Script} (hs : s ∈ scripts) {part : Draft × String}
    (hpart : part ∈ s) : ∃ ls, c.Makes table d part ls := by
  obtain ⟨ls, -, hls⟩ := exists_of_forall₂_mem (scripts_made h s hs).flip hpart
  exact ⟨ls, hls⟩

end Compiler

end DynamicSql
