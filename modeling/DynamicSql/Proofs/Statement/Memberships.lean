import DynamicSql.Proofs.Resolve.Listed
import DynamicSql.Proofs.Resolve.Memberships
import DynamicSql.Proofs.Statement.Independence
import DynamicSql.Proofs.Statement.Placeholders

/-!
# Spellings of sets in statements

Two descriptions that differ only in how the sets of their membership tests are spelled are compiled
to the same texts with the same values, or refused with the same error. Each text of a set is bound
under the number that it has in the set (`spellings_equivalent`).

A description without its values decides on the texts and on the keys, and its landmarks decide on
the values, so these two decide on what is compiled (`compile_congr`). Neither depends on how a set
is spelled.
-/

namespace DynamicSql

open Landmark (items slots values)

/-- An update with its sets written as lists. -/
def Update.listed (u : Update) : Update :=
  { u with joins := listedJoins u.joins, conditions := u.conditions.listed }

/-- A description with the sets of its membership tests written as lists. -/
def Description.listed : Description → Description
  | .select q => .select q.listed
  | .findOne q => .findOne q.listed
  | .page q => .page q.listed
  | .pageAt q number size => .pageAt q.listed number size
  | .validate q => .validate q.listed
  | .insert row => .insert row
  | .insertRows rows => .insertRows rows
  | .update u => .update u.listed
  | .updateBatch us => .updateBatch (us.map Update.listed)
  | .delete d => .delete { d with conditions := d.conditions.listed }

/-- The membership tests of an update. -/
def Update.memberships (path : Path) (u : Update) : List PlacedMembership :=
  joinMemberships (path.child "cl") 0 u.joins ++ u.conditions.memberships (path.child "ut")

/-- The membership tests of a description with their places. -/
def Description.memberships : Description → List PlacedMembership
  | .select q | .findOne q | .page q | .pageAt q _ _ | .validate q => q.allMemberships (.ofRoot 0)
  | .insert _ | .insertRows _ => []
  | .update u => u.memberships (.ofRoot 0)
  | .updateBatch us => us.zipIdx.flatMap fun x => x.1.memberships (.ofRoot x.2)
  | .delete d => d.conditions.memberships ((Path.ofRoot 0).child "dt")

section Listed

/-- Limiting a query and listing it may be done in either order. -/
theorem Query.listed_limit (q : Query) (n : UInt64) : (q.limit n).listed = q.listed.limit n := by
  cases q
  rfl

/-- Written as lists, the sets of an update make no difference to its form. -/
theorem Update.blank_listed (u : Update) : u.listed.blank = u.blank := by
  simp only [listed, blank, u.conditions.blank_listed, blankJoins_listed]

/-- Nor do they to its landmarks. -/
theorem Update.landmarks_listed (u : Update) (path : Path) :
    u.listed.landmarks path = u.landmarks path := by
  simp only [listed, landmarks, u.conditions.landmarks_listed, joinLandmarks_listed]

/-- Without its values, a listed description is what the description itself is. -/
theorem Description.blank_listed (d : Description) : d.listed.blank = d.blank := by
  cases d with
  | select q | findOne q | page q | pageAt q | validate q =>
    simp only [listed, blank, q.blank_listed]
  | insert row | insertRows rows => rfl
  | update u => simp only [listed, blank, u.blank_listed]
  | updateBatch us =>
    simp only [listed, blank, List.map_map, Function.comp_def, Update.blank_listed]
  | delete d => simp only [listed, blank, d.conditions.blank_listed]

/-- A listed description has the landmarks of the description itself. -/
theorem Description.landmarks_listed (d : Description) : d.listed.landmarks = d.landmarks := by
  cases d with
  | select q | page q | pageAt q | validate q =>
    simp only [listed, landmarks, q.allLandmarks_listed]
  | findOne q =>
    simp only [listed, landmarks, ← q.listed_limit, Query.allLandmarks_listed]
  | insert row | insertRows rows => rfl
  | update u => simp only [listed, landmarks, u.landmarks_listed]
  | updateBatch us =>
    simp only [listed, landmarks, List.zipIdx_map, List.map_map, Function.comp_def, Prod.map_fst,
      Prod.map_snd, id_eq, Update.landmarks_listed]
  | delete d => simp only [listed, landmarks, d.conditions.landmarks_listed]

end Listed

section Members

/-- Limiting a query adds no membership test. -/
theorem Query.allMemberships_limit (q : Query) (n : UInt64) (path : Path) :
    (q.limit n).allMemberships path = q.allMemberships path := by
  cases q
  rfl

/-- Assignments bind no members. -/
theorem items_assignedLandmarks (path : Path) (sets : List Assignment) :
    items (assignedLandmarks path sets) = [] :=
  Landmark.items_map_zipIdx (⟨.assigned, path, ·, none⟩) Assignment.value sets 0 fun _ => rfl

/-- Nor do insertions. -/
theorem items_rowLandmarks (r : Nat) (rows : List Insert) : items (rowLandmarks r rows) = [] := by
  induction rows generalizing r with
  | nil => rfl
  | cons row rest ih =>
    have hrow : items (row.landmarks r) = [] :=
      Landmark.items_map_zipIdx (⟨.assigned, (Path.ofRoot r).child "i", ·, none⟩)
        (fun entry : String × Value => entry.2) row.values 0 fun _ => rfl
    rw [rowLandmarks, List.zipIdx_cons, List.flatMap_cons, Landmark.items_append, hrow]
    exact ih (r + 1)

/-- An update binds the members of its tests. -/
theorem Update.landmarks_members (u : Update) (path : Path) :
    BindsMembers (u.landmarks path) (u.memberships path) := by
  have hjoins := joinLandmarks_members u.joins false (path.child "cl") 0
  have hconditions := u.conditions.landmarks_members (path.child "ut")
  have hall : BindsMembers (.table u.token :: _) _ :=
    (hjoins.append_right (items_assignedLandmarks (path.child "u") u.sets)).append hconditions
  exact hall.perm (u.landmarks_perm path).symm

/-- A description binds the members of its tests. -/
theorem Description.landmarks_members (d : Description) :
    BindsMembers d.landmarks.flatten d.memberships := by
  have hrows : ∀ rows, BindsMembers [rowLandmarks 0 rows].flatten [] := by
    intro rows
    rw [List.flatten_singleton, BindsMembers, items_rowLandmarks, List.flatMap_nil]
  cases d with
  | select q | page q | pageAt q | validate q =>
    rw [landmarks, List.flatten_singleton]
    exact q.allLandmarks_members (.ofRoot 0)
  | findOne q =>
    have hlimited := (q.limit 1).allLandmarks_members (.ofRoot 0)
    rw [q.allMemberships_limit] at hlimited
    rw [landmarks, List.flatten_singleton]
    exact hlimited
  | insert row => exact hrows [row]
  | insertRows rows => exact hrows rows
  | update u =>
    rw [landmarks, List.flatten_singleton]
    exact u.landmarks_members (.ofRoot 0)
  | updateBatch us =>
    rw [landmarks, ← List.flatMap_def]
    exact .flatMap fun x _ => x.1.landmarks_members (.ofRoot x.2)
  | delete d =>
    rw [landmarks, List.flatten_singleton]
    exact d.conditions.landmarks_members ((Path.ofRoot 0).child "dt")

end Members

namespace Compiler

variable {c : Compiler} {table : String}

/-- A description that is compiled has a text. -/
theorem scripts_ne_nil {d : Description} {scripts : List Script}
    (h : c.scripts table d = .ok scripts) : scripts ≠ [] := by
  rintro rfl
  cases d with
  | select q | findOne q | validate q | insert row | insertRows rows | update u | delete d =>
    obtain ⟨_, -, hscripts⟩ := single_eq_ok h
    cases hscripts
  | page q | updateBatch us =>
    obtain ⟨_, -, h⟩ := except_bind_eq_ok.mp h
    cases h
  | pageAt q number size =>
    obtain ⟨_, -, h⟩ := except_bind_eq_ok.mp h
    obtain ⟨_, -, h⟩ := except_bind_eq_ok.mp h
    cases h

/-- What is compiled binds the values of the landmarks of its description. -/
theorem params_eq_ofBound {d : Description} {out : Compiled} (h : c.compile table d = .ok out) :
    out.params = .ofBound (values d.landmarks.flatten) := by
  obtain ⟨scripts, hscripts, -, hparams⟩ := exists_scripts_of_compile h
  obtain ⟨s, hs⟩ := List.exists_mem_of_ne_nil scripts (scripts_ne_nil hscripts)
  obtain ⟨-, hbound⟩ := script_landmarks (scripts_show hscripts s hs)
  rw [hparams s hs]
  exact Params.ofBound_perm hbound (bound_nodup hscripts hs)

/-- Descriptions that are the same without their values, and have the same values at the same
places, are compiled to the same, or refused with the same error. -/
theorem compile_congr {d d' : Description} (hblank : d.blank = d'.blank)
    (hvalues : values d.landmarks.flatten = values d'.landmarks.flatten) :
    c.compile table d = c.compile table d' := by
  have houtline : (c.compile table d).map Compiled.outline =
      (c.compile table d').map Compiled.outline := by
    rw [c.compile_blank table d, hblank, ← c.compile_blank table d']
  -- The texts are told by the blanked descriptions, what is bound by the landmarks.
  cases hd : c.compile table d with
  | error e =>
    cases hd' : c.compile table d' with
    | error e' =>
      rw [hd, hd'] at houtline
      exact congrArg Except.error (Except.error.inj houtline)
    | ok out' =>
      rw [hd, hd'] at houtline
      cases houtline
  | ok out =>
    cases hd' : c.compile table d' with
    | error e' =>
      rw [hd, hd'] at houtline
      cases houtline
    | ok out' =>
      rw [hd, hd'] at houtline
      obtain ⟨htexts, -⟩ := Prod.mk.inj (Except.ok.inj houtline)
      have hparams : out.params = out'.params := by
        rw [params_eq_ofBound hd, params_eq_ofBound hd', hvalues]
      obtain ⟨texts, params⟩ := out
      obtain ⟨texts', params'⟩ := out'
      exact congrArg Except.ok (congrArg₂ Compiled.mk htexts hparams)

/-- A description is compiled like its listed form. -/
theorem compile_listed (c : Compiler) (table : String) (d : Description) :
    c.compile table d.listed = c.compile table d :=
  compile_congr d.blank_listed (by rw [d.landmarks_listed])

/-- What is bound for a membership test in a statement are its members. -/
theorem bound_members {d : Description} {scripts : List Script}
    (h : c.scripts table d = .ok scripts) {s : Script} (hs : s ∈ scripts) {m : PlacedMembership}
    (hm : m ∈ d.memberships) {members : List Value} (hmembers : m.operand.members? = some members)
    (hne : members ≠ []) (n : Nat) (v : Value) :
    (m.slot n, v) ∈ bound s ↔ members[n]? = some v := by
  obtain ⟨-, hbound⟩ := script_landmarks (scripts_show h s hs)
  rw [hbound.mem_iff]
  exact d.landmarks_members.mem_values_iff d.landmarks_fresh.nodup.of_map hm hmembers hne

/-- Every member of a test is found under the key of its number. -/
theorem get?_member {d : Description} {out : Compiled} (h : c.compile table d = .ok out)
    {m : PlacedMembership} (hm : m ∈ d.memberships) {members : List Value}
    (hmembers : m.operand.members? = some members) {n : Nat} {v : Value}
    (hget : members[n]? = some v) : out.params.get? .filter (m.slot n).key = some v := by
  have hne : members ≠ [] := by
    rintro rfl
    cases hget
  have hbound : (m.slot n, v) ∈ values d.landmarks.flatten :=
    (d.landmarks_members.mem_values_iff d.landmarks_fresh.nodup.of_map hm hmembers hne).mpr hget
  have hkeys := d.landmarks_fresh.keys_nodup
  rw [Landmark.slots, List.map_map] at hkeys
  rw [params_eq_ofBound h]
  exact Params.get?_ofBound hkeys hbound

/-- All spellings of a set of texts are one value when listed, descriptions that are the same when
listed are compiled alike, and a statement binds the texts of a set in order, each under the number
that it has in the set. -/
theorem spellings_equivalent (c : Compiler) (table : String) {texts : List String}
    (hne : texts ≠ []) (hfree : ∀ s ∈ texts, ',' ∉ s.toList) :
    (∀ (test : Membership) (v v' : Value), v.Spells texts → v'.Spells texts →
      (Filter.member test v).listed = (Filter.member test v').listed) ∧
    (∀ d d' : Description, d.listed = d'.listed → c.compile table d = c.compile table d') ∧
    ∀ (d : Description) (out : Compiled), c.compile table d = .ok out →
      ∀ m ∈ d.memberships, m.operand.Spells texts →
        (∀ n s, texts[n]? = some s →
          out.params.get? .filter (m.slot n).key = some (.string s)) ∧
        ∃ scripts, c.scripts table d = .ok scripts ∧ out.texts = scripts.map c.print ∧
          ∀ script ∈ scripts, out.params = .ofBound (bound script) ∧
            ∀ n v, (m.slot n, v) ∈ bound script ↔ (texts.map Value.string)[n]? = some v := by
  refine ⟨fun test v v' hv hv' => ?_, fun d d' h => ?_, fun d out h m hm hspells => ?_⟩
  · rw [Filter.listed, Filter.listed, hv.listed_eq hne hfree, hv'.listed_eq hne hfree]
  · rw [← c.compile_listed table d, h, c.compile_listed table d']
  · have hmembers := hspells.members?_eq hne hfree
    have hmembersNe : texts.map Value.string ≠ [] := by simpa using hne
    refine ⟨fun n s hget => ?_, ?_⟩
    · refine get?_member h hm hmembers ?_
      rw [List.getElem?_map, hget, Option.map_some]
    · obtain ⟨scripts, hscripts, htexts, hparams⟩ := exists_scripts_of_compile h
      exact ⟨scripts, hscripts, htexts, fun script hscript => ⟨hparams script hscript,
        bound_members hscripts hscript hm hmembers hmembersNe⟩⟩

/-- The names of customers that are none of several, with an order of one of several totals. -/
def outsiders (names totals : Value) : Description :=
  .select <| HasConditions.member .notIn "name" names <|
    HasConditions.memberOf .isIn "id"
      (HasConditions.member .isIn "total" totals ((Query.new "o" (some "orders")).select "buyer"))
      ((Query.new "c" (some "customer")).select "name")

/-- Three texts, one of which is empty, as a list and between commas, and as an array and an
object. -/
theorem outsiders_spellings_equivalent :
    let texts := ["a", "", "b"]
    let names := Value.list (texts.map .string)
    let totals := Value.json
      (.object (KeyMap.ofList [("k", .string ""), ("l", .string "b"), ("j", .string "a")]))
    let listed := outsiders names (.string "a,,b")
    let written := outsiders (.json (.array (texts.map .string))) totals
    texts ≠ [] ∧ (∀ s ∈ texts, ',' ∉ s.toList) ∧ totals.Spells texts ∧
      (Filter.member .isIn (.string "a,,b")).listed = (Filter.member .isIn totals).listed ∧
      listed.listed = written.listed ∧
      shop.compile "customer" listed = shop.compile "customer" written ∧
      ∃ out, shop.compile "customer" listed = .ok out ∧
        ⟨(Path.ofRoot 0).child "tl", 1, names⟩ ∈ listed.memberships ∧
        out.params.get? .filter "filter_v0_tl_1_1" = some (.string "") := by
  intro texts names totals listed written
  have hne : texts ≠ [] := by decide
  have hfree : ∀ s ∈ texts, ',' ∉ s.toList := by decide
  have htotals : totals.Spells texts := .object _ rfl
  have hlisted : listed.listed = written.listed := by rfl
  obtain ⟨out, hout⟩ : ∃ out, shop.compile "customer" listed = .ok out :=
    except_exists_ok (by decide +kernel)
  have hm : ⟨(Path.ofRoot 0).child "tl", 1, names⟩ ∈ listed.memberships := .tail _ (.head _)
  have hkey : (PlacedMembership.slot ⟨(Path.ofRoot 0).child "tl", 1, names⟩ 1).key =
      "filter_v0_tl_1_1" := by decide +kernel
  obtain ⟨hspelled, hcompiled, hbound⟩ := spellings_equivalent shop "customer" hne hfree
  refine ⟨hne, hfree, htotals, hspelled .isIn _ totals .text htotals, hlisted,
    hcompiled listed written hlisted, out, hout, hm, ?_⟩
  rw [← hkey]
  exact (hbound listed out hout _ hm .list).1 1 "" rfl

end Compiler

end DynamicSql
