import DynamicSql.Proofs.Resolve.OperandOrder
import DynamicSql.Proofs.Sql.Params
import DynamicSql.Proofs.Statement.Clean
import DynamicSql.Proofs.Statement.Realised

/-!
# Placeholders and bound values

The placeholders of a statement are read back from its finished text, and compared with the values
that are bound beside it. The two agree key by key (`compile_placeholders_exact`), and the
placeholders of a query ask for its operands from left to right (`select_placeholders_operands`).

Nothing is said about statements to which someone contributed an opening brace: such a text could
spell a placeholder by itself.
-/

namespace DynamicSql

open Landmark (slots values operands)

instance : DecidablePred AllUnbraced := fun texts =>
  inferInstanceAs (Decidable (∀ s ∈ texts, Unbraced s))

namespace Compiler

variable {c : Compiler} {table : String}

/-- The texts from outside that a description over a table is compiled with. -/
def outsideTexts (c : Compiler) (table : String) (d : Description) : List String :=
  c.root :: table :: c.schema.texts ++ d.texts

/-- The placeholders in the text of a script are the markers of its drafts, from left to right. -/
theorem placeholders_print {s : Script} (hroot : Unbraced c.root)
    (hclean : ∀ part ∈ s, part.1.1.Clean ∧ Unbraced part.2)
    (hlettered : ∀ part ∈ s, ∀ slot ∈ part.1.1.slots, slot.path.Lettered) :
    placeholders c.root (c.print s) = (s.flatMap (·.1.1.slots)).map Slot.shown := by
  -- What follows a draft must not continue a placeholder, so this is carried along.
  have hboth : scan c.root (c.print s).toList = (s.flatMap (·.1.1.slots)).map Slot.shown ∧
      Closed (c.print s).toList := by
    induction s with
    | nil => exact ⟨rfl, .nil⟩
    | cons part rest ih =>
      obtain ⟨hdraft, htail⟩ := hclean part List.mem_cons_self
      obtain ⟨hscan, hclosed⟩ := ih (fun p hp => hclean p (List.mem_cons_of_mem part hp))
        (fun p hp => hlettered p (List.mem_cons_of_mem part hp))
      have hprint : (c.print (part :: rest)).toList =
          part.1.1.chars c.root (Aliases.ofMentions part.1.2.mentioned).text ++
            (part.2.toList ++ (c.print rest).toList) := by
        simp [print, render, Fragment.render, String.toList_join]
      obtain ⟨hfirst, hopen⟩ := Fragment.scan_chars hroot hdraft (hlettered part List.mem_cons_self)
        (hclosed.append htail)
      rw [hprint, hfirst, scan_append htail hclosed, hscan, List.flatMap_cons, List.map_append]
      exact ⟨rfl, hopen⟩
  exact hboth.1

/-- The markers of a script stand at the places of its landmarks, and it binds their values. -/
theorem script_landmarks {s : Script} {landmarks : List (List Landmark)}
    (h : List.Forall₂ (fun part ls => Draft.Shows part.1 ls) s landmarks) :
    s.flatMap (·.1.1.slots) = slots landmarks.flatten ∧
      (bound s).Perm (values landmarks.flatten) := by
  induction h with
  | nil => exact ⟨rfl, .nil⟩
  | cons hpart hrest ih =>
    obtain ⟨hslots, hbound⟩ := ih
    rw [List.flatMap_cons, List.flatten_cons, Landmark.slots_append, Landmark.values_append, hslots,
      Fragment.slots_eq_marks, hpart.marks_eq, ← Landmark.slots_eq_marks]
    exact ⟨rfl, hpart.accounts.bound.append hbound⟩

/-- The placeholders of every text stand for the places of the landmarks of the description, and
the values of these landmarks are bound, in some order. -/
theorem placeholders_of_compile {d : Description} {out : Compiled}
    (h : c.compile table d = .ok out) (hclean : AllUnbraced (c.outsideTexts table d)) :
    ∀ sql ∈ out.texts, placeholders c.root sql = (slots d.landmarks.flatten).map Slot.shown ∧
      ∃ bound, out.params = .ofBound bound ∧ bound.Perm (values d.landmarks.flatten) := by
  simp only [outsideTexts, List.cons_append, AllUnbraced.cons, AllUnbraced.append] at hclean
  obtain ⟨hroot, htable, hschema, hd⟩ := hclean
  obtain ⟨scripts, hscripts, htexts, hparams⟩ := exists_scripts_of_compile h
  rw [htexts, List.forall_mem_map]
  intro s hs
  obtain ⟨hslots, hbound⟩ := script_landmarks (scripts_show hscripts s hs)
  refine ⟨?_, bound s, hparams s hs, hbound⟩
  have hlettered := d.landmarks_fresh.lettered (List.forall_mem_nil _)
  rw [← hslots]
  apply placeholders_print hroot
  · intro part hpart
    obtain ⟨ls, hmakes⟩ := exists_makes hscripts hs hpart
    exact hmakes.clean hschema htable hd
  · intro part hpart slot hslot
    exact hlettered slot (hslots ▸ List.mem_flatMap_of_mem hpart hslot)

/-- Where the values of landmarks are bound, the keys that they are bound to are those of the
places of the landmarks. -/
theorem shown_perm {ls : List Landmark} {bound : List (Slot × Value)}
    (hbound : bound.Perm (values ls)) :
    (bound.map (·.1.shown)).Perm ((slots ls).map Slot.shown) := by
  rw [Landmark.slots, List.map_map]
  exact hbound.map _

/-- While the drafts of a script are resolved, no key of a set is used twice, so no bound value is
overwritten. -/
theorem bound_nodup {d : Description} {scripts : List Script}
    (h : c.scripts table d = .ok scripts) {s : Script} (hs : s ∈ scripts) :
    ((bound s).map (·.1.shown)).Nodup := by
  obtain ⟨-, hbound⟩ := script_landmarks (scripts_show h s hs)
  exact (shown_perm hbound).nodup_iff.mpr d.landmarks_fresh.keys_nodup

/-- A draft that is the only one of a statement binds no key of a set twice. -/
theorem draft_bound_nodup {d : Description} {draft : Draft}
    (h : c.scripts table d = .ok [script draft]) : (draft.2.bound.map (·.1.shown)).Nodup := by
  have hnodup := bound_nodup h (List.mem_singleton_self _)
  rwa [bound_script] at hnodup

/-- All values that are bound for a text are bound to keys of their own, each placeholder occurs
once in the text, and the placeholders are those of the keys that values are bound to. -/
theorem compile_placeholders_exact {d : Description} {out : Compiled}
    (h : c.compile table d = .ok out) (hclean : AllUnbraced (c.outsideTexts table d)) :
    (∃ scripts, c.scripts table d = .ok scripts ∧ out.texts = scripts.map c.print ∧
      ∀ s ∈ scripts, out.params = .ofBound (bound s) ∧ ((bound s).map (·.1.shown)).Nodup) ∧
    ∀ sql ∈ out.texts, (placeholders c.root sql).Nodup ∧
      ∀ space key, (space, key) ∈ placeholders c.root sql ↔ key ∈ out.params.keys space := by
  constructor
  · obtain ⟨scripts, hscripts, htexts, hparams⟩ := exists_scripts_of_compile h
    exact ⟨scripts, hscripts, htexts, fun s hs => ⟨hparams s hs, bound_nodup hscripts hs⟩⟩
  · intro sql hsql
    obtain ⟨hplaceholders, bound, hparams, hbound⟩ := placeholders_of_compile h hclean sql hsql
    rw [hplaceholders, hparams]
    refine ⟨d.landmarks_fresh.keys_nodup, fun space key => ?_⟩
    rw [Params.mem_keys_ofBound]
    exact (shown_perm hbound).symm.mem_iff

/-- The two updates of a batch bind the same fields under keys of their own. -/
theorem orderChanges_placeholders_exact :
    ∃ out, shop.compile "orders" (.updateBatch orderChanges) = .ok out ∧
      ∀ sql ∈ out.texts, (placeholders shop.root sql).Nodup ∧
        ∀ space key, (space, key) ∈ placeholders shop.root sql ↔ key ∈ out.params.keys space := by
  obtain ⟨out, hout⟩ : ∃ out, shop.compile "orders" (.updateBatch orderChanges) = .ok out :=
    except_exists_ok (by decide +kernel)
  exact ⟨out, hout, (compile_placeholders_exact hout (by decide +kernel)).2⟩

/-- Where the places of landmarks are used once, looking them up among the bound values gives the
values of the landmarks. -/
theorem lookup_landmarks {next : Segment → Prop} {ls : List Landmark}
    {bound : List (Slot × Value)} (hfresh : Fresh [] next ls) (hbound : bound.Perm (values ls)) :
    ((slots ls).map Slot.shown).map (fun p => (Params.ofBound bound).get? p.1 p.2) =
      (operands ls).map some := by
  have hnodup : (bound.map fun b => b.1.shown).Nodup :=
    (shown_perm hbound).nodup_iff.mpr hfresh.keys_nodup
  rw [Landmark.slots, Landmark.operands, List.map_map, List.map_map, List.map_map]
  refine List.map_congr_left fun b hb => ?_
  exact Params.get?_ofBound hnodup (hbound.mem_iff.mpr hb)

/-- Looking up the placeholders in the text of a query, from left to right, gives the operands of
the query in the order of the text. -/
theorem select_placeholders_operands {q : Query} {s : Statement} (h : c.select q table = .ok s)
    (hclean : AllUnbraced (c.outsideTexts table (.select q))) :
    (placeholders c.root s.sql).map (fun p => s.params.get? p.1 p.2) = q.operands.map some := by
  have hcompile : c.compile table (.select q) = .ok s.compiled := by
    rw [compile, h]
    rfl
  obtain ⟨hplaceholders, bound, hparams, hbound⟩ :=
    placeholders_of_compile hcompile hclean s.sql (List.mem_singleton_self _)
  have hoperands : operands (Description.landmarks (.select q)).flatten = q.operands := by
    rw [Description.landmarks, List.flatten_singleton, q.operands_allLandmarks]
  have hparams : s.params = .ofBound bound := hparams
  rw [hplaceholders, hparams, lookup_landmarks (Description.landmarks_fresh _) hbound, hoperands]

/-- The condition of the join comes first and that of the union last, and the conditions on the
customers come before those on their orders. -/
theorem frequentCustomers_placeholders_operands :
    ∃ s, shop.select frequentCustomers "customer" = .ok s ∧
      (placeholders shop.root s.sql).map (fun p => s.params.get? p.1 p.2) =
        [.int 10, .int 3, .int 4, .string "%a%", .int 99, .int 2, .string "b"].map some := by
  obtain ⟨s, hs⟩ : ∃ s, shop.select frequentCustomers "customer" = .ok s :=
    except_exists_ok (by decide +kernel)
  have hoperands : frequentCustomers.operands =
      [.int 10, .int 3, .int 4, .string "%a%", .int 99, .int 2, .string "b"] := by cbv
  rw [← hoperands]
  exact ⟨s, hs, select_placeholders_operands hs (by decide +kernel)⟩

end Compiler

end DynamicSql
