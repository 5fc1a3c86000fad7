import DynamicSql.Proofs.Resolve.Landmarks
import DynamicSql.Proofs.Resolve.Steps
import DynamicSql.Proofs.Sql.Readings

/-!
# Operands bring in nothing

Fields and expressions, and the entries of the lists made from them, consist of words and columns.
They may mention tables that are shown elsewhere, but they neither bring in a table nor bind a
value. The exception is a condition on groups, which binds one value.
-/

namespace DynamicSql

/-- What a piece shows of a landmark, if it is the mark of one. -/
def Piece.mark? : Piece → Option (Token ⊕ Slot)
  | .text _ | .column _ _ => none
  | .table _ token => some (.inl token)
  | .marker slot => some (.inr slot)

/-- The marks in a fragment, from left to right. -/
def Fragment.marks (f : Fragment) : List (Token ⊕ Slot) := f.filterMap Piece.mark?

/-- Looking for marks passes over texts. -/
theorem mark?_reading : Reading Piece.mark? := ⟨fun _ _ => rfl, fun _ => rfl⟩

namespace Fragment

/-- The markers of a fragment are among its marks. -/
theorem slots_eq_marks (f : Fragment) : f.slots = f.marks.filterMap Sum.getRight? := by
  unfold slots marks
  rw [List.filterMap_filterMap]
  congr 1
  funext piece
  cases piece <;> rfl

/-- The tables of a fragment are among its marks. -/
theorem tables_eq_marks (f : Fragment) : f.tables = f.marks.filterMap Sum.getLeft? := by
  unfold tables marks
  rw [List.filterMap_filterMap]
  congr 1
  funext piece
  cases piece <;> rfl

/-- An empty fragment has no marks. -/
@[simp] theorem marks_nil : marks [] = [] := rfl

/-- A text is no mark. -/
@[simp] theorem marks_text_cons (s : String) (f : Fragment) :
    marks (.text s :: f) = marks f := rfl

/-- A table is marked by its token. -/
@[simp] theorem marks_table_cons (name : String) (token : Token) (f : Fragment) :
    marks (.table name token :: f) = .inl token :: marks f := rfl

/-- A marker is marked by its slot. -/
@[simp] theorem marks_marker_cons (slot : Slot) (f : Fragment) :
    marks (.marker slot :: f) = .inr slot :: marks f := rfl

/-- Fragments have their marks one after the other. -/
@[simp] theorem marks_append (f g : Fragment) : marks (f ++ g) = marks f ++ marks g :=
  List.filterMap_append

/-- What is put around a fragment has no marks. -/
@[simp] theorem marks_wrap (w : Wrap) (f : Fragment) : marks (f.wrap w) = marks f :=
  filterMap_wrap rfl rfl f

/-- Parentheses have none. -/
@[simp] theorem marks_parens (f : Fragment) : marks f.parens = marks f :=
  filterMap_parens mark?_reading f

/-- Separators have none. -/
@[simp] theorem marks_join (separator : String) (fs : List Fragment) :
    marks (join separator fs) = fs.flatMap marks :=
  filterMap_join rfl fs

/-- A text alone has none. -/
@[simp] theorem marks_ofText (s : String) : marks (ofText s) = [] := rfl

/-- A column has none, behind an alias or not. -/
@[simp] theorem marks_qualified (token? : Option Token) (column : String) :
    marks (qualified token? column) = [] := by
  cases token? <;> rfl

/-- An alias that is given to a column has none. -/
@[simp] theorem marks_named (alias? : Option String) (f : Fragment) :
    marks (named alias? f) = marks f := by
  unfold named
  split
  · split <;> simp
  · rfl

/-- A function has none. -/
@[simp] theorem marks_call (function : String) (f : Fragment) :
    marks (call function f) = marks f :=
  marks_wrap _ f

/-- The field that a column is shown as has none. -/
@[simp] theorem marks_shownAs (found : Fragment) (column name : String) :
    marks (shownAs found column name) = marks found := by
  unfold shownAs
  split <;> simp

end Fragment

/-- A fragment brings in no table, and nothing is bound on the way to it. -/
structure Bare (f : Fragment) (t : Trace) : Prop where
  marks : f.marks = []
  bound : t.bound = []

/-- Fragments bring in no table, and nothing is bound on the way to them. -/
structure AllBare (fs : List Fragment) (t : Trace) : Prop where
  marks : fs.flatMap Fragment.marks = []
  bound : t.bound = []

/-- No fragments at all are bare. -/
theorem AllBare.nil : AllBare [] .empty := ⟨rfl, rfl⟩

namespace Context

open Resolve

variable {ctx : Context} {scope : Scope} {f : Fragment} {t : Trace}

/-- A list of bare fragments is bare. -/
theorem mapM_bare {α : Type} {step : α → Resolve Fragment} {xs : List α} {fs : List Fragment}
    (hstep : ∀ x f t, (step x).Yields f t → Bare f t) (h : (xs.mapM step).Yields fs t) :
    AllBare fs t := by
  induction xs generalizing fs t with
  | nil =>
    obtain ⟨rfl, rfl⟩ := mapM_nil_yields.mp h
    exact .nil
  | cons x xs ih =>
    obtain ⟨f, t₁, fs, t₂, hf, hfs, rfl, rfl⟩ := mapM_cons_yields.mp h
    have hhead := hstep x f t₁ hf
    have htail := ih hfs
    exact ⟨by simp [hhead.marks, htail.marks], by simp [hhead.bound, htail.bound]⟩

/-- A reference is resolved without a marker and without a value. -/
theorem findReference_bare {name token field : String} {found : FoundColumn}
    (h : (ctx.findReference name token field).Yields found t) : Bare found.fragment t := by
  simp only [findReference, bind_yields, ofOption_yields, ofExcept_yields, mention_yields,
    pure_yields] at h
  obtain ⟨_, _, _, ⟨_, rfl⟩, ⟨_, _, _, ⟨_, rfl⟩, ⟨column, _, _, ⟨_, rfl⟩, ⟨_, _, _, rfl, ⟨rfl, rfl⟩,
    rfl⟩, rfl⟩, rfl⟩, rfl⟩ := h
  exact ⟨Fragment.marks_qualified (some token) column, rfl⟩

/-- So is the name of a column. -/
theorem findColumn_bare {name : String} {found : FoundColumn}
    (h : (ctx.findColumn scope name).Yields found t) : Bare found.fragment t := by
  unfold findColumn at h
  split at h
  · exact findReference_bare h
  · simp only [bind_yields, ofOption_yields, pure_yields] at h
    obtain ⟨column, _, _, ⟨_, rfl⟩, ⟨rfl, rfl⟩, rfl⟩ := h
    exact ⟨Fragment.marks_qualified scope.token? column, rfl⟩

/-- So is a field. -/
theorem field_bare {name : String} (h : (ctx.field scope name).Yields f t) : Bare f t := by
  simp only [field, bind_yields, pure_yields] at h
  obtain ⟨found, t₁, _, hfound, ⟨rfl, rfl⟩, rfl⟩ := h
  rw [Trace.append_empty]
  exact findColumn_bare hfound

/-- So is a lexeme. -/
theorem lexeme_bare {part : Lexeme} (h : (ctx.lexeme scope part).Yields f t) : Bare f t := by
  cases part with
  | delimiter c =>
    obtain ⟨rfl, rfl⟩ := pure_yields.mp h
    exact ⟨rfl, rfl⟩
  | word cs =>
    simp only [lexeme] at h
    split at h
    · exact field_bare h
    · split at h <;> obtain ⟨rfl, rfl⟩ := pure_yields.mp h
      · exact ⟨Fragment.marks_qualified _ _, rfl⟩
      · exact ⟨rfl, rfl⟩

/-- So is an expression. -/
theorem expression_bare {text : String} (h : (ctx.expression scope text).Yields f t) :
    Bare f t := by
  simp only [expression, bind_yields, pure_yields] at h
  obtain ⟨parts, t₁, _, hparts, ⟨rfl, rfl⟩, rfl⟩ := h
  have hbare := mapM_bare (fun _ _ _ hpart => lexeme_bare hpart) hparts
  refine ⟨?_, by simpa using hbare.bound⟩
  unfold Fragment.marks
  rw [List.filterMap_flatten, ← List.flatMap_def]
  exact hbare.marks

/-- So is the compared side of a condition. -/
theorem comparand_bare {comparison : Comparison} {name : String}
    (h : (ctx.comparand scope comparison name).Yields f t) : Bare f t := by
  unfold comparand at h
  split at h
  · exact field_bare h
  · exact expression_bare h

/-- A bare operand stays bare under a function that adds words only. -/
theorem bind_bare {α : Type} {x : Resolve α} {view : α → Fragment} {step : α → Fragment}
    (hx : ∀ a t, x.Yields a t → Bare (view a) t)
    (hstep : ∀ a, (step a).marks = (view a).marks)
    (h : (x >>= fun a => pure (step a)).Yields f t) : Bare f t := by
  simp only [bind_yields, pure_yields] at h
  obtain ⟨a, t₁, _, ha, ⟨rfl, rfl⟩, rfl⟩ := h
  have hbare := hx a t₁ ha
  exact ⟨(hstep a).trans hbare.marks, by simpa using hbare.bound⟩

/-- A bare fragment stays bare when nothing that has a mark is added. -/
theorem map_bare {x : Resolve Fragment} {step : Fragment → Fragment}
    (hx : ∀ a t, x.Yields a t → Bare a t) (hstep : ∀ a, (step a).marks = a.marks)
    (h : (x >>= fun a => pure (step a)).Yields f t) : Bare f t :=
  bind_bare hx hstep h

/-- An item of the `SELECT` list is bare. -/
theorem selectItem_bare {item : SelectItem} (h : (ctx.selectItem scope item).Yields f t) :
    Bare f t := by
  unfold selectItem at h
  split at h
  case h_1 => exact bind_bare (fun _ _ => findColumn_bare) (fun _ => by simp) h
  case h_2 =>
    split at h
    · obtain ⟨rfl, rfl⟩ := pure_yields.mp h
      exact ⟨by simp, rfl⟩
    · exact map_bare (fun _ _ => expression_bare) (fun _ => by simp) h
  case h_8 => exact map_bare (fun _ _ => field_bare) (fun _ => by simp) h
  all_goals exact map_bare (fun _ _ => expression_bare) (fun _ => by simp) h

/-- So is an item of the `GROUP BY` list. -/
theorem groupItem_bare {item : GroupItem} (h : (ctx.groupItem scope item).Yields f t) :
    Bare f t := by
  refine map_bare (fun _ _ => field_bare) (fun a => ?_) h
  split <;> simp

/-- So is an item of the `ORDER BY` list. -/
theorem orderItem_bare {item : OrderItem} (h : (ctx.orderItem scope item).Yields f t) :
    Bare f t := by
  refine map_bare (fun a t ha => ?_) (fun _ => by simp) h
  unfold orderOperand at ha
  split at ha
  case h_1 => exact field_bare ha
  case h_5 => exact expression_bare ha
  all_goals exact map_bare (fun _ _ => field_bare) (fun _ => by simp) ha

/-- So is the compared side of a condition on groups. -/
theorem havingOperand_bare {item : HavingItem} (h : (ctx.havingOperand scope item).Yields f t) :
    Bare f t := by
  unfold havingOperand at h
  split at h
  · split at h
    · obtain ⟨rfl, rfl⟩ := pure_yields.mp h
      exact ⟨by simp, rfl⟩
    · exact map_bare (fun _ _ => expression_bare) (fun _ => by simp) h
  · exact expression_bare h

/-- So are the keys of a join. -/
theorem joinKeys_bare {parent joined : Scope} {keys : JoinKeys}
    (h : (ctx.joinKeys parent joined keys).Yields f t) : Bare f t := by
  cases keys with
  | single left right =>
    obtain ⟨rfl, rfl⟩ := pure_yields.mp h
    exact ⟨by simp, rfl⟩
  | composite pairs =>
    simp only [joinKeys] at h
    split at h
    · exact absurd h fail_yields
    · simp only [bind_yields, pure_yields] at h
      obtain ⟨parts, t₁, _, hparts, ⟨rfl, rfl⟩, rfl⟩ := h
      have hbare := mapM_bare (fun pair f t hpair => ?_) hparts
      · exact ⟨by simpa using hbare.marks, by simpa using hbare.bound⟩
      · simp only [keyPair, bind_yields, pure_yields] at hpair
        obtain ⟨left, t₁, _, hleft, ⟨right, t₂, _, hright, ⟨rfl, rfl⟩, rfl⟩, rfl⟩ := hpair
        have hl := expression_bare hleft
        have hr := expression_bare hright
        exact ⟨by simp [hl.marks, hr.marks], by simp [hl.bound, hr.bound]⟩

/-- So are the columns that a query names. -/
theorem explicitColumns_bare {clauses : Clauses} {fs : List Fragment}
    (h : (ctx.explicitColumns scope clauses).Yields fs t) : AllBare fs t := by
  unfold explicitColumns at h
  split at h
  · obtain ⟨rfl, rfl⟩ := pure_yields.mp h
    exact .nil
  · exact mapM_bare (fun _ _ _ => selectItem_bare) h

/-- So are the columns that a query shows, whether it names any or not. -/
theorem shownColumns_bare {clauses : Clauses} {fs : List Fragment}
    (h : (ctx.shownColumns scope clauses).Yields fs t) : AllBare fs t := by
  unfold shownColumns at h
  split at h
  · obtain ⟨rfl, rfl⟩ := pure_yields.mp h
    refine ⟨?_, rfl⟩
    simp [allColumns, List.flatMap_map]
  · exact explicitColumns_bare h

/-- So are the columns that a joined query shows. -/
theorem joinedColumns_bare {clauses : Clauses} {fs : List Fragment}
    (h : (ctx.joinedColumns scope clauses).Yields fs t) : AllBare fs t := by
  unfold joinedColumns at h
  split at h
  · obtain ⟨rfl, rfl⟩ := pure_yields.mp h
    exact .nil
  · exact explicitColumns_bare h

end Context

end DynamicSql
