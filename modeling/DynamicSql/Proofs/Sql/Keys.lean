import DynamicSql.Sql.Path

/-!
# Keys tell places apart

A key spells the way to its place: the number of the statement, the segments of the path, the
number in the group and, for a member, the number of the member. The main statement is
`Slot.way_eq_of_key_eq`: where tags consist of letters, two places with the same key in the same
set are reached by the same way.
-/

namespace DynamicSql

/-- The tag of a segment consists of letters. -/
def Segment.Lettered (s : Segment) : Prop := ∀ c ∈ s.tag.toList, c.isAlpha

/-- A step of a way that is a number alone. -/
def Segment.ofNumber (n : Nat) : Segment := ⟨"", some n⟩

/-- All tags of a path consist of letters. -/
def Path.Lettered (p : Path) : Prop := ∀ s ∈ p.segments, s.Lettered

/-- The steps to a path, which begin with the number of the statement. -/
def Path.way (p : Path) : List Segment := .ofNumber p.root :: p.segments

/-- The steps to a place. -/
def Slot.way (s : Slot) : List Segment :=
  s.path.way ++ .ofNumber s.index :: s.item?.toList.map .ofNumber

/-- The steps of a way, each behind an underscore. -/
def spelling (way : List Segment) : List Char :=
  way.flatMap fun s => '_' :: s.text.toList

/-- A number alone has no tag, so its tag consists of letters. -/
theorem Segment.ofNumber_lettered (n : Nat) : (ofNumber n).Lettered := List.forall_mem_nil _

/-- The steps to a place have tags of letters if its path does. -/
theorem Slot.way_lettered {s : Slot} (h : s.path.Lettered) : ∀ g ∈ s.way, g.Lettered := by
  intro g hg
  simp only [way, Path.way, List.cons_append, List.mem_cons, List.mem_append, List.mem_map] at hg
  obtain rfl | hg | rfl | ⟨n, -, rfl⟩ := hg
  · exact Segment.ofNumber_lettered _
  · exact h g hg
  · exact Segment.ofNumber_lettered _
  · exact Segment.ofNumber_lettered n

namespace Segment

/-- The digits of the number of a segment. -/
def digits (s : Segment) : List Char := (s.number?.map (Nat.toDigits 10)).getD []

/-- A segment is spelled by its tag and its digits. -/
theorem text_toList (s : Segment) : s.text.toList = s.tag.toList ++ s.digits := by
  unfold text digits
  cases s.number? with
  | none => simp
  | some n => simp [Nat.toString_eq_repr]

/-- The digits of a segment are digits. -/
theorem isDigit_of_mem_digits {s : Segment} {c : Char} (h : c ∈ s.digits) : c.isDigit := by
  unfold digits at h
  cases hn : s.number? with
  | none => simp [hn] at h
  | some n =>
    rw [hn] at h
    exact Nat.isDigit_of_mem_toDigits (by decide) (by decide) h

/-- A number is known by its digits. -/
theorem number_eq_of_digits_eq {s t : Segment} (h : s.digits = t.digits) :
    s.number? = t.number? := by
  unfold digits at h
  cases hs : s.number? with
  | none =>
    cases ht : t.number? with
    | none => rfl
    | some n => simp [hs, ht] at h
  | some m =>
    cases ht : t.number? with
    | none => simp [hs, ht] at h
    | some n =>
      simp only [hs, ht, Option.map_some, Option.getD_some] at h
      rw [← Nat.ofDigitChars_ten_toDigits (n := m), h, Nat.ofDigitChars_ten_toDigits]

/-- A letter is no digit. -/
theorem not_isAlpha_of_isDigit {c : Char} (h : c.isDigit) : ¬c.isAlpha := by
  intro halpha
  obtain ⟨-, hhigh⟩ := Char.isDigit_iff_toNat.mp h
  have hletter : 'A'.val ≤ c.val ∧ c.val ≤ 'Z'.val ∨ 'a'.val ≤ c.val ∧ c.val ≤ 'z'.val := by
    change (decide (c.val ≥ 'A'.val ∧ c.val ≤ 'Z'.val) || (c.val ≥ 'a'.val && c.val ≤ 'z'.val))
      = true at halpha
    simpa using halpha
  have hnine : '9'.toNat = 57 := rfl
  rcases hletter with ⟨hletter, -⟩ | ⟨hletter, -⟩
  · have hcode : 65 ≤ c.toNat := UInt32.le_iff_toNat_le.mp hletter
    omega
  · have hcode : 97 ≤ c.toNat := UInt32.le_iff_toNat_le.mp hletter
    omega

/-- The tag of a segment is the run of letters that its text begins with. -/
theorem takeWhile_text {s : Segment} (h : s.Lettered) :
    s.text.toList.takeWhile Char.isAlpha = s.tag.toList := by
  rw [text_toList, List.takeWhile_append_of_pos h]
  cases hdigits : s.digits with
  | nil => rw [List.takeWhile_nil, List.append_nil]
  | cons c rest =>
    have hc : c ∈ s.digits := hdigits ▸ List.mem_cons_self
    rw [List.takeWhile_cons_of_neg (not_isAlpha_of_isDigit (isDigit_of_mem_digits hc)),
      List.append_nil]

/-- Segments with tags of letters are known by their texts. -/
theorem eq_of_text_eq {s t : Segment} (hs : s.Lettered) (ht : t.Lettered)
    (h : s.text.toList = t.text.toList) : s = t := by
  have htag : s.tag.toList = t.tag.toList := by rw [← takeWhile_text hs, ← takeWhile_text ht, h]
  rw [text_toList, text_toList, htag] at h
  have hnumber := number_eq_of_digits_eq (List.append_cancel_left h)
  obtain ⟨tag, number⟩ := s
  obtain ⟨tag', number'⟩ := t
  rw [Segment.mk.injEq]
  exact ⟨String.toList_inj.mp htag, hnumber⟩

/-- The text of a segment with a tag of letters consists of letters and digits. -/
theorem isAlphanum_of_mem_text {s : Segment} (h : s.Lettered) {c : Char}
    (hc : c ∈ s.text.toList) : c.isAlphanum := by
  rw [text_toList, List.mem_append] at hc
  rcases hc with hc | hc
  · simp [Char.isAlphanum, h c hc]
  · simp [Char.isAlphanum, isDigit_of_mem_digits hc]

end Segment

/-- What stands in front of the first underscore is known from the whole. -/
theorem takeWhile_append_underscore {a x : List Char} (ha : '_' ∉ a)
    (hx : x = [] ∨ ∃ r, x = '_' :: r) : (a ++ x).takeWhile (· != '_') = a := by
  rw [List.takeWhile_append_of_pos fun c hc => bne_iff_ne.mpr fun heq : c = '_' => ha (heq ▸ hc)]
  obtain rfl | ⟨r, rfl⟩ := hx <;> simp

/-- The spelling of a way is empty or begins with an underscore. -/
theorem spelling_head (way : List Segment) : spelling way = [] ∨ ∃ r, spelling way = '_' :: r := by
  cases way with
  | nil => exact .inl rfl
  | cons s rest => exact .inr ⟨_, rfl⟩

/-- Ways with tags of letters are known by their spellings. -/
theorem eq_of_spelling_eq {v w : List Segment} (hv : ∀ s ∈ v, s.Lettered)
    (hw : ∀ s ∈ w, s.Lettered) (h : spelling v = spelling w) : v = w := by
  induction v generalizing w with
  | nil =>
    cases w with
    | nil => rfl
    | cons t w => simp [spelling] at h
  | cons s v ih =>
    cases w with
    | nil => simp [spelling] at h
    | cons t w =>
      have hs := hv s List.mem_cons_self
      have ht := hw t List.mem_cons_self
      -- Segments hold no underscore, so the next one ends the segment in both spellings.
      have hfree : ∀ {g : Segment}, g.Lettered → '_' ∉ g.text.toList := fun hg hmem =>
        absurd (Segment.isAlphanum_of_mem_text hg hmem) (by decide)
      have hcons : s.text.toList ++ spelling v = t.text.toList ++ spelling w :=
        (List.cons.inj h).2
      have htext : s.text.toList = t.text.toList := by
        rw [← takeWhile_append_underscore (hfree hs) (spelling_head v), hcons,
          takeWhile_append_underscore (hfree ht) (spelling_head w)]
      have hrest : spelling v = spelling w := List.append_cancel_left (htext ▸ hcons)
      rw [Segment.eq_of_text_eq hs ht htext,
        ih (fun g hg => hv g (List.mem_cons_of_mem _ hg))
          (fun g hg => hw g (List.mem_cons_of_mem _ hg)) hrest]

/-- Ways are spelled one after the other. -/
@[simp] theorem spelling_append (v w : List Segment) :
    spelling (v ++ w) = spelling v ++ spelling w :=
  List.flatMap_append

/-- A number alone is spelled as a number. -/
@[simp] theorem Segment.text_ofNumber (n : Nat) : (ofNumber n).text = toString n := by
  simp [ofNumber, text]

/-- A number in front of a way is spelled behind an underscore. -/
@[simp] theorem spelling_ofNumber_cons (n : Nat) (w : List Segment) :
    spelling (.ofNumber n :: w) = '_' :: (toString n).toList ++ spelling w := by
  simp [spelling]

/-- The text of a path, behind an underscore, is the spelling of its way. -/
theorem Path.text_toList (p : Path) : '_' :: p.text.toList = spelling p.way := by
  have hfold : ∀ (segments : List Segment) (front : String),
      (segments.foldl (fun s g => s ++ "_" ++ g.text) front).toList =
        front.toList ++ spelling segments := by
    intro segments
    induction segments with
    | nil => intro front; simp [spelling]
    | cons g rest ih => intro front; simp [ih, spelling]
  rw [Path.way, spelling_ofNumber_cons, Path.text, hfold, List.cons_append]

namespace Slot

/-- A key is its stem with the spelled way behind it, less the first underscore. -/
theorem key_toList (s : Slot) :
    s.key.toList = s.purpose.stem.toList ++ (spelling s.way).tail := by
  unfold key Path.key way
  rw [spelling_append, ← Path.text_toList]
  cases s.item? <;> simp [spelling]

/-- What a key begins with says what the value is for. -/
theorem purpose_eq_of_key_eq {s t : Slot} (hspace : s.purpose.space = t.purpose.space)
    (hkey : s.key = t.key) : s.purpose = t.purpose := by
  have hchars := congrArg String.toList hkey
  rw [key_toList, key_toList] at hchars
  cases hs : s.purpose <;> cases ht : t.purpose <;>
    simp [hs, ht, Purpose.space, Purpose.stem] at hspace hchars ⊢

/-- Places with the same key in the same set are reached by the same way. -/
theorem way_eq_of_key_eq {s t : Slot} (hs : s.path.Lettered) (ht : t.path.Lettered)
    (hspace : s.purpose.space = t.purpose.space) (hkey : s.key = t.key) : s.way = t.way := by
  refine eq_of_spelling_eq (way_lettered hs) (way_lettered ht) ?_
  have hchars := congrArg String.toList hkey
  rw [key_toList, key_toList, purpose_eq_of_key_eq hspace hkey] at hchars
  have htail := List.append_cancel_left hchars
  unfold way Path.way at htail ⊢
  simp only [List.cons_append, spelling_ofNumber_cons, List.tail_cons] at htail ⊢
  rw [htail]

/-- A key consists of letters, digits and underscores. -/
theorem isAlphanum_of_mem_key {s : Slot} (h : s.path.Lettered) {c : Char}
    (hc : c ∈ s.key.toList) : c.isAlphanum ∨ c = '_' := by
  rw [key_toList, List.mem_append] at hc
  rcases hc with hc | hc
  · have hstem : s.purpose.stem.toList.all (fun c => c.isAlphanum || c == '_') := by
      cases s.purpose <;> decide
    simpa using List.all_eq_true.mp hstem c hc
  · obtain ⟨g, hg, hmem⟩ := List.mem_flatMap.mp (List.mem_of_mem_tail hc)
    obtain rfl | hmem := List.mem_cons.mp hmem
    · exact .inr rfl
    · exact .inl (Segment.isAlphanum_of_mem_text (way_lettered h g hg) hmem)

end Slot

end DynamicSql
