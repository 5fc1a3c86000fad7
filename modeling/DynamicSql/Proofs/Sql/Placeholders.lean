import DynamicSql.Proofs.Sql.Keys
import DynamicSql.Sql.Fragment
import Mathlib.Data.List.Infix

/-!
# Reading placeholders back

A finished text is searched for placeholders at every position. What is found in the text of a
fragment are the places of its markers, in their order, as long as nobody else writes an opening
brace (`placeholders_render`).
-/

namespace DynamicSql

/-- A text without opening braces, with which only markers begin. -/
abbrev Unbraced (s : String) : Prop := '\x7b' ∉ s.toList

/-- Texts without opening braces have none together. -/
theorem Unbraced.append {s t : String} (hs : Unbraced s) (ht : Unbraced t) :
    Unbraced (s ++ t) := by
  rw [Unbraced, String.toList_append, List.mem_append, not_or]
  exact ⟨hs, ht⟩

/-- Numbers are spelled without braces. -/
theorem toString_unbraced (n : Nat) : Unbraced (toString n) := by
  rw [Unbraced, Nat.toString_eq_repr, Nat.toList_repr]
  exact fun h => absurd (Nat.isDigit_of_mem_toDigits (by decide) (by decide) h) (by decide)

/-- The part of a text in front of the next closing brace. -/
def beforeBrace? : List Char → Option (List Char)
  | [] => none
  | c :: rest => if c = '\x7d' then some [] else (beforeBrace? rest).map (c :: ·)

/-- How the placeholders of a set begin. -/
def opening (root : String) (space : Namespace) : List Char :=
  '#' :: '\x7b' :: root.toList ++ '.' :: space.name.toList ++ ['.']

/-- The key of the placeholder for a set that a text begins with. -/
def keyAt? (root : String) (space : Namespace) (cs : List Char) : Option String := do
  let rest ← cs.dropPrefix? (opening root space)
  let key ← beforeBrace? rest
  some (String.ofList key)

/-- The placeholder that a text begins with: a set and a key. -/
def placeholderAt? (root : String) (cs : List Char) : Option (Namespace × String) :=
  [Namespace.field, .filter].findSome? fun space => (keyAt? root space cs).map (space, ·)

/-- The placeholders at all positions of a text, from left to right. -/
def scan (root : String) (cs : List Char) : List (Namespace × String) :=
  cs.tails.filterMap (placeholderAt? root)

/-- The placeholders of a statement, from left to right. -/
def placeholders (root sql : String) : List (Namespace × String) := scan root sql.toList

/-- A text does not go on with an opening brace. -/
def Closed (cs : List Char) : Prop := cs.head? ≠ some '\x7b'

/-- The empty text does not go on. -/
theorem Closed.nil : Closed [] := by
  intro h
  cases h

/-- A text without opening braces does not go on with one where the rest does not. -/
theorem Closed.append {s rest : List Char} (hs : '\x7b' ∉ s) (hrest : Closed rest) :
    Closed (s ++ rest) := by
  cases s with
  | nil => exact hrest
  | cons c s =>
    intro h
    obtain rfl : c = '\x7b' := by simpa using h
    exact hs List.mem_cons_self

/-- No placeholder of a set begins without a sharp and an opening brace behind it. -/
theorem keyAt?_cons_eq_none {root : String} {space : Namespace} {c : Char} {rest : List Char}
    (h : c ≠ '#' ∨ Closed rest) : keyAt? root space (c :: rest) = none := by
  have hdrop : (c :: rest).dropPrefix? (opening root space) = none := by
    rw [Option.eq_none_iff_forall_ne_some]
    intro s hs
    obtain ⟨p, happ, hp⟩ := List.dropPrefix?_eq_some_iff.mp hs
    rw [eq_of_beq hp, opening] at happ
    simp only [List.cons_append, List.cons.injEq] at happ
    obtain ⟨rfl, rfl⟩ := happ
    exact h.elim (fun hc => hc rfl) (fun hclosed => hclosed rfl)
  rw [keyAt?, hdrop]
  rfl

/-- So no placeholder at all begins there. -/
theorem placeholderAt?_cons_eq_none {root : String} {c : Char} {rest : List Char}
    (h : c ≠ '#' ∨ Closed rest) : placeholderAt? root (c :: rest) = none := by
  simp [placeholderAt?, keyAt?_cons_eq_none h]

/-- Such a character is passed over. -/
theorem scan_cons {root : String} {c : Char} {rest : List Char} (h : c ≠ '#' ∨ Closed rest) :
    scan root (c :: rest) = scan root rest := by
  rw [scan, List.tails_cons, List.filterMap_cons_none (placeholderAt?_cons_eq_none h), scan]

/-- Text without opening braces holds no placeholder. -/
theorem scan_append {root : String} {s rest : List Char} (hs : '\x7b' ∉ s) (hrest : Closed rest) :
    scan root (s ++ rest) = scan root rest := by
  induction s with
  | nil => rfl
  | cons c s ih =>
    have htail : '\x7b' ∉ s := fun h => hs (List.mem_cons_of_mem c h)
    rw [List.cons_append, scan_cons (.inr (hrest.append htail)), ih htail]

/-- A key without closing braces is what stands in front of the next one. -/
theorem beforeBrace?_append {key rest : List Char} (h : '\x7d' ∉ key) :
    beforeBrace? (key ++ '\x7d' :: rest) = some key := by
  induction key with
  | nil => rfl
  | cons c key ih =>
    have hc : c ≠ '\x7d' := fun hc => h (hc ▸ List.mem_cons_self)
    have hkey : '\x7d' ∉ key := fun hkey => h (List.mem_cons_of_mem c hkey)
    rw [List.cons_append, beforeBrace?, if_neg hc, ih hkey, Option.map_some]

/-- A marker is the opening of its set, its key and a closing brace. -/
theorem marker_toList (root : String) (space : Namespace) (key : String) :
    (marker root space key).toList = opening root space ++ (key.toList ++ ['\x7d']) := by
  simp [marker, opening]

/-- A set is told by the opening of its placeholders. -/
theorem keyAt?_opening_of_ne {root : String} {space other : Namespace} (h : space ≠ other)
    (rest : List Char) : keyAt? root space (opening root other ++ rest) = none := by
  have hdrop : (opening root other ++ rest).dropPrefix? (opening root space) = none := by
    rw [Option.eq_none_iff_forall_ne_some]
    intro s hs
    obtain ⟨p, happ, hp⟩ := List.dropPrefix?_eq_some_iff.mp hs
    rw [eq_of_beq hp, opening, opening] at happ
    cases space <;> cases other <;> simp [Namespace.name] at h happ
  rw [keyAt?, hdrop]
  rfl

/-- Behind the opening of a set, the key is read. -/
theorem keyAt?_opening {root : String} {space : Namespace} {key : String} {rest : List Char}
    (h : '\x7d' ∉ key.toList) :
    keyAt? root space (opening root space ++ (key.toList ++ '\x7d' :: rest)) = some key := by
  have hdrop := List.dropPrefix?_append_of_beq (key.toList ++ '\x7d' :: rest)
    (beq_self_eq_true (opening root space))
  rw [keyAt?, hdrop, Option.bind_eq_bind, Option.bind_some, beforeBrace?_append h]
  simp

/-- A marker is read back as its set and its key. -/
theorem placeholderAt?_marker {root : String} {space : Namespace} {key : String}
    {rest : List Char} (h : '\x7d' ∉ key.toList) :
    placeholderAt? root ((marker root space key).toList ++ rest) = some (space, key) := by
  rw [marker_toList, List.append_assoc, List.append_assoc, List.singleton_append]
  cases space with
  | field => simp [placeholderAt?, keyAt?_opening h]
  | filter =>
    have hother : Namespace.field ≠ .filter := by decide
    simp [placeholderAt?, keyAt?_opening h, keyAt?_opening_of_ne hother]

/-- Behind its first two characters, a marker has no opening brace. -/
theorem exists_marker_toList {root : String} {space : Namespace} {key : String}
    (hroot : Unbraced root) (hkey : '\x7b' ∉ key.toList) :
    ∃ body, (marker root space key).toList = '#' :: '\x7b' :: body ∧ '\x7b' ∉ body := by
  refine ⟨root.toList ++ '.' :: space.name.toList ++ '.' :: key.toList ++ ['\x7d'], ?_, ?_⟩
  · simp [marker]
  · cases space <;> simp [Namespace.name, hroot, hkey]

/-- A marker is found where it stands, and only there. -/
theorem scan_marker {root : String} {space : Namespace} {key : String} {rest : List Char}
    (hroot : Unbraced root) (hopen : '\x7b' ∉ key.toList) (hclose : '\x7d' ∉ key.toList)
    (hrest : Closed rest) :
    scan root ((marker root space key).toList ++ rest) = (space, key) :: scan root rest := by
  obtain ⟨body, htext, hbody⟩ := exists_marker_toList  hroot hopen
  have hfound : placeholderAt? root ((marker root space key).toList ++ rest) = some (space, key) :=
    placeholderAt?_marker hclose
  rw [htext, List.cons_append, List.cons_append] at hfound ⊢
  have hbrace : '\x7b' ≠ '#' := by decide
  rw [scan, List.tails_cons, List.filterMap_cons_some hfound, ← scan, scan_cons (.inl hbrace),
    scan_append hbody hrest]

/-- A piece other than a marker writes no opening brace. -/
def Piece.Clean : Piece → Prop
  | .text s | .table s _ | .column _ s => Unbraced s
  | .marker _ => True

/-- Only the markers of a fragment write opening braces. -/
def Fragment.Clean (f : Fragment) : Prop := ∀ piece ∈ f, piece.Clean

/-- What a placeholder shows of a place. -/
def Slot.shown (s : Slot) : Namespace × String := (s.purpose.space, s.key)

/-- Keys have letters, digits and underscores only. -/
theorem Slot.not_mem_key {s : Slot} (h : s.path.Lettered) {c : Char} (hc : ¬c.isAlphanum)
    (hne : c ≠ '_') : c ∉ s.key.toList :=
  fun hmem => (isAlphanum_of_mem_key h hmem).elim hc hne

/-- Aliases have no braces. -/
theorem Aliases.text_unbraced (a : Aliases) (token : Token) : Unbraced (a.text token) := by
  have hletter : Unbraced "t" := by decide
  exact hletter.append (toString_unbraced _)

/-- A piece that is no marker writes no opening brace. -/
theorem Piece.not_mem_pieceChars (root : String) (aliases : Aliases) {piece : Piece}
    (hclean : piece.Clean) (hslot : piece.slot? = none) :
    '\x7b' ∉ Fragment.pieceChars root aliases.text piece := by
  cases piece with
  | text s => exact hclean
  | table name token =>
    simp only [Fragment.pieceChars, List.mem_append, List.mem_cons, not_or]
    exact ⟨hclean, by decide, aliases.text_unbraced token⟩
  | column token name =>
    simp only [Fragment.pieceChars, List.mem_append, List.mem_cons, not_or]
    exact ⟨aliases.text_unbraced token, by decide, hclean⟩
  | marker slot => simp [Piece.slot?] at hslot

/-- The placeholders in the text of a fragment are its markers, from left to right, and the text
does not continue a placeholder in front of it. -/
theorem Fragment.scan_chars {root : String} {aliases : Aliases} {f : Fragment} {rest : List Char}
    (hroot : Unbraced root) (hclean : f.Clean) (hslots : ∀ s ∈ f.slots, s.path.Lettered)
    (hrest : Closed rest) :
    scan root (f.chars root aliases.text ++ rest) = f.slots.map Slot.shown ++ scan root rest ∧
      Closed (f.chars root aliases.text ++ rest) := by
  -- That the text goes on without an opening brace is carried along, so no text in front can end in
  -- half a marker.
  induction f with
  | nil => exact ⟨rfl, hrest⟩
  | cons piece f ih =>
    have hchars : chars root aliases.text (piece :: f) ++ rest =
        pieceChars root aliases.text piece ++ (chars root aliases.text f ++ rest) := by
      rw [chars, List.flatMap_cons, List.append_assoc, chars]
    have hpiece := hclean piece List.mem_cons_self
    have htail : Clean f := fun p hp => hclean p (List.mem_cons_of_mem piece hp)
    rw [hchars]
    cases hslot : piece.slot? with
    | none =>
      have hslots' : slots (piece :: f) = slots f := List.filterMap_cons_none hslot
      rw [hslots'] at hslots ⊢
      obtain ⟨hscan, hclosed⟩ := ih htail hslots
      have hfree := Piece.not_mem_pieceChars root aliases hpiece hslot
      exact ⟨(scan_append hfree hclosed).trans hscan, hclosed.append hfree⟩
    | some slot =>
      have hslots' : slots (piece :: f) = slot :: slots f := List.filterMap_cons_some hslot
      rw [hslots'] at hslots ⊢
      obtain ⟨hscan, hclosed⟩ := ih htail fun s hs => hslots s (List.mem_cons_of_mem slot hs)
      cases piece with
      | marker slot' =>
        obtain rfl : slot' = slot := Option.some.inj hslot
        have hlettered := hslots slot' List.mem_cons_self
        have hopen := Slot.not_mem_key hlettered (by decide : ¬ '\x7b'.isAlphanum) (by decide)
        have hclose := Slot.not_mem_key hlettered (by decide : ¬ '\x7d'.isAlphanum) (by decide)
        refine ⟨?_, ?_⟩
        · rw [List.map_cons, List.cons_append, ← hscan]
          exact scan_marker hroot hopen hclose hclosed
        · obtain ⟨body, htext, -⟩ := exists_marker_toList hroot hopen
          change Closed ((marker root slot'.purpose.space slot'.key).toList ++ _)
          rw [htext]
          exact fun h => absurd (Option.some.inj h) (by decide)
      | _ => cases hslot

end DynamicSql
