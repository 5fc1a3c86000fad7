import Mathlib.Data.List.Induction
import DynamicSql.Json.Parser
import DynamicSql.Json.Printer
import DynamicSql.Proofs.Text.Digits

/-!
# Documents that are read back

A document whose numbers are integers is read back from its compact text (`parse?_render`). Strings
are read back escape by escape, integers up to the first character that is no digit, and arrays and
objects by induction over the document: what follows a part is a comma or a closing bracket. A
document whose members stand in the order of their keys is its own canonical form
(`canonical?_eq_self`).
-/

namespace DynamicSql.Json

open Decimal (NoDigitAhead noDigitAhead_cons isDigit readDigits isDigit_of_mem_toDigits
  readDigits_toDigits spanDigits_append head?_toDigits)

mutual

/-- The numbers of a document are integers of 64 bits, signed or unsigned. -/
def Integral : Json → Prop
  | .integer n => Int64.minValue.toInt ≤ n ∧ n < UInt64.size
  | .float _ => False
  | .array items => ItemsIntegral items
  | .object members => MembersIntegral members
  | .null | .bool _ | .string _ => True

/-- The numbers of the items of an array are integers. -/
def ItemsIntegral : List Json → Prop
  | [] => True
  | j :: rest => j.Integral ∧ ItemsIntegral rest

/-- The numbers in the members of an object are integers. -/
def MembersIntegral : List (String × Json) → Prop
  | [] => True
  | (_, j) :: rest => j.Integral ∧ MembersIntegral rest

end

mutual

/-- The members of every object of a document stand in the order of their keys, each key once. -/
def Sorted : Json → Prop
  | .array items => ItemsSorted items
  | .object members => members.Pairwise (·.1 < ·.1) ∧ MembersSorted members
  | .null | .bool _ | .integer _ | .float _ | .string _ => True

/-- The items of an array have sorted members. -/
def ItemsSorted : List Json → Prop
  | [] => True
  | j :: rest => j.Sorted ∧ ItemsSorted rest

/-- The values in the members of an object have sorted members. -/
def MembersSorted : List (String × Json) → Prop
  | [] => True
  | (_, j) :: rest => j.Sorted ∧ MembersSorted rest

end

section Strings

/-- Put a character in front of a string that was read. -/
def withChar (c : Char) (x : List Char × List Char) : List Char × List Char := (c :: x.1, x.2)

/-- A one-letter escape is read as its character. -/
theorem stringBody?_escape {c d : Char} (hd : d ≠ 'u') (h : escape? d = some c)
    (rest : List Char) :
    stringBody? ('\\' :: d :: rest) = (stringBody? rest).map (withChar c) := by
  rw [stringBody?.eq_4 _ _ fun _ _ _ _ _ heq _ => hd heq, h]
  cases stringBody? rest <;> rfl

/-- The escape of a control character is read as the character. -/
theorem stringBody?_control {c : Char} (h : c.toNat < 0x20) (rest : List Char) :
    stringBody? ('\\' :: 'u' :: Text.hexDigits 4 c.toNat ++ rest) =
      (stringBody? rest).map (withChar c) := by
  have hunit := Text.readHex?_hexDigits 0 4 c.toNat
  rw [Nat.zero_mul, Nat.zero_add, Nat.mod_eq_of_lt (by omega)] at hunit
  obtain ⟨a, b, d, e, hdigits⟩ : ∃ a b d e, Text.hexDigits 4 c.toNat = [a, b, d, e] :=
    ⟨_, _, _, _, rfl⟩
  have hlead : isLeadUnit c.toNat = false := by simp [isLeadUnit]; omega
  have htrail : isTrailUnit c.toNat = false := by simp [isTrailUnit]; omega
  rw [hdigits] at hunit ⊢
  rw [List.cons_append, List.cons_append, List.cons_append, List.cons_append, List.cons_append,
    List.cons_append, List.nil_append, stringBody?.eq_3, hunit]
  simp only [Option.bind_eq_bind, Option.bind_some, hlead, htrail, Bool.false_eq_true, if_false,
    Char.ofNat_toNat]
  cases stringBody? rest <;> rfl

/-- Any other character is read as it is. -/
theorem stringBody?_cons {c : Char} (hmark : c ≠ '"') (hescape : c ≠ '\\') (h : ¬c.toNat < 0x20)
    (rest : List Char) : stringBody? (c :: rest) = (stringBody? rest).map (withChar c) := by
  rw [stringBody?.eq_5 _ _ hmark (fun _ _ _ _ _ heq _ => hescape heq)
    (fun _ _ heq _ => hescape heq), if_neg h]
  cases stringBody? rest <;> rfl

/-- An escaped character is read back. -/
theorem stringBody?_escapeChar (c : Char) (rest : List Char) :
    stringBody? (escapeChar c ++ rest) = (stringBody? rest).map (withChar c) := by
  unfold escapeChar
  split
  case isTrue h => exact h ▸ stringBody?_escape (d := '"') (by decide) rfl rest
  case isFalse hmark =>
  split
  case isTrue h => exact h ▸ stringBody?_escape (d := '\\') (by decide) rfl rest
  case isFalse hescape =>
  split
  case isTrue h => exact h ▸ stringBody?_escape (d := 'n') (by decide) rfl rest
  split
  case isTrue h => exact h ▸ stringBody?_escape (d := 'r') (by decide) rfl rest
  split
  case isTrue h => exact h ▸ stringBody?_escape (d := 't') (by decide) rfl rest
  split
  case isTrue h =>
    obtain rfl : c = '\x08' := Char.ext (UInt32.toNat_inj.mp h)
    exact stringBody?_escape (by decide) rfl rest
  split
  case isTrue h =>
    obtain rfl : c = '\x0c' := Char.ext (UInt32.toNat_inj.mp h)
    exact stringBody?_escape (by decide) rfl rest
  split
  case isTrue h => exact stringBody?_control h rest
  case isFalse h => exact stringBody?_cons hmark hescape h rest

/-- A quoted string is read back behind its opening mark. -/
theorem stringBody?_quoted (cs rest : List Char) :
    stringBody? (cs.flatMap escapeChar ++ '"' :: rest) = some (cs, rest) := by
  induction cs with
  | nil => rfl
  | cons c cs ih =>
    rw [List.flatMap_cons, List.append_assoc, stringBody?_escapeChar, ih]
    rfl

/-- A quoted text begins and ends with a quotation mark. -/
theorem quote_append (s : String) (rest : List Char) :
    quote s ++ rest = '"' :: (s.toList.flatMap escapeChar ++ '"' :: rest) := by
  simp [quote]

/-- The key of a member is read back. -/
theorem key?_quote (key : String) (rest : List Char) :
    key? (quote key ++ ':' :: rest) = some (key, rest) := by
  rw [quote_append]
  change ((stringBody? _).bind _) = _
  rw [stringBody?_quoted]
  change some (String.ofList key.toList, rest) = _
  rw [String.ofList_toList]

end Strings

section Numbers

/-- Digits are gathered while their number fits. -/
theorem gather_digits (digits : List Char) (acc : Nat)
    (h : acc * 10 ^ digits.length + readDigits digits < UInt64.size) :
    gather acc digits = (acc * 10 ^ digits.length + readDigits digits, []) := by
  induction digits generalizing acc with
  | nil => simp [gather, Decimal.readDigits]
  | cons c digits ih =>
    have hsplit : acc * 10 ^ (c :: digits).length + readDigits (c :: digits) =
        (acc * 10 + Decimal.digitValue c) * 10 ^ digits.length + readDigits digits := by
      have hcons := Decimal.readDigits_append [c] digits
      have hsingle : readDigits [c] = Decimal.digitValue c := by simp [Decimal.readDigits]
      rw [List.singleton_append, hsingle] at hcons
      rw [hcons, List.length_cons, Nat.pow_succ, Nat.add_mul, Nat.mul_assoc, Nat.mul_comm 10,
        Nat.add_assoc]
    rw [hsplit] at h ⊢
    have hpos : 0 < 10 ^ digits.length := Nat.pow_pos (by decide)
    -- What has been read stays below the whole number, so no step overflows.
    have hnext := Nat.le_mul_of_pos_right (acc * 10 + Decimal.digitValue c) hpos
    rw [gather, if_pos (by omega), ih _ h]

/-- What may follow a document: nothing, a comma or a closing bracket. -/
def Delimited (cs : List Char) : Prop := ∀ c ∈ cs.head?, c = ',' ∨ c = ']' ∨ c = '\x7d'

/-- The end of a document delimits a value. -/
theorem delimited_nil : Delimited [] := nofun

/-- No digit stands where a value is delimited. -/
theorem Delimited.noDigitAhead {cs : List Char} (h : Delimited cs) : NoDigitAhead cs := by
  intro c hc
  obtain rfl | rfl | rfl := h c hc <;> decide

/-- Behind digits that are not superfluous, a number ends at a delimiter. -/
theorem unsigned?_toDigits (negative : Bool) (m : Nat) {rest : List Char} (hrest : Delimited rest) :
    unsigned? negative (Nat.toDigits 10 m ++ rest) =
      some (ofDigits negative (Nat.toDigits 10 m), rest) := by
  have hzero : ((Nat.toDigits 10 m).head? == some '0' && (Nat.toDigits 10 m).length != 1) =
      false := by
    obtain rfl | hpos := Nat.eq_zero_or_pos m
    · rfl
    · simp [head?_toDigits hpos]
  have hempty : (Nat.toDigits 10 m).isEmpty = false := by simp
  rw [unsigned?, spanDigits_append isDigit_of_mem_toDigits hrest.noDigitAhead]
  simp only [hzero, hempty, Bool.or_false, Bool.false_eq_true, if_false]
  cases rest with
  | nil => rfl
  | cons c rest =>
    obtain rfl | rfl | rfl := hrest c rfl <;> rfl

/-- The digits of a number in the range of a word are read as that number. -/
theorem ofDigits_toDigits (negative : Bool) {m : Nat} (h : m < UInt64.size) :
    ofDigits negative (Nat.toDigits 10 m) =
      if !negative then .integer m
      else if m = 0 ∨ Nat.pow 2 63 < m then .float (Decimal.Binary64.ofInt m).neg
      else .integer (-m) := by
  have hgather := gather_digits (Nat.toDigits 10 m) 0
    (by rwa [Nat.zero_mul, Nat.zero_add, readDigits_toDigits])
  rw [Nat.zero_mul, Nat.zero_add, readDigits_toDigits] at hgather
  rw [ofDigits, hgather]
  rfl

/-- The text of an integer is its digits behind its sign. -/
theorem toList_toString (n : Int) :
    (toString n).toList = (if n < 0 then ['-'] else []) ++ Nat.toDigits 10 n.natAbs := by
  have htext : ∀ m : Nat, (Nat.repr m).toList = Nat.toDigits 10 m := fun m => by
    rw [← Nat.toString_eq_repr, Nat.toString_eq_ofList_toDigits, String.toList_ofList]
  cases n with
  | ofNat m => exact htext m
  | negSucc m =>
    rw [if_pos (Int.negSucc_lt_zero m)]
    change ("-" ++ Nat.repr (m + 1)).toList = _
    rw [String.toList_append, htext]
    rfl

/-- An integer of 64 bits is read back. -/
theorem number?_integer {n : Int} (hn : Integral (.integer n)) {rest : List Char}
    (hrest : Delimited rest) :
    number? ((toString n).toList ++ rest) = some (.integer n, rest) := by
  obtain ⟨hmin, hmax⟩ := hn
  have hbounds : Int64.minValue.toInt = -9223372036854775808 ∧
      UInt64.size = 18446744073709551616 ∧ Nat.pow 2 63 = 9223372036854775808 := by decide
  have hsize : n.natAbs < UInt64.size := by omega
  have hread := unsigned?_toDigits (n < 0) n.natAbs hrest
  rw [ofDigits_toDigits _ hsize] at hread
  rw [toList_toString]
  by_cases hneg : n < 0
  · rw [if_pos hneg]
    change unsigned? true _ = _
    have habs : -(n.natAbs : Int) = n := by omega
    have hfits : ¬(n.natAbs = 0 ∨ Nat.pow 2 63 < n.natAbs) := by omega
    rw [if_neg (by simp [hneg]), if_neg hfits, habs, decide_eq_true hneg] at hread
    exact hread
  · have habs : (n.natAbs : Int) = n := by omega
    obtain ⟨d, ds, hds⟩ :=
      List.exists_cons_of_ne_nil (Nat.toDigits_ne_nil (n := n.natAbs) (b := 10))
    have hd : d ≠ '-' := by
      rintro rfl
      exact absurd (isDigit_of_mem_toDigits '-' (hds ▸ List.mem_cons_self)) (by decide)
    have hnumber : number? (Nat.toDigits 10 n.natAbs ++ rest) =
        unsigned? false (Nat.toDigits 10 n.natAbs ++ rest) := by
      rw [hds, List.cons_append, number?.eq_2 _ fun _ heq => hd (List.cons.inj heq).1]
    rw [if_neg hneg, List.nil_append, hnumber]
    simpa [hneg, habs] using hread

end Numbers

section Documents

/-- The first character of a document is no white space and closes nothing. -/
def Opens (c : Char) : Prop := isSpace c = false ∧ c ≠ ']' ∧ c ≠ '\x7d'

/-- The first character of an integer is a digit or a minus sign. -/
def OpensNumber (c : Char) : Prop := isDigit c = true ∨ c = '-'

instance (c : Char) : Decidable (OpensNumber c) := inferInstanceAs (Decidable (_ ∨ _))

/-- The text of an integer opens with a sign or a digit. -/
theorem exists_cons_toString (n : Int) : ∃ c cs, (toString n).toList = c :: cs ∧ OpensNumber c := by
  obtain ⟨d, ds, hds⟩ :=
    List.exists_cons_of_ne_nil (Nat.toDigits_ne_nil (n := n.natAbs) (b := 10))
  rw [toList_toString, hds]
  split
  · exact ⟨'-', d :: ds, rfl, .inr rfl⟩
  · exact ⟨d, ds, rfl, .inl (isDigit_of_mem_toDigits d (hds ▸ List.mem_cons_self))⟩

/-- What opens a number differs from all that does not. -/
theorem OpensNumber.ne {c d : Char} (hc : OpensNumber c) (hd : ¬OpensNumber d) : c ≠ d := by
  rintro rfl
  exact hd hc

/-- What opens a number opens a value. -/
theorem OpensNumber.opens {c : Char} (hc : OpensNumber c) : Opens c := by
  refine ⟨?_, hc.ne (by decide), hc.ne (by decide)⟩
  simp only [isSpace, Bool.or_eq_false_iff, beq_eq_false_iff_ne]
  exact ⟨⟨⟨hc.ne (by decide), hc.ne (by decide)⟩, hc.ne (by decide)⟩, hc.ne (by decide)⟩

/-- Where a document begins. -/
theorem exists_cons_chars {j : Json} (h : j.Integral) : ∃ c cs, j.chars = c :: cs ∧ Opens c := by
  cases j with
  | null => exact ⟨'n', "ull".toList, rfl, by simp [Opens, isSpace]⟩
  | bool b =>
    cases b
    · exact ⟨'f', "alse".toList, rfl, by simp [Opens, isSpace]⟩
    · exact ⟨'t', "rue".toList, rfl, by simp [Opens, isSpace]⟩
  | integer n =>
    obtain ⟨c, cs, hchars, hc⟩ := exists_cons_toString n
    exact ⟨c, cs, hchars, hc.opens⟩
  | float x => exact h.elim
  | string s => exact ⟨'"', _, rfl, by simp [Opens, isSpace]⟩
  | array items => exact ⟨'[', _, rfl, by simp [Opens, isSpace]⟩
  | object members => exact ⟨'\x7b', _, rfl, by simp [Opens, isSpace]⟩

/-- Nothing is skipped in front of a character that is no space. -/
theorem skipSpace_cons {c : Char} (h : isSpace c = false) (cs : List Char) :
    skipSpace (c :: cs) = c :: cs := by
  simp [skipSpace, h]

/-- The text of `null` is read back. -/
theorem value?_null (fuel : Nat) (rest : List Char) :
    value? (fuel + 1) (Json.null.chars ++ rest) = some (.null, rest) := by
  rw [value?]
  rfl

/-- The text of a truth value is read back. -/
theorem value?_bool (fuel : Nat) (b : Bool) (rest : List Char) :
    value? (fuel + 1) ((Json.bool b).chars ++ rest) = some (.bool b, rest) := by
  rw [value?]
  cases b <;> rfl

/-- The text of an integer in the range of words is read back, where it is delimited. -/
theorem value?_integer (fuel : Nat) {n : Int} (hn : Integral (.integer n)) {rest : List Char}
    (hrest : Delimited rest) :
    value? (fuel + 1) ((Json.integer n).chars ++ rest) = some (.integer n, rest) := by
  have hnumber := number?_integer hn hrest
  obtain ⟨c, cs, hcs, hc⟩ := exists_cons_toString n
  rw [hcs, List.cons_append] at hnumber
  rw [chars, hcs, List.cons_append]
  have hfirst : ∀ {d ds}, c :: (cs ++ rest) = d :: ds → ¬OpensNumber d → False :=
    fun heq hd => hc.ne hd (List.cons.inj heq).1
  rw [value?, skipSpace_cons hc.opens.1]
  split
  case h_1 heq => exact (hfirst heq (by decide)).elim
  case h_2 heq => exact (hfirst heq (by decide)).elim
  case h_3 heq => exact (hfirst heq (by decide)).elim
  case h_4 heq => exact (hfirst heq (by decide)).elim
  case h_5 heq => exact (hfirst heq (by decide)).elim
  case h_6 heq => exact (hfirst heq (by decide)).elim
  case h_7 => exact hnumber

/-- The text of a string is read back. -/
theorem value?_string (fuel : Nat) (s : String) (rest : List Char) :
    value? (fuel + 1) ((Json.string s).chars ++ rest) = some (.string s, rest) := by
  rw [chars, quote_append, value?, skipSpace_cons (by decide)]
  simp only [stringBody?_quoted, Option.map_some, String.ofList_toList]

/-- Behind an opening bracket that is not closed at once, items are read. -/
theorem value?_array (fuel : Nat) {c : Char} (hc : Opens c) (cs : List Char) :
    value? (fuel + 1) ('[' :: c :: cs) =
      (items? fuel (c :: cs)).map fun (items, tail) => (.array items, tail) := by
  obtain ⟨hspace, hclose, -⟩ := hc
  rw [value?, skipSpace_cons (by decide)]
  simp only [skipSpace_cons hspace]
  split
  case h_1 heq => exact absurd (List.cons.inj heq).1 hclose
  case h_2 => rfl

/-- Behind an opening brace that is not closed at once, members are read. -/
theorem value?_object (fuel : Nat) {c : Char} (hc : Opens c) (cs : List Char) :
    value? (fuel + 1) ('\x7b' :: c :: cs) =
      (members? fuel (c :: cs)).map fun (members, tail) => (.object members, tail) := by
  obtain ⟨hspace, -, hclose⟩ := hc
  rw [value?, skipSpace_cons (by decide)]
  simp only [skipSpace_cons hspace]
  split
  case h_1 heq => exact absurd (List.cons.inj heq).1 hclose
  case h_2 => rfl

/-- The last item is read up to the closing bracket. -/
theorem items?_last {fuel : Nat} {cs rest : List Char} {j : Json}
    (h : value? fuel cs = some (j, ']' :: rest)) : items? (fuel + 1) cs = some ([j], rest) := by
  rw [items?, h]
  rfl

/-- Behind a comma, further items are read. -/
theorem items?_cons {fuel : Nat} {cs rest tail : List Char} {j : Json} {items : List Json}
    (h : value? fuel cs = some (j, ',' :: tail)) (htail : items? fuel tail = some (items, rest)) :
    items? (fuel + 1) cs = some (j :: items, rest) := by
  rw [items?, h]
  change (items? fuel tail).bind _ = _
  rw [htail]
  rfl

/-- The last member is read up to the closing brace. -/
theorem members?_last {fuel : Nat} {key : String} {cs rest : List Char} {j : Json}
    (h : value? fuel cs = some (j, '\x7d' :: rest)) :
    members? (fuel + 1) (quote key ++ ':' :: cs) = some ([(key, j)], rest) := by
  rw [members?, key?_quote]
  change (value? fuel cs).bind _ = _
  rw [h]
  rfl

/-- Behind a comma, further members are read. -/
theorem members?_cons {fuel : Nat} {key : String} {cs rest tail : List Char} {j : Json}
    {members : List (String × Json)} (h : value? fuel cs = some (j, ',' :: tail))
    (htail : members? fuel tail = some (members, rest)) :
    members? (fuel + 1) (quote key ++ ':' :: cs) = some ((key, j) :: members, rest) := by
  rw [members?, key?_quote]
  change (value? fuel cs).bind _ = _
  rw [h]
  change (members? fuel tail).bind _ = _
  rw [htail]
  rfl

/-- A comma separates an item from those behind it. -/
theorem itemChars_cons (j : Json) {rest : List Json} (h : rest ≠ []) :
    itemChars (j :: rest) = j.chars ++ ',' :: itemChars rest := by
  obtain ⟨k, rest, rfl⟩ := List.exists_cons_of_ne_nil h
  rfl

/-- A comma separates a member from those behind it. -/
theorem memberChars_cons (key : String) (j : Json) {rest : List (String × Json)} (h : rest ≠ []) :
    memberChars ((key, j) :: rest) = quote key ++ ':' :: j.chars ++ ',' :: memberChars rest := by
  obtain ⟨k, rest, rfl⟩ := List.exists_cons_of_ne_nil h
  rfl

/-- Commas and closing brackets delimit a value. -/
theorem delimited_cons {c : Char} (h : c = ',' ∨ c = ']' ∨ c = '\x7d') (cs : List Char) :
    Delimited (c :: cs) := by
  rintro _ ⟨⟩
  exact h

/-- Where the items of an array begin. -/
theorem exists_cons_itemChars {j : Json} (h : j.Integral) (items : List Json) :
    ∃ c cs, itemChars (j :: items) = c :: cs ∧ Opens c := by
  obtain ⟨c, cs, hcs, hc⟩ := exists_cons_chars h
  cases items with
  | nil => exact ⟨c, cs, hcs, hc⟩
  | cons k items => exact ⟨c, cs ++ ',' :: itemChars (k :: items), by simp [itemChars, hcs], hc⟩

/-- Where the members of an object begin. -/
theorem exists_cons_memberChars (member : String × Json) (members : List (String × Json)) :
    ∃ c cs, memberChars (member :: members) = c :: cs ∧ Opens c := by
  obtain ⟨key, j⟩ := member
  have hc : Opens '"' := by simp [Opens, isSpace]
  cases members with
  | nil => exact ⟨'"', _, rfl, hc⟩
  | cons k members => exact ⟨'"', _, rfl, hc⟩

mutual

/-- A document is read back in front of a delimiter. The readers of a document and of its parts
take turns, so two steps a character are enough. -/
theorem value?_chars : (j : Json) → j.Integral → ∀ {fuel : Nat} {rest : List Char},
    2 * j.chars.length ≤ fuel → Delimited rest →
      value? fuel (j.chars ++ rest) = some (j, rest) := by
  intro j hj fuel rest hfuel hrest
  obtain ⟨c, cs, hcs, -⟩ := exists_cons_chars hj
  obtain ⟨fuel, rfl⟩ : ∃ k, fuel = k + 1 := ⟨fuel - 1, by simp [hcs] at hfuel; omega⟩
  match j with
  | .null => exact value?_null fuel rest
  | .bool b => exact value?_bool fuel b rest
  | .integer n => exact value?_integer fuel hj hrest
  | .float x => exact hj.elim
  | .string s => exact value?_string fuel s rest
  | .array [] => rw [value?]; rfl
  | .array (item :: items) =>
    have hread : items? fuel (itemChars (item :: items) ++ ']' :: rest) =
        some (item :: items, rest) :=
      items?_itemChars (item :: items) nofun hj (by simp [chars] at hfuel; omega)
    obtain ⟨d, ds, hds, hd⟩ := exists_cons_itemChars hj.1 items
    rw [chars, List.cons_append, List.cons_append, List.append_assoc, List.singleton_append]
    rw [hds, List.cons_append] at hread ⊢
    rw [value?_array fuel hd, hread]
    rfl
  | .object [] => rw [value?]; rfl
  | .object (member :: members) =>
    have hread : members? fuel (memberChars (member :: members) ++ '\x7d' :: rest) =
        some (member :: members, rest) :=
      members?_memberChars (member :: members) nofun hj (by simp [chars] at hfuel; omega)
    obtain ⟨d, ds, hds, hd⟩ := exists_cons_memberChars member members
    rw [chars, List.cons_append, List.cons_append, List.append_assoc, List.singleton_append]
    rw [hds, List.cons_append] at hread ⊢
    rw [value?_object fuel hd, hread]
    rfl

/-- The items of an array are read back with its closing bracket. -/
theorem items?_itemChars : (items : List Json) → items ≠ [] → ItemsIntegral items →
    ∀ {fuel : Nat} {rest : List Char}, 2 * (itemChars items).length + 1 ≤ fuel →
      items? fuel (itemChars items ++ ']' :: rest) = some (items, rest) := by
  intro items hne hitems fuel rest hfuel
  obtain ⟨fuel, rfl⟩ : ∃ k, fuel = k + 1 := ⟨fuel - 1, by omega⟩
  match items with
  | [] => exact absurd rfl hne
  | [j] =>
    exact items?_last (value?_chars j hitems.1 (by simp [itemChars] at hfuel; omega)
      (delimited_cons (.inr (.inl rfl)) rest))
  | j :: k :: items =>
    have hcons := itemChars_cons j (List.cons_ne_nil k items)
    rw [hcons, List.append_assoc, List.cons_append]
    rw [hcons, List.length_append, List.length_cons] at hfuel
    exact items?_cons (value?_chars j hitems.1 (by omega) (delimited_cons (.inl rfl) _))
      (items?_itemChars (k :: items) nofun hitems.2 (by omega))

/-- The members of an object are read back with its closing brace. -/
theorem members?_memberChars : (members : List (String × Json)) → members ≠ [] →
    MembersIntegral members → ∀ {fuel : Nat} {rest : List Char},
      2 * (memberChars members).length + 1 ≤ fuel →
        members? fuel (memberChars members ++ '\x7d' :: rest) = some (members, rest) := by
  intro members hne hmembers fuel rest hfuel
  obtain ⟨fuel, rfl⟩ : ∃ k, fuel = k + 1 := ⟨fuel - 1, by omega⟩
  match members with
  | [] => exact absurd rfl hne
  | [(key, j)] =>
    rw [memberChars, List.append_assoc, List.cons_append]
    exact members?_last (value?_chars j hmembers.1 (by simp [memberChars] at hfuel; omega)
      (delimited_cons (.inr (.inr rfl)) rest))
  | (key, j) :: k :: members =>
    have hcons := memberChars_cons key j (List.cons_ne_nil k members)
    rw [hcons, List.append_assoc, List.append_assoc, List.cons_append, List.cons_append]
    rw [hcons, List.length_append, List.length_append, List.length_cons, List.length_cons] at hfuel
    exact members?_cons (value?_chars j hmembers.1 (by omega) (delimited_cons (.inl rfl) _))
      (members?_memberChars (k :: members) nofun hmembers.2 (by omega))

end

/-- A document whose numbers are integers is read back from its text. -/
theorem parse?_render {j : Json} (h : j.Integral) : parse? j.render = some j := by
  have hread : value? (2 * j.chars.length + 2) (j.chars ++ []) = some (j, []) :=
    value?_chars j h (by omega) delimited_nil
  rw [List.append_nil] at hread
  rw [parse?, render, String.toList_ofList, String.length_ofList, hread]
  rfl

end Documents

section Canonical

/-- An entry with a greater key than all others is put behind them. -/
theorem insert_of_forall_lt {α : Type} {key : String} (value : α) {map : KeyMap α}
    (h : ∀ entry ∈ map, entry.1 < key) : KeyMap.insert key value map = map ++ [(key, value)] := by
  induction map with
  | nil => rfl
  | cons entry map ih =>
    obtain ⟨k, v⟩ := entry
    obtain ⟨hk, hmap⟩ := List.forall_mem_cons.mp h
    have hne : key ≠ k := by
      rintro rfl
      exact String.lt_irrefl _ hk
    rw [KeyMap.insert, if_neg (String.lt_asymm hk), if_neg hne, ih hmap]
    rfl

/-- Entries in ascending order of their keys are a map already. -/
theorem ofList_of_pairwise {α : Type} {entries : List (String × α)}
    (h : entries.Pairwise (·.1 < ·.1)) : KeyMap.ofList entries = entries := by
  induction entries using List.reverseRecOn with
  | nil => rfl
  | append_singleton entries entry ih =>
    obtain ⟨hentries, -, hlast⟩ := List.pairwise_append.mp h
    have hgreater : ∀ e ∈ entries, e.1 < entry.1 := fun e he => hlast e he entry (by simp)
    rw [KeyMap.ofList, List.foldl_append]
    change KeyMap.insert entry.1 entry.2 (KeyMap.ofList entries) = _
    rw [ih hentries, insert_of_forall_lt _ hgreater]

mutual

/-- A document with sorted members and integers is its own canonical form. -/
theorem canonical?_eq_self : (j : Json) → j.Sorted → j.Integral → j.canonical? = some j
  | .null, _, _ | .bool _, _, _ | .integer _, _, _ | .string _, _, _ => rfl
  | .array items, hsorted, hintegral => by
    rw [canonical?, canonicalItems?_eq_self items hsorted hintegral]
    rfl
  | .object members, hsorted, hintegral => by
    rw [canonical?, canonicalMembers?_eq_self members hsorted.2 hintegral, Option.map_some,
      ofList_of_pairwise hsorted.1]

/-- Items whose members are sorted and whose numbers are integers are canonical. -/
theorem canonicalItems?_eq_self : (items : List Json) → ItemsSorted items → ItemsIntegral items →
    canonicalItems? items = some items
  | [], _, _ => rfl
  | j :: items, hsorted, hintegral => by
    rw [canonicalItems?, canonical?_eq_self j hsorted.1 hintegral.1,
      canonicalItems?_eq_self items hsorted.2 hintegral.2]
    rfl

/-- Members with such values are canonical, too. -/
theorem canonicalMembers?_eq_self : (members : List (String × Json)) → MembersSorted members →
    MembersIntegral members → canonicalMembers? members = some members
  | [], _, _ => rfl
  | (_, j) :: members, hsorted, hintegral => by
    rw [canonicalMembers?, canonical?_eq_self j hsorted.1 hintegral.1,
      canonicalMembers?_eq_self members hsorted.2 hintegral.2]
    rfl

end

end Canonical

end DynamicSql.Json
