import DynamicSql.Proofs.Calendar.RoundTrip
import DynamicSql.Proofs.Json.RoundTrip
import DynamicSql.Value.Document

/-!
# Values that are read back

A value without doubles is read back from its text, however deeply its lists are nested
(`Value.read?_text_of_exact`), so two such values with one text are equal. The document of a value
holds integers only, hence is read back; its kind then decides how the content is read.
-/

namespace DynamicSql

namespace Uuid

/-- The hexadecimal digits of a number are such digits. -/
theorem eq_hexDigit_of_mem_hexDigits {count n : Nat} :
    ∀ c ∈ Text.hexDigits count n, ∃ d < 16, c = Text.hexDigit d := by
  induction count generalizing n with
  | zero => nofun
  | succ count ih =>
    intro c hc
    rw [Text.hexDigits, List.mem_append, List.mem_singleton] at hc
    obtain hc | rfl := hc
    · exact ih c hc
    · exact ⟨n % 16, Nat.mod_lt n (by decide), rfl⟩

/-- Four hyphens are put between thirty-two digits. -/
theorem length_group {digits : List Char} (h : digits.length = 32) :
    (group digits).length = 36 := by
  simp [group, h]

/-- Grouped digits begin with a digit. -/
theorem exists_cons_group {digits : List Char} (h : digits ≠ []) :
    ∃ c cs, group digits = c :: cs ∧ c ∈ digits := by
  obtain ⟨c, cs, rfl⟩ := List.exists_cons_of_ne_nil h
  exact ⟨c, _, rfl, List.mem_cons_self⟩

/-- A part stands in front of what follows it. -/
theorem take_part {part : List Char} {n : Nat} (h : part.length = n) (rest : List Char) :
    (part ++ rest).take n = part := by
  rw [← h, List.take_left]

/-- Behind a part and its hyphen stands the rest. -/
theorem drop_part {part : List Char} {n : Nat} (h : part.length = n) (k : Nat) (rest : List Char) :
    (part ++ '-' :: rest).drop (n + 1 + k) = rest.drop k := by
  rw [← h, Nat.add_assoc, ← List.drop_drop, List.drop_left, Nat.add_comm 1, List.drop_succ_cons]

/-- The hyphens are taken out again. -/
theorem ungroup?_group {digits : List Char} (h : digits.length = 32) :
    ungroup? (group digits) = some digits := by
  have ha : (digits.take 8).length = 8 := by simp [h]
  have hb : ((digits.drop 8).take 4).length = 4 := by simp [h]
  have hc : ((digits.drop 12).take 4).length = 4 := by simp [h]
  have hd : ((digits.drop 16).take 4).length = 4 := by simp [h]
  have hgroup : group digits = digits.take 8 ++ '-' :: ((digits.drop 8).take 4 ++
      '-' :: ((digits.drop 12).take 4 ++ '-' :: ((digits.drop 16).take 4 ++
      '-' :: digits.drop 20))) := by
    simp [group]
  have hparts : (group digits).take 8 ++ ((group digits).drop 9).take 4 ++
      ((group digits).drop 14).take 4 ++ ((group digits).drop 19).take 4 ++
      (group digits).drop 24 = digits := by
    rw [hgroup, take_part ha, drop_part ha 0, drop_part ha 5, drop_part hb 0, drop_part ha 10,
      drop_part hb 5, drop_part hc 0, drop_part ha 15, drop_part hb 10, drop_part hc 5,
      drop_part hd 0]
    simp only [List.drop_zero, take_part hb, take_part hc, take_part hd]
    rw [← List.take_add, ← List.take_add, ← List.take_add, List.take_append_drop]
  rw [ungroup?]
  simp only [hparts, h, and_self, if_true]

/-- An identifier is read back from its hexadecimal digits. -/
theorem ofDigits?_hexDigits (u : Uuid) : ofDigits? (Text.hexDigits 32 u.bits.toNat) = some u := by
  have hread := Text.readHex?_hexDigits 0 32 u.bits.toNat
  have hlt : u.bits.toNat < 16 ^ 32 := u.bits.isLt
  rw [Nat.zero_mul, Nat.zero_add, Nat.mod_eq_of_lt hlt] at hread
  rw [ofDigits?, if_pos (Text.length_hexDigits 32 _), hread]
  simp

/-- An identifier is read back from its text: the grouped form is taken for none of the others. -/
theorem read?_text (u : Uuid) : read? u.text = some u := by
  have hlength := Text.length_hexDigits 32 u.bits.toNat
  have hungroup := ungroup?_group hlength
  obtain ⟨c, cs, hcs, hc⟩ := exists_cons_group (List.ne_nil_of_length_eq_add_one hlength)
  obtain ⟨d, hd, rfl⟩ := eq_hexDigit_of_mem_hexDigits c hc
  have hne : Text.hexDigit d ≠ 'u' ∧ Text.hexDigit d ≠ '\x7b' := by
    have hall : ∀ d < 16, Text.hexDigit d ≠ 'u' ∧ Text.hexDigit d ≠ '\x7b' := by decide
    exact hall d hd
  rw [read?, text, String.toList_ofList]
  simp only [length_group hlength]
  rw [if_neg (by decide)]
  rw [hcs] at hungroup ⊢
  split
  case h_1 heq => exact absurd (List.cons.inj heq).1 hne.1
  case h_2 heq => exact absurd (List.cons.inj heq).1 hne.2
  case h_3 => rw [hungroup, Option.bind_some, ofDigits?_hexDigits]

end Uuid

namespace Value

open Json (Integral ItemsIntegral)

mutual

/-- A value without doubles, whose JSON documents have sorted members and no numbers but
integers of 64 bits. -/
def Exact : Value → Prop
  | .float _ => False
  | .json j => j.Sorted ∧ j.Integral
  | .list items => ItemsExact items
  | .null | .bool _ | .int _ | .string _ | .bytes _ | .date _ | .dateTime _ | .instant _ | .time _
  | .uuid _ => True

/-- The values of a list are exact. -/
def ItemsExact : List Value → Prop
  | [] => True
  | v :: rest => v.Exact ∧ ItemsExact rest

end

section Documents

/-- A kind leaves the numbers of a content integers. -/
theorem integral_tagged (kind : String) {content : Json} (h : content.Integral) :
    (tagged kind content).Integral :=
  ⟨trivial, h, trivial⟩

/-- A signed word is an integer of 64 bits. -/
theorem integral_int (n : Int64) : Integral (.integer n.toInt) := by
  have hmin := n.minValue_le_toInt
  have hmax := n.toInt_lt
  refine ⟨hmin, ?_⟩
  simp [UInt64.size]
  omega

/-- Bytes are such integers. -/
theorem itemsIntegral_bytes (bs : List UInt8) :
    ItemsIntegral (bs.map fun b => .integer b.toNat) := by
  induction bs with
  | nil => trivial
  | cons b bs ih =>
    have hlt := b.toNat_lt
    have hmin : Int64.minValue.toInt ≤ 0 := by decide
    exact ⟨⟨by omega, by simp only [UInt64.size]; omega⟩, ih⟩

mutual

/-- The document of an exact value has no numbers but integers. -/
theorem integral_toJson : (v : Value) → v.Exact → v.toJson.Integral
  | .null, _ => ⟨trivial, trivial⟩
  | .bool _, _ | .string _, _ | .date _, _ | .dateTime _, _ | .instant _, _ | .time _, _
  | .uuid _, _ => integral_tagged _ trivial
  | .int n, _ => integral_tagged _ (integral_int n)
  | .bytes bs, _ => integral_tagged _ (itemsIntegral_bytes bs)
  | .json _, h => integral_tagged _ h.2
  | .list items, h => integral_tagged _ (itemsIntegral_itemsToJson items h)

/-- The numbers in the documents of exact values are integers. -/
theorem itemsIntegral_itemsToJson : (items : List Value) → ItemsExact items →
    ItemsIntegral (itemsToJson items)
  | [], _ => trivial
  | v :: items, h => ⟨integral_toJson v h.1, itemsIntegral_itemsToJson items h.2⟩

end

/-- The kind that is written is the kind that is read. -/
theorem ofJson?_tagged (kind : String) (content : Json) :
    ofJson? (tagged kind content) = ofContent? kind content := by
  rw [tagged, ofJson?]
  rfl

section Contents

variable (s : String)

/-- The content of a date is its text. -/
theorem ofContent?_date :
    ofContent? "Date" (.string s) = (Calendar.Date.read? s).map .date := rfl

/-- The content of a timestamp is its text. -/
theorem ofContent?_dateTime :
    ofContent? "DateTime" (.string s) = (Calendar.Timestamp.read? s).map .dateTime := rfl

/-- The content of an instant is its text with a time zone. -/
theorem ofContent?_instant :
    ofContent? "DateTimeTz" (.string s) = (Calendar.Timestamp.readZoned? s).map .instant := rfl

/-- The content of a time of day is its text. -/
theorem ofContent?_time :
    ofContent? "Time" (.string s) = (Calendar.Clock.read? s).map .time := rfl

/-- The content of an identifier is its text. -/
theorem ofContent?_uuid : ofContent? "Uuid" (.string s) = (Uuid.read? s).map .uuid := rfl

/-- The content of a document is the document in its canonical form. -/
theorem ofContent?_json (j : Json) : ofContent? "Json" j = j.canonical?.map .json := by
  cases j <;> rfl

end Contents

/-- Bytes are read back one by one. -/
theorem mapM_byte? (bs : List UInt8) :
    (bs.map fun b => Json.integer b.toNat).mapM byte? = some bs := by
  have hbyte : ∀ b : UInt8, byte? (.integer b.toNat) = some b := by
    intro b
    have hlt := b.toNat_lt
    rw [byte?, if_pos (by omega), Int.toNat_natCast, UInt8.ofNat_toNat]
  induction bs with
  | nil => rfl
  | cons b bs ih =>
    rw [List.map_cons, List.mapM_cons, hbyte, ih]
    rfl

/-- A signed word is read back. -/
theorem ofInt?_toInt (n : Int64) : ofInt? n.toInt = some (.int n) := by
  rw [ofInt?, if_pos ⟨n.minValue_le_toInt, n.toInt_le⟩, Int64.ofInt_toInt]

mutual

/-- An exact value is read back from its document. -/
theorem ofJson?_toJson : (v : Value) → v.Exact → ofJson? v.toJson = some v
  | .null, _ => rfl
  | .bool _, _ => by rw [toJson, ofJson?_tagged]; rfl
  | .string _, _ => by rw [toJson, ofJson?_tagged]; rfl
  | .int n, _ => by
    rw [toJson, ofJson?_tagged]
    exact ofInt?_toInt n
  | .bytes bs, _ => by
    rw [toJson, ofJson?_tagged]
    change (((bs.map _).mapM byte?).map Value.bytes) = _
    rw [mapM_byte?]
    rfl
  | .date d, _ => by
    rw [toJson, ofJson?_tagged, ofContent?_date, d.read?_text]
    rfl
  | .dateTime t, _ => by
    rw [toJson, ofJson?_tagged, ofContent?_dateTime, t.read?_text]
    rfl
  | .instant t, _ => by
    rw [toJson, ofJson?_tagged, ofContent?_instant, t.readZoned?_zuluText]
    rfl
  | .time t, _ => by
    rw [toJson, ofJson?_tagged, ofContent?_time, t.read?_text]
    rfl
  | .uuid u, _ => by
    rw [toJson, ofJson?_tagged, ofContent?_uuid, u.read?_text]
    rfl
  | .json j, h => by
    rw [toJson, ofJson?_tagged, ofContent?_json, Json.canonical?_eq_self j h.1 h.2]
    rfl
  | .list items, h => by
    rw [toJson, ofJson?_tagged, ofContent?, if_pos rfl, ofItems?_itemsToJson items h]
    rfl

/-- The values of a list are read back one by one. -/
theorem ofItems?_itemsToJson : (items : List Value) → ItemsExact items →
    ofItems? (itemsToJson items) = some items
  | [], _ => rfl
  | v :: items, h => by
    rw [itemsToJson, ofItems?, ofJson?_toJson v h.1, ofItems?_itemsToJson items h.2]
    rfl

end

/-- An exact value is read back from its text. -/
theorem read?_render_toJson {v : Value} (h : v.Exact) : read? v.toJson.render = some v := by
  rw [read?, Json.parse?_render (integral_toJson v h), Option.bind_some, ofJson?_toJson v h]

end Documents

/-- Every exact value is read back from its text, and two of them with one text are equal. -/
theorem exact_values_survive_their_texts :
    (∀ v : Value, v.Exact → read? v.toJson.render = some v) ∧
      ∀ v w : Value, v.Exact → w.Exact → v.toJson.render = w.toJson.render → v = w := by
  refine ⟨fun v hv => read?_render_toJson hv, fun v w hv hw htext => ?_⟩
  have hread := read?_render_toJson hv
  rw [htext, read?_render_toJson hw] at hread
  exact (Option.some.inj hread).symm

/-- A list of a day before the year zero, an object with sorted keys, a text that has to be
escaped and another list. -/
theorem exact_values_survive_their_texts_nested :
    read? (Value.list [.date ⟨-44, 3, 15, by decide⟩,
        .json (.object [("a", .array [.integer (-1), .null]), ("b", .string "\"")]),
        .list [.string "1\n", .bytes [0, 255], .null]]).toJson.render =
      some (.list [.date ⟨-44, 3, 15, by decide⟩,
        .json (.object [("a", .array [.integer (-1), .null]), ("b", .string "\"")]),
        .list [.string "1\n", .bytes [0, 255], .null]]) := by
  refine exact_values_survive_their_texts.1 _ ⟨trivial, ⟨?_, ?_⟩,
    ⟨trivial, trivial, trivial, trivial⟩, trivial⟩
  · exact ⟨by decide, ⟨trivial, trivial, trivial⟩, trivial, trivial⟩
  · exact ⟨⟨⟨by decide, by decide⟩, trivial, trivial⟩, trivial, trivial⟩

end Value

end DynamicSql
