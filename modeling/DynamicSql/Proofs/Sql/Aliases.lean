import DynamicSql.Sql.Aliases
import Mathlib.Data.List.Induction
import Mathlib.Data.List.Nodup

/-!
# Aliases tell tables apart

Mentioned tokens have numbers of their own, in whatever order they were mentioned, so their aliases
differ. None of them is the letter that stands for the rows of a counted query.
-/

namespace DynamicSql

namespace Aliases

variable {tokens : List Token} {token other : Token}

/-- After a mention, the token is known along with those that were known before. -/
theorem mem_mention {a : Aliases} :
    other ∈ (a.mention token).tokens ↔ other = token ∨ other ∈ a.tokens := by
  unfold mention
  split
  case isTrue h =>
    have hmem : token ∈ a.tokens := List.contains_iff_mem.mp h
    constructor
    · exact Or.inr
    · rintro (rfl | h)
      · exact hmem
      · exact h
  case isFalse => rw [List.mem_append, List.mem_singleton, or_comm]

/-- The tokens with an alias are those that were mentioned. -/
theorem mem_ofMentions : token ∈ (ofMentions tokens).tokens ↔ token ∈ tokens := by
  induction tokens using List.reverseRecOn with
  | nil => rfl
  | append_singleton tokens last ih =>
    unfold ofMentions at ih ⊢
    rw [List.foldl_append, List.foldl_cons, List.foldl_nil, mem_mention, ih, List.mem_append,
      List.mem_singleton, or_comm]

/-- A token that has an alias keeps it. -/
theorem text_mention {a : Aliases} (h : token ∈ a.tokens) (other : Token) :
    (a.mention other).text token = a.text token := by
  unfold mention
  split
  · rfl
  · rw [text, text, List.idxOf_append_of_mem h]

/-- The alias of a mentioned token does not depend on what is mentioned later. -/
theorem text_ofMentions_append (h : token ∈ tokens) (more : List Token) :
    (ofMentions (tokens ++ more)).text token = (ofMentions tokens).text token := by
  induction more using List.reverseRecOn with
  | nil => rw [List.append_nil]
  | append_singleton more last ih =>
    have hmem : token ∈ (ofMentions (tokens ++ more)).tokens :=
      mem_ofMentions.mpr (List.mem_append_left more h)
    rw [← ih, ← text_mention hmem last]
    unfold ofMentions
    rw [← List.append_assoc, List.foldl_append, List.foldl_cons, List.foldl_nil]

/-- The only table of a statement has the first alias. -/
theorem text_ofMentions_singleton (token : Token) : (ofMentions [token]).text token = "t0" := by
  have hindex : (ofMentions [token]).tokens.idxOf token = 0 := by
    simp [ofMentions, mention, empty]
  rw [text, hindex]
  rfl

/-- A number is known by its text. -/
theorem eq_of_toString_eq {m n : Nat} (h : toString m = toString n) : m = n := by
  have hdigits := congrArg String.toList h
  rw [Nat.toString_eq_repr, Nat.toString_eq_repr, Nat.toList_repr, Nat.toList_repr] at hdigits
  rw [← Nat.ofDigitChars_ten_toDigits (n := m), hdigits, Nat.ofDigitChars_ten_toDigits]

/-- A mentioned token shares its alias with no other token. -/
theorem eq_of_text_eq {a : Aliases} (h : token ∈ a.tokens) (heq : a.text token = a.text other) :
    token = other := by
  have hlist := congrArg String.toList heq
  rw [text, text, String.toList_append, String.toList_append] at hlist
  have hnumber := String.toList_inj.mp (List.append_cancel_left hlist)
  exact (List.idxOf_inj h).mp (eq_of_toString_eq hnumber)

/-- Different mentioned tokens have different aliases. -/
theorem text_nodup {shown : List Token} (hnodup : shown.Nodup) (hmentioned : shown ⊆ tokens) :
    (shown.map (ofMentions tokens).text).Nodup := by
  refine hnodup.map_on fun token htoken other _ heq => ?_
  exact eq_of_text_eq (mem_ofMentions.mpr (hmentioned htoken)) heq

/-- The name of the rows of a counted query is no alias. -/
theorem text_ne (a : Aliases) (token : Token) : a.text token ≠ "s" := by
  intro h
  have hlist := congrArg String.toList h
  rw [text, String.toList_append] at hlist
  exact absurd (List.cons.inj hlist).1 (by decide)

end Aliases

end DynamicSql
