import DynamicSql.Proofs.Sql.Chars

/-!
# Literals that are read back

The pattern that formats a date becomes a literal with its quotation marks doubled. Literals are
read here as servers read them with default settings: a doubled quotation mark stands for one, and
in MySQL a backslash gives the next character a meaning of its own. PostgreSQL reads every pattern
back from its literal. MySQL does where each backslash of the pattern stands in front of a wildcard,
and nowhere else (`datePatterns_read`).
-/

namespace DynamicSql

/-- The function that formats dates. -/
def Dialect.dateFunction : Dialect → String
  | .mySql => "DATE_FORMAT"
  | .postgreSql => "to_char"

/-- The literal that a text is written as. -/
def literalOf (s : String) : String := "'" ++ doubleQuotes s ++ "'"

/-- Whether a character is a wildcard of search patterns. -/
def isWildcard (c : Char) : Bool := c == '%' || c == '_'

/-- What a character behind a backslash stands for in a literal of MySQL. A wildcard keeps the
backslash, and most other characters stand for themselves. -/
def unescape (c : Char) : List Char :=
  if isWildcard c then ['\\', c]
  else
    match c with
    | '0' => ['\x00']
    | 'b' => ['\x08']
    | 'n' => ['\n']
    | 'r' => ['\r']
    | 't' => ['\t']
    | 'Z' => ['\x1a']
    | _ => [c]

/-- Put characters in front of what was read. -/
def readBehind (front : List Char) (read : Option (List Char × List Char)) :
    Option (List Char × List Char) :=
  read.map fun x => (front ++ x.1, x.2)

namespace Dialect

/-- Read a literal from behind its opening quotation mark: what it stands for, and what follows the
closing quotation mark. -/
def literalBody? (d : Dialect) : List Char → Option (List Char × List Char)
  | [] => none
  | [c] => if c = '\'' then some ([], []) else none
  | c :: next :: rest =>
    if c = '\'' then
      if next = '\'' then readBehind ['\''] (literalBody? d rest) else some ([], next :: rest)
    else if d = .mySql ∧ c = '\\' then readBehind (unescape next) (literalBody? d rest)
    else readBehind [c] (literalBody? d (next :: rest))

/-- Read the literal at the front of a text: what it stands for, and what follows it. -/
def literal? (d : Dialect) (s : String) : Option (String × String) :=
  match s.toList with
  | '\'' :: cs => (d.literalBody? cs).map fun x => (String.ofList x.1, String.ofList x.2)
  | _ => none

end Dialect

/-- Whether every backslash stands in front of a wildcard. -/
def backslashesKept : List Char → Bool
  | [] => true
  | [c] => c != '\\'
  | c :: next :: rest =>
    if c = '\\' then isWildcard next && backslashesKept rest else backslashesKept (next :: rest)

/-- Characters with each quotation mark doubled. -/
def quotesDoubled (cs : List Char) : List Char :=
  cs.flatMap fun c => if c = '\'' then ['\'', '\''] else [c]

section Reading

variable {d : Dialect} {c : Char} {cs rest : List Char}

/-- Doubling the quotation marks of a text doubles those of its characters. -/
theorem toList_doubleQuotes (s : String) : (doubleQuotes s).toList = quotesDoubled s.toList := by
  rw [doubleQuotes, String.toList_ofList, quotesDoubled]

/-- A quotation mark becomes two. -/
theorem quotesDoubled_quote (cs : List Char) :
    quotesDoubled ('\'' :: cs) = '\'' :: '\'' :: quotesDoubled cs := by
  rw [quotesDoubled, List.flatMap_cons, if_pos rfl, quotesDoubled]
  rfl

/-- Any other character stays. -/
theorem quotesDoubled_cons (h : c ≠ '\'') (cs : List Char) :
    quotesDoubled (c :: cs) = c :: quotesDoubled cs := by
  rw [quotesDoubled, List.flatMap_cons, if_neg h, quotesDoubled]
  rfl

/-- Texts are doubled one after the other. -/
theorem quotesDoubled_append (a b : List Char) :
    quotesDoubled (a ++ b) = quotesDoubled a ++ quotesDoubled b := List.flatMap_append

/-- What an escape stands for takes no more room in a literal than the escape. -/
theorem length_quotesDoubled_unescape (c : Char) : (quotesDoubled (unescape c)).length ≤ 2 := by
  have hone : ∀ x : Char, (quotesDoubled [x]).length ≤ 2 := by
    intro x
    by_cases hx : x = '\''
    · rw [hx, quotesDoubled_quote]
      exact Nat.le_refl 2
    · rw [quotesDoubled_cons hx]
      exact Nat.le_succ 1
  unfold unescape
  split
  case isTrue h =>
    have hc : c ≠ '\'' := by
      rintro rfl
      cases h
    rw [quotesDoubled_cons (by decide), quotesDoubled_cons hc]
    exact Nat.le_refl 2
  case isFalse => split <;> exact hone _

/-- What is read behind a front begins with it. -/
theorem readBehind_eq_some {front content : List Char} {read : Option (List Char × List Char)} :
    readBehind front read = some (content, rest) ↔
      ∃ more, read = some (more, rest) ∧ content = front ++ more := by
  rw [readBehind, Option.map_eq_some_iff]
  constructor
  · rintro ⟨⟨more, tail⟩, hread, heq⟩
    obtain ⟨rfl, rfl⟩ := Prod.mk.inj heq
    exact ⟨more, hread, rfl⟩
  · rintro ⟨more, hread, rfl⟩
    exact ⟨(more, rest), hread, rfl⟩

/-- A front in common does not matter for what is read behind it. -/
theorem readBehind_self (front : List Char) {content : List Char}
    {read : Option (List Char × List Char)} :
    readBehind front read = some (front ++ content, rest) ↔ read = some (content, rest) := by
  rw [readBehind_eq_some]
  constructor
  · rintro ⟨more, hread, heq⟩
    rw [hread, List.append_cancel_left heq]
  · intro hread
    exact ⟨content, hread, rfl⟩

namespace Dialect

/-- Two quotation marks are read as one that belongs to the content. -/
theorem literalBody?_quotes (cs : List Char) :
    d.literalBody? ('\'' :: '\'' :: cs) = readBehind ['\''] (d.literalBody? cs) := by
  rw [literalBody?, if_pos rfl, if_pos rfl]

/-- A quotation mark with no other one behind it closes a literal. -/
theorem literalBody?_close (h : rest.head? ≠ some '\'') :
    d.literalBody? ('\'' :: rest) = some ([], rest) := by
  cases rest with
  | nil => rfl
  | cons c rest =>
    have hc : c ≠ '\'' := fun heq => h (congrArg some heq)
    rw [literalBody?, if_pos rfl, if_neg hc]

/-- In MySQL, a backslash and the character behind it are read together. -/
theorem literalBody?_escape (c : Char) (cs : List Char) :
    mySql.literalBody? ('\\' :: c :: cs) = readBehind (unescape c) (mySql.literalBody? cs) := by
  rw [literalBody?, if_neg (by decide), if_pos ⟨rfl, rfl⟩]

/-- What is no quotation mark and opens no escape stands for itself. -/
theorem literalBody?_cons (hquote : c ≠ '\'') (hescape : d = mySql → c ≠ '\\') (cs : List Char) :
    d.literalBody? (c :: cs) = readBehind [c] (d.literalBody? cs) := by
  cases cs with
  | nil => exact if_neg hquote
  | cons next cs =>
    have hnone : ¬(d = mySql ∧ c = '\\') := fun h => hescape h.1 h.2
    rw [literalBody?, if_neg hquote, if_neg hnone]

/-- What is no backslash, or is read by a dialect without escapes, is read back from its literal
together with what follows it. -/
theorem literalBody?_quotesDoubled_cons (hescape : d = mySql → c ≠ '\\') (cs rest : List Char) :
    d.literalBody? (quotesDoubled (c :: cs) ++ rest) =
      readBehind [c] (d.literalBody? (quotesDoubled cs ++ rest)) := by
  by_cases hc : c = '\''
  · rw [hc, quotesDoubled_quote, List.cons_append, List.cons_append, literalBody?_quotes]
  · rw [quotesDoubled_cons hc, List.cons_append, literalBody?_cons hc hescape]

/-- PostgreSQL reads everything back from its literal. -/
theorem postgreSql_literalBody? (cs : List Char) (h : rest.head? ≠ some '\'') :
    postgreSql.literalBody? (quotesDoubled cs ++ '\'' :: rest) = some (cs, rest) := by
  induction cs with
  | nil => exact literalBody?_close h
  | cons c cs ih =>
    have hescape : postgreSql = mySql → c ≠ '\\' := fun h => nomatch h
    rw [literalBody?_quotesDoubled_cons hescape, ih]
    rfl

/-- What a literal stands for takes no more room in a literal than it took in this one. -/
theorem length_lt_of_literalBody? {text content : List Char}
    (h : mySql.literalBody? text = some (content, rest)) :
    (quotesDoubled content).length + rest.length < text.length := by
  -- The cases are the steps of the reader: quotation marks, escapes, other characters.
  fun_induction literalBody? mySql text generalizing content with
  | case1 => cases h
  | case2 =>
    obtain ⟨rfl, rfl⟩ := Prod.mk.inj (Option.some.inj h)
    exact Nat.zero_lt_one
  | case3 => cases h
  | case4 rest' ih =>
    obtain ⟨more, hmore, rfl⟩ := readBehind_eq_some.mp h
    have hlength := ih hmore
    rw [List.singleton_append, quotesDoubled_quote]
    simp only [List.length_cons]
    omega
  | case5 next rest' =>
    obtain ⟨rfl, rfl⟩ := Prod.mk.inj (Option.some.inj h)
    simp [quotesDoubled]
  | case6 c next rest' hquote hescape ih =>
    obtain ⟨more, hmore, rfl⟩ := readBehind_eq_some.mp h
    have hlength := ih hmore
    have hescaped := length_quotesDoubled_unescape next
    rw [quotesDoubled_append, List.length_append]
    simp only [List.length_cons]
    omega
  | case7 c next rest' hquote hescape ih =>
    obtain ⟨more, hmore, rfl⟩ := readBehind_eq_some.mp h
    have hlength := ih hmore
    rw [List.singleton_append, quotesDoubled_cons hquote]
    simp only [List.length_cons] at hlength ⊢
    omega

/-- A backslash that is read as one stood in front of a wildcard, which is read with it, or in front
of a backslash, which is lost. -/
theorem literalBody?_escape_eq_some {text content : List Char}
    (h : mySql.literalBody? ('\\' :: c :: text) = some ('\\' :: content, rest)) :
    (isWildcard c = true ∧ ∃ more, content = c :: more ∧
        mySql.literalBody? text = some (more, rest)) ∨
      c = '\\' ∧ mySql.literalBody? text = some (content, rest) := by
  rw [literalBody?_escape, readBehind_eq_some] at h
  obtain ⟨more, hmore, hcontent⟩ := h
  unfold unescape at hcontent
  split at hcontent
  case isTrue hwildcard =>
    exact .inl ⟨hwildcard, more, (List.cons.inj hcontent).2, hmore⟩
  case isFalse =>
    -- Every other escape stands for one character, and only one for a backslash.
    split at hcontent
    case h_7 =>
      obtain ⟨rfl, rfl⟩ := List.cons.inj hcontent
      exact .inr ⟨rfl, hmore⟩
    all_goals exact absurd (List.cons.inj hcontent).1 (by decide)

/-- MySQL reads a text back from its literal where all backslashes are kept, and nowhere else. -/
theorem mySql_literalBody?_iff (h : rest.head? ≠ some '\'') (cs : List Char) :
    mySql.literalBody? (quotesDoubled cs ++ '\'' :: rest) = some (cs, rest) ↔
      backslashesKept cs = true := by
  have hplain : ∀ {c : Char} {cs : List Char}, c ≠ '\\' →
      (mySql.literalBody? (quotesDoubled (c :: cs) ++ '\'' :: rest) = some (c :: cs, rest) ↔
        mySql.literalBody? (quotesDoubled cs ++ '\'' :: rest) = some (cs, rest)) := by
    intro c cs hc
    rw [literalBody?_quotesDoubled_cons fun _ => hc]
    exact readBehind_self [c]
  fun_induction backslashesKept cs with
  | case1 => simp [quotesDoubled, literalBody?_close h]
  | case2 c =>
    by_cases hc : c = '\\'
    · -- The backslash takes the closing quotation mark away.
      subst hc
      constructor
      · intro hread
        obtain ⟨hwildcard, -⟩ | ⟨hbackslash, -⟩ := literalBody?_escape_eq_some hread
        · cases hwildcard
        · cases hbackslash
      · intro hkept
        cases hkept
    · rw [hplain hc]
      simp [quotesDoubled, literalBody?_close h, hc]
  | case3 next others ih =>
    have hopen : quotesDoubled ('\\' :: next :: others) =
        '\\' :: quotesDoubled (next :: others) := quotesDoubled_cons (by decide) _
    have hothers : _ ↔ _ := ih
    rw [hopen, Bool.and_eq_true, ← hothers]
    constructor
    · intro hread
      by_cases hnext : next = '\''
      case pos =>
        subst hnext
        obtain ⟨hwildcard, -⟩ | ⟨hbackslash, -⟩ := literalBody?_escape_eq_some hread
        · cases hwildcard
        · cases hbackslash
      case neg =>
        rw [quotesDoubled_cons hnext, List.cons_append, List.cons_append] at hread
        obtain ⟨hwildcard, more, hmore, hread⟩ | ⟨rfl, hread⟩ := literalBody?_escape_eq_some hread
        · obtain rfl := (List.cons.inj hmore).2
          exact ⟨hwildcard, hread⟩
        · -- Two backslashes are read as one, so there is no room for the other one.
          have hlength := length_lt_of_literalBody? hread
          rw [quotesDoubled_cons (by decide)] at hlength
          simp only [List.length_append, List.length_cons] at hlength
          omega
    · rintro ⟨hwildcard, hread⟩
      have hnext : next ≠ '\'' := by
        rintro rfl
        cases hwildcard
      have hescape : unescape next = ['\\', next] := if_pos hwildcard
      rw [quotesDoubled_cons hnext, List.cons_append, List.cons_append, literalBody?_escape,
        hescape, hread]
      rfl
  | case4 c next others hc ih => exact (hplain hc).trans ih

end Dialect

end Reading

/-- A literal is its text with doubled quotation marks, between quotation marks. -/
theorem toList_literalOf (s : String) :
    (literalOf s).toList = '\'' :: (quotesDoubled s.toList ++ ['\'']) := by
  rw [literalOf, String.toList_append, String.toList_append, toList_doubleQuotes]
  rfl

/-- A literal is read back as its body is. -/
theorem Dialect.literal?_literalOf (d : Dialect) (s rest : String) :
    d.literal? (literalOf s ++ rest) =
      (d.literalBody? (quotesDoubled s.toList ++ '\'' :: rest.toList)).map fun x =>
        (String.ofList x.1, String.ofList x.2) := by
  have hchars : (literalOf s ++ rest).toList =
      '\'' :: (quotesDoubled s.toList ++ '\'' :: rest.toList) := by
    rw [String.toList_append, toList_literalOf]
    simp
  rw [literal?, hchars]
  rfl

/-- A literal is read back just if its body is, up to the mark that closes it. -/
theorem Dialect.literal?_literalOf_iff (d : Dialect) (s rest : String) :
    d.literal? (literalOf s ++ rest) = some (s, rest) ↔
      d.literalBody? (quotesDoubled s.toList ++ '\'' :: rest.toList) =
        some (s.toList, rest.toList) := by
  rw [literal?_literalOf, Option.map_eq_some_iff]
  constructor
  · rintro ⟨⟨content, tail⟩, hread, heq⟩
    obtain ⟨rfl, rfl⟩ := Prod.mk.inj heq
    rw [hread, String.toList_ofList, String.toList_ofList]
  · intro hread
    exact ⟨_, hread, by rw [String.ofList_toList, String.ofList_toList]⟩

/-- A formatted date is a function of the date and of the literal of its pattern. -/
theorem Dialect.dateFormat_text (d : Dialect) (pattern operand : String) :
    (d.dateFormat pattern).text operand =
      d.dateFunction ++ "(" ++ operand ++ "," ++ literalOf pattern ++ ")" := by
  have hafter : ",'" ++ doubleQuotes pattern ++ "')" = "," ++ literalOf pattern ++ ")" := by
    rw [literalOf, ← String.toList_inj]
    simp
  cases d <;> simp only [dateFormat, hafter, Wrap.text, dateFunction] <;>
    simp [← String.toList_inj]

/-- A parenthesis is no quotation mark, so it ends the literal in front of it. -/
theorem head?_parenthesis (rest : String) : (")" ++ rest).toList.head? ≠ some '\'' := by
  rw [String.toList_append]
  exact fun h => absurd (Option.some.inj h) (by decide)

/-- A formatted date is a call of the function of the dialect, with the literal of the pattern in
front of the closing parenthesis. In PostgreSQL this literal is always read back as the pattern, in
MySQL where every backslash of the pattern stands in front of a wildcard, and nowhere else. There a
pattern can close its literal itself, so that any text behind it is part of the statement. -/
theorem datePatterns_read (pattern rest : String) :
    (∀ (d : Dialect) (operand : String), (d.dateFormat pattern).text operand =
      d.dateFunction ++ "(" ++ operand ++ "," ++ literalOf pattern ++ ")") ∧
    (∀ (d : Dialect) (root : String) (aliases : Aliases) (operand : Fragment),
      (operand.wrap (d.dateFormat pattern)).render root aliases =
        (d.dateFormat pattern).text (operand.render root aliases)) ∧
    Dialect.postgreSql.literal? (literalOf pattern ++ (")" ++ rest)) =
      some (pattern, ")" ++ rest) ∧
    (Dialect.mySql.literal? (literalOf pattern ++ (")" ++ rest)) = some (pattern, ")" ++ rest) ↔
      backslashesKept pattern.toList = true) ∧
    ∀ text : String, Dialect.mySql.literal? (literalOf ("\\' " ++ text) ++ (")" ++ rest)) =
      some ("'", " " ++ doubleQuotes text ++ "')" ++ rest) := by
  have hclose := head?_parenthesis rest
  refine ⟨fun d operand => d.dateFormat_text pattern operand, fun d root aliases operand => ?_,
    ?_, ?_, fun text => ?_⟩
  · simp [Fragment.wrap, Wrap.text, String.append_assoc]
  · rw [Dialect.literal?_literalOf_iff]
    exact Dialect.postgreSql_literalBody? pattern.toList hclose
  · rw [Dialect.literal?_literalOf_iff]
    exact Dialect.mySql_literalBody?_iff hclose pattern.toList
  · -- The quotation mark behind the backslash is doubled, and its second half closes the literal.
    have hchars : quotesDoubled ("\\' " ++ text).toList =
        '\\' :: '\'' :: '\'' :: ' ' :: quotesDoubled text.toList := by
      rw [String.toList_append, quotesDoubled_append]
      rfl
    rw [Dialect.literal?_literalOf, hchars, List.cons_append, List.cons_append,
      Dialect.literalBody?_escape, List.cons_append, Dialect.literalBody?_close (by simp)]
    simp [readBehind, unescape, isWildcard, doubleQuotes, quotesDoubled, ← String.toList_inj]

end DynamicSql
