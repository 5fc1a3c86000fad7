import DynamicSql.Text.CaseTable

/-!
# Lower case

Unicode's default lower-casing. Every letter has one lower form, with two exceptions: the dotted
capital I becomes two characters, and a capital sigma at the end of a word becomes the final
sigma.
-/

namespace DynamicSql.Text

/-- Whether a character has a case. -/
def isCased (c : Char) : Bool :=
  inRanges casedRanges c.toNat

/-- Whether a character is looked through when a word's end is sought. -/
def isCaseIgnorable (c : Char) : Bool :=
  inRanges caseIgnorableRanges c.toNat

/-- The simple lower-case form of a character. -/
def lowerChar (c : Char) : Char :=
  match caseRuns.find? (·.covers c.toNat) with
  | some run => Char.ofNat (run.target + (c.toNat - run.first))
  | none => c

/-- Whether the first character that is not looked through has a case. -/
def opensCased (cs : List Char) : Bool :=
  match cs.dropWhile isCaseIgnorable with
  | [] => false
  | c :: _ => isCased c

/-- Lower-case `cs`, which follow the characters `before`, nearest first. -/
def lowerFrom (before : List Char) : List Char → List Char
  | [] => []
  | c :: rest =>
    let lowered :=
      if c.toNat = 0x3A3 then
        [if opensCased before && !opensCased rest then Char.ofNat 0x3C2 else Char.ofNat 0x3C3]
      else if c.toNat = 0x130 then ['i', Char.ofNat 0x307]
      else [lowerChar c]
    lowered ++ lowerFrom (c :: before) rest

/-- The lower-case form of a text. -/
def lowercase (s : String) : String :=
  String.ofList (lowerFrom [] s.toList)

end DynamicSql.Text
