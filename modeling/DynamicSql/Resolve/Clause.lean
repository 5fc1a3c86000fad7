import DynamicSql.Resolve.Basic

/-!
# Conditions as text

Resolved conditions are terms, each behind a connector: a leaf, or a group of terms, which is put
in parentheses. The connector of the first term of a clause is not written, except in front of a
group that opens the extra conditions of a join.
-/

namespace DynamicSql

/-- A resolved condition or group of conditions. -/
inductive Term where
  | leaf (connector : Connector) (text : Fragment)
  | group (connector : Connector) (terms : List Term)

namespace Term

mutual

/-- The text of a term without its connector. -/
def body : Term → Fragment
  | .leaf _ text => text
  | .group _ terms => .parens (whereText terms)

/-- The text of terms without the connector of the first one. -/
def whereText : List Term → Fragment
  | [] => []
  | term :: rest => body term ++ tailText rest

/-- The text of terms, each behind its connector. -/
def tailText : List Term → Fragment
  | [] => []
  | .leaf connector text :: rest => .text connector.text :: text ++ tailText rest
  | .group connector terms :: rest =>
    .text connector.text :: Fragment.parens (whereText terms) ++ tailText rest

end

/-- The text of the extra conditions of a join. -/
def onText : List Term → Fragment
  | .group connector terms :: rest => tailText (.group connector terms :: rest)
  | terms => whereText terms

end Term

/-- Whether a list of characters begins with a text. -/
def startsWith (opening : String) (cs : List Char) : Bool :=
  opening.toList.isPrefixOf cs

/-- Put the extra conditions of a join behind its keys, with `AND` between them unless they bring a
connector of their own. -/
def appendOn (root : String) (keys extra : Fragment) : Fragment :=
  let trimmed := extra.trimStart
  if trimmed.isEmpty then keys
  else
    let outline := trimmed.outline root
    if startsWith "AND " outline || startsWith "OR " outline then keys ++ .text " " :: trimmed
    else keys ++ .text " AND " :: trimmed

/-- Whether `OR` stands between spaces outside quotation marks and parentheses. -/
def hasOuterOr (quoted : Bool) (depth : Int) : List Char → Bool
  | [] => false
  | c :: rest =>
    if c = '\'' then hasOuterOr (!quoted) depth rest
    else if quoted then hasOuterOr quoted depth rest
    else if c = '(' then hasOuterOr quoted (depth + 1) rest
    else if c = ')' then hasOuterOr quoted (depth - 1) rest
    else (c == ' ' && depth == 0 && startsWith "OR " rest) || hasOuterOr quoted depth rest

/-- Put parentheses around a condition that has an outer `OR`. -/
def guardOr (root : String) (f : Fragment) : Fragment :=
  if hasOuterOr false 0 (f.outline root) then f.parens else f

/-- Demand all of several conditions; empty ones say nothing. -/
def combineWhere (root : String) (parts : List Fragment) : Fragment :=
  match parts.filter (!·.isEmpty) with
  | [] => []
  | [part] => part
  | several => Fragment.join " AND " (several.map (guardOr root))

end DynamicSql
