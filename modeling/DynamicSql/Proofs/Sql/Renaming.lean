import DynamicSql.Proofs.Query.Renaming
import DynamicSql.Proofs.Sql.Mapping

/-!
# Statements with renamed tokens

Aliases are numbered in the order in which tokens are first mentioned, so a renamed token has the
alias that the token has (`Aliases.text_ofMentions_map`). A statement in which tokens are renamed,
the mentioned ones like the ones in its pieces, is read off as the same text
(`Fragment.render_rename`).
-/

namespace DynamicSql

variable {ρ : Renaming}

namespace Aliases

/-- A renamed token is mentioned as the token is. -/
theorem mention_map {rename : Token → Token} (h : Function.Injective rename) (a : Aliases)
    (token : Token) :
    mention ⟨a.tokens.map rename⟩ (rename token) = ⟨(a.mention token).tokens.map rename⟩ := by
  have hcontains : (a.tokens.map rename).contains (rename token) = a.tokens.contains token := by
    rw [Bool.eq_iff_iff, List.contains_iff_mem, List.contains_iff_mem, List.mem_map_of_injective h]
  unfold mention
  rw [hcontains]
  split
  · rfl
  · rw [List.map_append, List.map_singleton]

/-- Renamed tokens are numbered like the tokens. -/
theorem ofMentions_map {rename : Token → Token} (h : Function.Injective rename)
    (tokens : List Token) :
    ofMentions (tokens.map rename) = ⟨(ofMentions tokens).tokens.map rename⟩ := by
  have hfold : ∀ a : Aliases, (tokens.map rename).foldl mention ⟨a.tokens.map rename⟩ =
      ⟨(tokens.foldl mention a).tokens.map rename⟩ := by
    induction tokens with
    | nil => exact fun _ => rfl
    | cons token tokens ih =>
      intro a
      rw [List.map_cons, List.foldl_cons, List.foldl_cons, mention_map h, ih]
  exact hfold empty

/-- Renamed tokens keep their places. -/
theorem idxOf_map {rename : Token → Token} (h : Function.Injective rename) (tokens : List Token)
    (token : Token) : (tokens.map rename).idxOf (rename token) = tokens.idxOf token := by
  induction tokens with
  | nil => rfl
  | cons first tokens ih =>
    have hsame : (rename first == rename token) = (first == token) := by
      rw [Bool.eq_iff_iff, beq_iff_eq, beq_iff_eq, h.eq_iff]
    rw [List.map_cons, List.idxOf_cons, List.idxOf_cons, hsame, ih]

/-- A renamed token has the alias that the token has. -/
theorem text_ofMentions_map {rename : Token → Token} (h : Function.Injective rename)
    (tokens : List Token) (token : Token) :
    (ofMentions (tokens.map rename)).text (rename token) = (ofMentions tokens).text token := by
  unfold text
  rw [ofMentions_map h, idxOf_map h]

end Aliases

/-- A piece, where tokens are renamed. -/
def Piece.rename (ρ : Renaming) : Piece → Piece
  | .text s => .text s
  | .table name token => .table name (ρ.apply token)
  | .column token name => .column (ρ.apply token) name
  | .marker slot => .marker slot

/-- Renaming tokens changes nothing in pieces but aliases. -/
def PieceMap.rename (ρ : Renaming) : PieceMap where
  apply := Piece.rename ρ
  text _ := rfl
  eq_text piece s h := by
    cases piece with
    | text => exact h
    | _ => cases h
  alike root piece := by
    cases piece <;> exact .refl _

namespace Fragment

/-- A fragment, where tokens are renamed. -/
abbrev rename (ρ : Renaming) (f : Fragment) : Fragment := f.mapped (.rename ρ)

/-- Renamed tokens stand for the same aliases, so the text stays the same. -/
theorem render_rename (root : String) (f : Fragment) (mentioned : List Token) :
    (f.rename ρ).render root (.ofMentions (mentioned.map ρ.apply)) =
      f.render root (.ofMentions mentioned) := by
  have hpiece : ∀ piece, pieceChars root (Aliases.ofMentions (mentioned.map ρ.apply)).text
      (piece.rename ρ) = pieceChars root (Aliases.ofMentions mentioned).text piece := by
    intro piece
    cases piece with
    | table name token | column token name =>
      simp only [Piece.rename, pieceChars, Aliases.text_ofMentions_map ρ.injective]
    | text | marker => rfl
  unfold render chars rename mapped
  rw [List.flatMap_map]
  exact congrArg String.ofList (List.flatMap_congr fun piece _ => hpiece piece)

/-- The token of a column is renamed, and the column stays. -/
theorem rename_qualified (token? : Option Token) (column : String) :
    (qualified token? column).rename ρ = qualified (token?.map ρ.apply) column := by
  cases token? <;> rfl

end Fragment

end DynamicSql
