import DynamicSql.Proofs.Sql.Aliases

/-!
# Runs of requests for aliases

While a statement is resolved, its tables are mentioned again and again, and their aliases are
looked up. Whatever the order of these requests, the tokens with an alias are those that were
mentioned, they are numbered in the order of their first mentions, and no request changes an alias
(`Aliases.numbered_by_first_mention`).
-/

namespace DynamicSql

/-- A request for the alias of a token. -/
inductive AliasRequest where
  /-- The alias that the token has, or else the next one, which it has from then on. -/
  | mention (token : Token)
  /-- The alias that the token has, if it has one. -/
  | find (token : Token)
deriving DecidableEq

namespace AliasRequest

/-- The token that a request mentions. -/
def mentioned? : AliasRequest → Option Token
  | mention token => some token
  | find _ => none

/-- The tokens that a run of requests mentions, each where it is first mentioned. -/
def mentioned (requests : List AliasRequest) : List Token :=
  (requests.filterMap mentioned?).eraseDups

/-- A token is mentioned in a run just if a request in it mentions the token. -/
theorem mem_mentioned {requests : List AliasRequest} {token : Token} :
    token ∈ mentioned requests ↔ mention token ∈ requests := by
  rw [mentioned, List.mem_eraseDups, List.mem_filterMap]
  constructor
  · rintro ⟨request, hmem, hmentioned⟩
    cases request with
    | mention other =>
      obtain rfl := Option.some.inj hmentioned
      exact hmem
    | find other => cases hmentioned
  · exact fun hmem => ⟨mention token, hmem, rfl⟩

end AliasRequest

namespace Aliases

variable {a : Aliases} {token other : Token}

/-- The tokens with their aliases, in the order of the numbers. -/
def entries (a : Aliases) : List (Token × String) :=
  a.tokens.map fun token => (token, a.text token)

/-- The aliases after a request, and the answer to it. -/
def answer (a : Aliases) : AliasRequest → Aliases × Option String
  | .mention token => (a.mention token, some ((a.mention token).text token))
  | .find token => (a, a.find? token)

/-- The aliases after a run of requests. -/
def after (requests : List AliasRequest) : Aliases :=
  requests.foldl (fun a request => (a.answer request).1) empty

/-- A known token is not taken in again. -/
theorem mention_of_mem (h : token ∈ a.tokens) : a.mention token = a := by
  rw [mention, if_pos (List.contains_iff_mem.mpr h)]

/-- A new token is taken in behind those that are known. -/
theorem mention_of_not_mem (h : token ∉ a.tokens) : a.mention token = ⟨a.tokens ++ [token]⟩ := by
  rw [mention, if_neg (mt List.contains_iff_mem.mp h)]

/-- A known token has an alias. -/
theorem find?_of_mem (h : token ∈ a.tokens) : a.find? token = some (a.text token) := by
  rw [find?, if_pos (List.contains_iff_mem.mpr h)]

/-- An unknown token has none. -/
theorem find?_of_not_mem (h : token ∉ a.tokens) : a.find? token = none := by
  rw [find?, if_neg (mt List.contains_iff_mem.mp h)]

/-- A token that has an alias is answered with it, and nothing changes. -/
theorem answer_of_mem (h : token ∈ a.tokens) : a.answer (.mention token) = (a, a.find? token) := by
  rw [answer, mention_of_mem h, find?_of_mem h]

/-- A token without an alias is answered with the number of the aliases so far. -/
theorem answer_of_not_mem (h : token ∉ a.tokens) :
    a.answer (.mention token) = (⟨a.tokens ++ [token]⟩, some ("t" ++ toString a.size)) := by
  have hindex : (a.tokens ++ [token]).idxOf token = a.size := by
    rw [List.idxOf_append_of_notMem h, List.idxOf_cons_self, Nat.add_zero, size]
  rw [answer, mention_of_not_mem h, text, hindex]

/-- A request keeps the tokens with an alias apart from each other. -/
theorem nodup_mention (h : a.tokens.Nodup) (token : Token) : (a.mention token).tokens.Nodup := by
  by_cases hmem : token ∈ a.tokens
  · rwa [mention_of_mem hmem]
  · rw [mention_of_not_mem hmem]
    exact List.nodup_append.mpr ⟨h, List.nodup_singleton token, fun x hx y hy heq =>
      hmem (List.mem_singleton.mp hy ▸ heq ▸ hx)⟩

/-- Tokens are taken in once, however often they are mentioned. -/
theorem nodup_ofMentions (tokens : List Token) : (ofMentions tokens).tokens.Nodup := by
  unfold ofMentions
  exact List.foldlRecOn (motive := fun a => a.tokens.Nodup) tokens mention List.nodup_nil
    fun _ h token _ => nodup_mention h token

/-- The tokens with an alias are the mentioned ones, each where it is first mentioned. -/
theorem tokens_ofMentions (tokens : List Token) :
    (ofMentions tokens).tokens = tokens.eraseDups := by
  induction tokens using List.reverseRecOn with
  | nil => rfl
  | append_singleton tokens last ih =>
    have hstep : ofMentions (tokens ++ [last]) = (ofMentions tokens).mention last := by
      rw [ofMentions, List.foldl_append, List.foldl_cons, List.foldl_nil, ofMentions]
    rw [hstep, List.eraseDups_append, ← ih]
    by_cases hmem : last ∈ tokens
    · have hgone : [last].removeAll tokens = [] := by simp [List.removeAll, hmem]
      rw [mention_of_mem (mem_ofMentions.mpr hmem), hgone, List.eraseDups_nil, List.append_nil]
    · have hkept : [last].removeAll tokens = [last] := by simp [List.removeAll, hmem]
      rw [mention_of_not_mem (mt mem_ofMentions.mp hmem), hkept]
      rfl

/-- Looking aliases up has no effect on them, so only the mentions of a run count. -/
theorem after_eq_ofMentions (requests : List AliasRequest) :
    after requests = ofMentions (requests.filterMap AliasRequest.mentioned?) := by
  unfold after ofMentions
  generalize empty = a
  induction requests generalizing a with
  | nil => rfl
  | cons request requests ih =>
    cases request with
    | mention token => exact ih (a.mention token)
    | find token => exact ih a

/-- The known tokens are those that were mentioned, in the order of their first mentions. -/
theorem tokens_after (requests : List AliasRequest) :
    (after requests).tokens = AliasRequest.mentioned requests := by
  rw [after_eq_ofMentions, tokens_ofMentions, AliasRequest.mentioned]

/-- A token is known just if it was mentioned. -/
theorem mem_after {requests : List AliasRequest} :
    token ∈ (after requests).tokens ↔ AliasRequest.mention token ∈ requests := by
  rw [tokens_after, AliasRequest.mem_mentioned]

/-- A token keeps its alias through all later requests. -/
theorem find?_after_append {requests : List AliasRequest}
    (h : AliasRequest.mention token ∈ requests) (more : List AliasRequest) :
    (after (requests ++ more)).find? token = (after requests).find? token := by
  have hmentioned : token ∈ requests.filterMap AliasRequest.mentioned? :=
    List.mem_filterMap.mpr ⟨_, h, rfl⟩
  rw [find?_of_mem (mem_after.mpr (List.mem_append_left more h)), find?_of_mem (mem_after.mpr h),
    after_eq_ofMentions, after_eq_ofMentions, List.filterMap_append,
    text_ofMentions_append hmentioned]

/-- The entries of tokens that are told apart are numbered from zero. -/
theorem entries_of_nodup (h : a.tokens.Nodup) :
    a.entries = a.tokens.zipIdx.map fun (token, i) => (token, "t" ++ toString i) := by
  refine List.ext_getElem (by simp [entries]) fun i hi _ => ?_
  have hlength : i < a.tokens.length := by simpa [entries] using hi
  simp only [entries, List.getElem_map, List.getElem_zipIdx, text, h.idxOf_getElem i hlength,
    Nat.zero_add]

/-- After a run of requests, the aliases are those of the distinct tokens that it mentions: `t0` of
the first one, `t1` of the next one, and so on. Later requests for a mentioned token are answered
with its alias, which no other token shares. Looking up a token that was never mentioned finds
nothing and changes nothing, and mentioning it gives it the next number. -/
theorem numbered_by_first_mention (requests : List AliasRequest) :
    (after requests).entries = (AliasRequest.mentioned requests).zipIdx.map
      (fun (token, i) => (token, "t" ++ toString i)) ∧
    (after requests).size = (AliasRequest.mentioned requests).length ∧
    (∀ token, AliasRequest.mention token ∈ requests →
      (after requests).find? token =
        some ("t" ++ toString ((AliasRequest.mentioned requests).idxOf token)) ∧
      (∀ more, (after (requests ++ more)).answer (.mention token) =
          (after (requests ++ more), (after requests).find? token) ∧
        (after (requests ++ more)).answer (.find token) =
          (after (requests ++ more), (after requests).find? token)) ∧
      ∀ other, (after requests).find? other = (after requests).find? token → other = token) ∧
    ∀ token, AliasRequest.mention token ∉ requests →
      (after requests).answer (.find token) = (after requests, none) ∧
      (after requests).answer (.mention token) = (⟨AliasRequest.mentioned requests ++ [token]⟩,
        some ("t" ++ toString (AliasRequest.mentioned requests).length)) := by
  have htokens := tokens_after requests
  refine ⟨?_, congrArg List.length htokens,
    fun token h => ⟨?_, fun more => ?_, fun other hsame => ?_⟩, fun token h => ?_⟩
  · rw [← htokens]
    refine entries_of_nodup ?_
    rw [after_eq_ofMentions]
    exact nodup_ofMentions _
  · rw [find?_of_mem (mem_after.mpr h), text, htokens]
  · have hmem := mem_after.mpr (List.mem_append_left more h)
    rw [answer_of_mem hmem, answer, find?_after_append h more]
    exact ⟨rfl, rfl⟩
  · rw [find?_of_mem (mem_after.mpr h)] at hsame
    by_cases hother : other ∈ (after requests).tokens
    · rw [find?_of_mem hother] at hsame
      exact eq_of_text_eq hother (Option.some.inj hsame)
    · rw [find?_of_not_mem hother] at hsame
      cases hsame
  · have hnew := mt mem_after.mp h
    rw [answer_of_not_mem hnew, answer, find?_of_not_mem hnew, size, htokens]
    exact ⟨rfl, rfl⟩

/-- A run that mentions two tables, one of them twice, and looks a third one up. -/
def twoTables : List AliasRequest := [.mention "o", .find "x", .mention "c", .mention "o"]

/-- The two tables are `t0` and `t1`, also when the third one is mentioned, which is then `t2`. -/
theorem twoTables_numbered :
    (after twoTables).entries = [("o", "t0"), ("c", "t1")] ∧ (after twoTables).size = 2 ∧
    (after (twoTables ++ [.mention "x"])).answer (.mention "c") =
      (after (twoTables ++ [.mention "x"]), some "t1") ∧
    ((after twoTables).find? "o" = (after twoTables).find? "c" → "o" = "c") ∧
    (after twoTables).answer (.find "x") = (after twoTables, none) ∧
    (after twoTables).answer (.mention "x") = (⟨["o", "c", "x"]⟩, some "t2") := by
  obtain ⟨hentries, hsize, hmentioned, hnew⟩ := numbered_by_first_mention twoTables
  obtain ⟨hfound, hlater, halone⟩ := hmentioned "c" (by decide)
  have hname : (after twoTables).find? "c" = some "t1" := hfound.trans (by decide)
  obtain ⟨hnothing, hnext⟩ := hnew "x" (by decide)
  refine ⟨hentries.trans (by decide), hsize.trans (by decide), ?_, halone "o", hnothing,
    hnext.trans (by decide)⟩
  rw [(hlater [.mention "x"]).1, hname]

end Aliases

end DynamicSql
