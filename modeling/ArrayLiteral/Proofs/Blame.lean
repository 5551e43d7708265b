import ArrayLiteral.Proofs.Commas
import ArrayLiteral.Proofs.Places
import ArrayLiteral.Proofs.Trails

/-!
# What an error points at

`At` ties a reader to a place: the tokens that it consumed lead there, and its
lookahead is the next one.  An error is `Justified` if it points at what keeps a
reader from going on.  For a lexical error this is the first piece that is no
token, and for any other error it is a token that is not allowed at the place
before it (`Stuck`).

Where a token is allowed and consumed, the reader is at the next place
(`At.takes`).  Where it is not allowed, it is what keeps the reader from going on
(`At.stuck`), and so is the text behind an allowed token if it is no token
(`At.cutOff`).
-/

namespace ArrayLiteral

/-- The consumed tokens lead to the place. -/
structure At (source : Cursor) (limits : Limits) (place : Place) (reader : Reader) : Prop where
  yields : source.Yields reader.pulled reader.cursor
  walk_eq : Place.outset.walk limits
    (reader.consumed.reverse.map fun token => token.symbol.plain) = some place
  limits_eq : reader.limits = limits

/-- The token is the first one that is not allowed where it is. The end of the
input is allowed behind a complete literal and nowhere else. -/
structure Stuck (source : Cursor) (limits : Limits) (found : Token) : Prop where
  exists_before : ∃ before behind place, source.Yields (before ++ [found]) behind ∧
    Place.outset.walk limits (before.map fun token => token.symbol.plain) = some place ∧
    place.next limits found.symbol.plain = none ∧
    (found.symbol = .eof → place ≠ .complete)

/-- The error is the first one that pulling gives. The tokens before it are allowed
where they are, but the last one may be a number that is no index. -/
structure CutOff (source : Cursor) (limits : Limits) (error : LexicalError) : Prop where
  exists_before : ∃ before behind after, source.Yields before behind ∧
    behind.next = (.error error, after) ∧
    ∀ front last, before = front ++ [last] → ∃ place,
      Place.outset.walk limits (front.map fun token => token.symbol.plain) = some place ∧
      place.AllowsUpToIndex limits last.symbol.plain

/-- The error points at what keeps a reader from going on. -/
inductive Justified (source : Cursor) (limits : Limits) : Error → Prop
  | lexical (error : LexicalError) (h : CutOff source limits error) :
    Justified source limits (.lexical error)
  | grammar (found : Token) (fault : GrammarFault) (h : Stuck source limits found) :
    Justified source limits (.grammar { found, fault })

variable {source : Cursor} {limits : Limits} {place place' : Place} {reader after : Reader}

/-- The end of the input is not walked. -/
theorem isEof_of_follow {token : Token}
    (h : place.follow token.symbol.plain ≠ none) : token.isEof = false := by
  refine Token.isEof_eq_false_iff.2 fun heof => ?_
  rw [heof] at h
  exact h Place.follow_eof

theorem isEof_of_walk {tokens : List Token}
    (h : place.walk limits (tokens.map fun token => token.symbol.plain) = some place') :
    ∀ token ∈ tokens, token.isEof = false := by
  intro token hmem
  obtain ⟨here, there, hnext⟩ :=
    Place.exists_next_of_walk h (List.mem_map_of_mem hmem)
  have hfollow : here.follow token.symbol.plain ≠ none := by
    rw [Place.follow_of_next hnext]
    nofun
  exact isEof_of_follow hfollow

/-- What has a token that is not allowed is no complete literal. -/
theorem Stuck.walk_ne {found : Token} {tokens : List Token} (h : Stuck source limits found)
    (hscan : source.scan = { tokens, fault? := none }) :
    Place.outset.walk limits (tokens.map fun token => token.symbol.plain) ≠ some .complete := by
  intro hcomplete
  obtain ⟨before, last, place, hyields, hwalk, hnone, hend⟩ := h.exists_before
  obtain ⟨behind, hbefore, hnext⟩ := hyields.exists_snoc
  rw [hbefore.scan_eq (isEof_of_walk hwalk)] at hscan
  -- The token is one of the others, or they end there.
  cases hmore : found.isEof with
  | true =>
    rw [Cursor.scan_of_eof hnext hmore] at hscan
    have htokens : before = tokens := by simpa [Scan.prepend] using hscan
    rw [← htokens, hwalk] at hcomplete
    exact hend (Token.isEof_iff.1 hmore) (Option.some.inj hcomplete)
  | false =>
    rw [Cursor.scan_of_token hnext hmore] at hscan
    have htokens : before ++ found :: last.scan.tokens = tokens := by
      simpa [Scan.prepend] using congrArg Scan.tokens hscan
    rw [← htokens, List.map_append, Place.walk_append, hwalk, List.map_cons] at hcomplete
    simp [hnone] at hcomplete

/-- Behind the end of the input there is no error. -/
theorem CutOff.exists_scan {error : LexicalError} (h : CutOff source limits error) :
    ∃ before behind after, source.Yields before behind ∧ behind.next = (.error error, after) ∧
      source.scan = { tokens := before, fault? := some error } ∧
      ∀ front last, before = front ++ [last] → ∃ place,
        Place.outset.walk limits (front.map fun token => token.symbol.plain) = some place ∧
        place.AllowsUpToIndex limits last.symbol.plain := by
  obtain ⟨before, behind, after, hyields, hnext, hwalk⟩ := h.exists_before
  have hmore : ∀ token ∈ before, token.isEof = false := by
    rcases List.eq_nil_or_concat before with rfl | ⟨front, last, rfl⟩
    · nofun
    · rw [List.concat_eq_append] at hwalk ⊢
      obtain ⟨place, hfront, hlast⟩ := hwalk front last rfl
      intro token hmem
      rcases List.mem_append.1 hmem with hmem | hmem
      · exact isEof_of_walk hfront token hmem
      · rw [List.mem_singleton.1 hmem]
        exact isEof_of_follow hlast.follow_ne_none
  refine ⟨before, behind, after, hyields, hnext, ?_, hwalk⟩
  rw [hyields.scan_eq hmore, Cursor.scan_of_error hnext]
  simp [Scan.prepend]

theorem CutOff.fault?_eq {error : LexicalError} (h : CutOff source limits error) :
    source.scan.fault? = some error := by
  obtain ⟨before, behind, after, -, -, hscan, -⟩ := h.exists_scan
  rw [hscan]

/-! ## Readers at a place -/

/-- What a comma was read as tells whether a closing brace comes behind it. -/
def CommaKept (symbol behind : Symbol) : Prop :=
  symbol.plain = .mark .comma → (symbol = .mark .endComma ↔ behind = .mark .rightCurly)

namespace At

open Parsing

/-- Where the lookahead is not allowed, it is what keeps the reader from going on. -/
theorem stuck (h : At source limits place reader)
    (hnone : place.next limits reader.lookahead.symbol.plain = none)
    (hend : place ≠ .complete) : Stuck source limits reader.lookahead :=
  ⟨_, _, place, h.yields, h.walk_eq, hnone, fun _ => hend⟩

/-- Behind a token that may be allowed there is no token. -/
theorem cutOff {error : LexicalError} {cursor : Cursor} (h : At source limits place reader)
    (hallows : place.AllowsUpToIndex limits reader.lookahead.symbol.plain)
    (hpull : reader.cursor.next = (.error error, cursor)) : CutOff source limits error := by
  refine ⟨_, _, cursor, h.yields, hpull, ?_⟩
  intro front last hsame
  obtain ⟨hfront, hlast⟩ := List.append_inj' hsame rfl
  cases hlast
  rw [← hfront]
  exact ⟨place, h.walk_eq, hallows⟩

/-- Consuming a token leads to the place behind it, if it is allowed. -/
theorem takes {stage stage' : Stage} (h : At source limits place reader)
    (htakes : Takes stage reader stage' after)
    (hnext : place.next limits reader.lookahead.symbol.plain = some place') :
    At source limits place' after ∧
      CommaKept reader.lookahead.symbol after.lookahead.symbol := by
  refine ⟨⟨(Path.single htakes).yields h.yields, ?_, htakes.limits_eq.trans h.limits_eq⟩, ?_⟩
  · rw [htakes.consumed_eq, List.reverse_cons, List.map_append, Place.walk_append, h.walk_eq]
    show place.walk limits [reader.lookahead.symbol.plain] = _
    rw [Place.walk_cons, hnext]
    rfl
  · intro hcomma
    obtain ⟨behind, -, hpulled⟩ := h.yields.exists_snoc
    rw [Cursor.eq_endComma_iff_of_next hpulled hcomma, htakes.pull_eq]
    constructor
    · rintro ⟨closing, last, heq, hbrace⟩
      cases heq
      exact hbrace
    · intro hbrace
      exact ⟨after.lookahead, after.cursor, rfl, hbrace⟩

end At

end ArrayLiteral
