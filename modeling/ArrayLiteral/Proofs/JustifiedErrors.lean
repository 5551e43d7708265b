import Mathlib
import ArrayLiteral.Proofs.Blame

/-!
# All errors are justified

A reader at a stage is at a place of the grammar, and its lookahead may tell that the place is
one of those where less is allowed (`Stage.Expects`).  What may be consumed at the stage is
allowed at the place, and what may not be consumed is not allowed.  So a path leads from place to
place (`Stands.path`), and a halt is a justified error (`Stands.justified`).

A run that does not fail leads to a complete literal (`settles_parseValue`).  A source is parsed
exactly if its tokens can be walked from the outset to a complete literal
(`exists_parseWhole_iff_walk`).
-/

namespace ArrayLiteral

variable {source : Cursor} {limits : Limits} {reader after : Reader}

namespace Parsing

/-! ## The places of a stage -/

/-- What the grammar expects at a stage, where this symbol is in front of the reader. Behind a
comma and behind an opening brace the symbol decides what there is. -/
inductive Stage.Expects : Stage → Symbol → Place → Prop
  | value (symbol : Symbol) (depth : Nat) : Expects .value symbol ⟨.value, depth⟩
  | bare (symbol : Symbol) (depth : Nat) (hsquare : symbol ≠ .mark .leftSquare)
    (hbrace : symbol ≠ .mark .rightCurly) : Expects .value symbol ⟨.item, depth⟩
  | opened (symbol : Symbol) (depth : Nat) : Expects .opened symbol ⟨.item, depth + 1⟩
  | item (symbol : Symbol) (depth : Nat) (hbrace : symbol ≠ .mark .rightCurly) :
    Expects .item symbol ⟨.item, depth⟩
  | start (symbol : Symbol) (depth : Nat) : Expects .start symbol ⟨.start, depth⟩
  | started (symbol : Symbol) (depth : Nat) : Expects .started symbol ⟨.started, depth⟩
  | stop (symbol : Symbol) (depth : Nat) : Expects .stop symbol ⟨.stop, depth⟩
  | stopped (symbol : Symbol) (depth : Nat) : Expects .stopped symbol ⟨.stopped, depth⟩
  | designated (symbol : Symbol) (depth : Nat) : Expects .designated symbol ⟨.designated, depth⟩
  | behind (symbol : Symbol) (depth : Nat) : Expects .behind symbol ⟨.behind, depth + 1⟩
  | closing (depth : Nat) : Expects .closing (.mark .rightCurly) ⟨.item, depth + 1⟩
  | complete (symbol : Symbol) (depth : Nat) : Expects .complete symbol ⟨.behind, depth⟩

namespace Stage.Expects

variable {stage stage' : Stage} {symbol : Symbol} {place : Place}

/-- What may be consumed here is followed by what is expected behind it. -/
theorem exists_follow (h : stage.Expects symbol place) (hnext : stage.next symbol = some stage') :
    ∃ place', place.follow symbol.plain = some place' ∧
      place'.depth = depthBehind symbol place.depth ∧
      ∀ behind, CommaKept symbol behind → stage'.Expects behind place' := by
  cases Stage.step_of_next hnext with
  | value_number =>
    cases h with
    | value _ depth => exact ⟨_, rfl, rfl, fun behind _ => .complete behind depth⟩
    | bare _ depth => exact ⟨_, rfl, rfl, fun behind _ => .complete behind depth⟩
  | value_leftCurly =>
    cases h with
    | value _ depth => exact ⟨_, rfl, rfl, fun behind _ => .opened behind depth⟩
    | bare _ depth => exact ⟨_, rfl, rfl, fun behind _ => .opened behind depth⟩
  | opened_rightCurly =>
    cases h with
    | opened _ depth => exact ⟨_, rfl, rfl, fun behind _ => .complete behind depth⟩
  | item_leftSquare =>
    cases h with
    | item _ depth => exact ⟨_, rfl, rfl, fun behind _ => .start behind depth⟩
  | start_number =>
    cases h with
    | start _ depth => exact ⟨_, rfl, rfl, fun behind _ => .started behind depth⟩
  | started_range =>
    cases h with
    | started _ depth => exact ⟨_, rfl, rfl, fun behind _ => .stop behind depth⟩
  | started_rightSquare =>
    cases h with
    | started _ depth => exact ⟨_, rfl, rfl, fun behind _ => .designated behind depth⟩
  | stop_number =>
    cases h with
    | stop _ depth => exact ⟨_, rfl, rfl, fun behind _ => .stopped behind depth⟩
  | stopped_rightSquare =>
    cases h with
    | stopped _ depth => exact ⟨_, rfl, rfl, fun behind _ => .designated behind depth⟩
  | designated_equal =>
    cases h with
    | designated _ depth => exact ⟨_, rfl, rfl, fun behind _ => .value behind depth⟩
  | behind_comma =>
    cases h with
    | behind _ depth =>
      -- With a closing brace behind it the comma had been a trailing one.
      refine ⟨_, rfl, rfl, fun behind hcomma => .item behind _ fun hbrace => ?_⟩
      cases (hcomma rfl).2 hbrace
  | behind_endComma =>
    cases h with
    | behind _ depth =>
      refine ⟨_, rfl, rfl, fun behind hcomma => ?_⟩
      rw [(hcomma rfl).1 rfl]
      exact .closing depth
  | behind_rightCurly =>
    cases h with
    | behind _ depth => exact ⟨_, rfl, rfl, fun behind _ => .complete behind depth⟩
  | closing_rightCurly =>
    cases h with
    | closing depth => exact ⟨_, rfl, rfl, fun behind _ => .complete behind depth⟩

/-- What is within the limits at the stage is so at the place. -/
theorem within_eq (h : stage.Expects symbol place) (hnext : stage.next symbol = some stage')
    (hwithin : stage.Within limits place.depth symbol) :
    place.within limits symbol.plain = true := by
  cases Stage.step_of_next hnext with
  | start_number => cases h; exact decide_eq_true (UInt64.lt_iff_toNat_lt.2 hwithin)
  | stop_number => cases h; exact decide_eq_true (UInt64.lt_iff_toNat_lt.2 hwithin)
  | value_leftCurly => cases h <;> exact decide_eq_true hwithin
  | _ => cases h <;> rfl

theorem exists_next (h : stage.Expects symbol place) (hnext : stage.next symbol = some stage')
    (hwithin : stage.Within limits place.depth symbol) :
    ∃ place', place.next limits symbol.plain = some place' ∧
      place'.depth = depthBehind symbol place.depth ∧
      ∀ behind, CommaKept symbol behind → stage'.Expects behind place' := by
  obtain ⟨place', hfollow, hrest⟩ := h.exists_follow hnext
  refine ⟨place', ?_, hrest⟩
  rw [Place.next, if_pos (h.within_eq hnext hwithin), hfollow]

/-- Where nothing is consumed the place stays the same. -/
theorem skips (h : stage.Expects symbol place)
    (hskips : Stage.Skips place.depth stage symbol stage') : stage'.Expects symbol place := by
  cases hskips with
  | brace _ hbrace =>
    cases h with
    | opened _ depth => exact .item symbol _ hbrace
  | target _ hsquare =>
    cases h with
    | item _ depth hbrace => exact .bare symbol depth hsquare hbrace
  | added _ hopen =>
    cases h with
    | complete _ depth =>
      obtain ⟨outer, rfl⟩ := Nat.exists_eq_succ_of_ne_zero hopen
      exact .behind symbol outer

/-- What may not be consumed here does not follow, unless nothing has to be consumed. -/
theorem follow_eq_none (h : stage.Expects symbol place) (hnext : stage.next symbol = none)
    (hfault : stage.fault? symbol ≠ none) : place.follow symbol.plain = none := by
  cases h with
  | opened => exact absurd rfl hfault
  | item => exact absurd rfl hfault
  | complete => exact absurd rfl hfault
  | closing => cases hnext
  | bare _ _ hsquare hbrace =>
    rcases symbol with number | punctuation | _
    · cases hnext
    · cases punctuation with
      | leftSquare => exact absurd rfl hsquare
      | rightCurly => exact absurd rfl hbrace
      | leftCurly => cases hnext
      | _ => rfl
    · rfl
  | _ =>
    rcases symbol with number | punctuation | _
    · first | rfl | cases hnext
    · cases punctuation <;> first | rfl | cases hnext
    · rfl

/-- Where something has to be consumed the literal is not complete. -/
theorem ne_complete (h : stage.Expects symbol place) (hfault : stage.fault? symbol ≠ none) :
    place ≠ .complete := by
  rintro rfl
  generalize hcomplete : Place.complete = place at h
  cases h with
  | complete => exact hfault rfl
  | _ => cases hcomplete

end Stage.Expects

/-! ## Paths -/

/-- What was consumed leads to the place that is expected at the stage. -/
structure Stands (source : Cursor) (limits : Limits) (stage : Stage) (reader : Reader) :
    Prop where
  exists_place : ∃ place, At source limits place reader ∧ place.depth = reader.depth ∧
    stage.Expects reader.lookahead.symbol place

namespace Stands

variable {stage last : Stage} {tokens : List Token}

theorem takes (h : Stands source limits stage reader) (htakes : Takes stage reader last after) :
    Stands source limits last after := by
  obtain ⟨place, hat, hdepth, hexpects⟩ := h.exists_place
  have hwithin := htakes.within
  rw [hat.limits_eq, ← hdepth] at hwithin
  obtain ⟨place', hnext, hdepth', hbehind⟩ := hexpects.exists_next htakes.next_eq hwithin
  obtain ⟨hat', hcomma⟩ := hat.takes htakes hnext
  exact ⟨place', hat', by rw [hdepth', hdepth, htakes.depth_eq], hbehind _ hcomma⟩

theorem path (h : Stands source limits stage reader)
    (hpath : Path stage reader tokens last after) : Stands source limits last after := by
  induction hpath with
  | refl => exact h
  | skip hskips _ ih =>
    obtain ⟨place, hat, hdepth, hexpects⟩ := h.exists_place
    rw [← hdepth] at hskips
    exact ih ⟨place, hat, hdepth, hexpects.skips hskips⟩
  | take htakes _ ih => exact ih (h.takes htakes)

/-- An index that is too large is blamed after it was consumed, and all else before. -/
theorem justified {error : Error} (h : Stands source limits stage reader)
    (hhalts : Halts stage reader error after) : Justified source limits error := by
  obtain ⟨place, hat, hdepth, hexpects⟩ := h.exists_place
  cases hhalts with
  | lexical error cursor depth hnext hroom hpull _ =>
    obtain ⟨stage', hstage⟩ := Option.ne_none_iff_exists'.1 hnext
    obtain ⟨place', hfollow, -⟩ := hexpects.exists_follow hstage
    refine .lexical error (hat.cutOff ⟨by rw [hfollow]; nofun, fun hbrace => ?_⟩ hpull)
    rw [hdepth, ← hat.limits_eq]
    exact hroom ((Symbol.plain_eq_mark_iff (by nofun)).1 hbrace)
  | unexpected fault hnext hfault =>
    have hsome : stage.fault? reader.lookahead.symbol ≠ none := by
      rw [hfault]
      nofun
    exact .grammar _ _ (hat.stuck (Place.next_eq_none (hexpects.follow_eq_none hnext hsome))
      (hexpects.ne_complete hsome))
  | tooDeep hstage hbrace hfull =>
    subst hstage
    rw [hat.limits_eq, ← hdepth] at hfull
    have hfull : ¬ place.depth < limits.maxDepth.toNat := Nat.not_lt_of_le hfull
    rw [hbrace] at hexpects
    have hwithin : place.within limits (.mark .leftCurly) = false := by
      cases hexpects <;> exact decide_eq_false hfull
    refine .grammar _ _ (hat.stuck (Place.next_eq_none_of_within ?_) (hexpects.ne_complete nofun))
    rw [hbrace]
    exact hwithin
  | tooLarge bound lookahead cursor hstage hbound hover _ =>
    rw [hat.limits_eq] at hover
    have hlarge : ¬ bound < limits.maxArrayLen :=
      fun hlt => Nat.not_lt_of_le hover (UInt64.lt_iff_toNat_lt.1 hlt)
    rw [hbound] at hexpects
    have hwithin : place.within limits (.number bound) = false := by
      rcases hstage with rfl | rfl <;> cases hexpects <;> exact decide_eq_false hlarge
    refine .grammar _ _ (hat.stuck (Place.next_eq_none_of_within ?_) (hexpects.ne_complete ?_))
    · rw [hbound]
      exact hwithin
    · rcases hstage with rfl | rfl <;> nofun

end Stands

/-! ## Runs -/

/-- The outcome is a justified error, or a whole literal was consumed. -/
def Settles (source : Cursor) (limits : Limits) (outcome : Outcome Unit Literal) : Prop :=
  match outcome.result with
  | .ok _ => At source limits .complete outcome.reader
  | .error error => Justified source limits error

/-- A source that is pulled from for the first time is at the outset. -/
theorem stands_of_ofString {source : String} (h : Reader.ofString source limits = .ok reader) :
    Stands (.ofString source) limits .value reader := by
  obtain ⟨-, hconsumed, hlimits, hdepth⟩ := Reader.scan_of_ofString h
  refine ⟨.outset, ⟨Reader.yields_of_ofString h, ?_, hlimits⟩, hdepth.symm, .value _ 0⟩
  rw [hconsumed]
  rfl

/-- The literal builder refuses nothing, so a parse of one value settles. -/
theorem settles_parseValue {source : String} (h : Reader.ofString source limits = .ok reader) :
    Settles (.ofString source) limits (parseValue literalBuilder () reader) := by
  have hstands := stands_of_ofString h
  have hran := ran_parseValue literalBuilder () reader
  generalize parseValue literalBuilder () reader = outcome at hran ⊢
  cases hran with
  | finished literal state tokens after hpath hdepth =>
    obtain ⟨place, hat, hplace, hexpects⟩ := (hstands.path hpath).exists_place
    rw [hdepth, (Reader.scan_of_ofString h).2.2.2] at hplace
    cases hexpects with
    | complete _ depth =>
      obtain rfl : depth = 0 := hplace
      exact hat
  | halted error state tokens last before after hpath hhalts =>
    exact (hstands.path hpath).justified hhalts
  | refused frame literal state state' refusal left tokens after hpath hadd hstarts => cases hadd

/-! ## Parses -/

/-- Every error of a parse is justified. -/
theorem justified_of_parseWhole {source : String} {error : Error}
    (h : parseWhole literalBuilder () limits source = .error error) :
    Justified (.ofString source) limits error := by
  cases hreader : Reader.ofString source limits with
  | error error' =>
    rw [parseWhole_of_error _ _ hreader] at h
    cases h
    unfold Reader.ofString at hreader
    split at hreader
    · cases hreader
    · rename_i lexical after hnext
      cases hreader
      -- The very first pull fails, so there is no token before the error.
      refine .lexical lexical ⟨[], _, after, .nil _, hnext, ?_⟩
      intro front last hnil
      simp at hnil
  | ok reader =>
    have hsettles := settles_parseValue hreader
    rw [parseWhole_eq _ _ hreader] at h
    unfold Settles parseValue at hsettles
    cases hresult : (run literalBuilder () ⟨.value, []⟩ reader).result with
    | error error' =>
      rw [hresult] at h hsettles
      cases h
      exact hsettles
    | ok literal =>
      rw [hresult] at h hsettles
      simp only [Except.bind] at h
      split at h
      · cases h
      · rename_i hmore
        cases h
        refine .grammar _ _ ⟨_, _, _, hsettles.yields, hsettles.walk_eq, Place.next_complete, ?_⟩
        intro heof
        exact absurd (Token.isEof_iff.2 heof) hmore

/-- The tokens of a source that is parsed lead to a complete literal. -/
theorem walk_of_parseWhole {source : String} {literal : Literal}
    (h : parseWhole literalBuilder () limits source = .ok (literal, ())) :
    ∃ tokens, tokenize source = .ok tokens ∧
      Place.outset.walk limits (tokens.map fun token => token.symbol.plain) = some .complete := by
  obtain ⟨reader, hreader, hresult, hend⟩ := exists_run_of_parseWhole literalBuilder h
  have hsettles := settles_parseValue hreader
  unfold Settles parseValue at hsettles
  rw [hresult] at hsettles
  obtain ⟨behind, hyields, hnext⟩ := hsettles.yields.exists_snoc
  refine ⟨_, tokenize_eq_ok_iff.2 ?_, hsettles.walk_eq⟩
  rw [hyields.scan_eq (isEof_of_walk hsettles.walk_eq), Cursor.scan_of_eof hnext hend]
  simp [Scan.prepend]

/-- A source is parsed exactly if its tokens lead to a complete literal. -/
theorem exists_parseWhole_iff_walk {source : String} :
    (∃ literal, parseWhole literalBuilder () limits source = .ok (literal, ())) ↔
      ∃ tokens, tokenize source = .ok tokens ∧
        Place.outset.walk limits (tokens.map fun token => token.symbol.plain) =
          some .complete := by
  constructor
  · rintro ⟨literal, h⟩
    exact walk_of_parseWhole h
  · rintro ⟨tokens, htokens, hwalk⟩
    have hscan := tokenize_eq_ok_iff.1 htokens
    cases hwhole : parseWhole literalBuilder () limits source with
    | ok made => exact ⟨made.1, rfl⟩
    | error error =>
      cases justified_of_parseWhole hwhole with
      | lexical error h =>
        have hfault := h.fault?_eq
        rw [hscan] at hfault
        cases hfault
      | grammar found fault h => exact absurd hwalk (h.walk_ne hscan)

end Parsing

end ArrayLiteral
