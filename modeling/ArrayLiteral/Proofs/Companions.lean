import ArrayLiteral.Proofs.Images

/-!
# Two readers side by side

A parser decides by the symbols of its tokens and by the limits, and by nothing else.  So a
second reader that has tokens with the same symbols, and limits that are the same or higher,
makes the same steps.  A `Companion` is such a second reader, described by how it goes along
with the first one.

`Accompanies` says of two steps that the second one does what the first one does, and is
closed under composition.  It is proved once for each function that reads.  So it holds of
steps of the machine, of runs (`run_accompanied`) and of parses (`parseWhole_accompanied`),
for every companion that keeps to the laws, and for every builder that accompanies itself.

Where the limits are higher the first reader may fail alone, with an error that is excused.
Nothing is said of the second one then.
-/

namespace ArrayLiteral

/-- The error is a crossed limit. -/
def Error.CrossesLimit : Error → Prop
  | lexical _ => False
  | grammar error => error.fault.limit? ≠ none

/-- Both limits allow at least as much. -/
structure Limits.Raised (limits limits' : Limits) : Prop where
  maxArrayLen : limits.maxArrayLen ≤ limits'.maxArrayLen
  maxDepth : limits.maxDepth ≤ limits'.maxDepth

theorem index?_of_raised {limits limits' : Limits} (hraised : limits.Raised limits')
    {value index : UInt64} (h : index? value limits.maxArrayLen = some index) :
    index? value limits'.maxArrayLen = some index := by
  obtain ⟨hindex, hlt⟩ := index?_eq_some_iff.1 h
  have hle := UInt64.le_iff_toNat_le.1 hraised.maxArrayLen
  exact index?_eq_some_iff.2 ⟨hindex, Nat.lt_of_lt_of_le hlt hle⟩

/-- How a second reader goes along with a first one. -/
structure Companion where
  /-- The second reader is where the first one is. -/
  readers : Reader → Reader → Prop
  /-- The token that the second one has there. -/
  token : Token → Token
  /-- The error that the second one fails with there. -/
  error : Error → Error
  /-- The first one may fail alone with this error. -/
  excused : Error → Prop

namespace Companion

variable {α β : Type}

/-- The second result is that of the companion. -/
inductive Matches (company : Companion) (there : α → α) :
    EStateM.Result Error Reader α → EStateM.Result Error Reader α → Prop
  | ok (value : α) (after other : Reader) (h : company.readers after other) :
    Matches company there (.ok value after) (.ok (there value) other)
  | error (error : Error) (after other : Reader) (h : company.readers after other) :
    Matches company there (.error error after) (.error (company.error error) other)
  | excused (error : Error) (after : Reader) (other : EStateM.Result Error Reader α)
    (h : company.excused error) : Matches company there (.error error after) other

/-- What a companion keeps to. -/
structure Lawful (company : Companion) : Prop where
  symbol_token : ∀ token, (company.token token).symbol = token.symbol
  error_grammar : ∀ found fault,
    company.error (.grammar { found, fault }) = .grammar { found := company.token found, fault }
  lookahead_eq : ∀ {reader other}, company.readers reader other →
    other.lookahead = company.token reader.lookahead
  depth_eq : ∀ {reader other}, company.readers reader other → other.depth = reader.depth
  withDepth : ∀ {reader other}, company.readers reader other → ∀ depth,
    company.readers { reader with depth } { other with depth }
  limits : ∀ {reader other}, company.readers reader other → other.limits = reader.limits ∨
    reader.limits.Raised other.limits ∧ ∀ error : Error, error.CrossesLimit → company.excused error
  consume : ∀ {reader other}, company.readers reader other →
    company.Matches company.token (Reading.consume reader) (Reading.consume other)

/-- From where the companion is, the second step does what the first one does. -/
def Accompanies (company : Companion) (there : α → α) (reading mirror : Reading α) : Prop :=
  ∀ reader other, company.readers reader other →
    company.Matches there (reading reader) (mirror other)

variable {company : Companion} {there : α → α}

theorem Lawful.isEof_eq (hlawful : company.Lawful) (token : Token) :
    (company.token token).isEof = token.isEof := by
  rw [Token.isEof, Token.kind, hlawful.symbol_token]
  rfl

theorem accompanies_pure (value : α) :
    company.Accompanies there (pure value) (pure (there value)) :=
  fun reader other h => .ok value reader other h

theorem accompanies_bind {there' : β → β} {reading mirror : Reading α}
    {next next' : α → Reading β} (hfirst : company.Accompanies there reading mirror)
    (hnext : ∀ value, company.Accompanies there' (next value) (next' (there value))) :
    company.Accompanies there' (reading >>= next) (mirror >>= next') := by
  intro reader other habreast
  have hmatches := hfirst reader other habreast
  show company.Matches there' (EStateM.bind reading next reader) (EStateM.bind mirror next' other)
  unfold EStateM.bind
  generalize reading reader = first at hmatches ⊢
  generalize mirror other = first' at hmatches ⊢
  cases hmatches with
  | ok value after after' hafter => exact hnext value after after' hafter
  | error error after after' hafter => exact .error error after after' hafter
  | excused error after _ hexcused => exact .excused error after _ hexcused

end Companion

namespace Reading

/-! ## Steps of a reader -/

section Accompanies

variable {α : Type} {company : Companion} {there : α → α} (hlawful : company.Lawful)

include hlawful

theorem accompanies_lookahead :
    company.Accompanies company.token lookahead lookahead := by
  intro reader other h
  show company.Matches company.token (.ok reader.lookahead reader) (.ok other.lookahead other)
  rw [hlawful.lookahead_eq h]
  exact .ok _ reader other h

theorem accompanies_isAt (kind : Kind) : company.Accompanies id (isAt kind) (isAt kind) := by
  refine Companion.accompanies_bind (accompanies_lookahead hlawful) fun token => ?_
  rw [Token.kind, Token.kind, hlawful.symbol_token]
  exact Companion.accompanies_pure _

theorem accompanies_reject (found : Token) (fault : GrammarFault) :
    company.Accompanies there (reject found fault) (reject (company.token found) fault) := by
  intro reader other h
  have herror : (reject (company.token found) fault : Reading α) other =
      .error (company.error (.grammar { found, fault })) other := by
    rw [hlawful.error_grammar]
    rfl
  rw [herror]
  exact .error _ reader other h

theorem accompanies_expected (description : String) :
    company.Accompanies there (expected description) (expected description) :=
  Companion.accompanies_bind (accompanies_lookahead hlawful)
    fun found => accompanies_reject hlawful found _

theorem accompanies_consume : company.Accompanies company.token consume consume :=
  fun _ _ h => hlawful.consume h

theorem accompanies_require (kind : Kind) :
    company.Accompanies company.token (require kind) (require kind) := by
  refine Companion.accompanies_bind (accompanies_isAt hlawful kind) fun found => ?_
  cases found with
  | true => exact accompanies_consume hlawful
  | false => exact accompanies_expected hlawful _

/-- Where there is room for an aggregate, a companion has room too. -/
theorem accompanies_enterAggregate : company.Accompanies id enterAggregate enterAggregate := by
  intro reader other h
  have hdepth := hlawful.depth_eq h
  by_cases hroom : reader.depth < reader.limits.maxDepth.toNat
  · have hroom' : other.depth < other.limits.maxDepth.toNat := by
      rw [hdepth]
      rcases hlawful.limits h with hsame | ⟨hraised, -⟩
      · rwa [hsame]
      · exact Nat.lt_of_lt_of_le hroom (UInt64.le_iff_toNat_le.1 hraised.maxDepth)
    rw [enterAggregate_eq_ok_iff.2 ⟨hroom, rfl⟩, enterAggregate_eq_ok_iff.2 ⟨hroom', rfl⟩, hdepth]
    exact .ok () _ _ (hlawful.withDepth h _)
  · rw [enterAggregate_of_full (Nat.le_of_not_lt hroom)]
    rcases hlawful.limits h with hsame | ⟨-, hexcused⟩
    · rw [enterAggregate_of_full (by rw [hsame, hdepth]; exact Nat.le_of_not_lt hroom), hsame,
        hlawful.lookahead_eq h, ← hlawful.error_grammar]
      exact .error _ reader other h
    · exact .excused _ _ _ (hexcused _ nofun)

theorem accompanies_leaveAggregate : company.Accompanies id leaveAggregate leaveAggregate := by
  intro reader other h
  have hleft := hlawful.withDepth h (reader.depth - 1)
  have hsame : leaveAggregate other = .ok () { other with depth := reader.depth - 1 } := by
    rw [← hlawful.depth_eq h]
    rfl
  rw [hsame]
  exact .ok () _ _ hleft

end Accompanies

end Reading

namespace Parsing

open Reading

/-! ## Steps of the machine -/

section Targets

variable {company : Companion} (hlawful : company.Lawful)

include hlawful

/-- Each side looks at the limit of its own reader. -/
theorem accompanies_readIndex : company.Accompanies id readIndex readIndex := by
  refine Companion.accompanies_bind (accompanies_lookahead hlawful) fun token => ?_
  rw [hlawful.symbol_token]
  cases token.symbol with
  | number value =>
    intro reader other h
    have hconsume := hlawful.consume h
    have hlimits := hlawful.limits h
    show company.Matches id (EStateM.bind consume _ reader) (EStateM.bind consume _ other)
    unfold EStateM.bind
    generalize consume reader = result at hconsume ⊢
    generalize consume other = result' at hconsume ⊢
    cases hconsume with
    | error error after after' hafter => exact .error error after after' hafter
    | excused error after _ hexcused => exact .excused error after _ hexcused
    | ok token after after' hafter =>
      dsimp only
      rcases hlimits with hsame | ⟨hraised, hexcused⟩
      · rw [hsame]
        cases index? value reader.limits.maxArrayLen with
        | some index => exact .ok index after after' hafter
        | none => exact accompanies_reject hlawful token _ after after' hafter
      · cases hindex : index? value reader.limits.maxArrayLen with
        | some index =>
          rw [index?_of_raised hraised hindex]
          exact .ok index after after' hafter
        | none => exact .excused _ _ _ (hexcused _ nofun)
  | _ => exact accompanies_expected hlawful _

theorem accompanies_readDesignator : company.Accompanies id readDesignator readDesignator := by
  refine Companion.accompanies_bind (accompanies_require hlawful _) fun _ => ?_
  refine Companion.accompanies_bind (accompanies_readIndex hlawful) fun start => ?_
  refine Companion.accompanies_bind (accompanies_lookahead hlawful) fun token => ?_
  rw [hlawful.symbol_token]
  cases token.symbol with
  | mark punctuation =>
    cases punctuation with
    | range =>
      refine Companion.accompanies_bind (accompanies_consume hlawful) fun _ => ?_
      refine Companion.accompanies_bind (accompanies_readIndex hlawful) fun stop => ?_
      exact Companion.accompanies_bind (accompanies_require hlawful _)
        fun _ => Companion.accompanies_pure _
    | rightSquare =>
      exact Companion.accompanies_bind (accompanies_require hlawful _)
        fun _ => Companion.accompanies_pure _
    | _ => exact accompanies_expected hlawful _
  | _ => exact accompanies_expected hlawful _

theorem accompanies_readTarget : company.Accompanies id readTarget readTarget := by
  refine Companion.accompanies_bind (accompanies_isAt hlawful _) fun designated => ?_
  cases designated with
  | true =>
    refine Companion.accompanies_bind (accompanies_readDesignator hlawful) fun designator => ?_
    exact Companion.accompanies_bind (accompanies_require hlawful _)
      fun _ => Companion.accompanies_pure _
  | false => exact Companion.accompanies_pure _

end Targets

section Steps

variable {σ α γ : Type} {builder : Builder σ α γ}

/-- The first token is the one that the companion has there. -/
def Frame.there (company : Companion) (frame : Frame γ) : Frame γ :=
  { frame with first := company.token frame.first }

def Config.there (company : Companion) (config : Config α γ) : Config α γ :=
  { config with enclosing := config.enclosing.map (Frame.there company) }

section Reads

variable {company : Companion} (hlawful : company.Lawful)

include hlawful

theorem accompanies_startInitializer (aggregate : γ) (enclosing : List (Frame γ)) :
    company.Accompanies (Config.there company)
      (startInitializer aggregate enclosing : Reading (Config α γ))
      (startInitializer aggregate (enclosing.map (Frame.there company))) := by
  refine Companion.accompanies_bind (accompanies_lookahead hlawful) fun first => ?_
  exact Companion.accompanies_bind (accompanies_readTarget hlawful)
    fun designator? => Companion.accompanies_pure _

theorem accompanies_closeAggregate (aggregate : γ) (enclosing : List (Frame γ)) :
    company.Accompanies (Config.there company) (closeAggregate builder aggregate enclosing)
      (closeAggregate builder aggregate (enclosing.map (Frame.there company))) := by
  refine Companion.accompanies_bind (accompanies_require hlawful _) fun _ => ?_
  exact Companion.accompanies_bind (accompanies_leaveAggregate hlawful)
    fun _ => Companion.accompanies_pure _

theorem accompanies_startValue (enclosing : List (Frame γ)) :
    company.Accompanies (Config.there company) (startValue builder enclosing)
      (startValue builder (enclosing.map (Frame.there company))) := by
  refine Companion.accompanies_bind (accompanies_lookahead hlawful) fun token => ?_
  rw [hlawful.symbol_token]
  cases token.symbol with
  | number value =>
    exact Companion.accompanies_bind (accompanies_consume hlawful)
      fun _ => Companion.accompanies_pure _
  | mark punctuation =>
    cases punctuation with
    | leftCurly =>
      refine Companion.accompanies_bind (accompanies_enterAggregate hlawful) fun _ => ?_
      refine Companion.accompanies_bind (accompanies_require hlawful _) fun _ => ?_
      refine Companion.accompanies_bind (accompanies_isAt hlawful _) fun closing => ?_
      cases closing with
      | true => exact accompanies_closeAggregate hlawful _ _
      | false => exact accompanies_startInitializer hlawful _ _
    | _ => exact accompanies_expected hlawful _
  | eof => exact accompanies_expected hlawful _

theorem accompanies_continueAggregate (aggregate : γ) (enclosing : List (Frame γ)) :
    company.Accompanies (Config.there company) (continueAggregate builder aggregate enclosing)
      (continueAggregate builder aggregate (enclosing.map (Frame.there company))) := by
  refine Companion.accompanies_bind (accompanies_lookahead hlawful) fun token => ?_
  rw [hlawful.symbol_token]
  cases token.symbol with
  | number value => exact accompanies_reject hlawful token _
  | mark punctuation =>
    cases punctuation with
    | comma =>
      exact Companion.accompanies_bind (accompanies_consume hlawful)
        fun _ => accompanies_startInitializer hlawful _ _
    | endComma =>
      exact Companion.accompanies_bind (accompanies_consume hlawful)
        fun _ => accompanies_closeAggregate hlawful _ _
    | rightCurly => exact accompanies_closeAggregate hlawful _ _
    | leftCurly => exact accompanies_reject hlawful token _
    | leftSquare => exact accompanies_reject hlawful token _
    | _ => exact accompanies_expected hlawful _
  | eof => exact accompanies_expected hlawful _

end Reads

/-! ## Runs -/

/-- Two runs ended alike, or the first one failed alone. -/
inductive Outcome.Accompanied (company : Companion) (goesWith : σ → σ → Prop)
    (outcome other : Outcome σ α) : Prop
  | alike (hresult : other.result = outcome.result.mapError company.error)
    (hstate : goesWith outcome.state other.state)
    (hreaders : company.readers outcome.reader other.reader)
  | excused (error : Error) (hresult : outcome.result = .error error)
    (hexcused : company.excused error)

variable {company : Companion} {goesWith : σ → σ → Prop}

/-- Runs end alike if the first step is an accompanied reading, and the runs behind it end
alike. -/
theorem accompanied_of_reading {state state' : σ} {config there : Config α γ}
    {reader other : Reader} {reading mirror : Reading (Config α γ)}
    (hreading : company.Accompanies (Config.there company) reading mirror)
    (hreaders : company.readers reader other) (hstate : goesWith state state')
    (hstep : ∀ state, step builder state config = Progress.next state <$> reading)
    (hthere : ∀ state, step builder state there = Progress.next state <$> mirror)
    (hbehind : ∀ config' after after',
      step builder state config reader = .ok (.next state config') after →
      company.readers after after' → (run builder state config' after).Accompanied company goesWith
        (run builder state' (config'.there company) after')) :
    (run builder state config reader).Accompanied company goesWith
      (run builder state' there other) := by
  have hmatches := hreading reader other hreaders
  generalize hfirst : reading reader = first at hmatches
  generalize hother : mirror other = second at hmatches
  cases hmatches with
  | ok config' after after' hafter =>
    have hnext := step_ok_of_reading (hstep state) hfirst
    rw [run_of_next hnext, run_of_next (step_ok_of_reading (hthere state') hother)]
    exact hbehind config' after after' hnext hafter
  | error error after after' hafter =>
    rw [run_of_error (step_error_of_reading (hstep state) hfirst),
      run_of_error (step_error_of_reading (hthere state') hother)]
    exact .alike rfl hstate hafter
  | excused error after _ hexcused =>
    rw [run_of_error (step_error_of_reading (hstep state) hfirst)]
    exact .excused error rfl hexcused

end Steps

end Parsing

/-- What the builder does in a state, it also does in every state that goes with it, unless
it refuses something with an error that is excused. -/
structure Builder.Accompanied {σ α γ : Type} (builder : Builder σ α γ) (company : Companion)
    (goesWith : σ → σ → Prop) : Prop where
  add_ok : ∀ {state state' after item aggregate aggregate'}, goesWith state state' →
    builder.add item (state, aggregate) = .ok () (after, aggregate') →
    ∃ after', builder.add item (state', aggregate) = .ok () (after', aggregate') ∧
      goesWith after after'
  add_error : ∀ {state state' after item aggregate left refusal}, goesWith state state' →
    builder.add item (state, aggregate) = .error refusal (after, left) →
    (∀ frame : Parsing.Frame γ, company.excused (frame.refused refusal)) ∨
    ∃ after' left', builder.add item (state', aggregate) = .error refusal (after', left') ∧
      goesWith after after'

namespace Parsing

section Runs

variable {σ α γ : Type} {builder : Builder σ α γ} {company : Companion} {goesWith : σ → σ → Prop}

/-- Every step is accompanied, so a run is. -/
theorem run_accompanied (hlawful : company.Lawful) (hbuilder : builder.Accompanied company goesWith)
    {state state' : σ} (hstate : goesWith state state') (config : Config α γ)
    {reader other : Reader} (h : company.readers reader other) :
    (run builder state config reader).Accompanied company goesWith
      (run builder state' (config.there company) other) := by
  induction state, config, reader using run_induction builder generalizing state' other with
  | next state config reader ih =>
    rcases config with ⟨control, enclosing⟩
    cases control with
    | value =>
      exact accompanied_of_reading (accompanies_startValue hlawful enclosing) h hstate
        (fun _ => rfl) (fun _ => rfl) fun config' after after' hnext => ih _ _ _ hnext hstate
    | between aggregate =>
      exact accompanied_of_reading (accompanies_continueAggregate hlawful aggregate enclosing) h
        hstate (fun _ => rfl) (fun _ => rfl) fun config' after after' hnext => ih _ _ _ hnext hstate
    | complete value =>
      cases enclosing with
      | nil =>
        have hthere : run builder state' (Config.there company ⟨.complete value, []⟩) other =
            { result := .ok value, state := state', reader := other } :=
          run_complete builder state' value other
        rw [run_complete, hthere]
        exact .alike rfl hstate h
      | cons frame enclosing =>
        cases hadd : builder.add (frame.item value) (state, frame.aggregate) with
        | ok _ added =>
          obtain ⟨after', hadd', hafter⟩ := hbuilder.add_ok hstate hadd
          have hnext : step builder state ⟨.complete value, frame :: enclosing⟩ reader =
              .ok (.next added.1 ⟨.between added.2, enclosing⟩) reader :=
            step_of_add_ok frame hadd
          have hthere : step builder state'
              (Config.there company ⟨.complete value, frame :: enclosing⟩) other =
                .ok (.next after' (Config.there company ⟨.between added.2, enclosing⟩)) other :=
            step_of_add_ok (frame.there company) hadd'
          rw [run_of_next hnext, run_of_next hthere]
          exact ih _ _ _ hnext hafter h
        | error refusal left =>
          rw [run_of_refused (step_of_add_error frame hadd)]
          rcases hbuilder.add_error hstate hadd with hexcused | ⟨after', left', hadd', hafter⟩
          · exact .excused _ rfl (hexcused frame)
          · have hthere : step builder state'
                (Config.there company ⟨.complete value, frame :: enclosing⟩) other =
                  .ok (.refused after' ((frame.there company).refused refusal)) other :=
              step_of_add_error (frame.there company) hadd'
            rw [run_of_refused hthere]
            refine .alike ?_ hafter h
            exact congrArg Except.error (hlawful.error_grammar _ _).symm

/-! ## Parses -/

/-- Opening a reader on the other source, under the other limits, gives the companion of what
it gives here. -/
inductive Opens (company : Companion) (source : String) (limits : Limits) (source' : String)
    (limits' : Limits) : Prop
  | ok (reader other : Reader) (h : Reader.ofString source limits = .ok reader)
    (hother : Reader.ofString source' limits' = .ok other) (hreaders : company.readers reader other)
  | error (error : Error) (h : Reader.ofString source limits = .error error)
    (hother : Reader.ofString source' limits' = .error (company.error error))

/-- Readers are opened on companions if the first pulls are the same, up to places. -/
theorem opens_of_next {company : Companion} {source source' : String} {limits limits' : Limits}
    {result result' : Except LexicalError Token} {cursor cursor' : Cursor}
    (h : (Cursor.ofString source).next = (result, cursor))
    (hother : (Cursor.ofString source').next = (result', cursor'))
    (hresult : (∃ lookahead lookahead', result = .ok lookahead ∧ result' = .ok lookahead' ∧
        company.readers
          { cursor, lookahead, consumed := [], limits, depth := 0 }
          { cursor := cursor', lookahead := lookahead', consumed := [], limits := limits',
            depth := 0 }) ∨
      ∃ error error', result = .error error ∧ result' = .error error' ∧
        company.error (.lexical error) = .lexical error') :
    Opens company source limits source' limits' := by
  obtain ⟨lookahead, lookahead', rfl, rfl, hreaders⟩ | ⟨error, error', rfl, rfl, herror⟩ := hresult
  · exact .ok _ _ (by rw [Reader.ofString, h]) (by rw [Reader.ofString, hother]) hreaders
  · exact .error _ (by rw [Reader.ofString, h]) (by rw [Reader.ofString, hother, herror])

theorem parseWhole_accompanied (hlawful : company.Lawful)
    (hbuilder : builder.Accompanied company goesWith) {source source' : String}
    {limits limits' : Limits} (hopens : Opens company source limits source' limits')
    {state state' : σ} (hstate : goesWith state state') :
    (∃ error, parseWhole builder state limits source = .error error ∧ company.excused error) ∨
      (parseWhole builder state' limits' source').map Prod.fst =
        ((parseWhole builder state limits source).mapError company.error).map Prod.fst := by
  cases hopens with
  | error error hreader hother =>
    rw [parseWhole_of_error _ _ hreader, parseWhole_of_error _ _ hother]
    exact .inr rfl
  | ok reader other hreader hother hreaders =>
    rw [parseWhole_eq _ _ hreader, parseWhole_eq _ _ hother]
    have haccompanied : (run builder state ⟨.value, []⟩ reader).Accompanied company goesWith
        (run builder state' ⟨.value, []⟩ other) :=
      run_accompanied hlawful hbuilder hstate ⟨.value, []⟩ hreaders
    generalize run builder state ⟨.value, []⟩ reader = outcome at haccompanied ⊢
    generalize run builder state' ⟨.value, []⟩ other = outcome' at haccompanied ⊢
    cases haccompanied with
    | excused error hresult hexcused =>
      rw [hresult]
      exact .inl ⟨error, rfl, hexcused⟩
    | alike hresult _ hlast =>
      rw [hresult, hlawful.lookahead_eq hlast, hlawful.isEof_eq]
      right
      cases outcome.result with
      | error error => rfl
      | ok value =>
        cases outcome.reader.lookahead.isEof with
        | true => rfl
        | false => exact congrArg Except.error (hlawful.error_grammar _ _).symm

end Runs

end Parsing

end ArrayLiteral
