import ArrayLiteral.Parsing.Machine
import ArrayLiteral.Parsing.Stage

/-!
# What the reading functions do

There is one lemma for each function that reads, and it says which `Course` the function takes:
along which paths it goes, and what it returns behind them.  For a function of the machine this
is a `Move`.  All that has to be known of these functions follows from it.  The first thing is
that a step of the machine leaves less to be read (`step_remaining`).
-/

namespace ArrayLiteral.Parsing

open Reading

/-! ## Consuming -/

section Consume

variable {α β : Type} {stage stage' : Stage} {reader : Reader}
  {post : β → List Token → Stage → Reader → Prop}

/-- Consuming a token that is allowed, and that is no brace, is a path of one token. -/
theorem course_consume_bind {next : Token → Reading β}
    (hnext : stage.next reader.lookahead.symbol = some stage')
    (hwithin : stage.Within reader.limits reader.depth reader.lookahead.symbol)
    (hbrace : ∀ depth, depthBehind reader.lookahead.symbol depth = depth)
    (hrest : ∀ after, Path stage reader [reader.lookahead] stage' after →
      Course stage' after (fun value more => post value (reader.lookahead :: more))
        (next reader.lookahead after)) :
    Course stage reader post ((consume >>= next) reader) := by
  rcases hpull : reader.cursor.next with ⟨error | lookahead, cursor⟩
  · rw [bind_of_error (consume_of_fault hpull)]
    refine .halt (.lexical error cursor reader.depth (by rw [hnext]; nofun) ?_ hpull (.inl rfl))
    intro hopening
    have hsame := hbrace 0
    rw [hopening] at hsame
    cases hsame
  · rw [bind_of_ok (consume_of_token hpull)]
    have htakes : Takes stage reader stage' { reader with
        cursor, lookahead, consumed := reader.lookahead :: reader.consumed } :=
      ⟨hnext, hwithin, hpull, rfl, rfl, (hbrace reader.depth).symm⟩
    exact .of_path (.single htakes) (hrest _ (.single htakes))

/-- An opening brace is consumed behind entering its aggregate. -/
theorem course_enter_bind {next : Reading β} (hbrace : reader.lookahead.symbol = .mark .leftCurly)
    (hrest : ∀ opened, reader.depth < reader.limits.maxDepth.toNat →
      Path .value reader [reader.lookahead] .opened opened →
      Course .opened opened (fun value more => post value (reader.lookahead :: more))
        (next opened)) :
    Course .value reader post
      ((enterAggregate >>= fun _ => require (.mark .leftCurly) >>= fun _ => next) reader) := by
  by_cases hroom : reader.depth < reader.limits.maxDepth.toNat
  · have henter : enterAggregate reader = .ok () { reader with depth := reader.depth + 1 } :=
      enterAggregate_eq_ok_iff.2 ⟨hroom, rfl⟩
    have hrequire : require (.mark .leftCurly) { reader with depth := reader.depth + 1 } =
        consume { reader with depth := reader.depth + 1 } := require_of_symbol hbrace
    rw [bind_of_ok henter]
    have hnext : Stage.next .value reader.lookahead.symbol = some .opened := by rw [hbrace]; rfl
    rcases hpull : reader.cursor.next with ⟨error | lookahead, cursor⟩
    · rw [bind_of_error (hrequire.trans (consume_of_fault hpull))]
      exact .halt (.lexical error cursor _ (by rw [hnext]; nofun) (fun _ => hroom) hpull
        (.inr ⟨rfl, hroom⟩))
    · rw [bind_of_ok (hrequire.trans (consume_of_token hpull))]
      have htakes : Takes .value reader .opened { reader with
          cursor, lookahead, consumed := reader.lookahead :: reader.consumed
          depth := reader.depth + 1 } :=
        ⟨hnext, by rw [hbrace]; exact hroom, hpull, rfl, rfl, by rw [hbrace]; rfl⟩
      exact .of_path (.single htakes) (hrest _ hroom (.single htakes))
  · rw [bind_of_error (enterAggregate_of_full (Nat.le_of_not_lt hroom))]
    exact .halt (.tooDeep rfl hbrace (Nat.le_of_not_lt hroom))

/-- A mark is required where it is the only symbol that is allowed. -/
theorem course_require_bind {punctuation : Punctuation} {next : Token → Reading β}
    (hnext : stage.next (.mark punctuation) = some stage')
    (honly : ∀ symbol, symbol ≠ .mark punctuation → stage.next symbol = none)
    (hfault : ∀ symbol, stage.fault? symbol = some (.unexpectedToken punctuation.name))
    (hopening : punctuation ≠ .leftCurly) (hclosing : punctuation ≠ .rightCurly)
    (hrest : ∀ after, Path stage reader [reader.lookahead] stage' after →
      reader.lookahead.symbol = .mark punctuation →
      Course stage' after (fun value more => post value (reader.lookahead :: more))
        (next reader.lookahead after)) :
    Course stage reader post ((require (.mark punctuation) >>= next) reader) := by
  by_cases hsymbol : reader.lookahead.symbol = .mark punctuation
  · have hsame : (require (.mark punctuation) >>= next) reader = (consume >>= next) reader := by
      show EStateM.bind _ next reader = EStateM.bind consume next reader
      unfold EStateM.bind
      rw [require_of_symbol hsymbol]
    rw [hsame]
    apply course_consume_bind
    · rw [hsymbol]
      exact hnext
    · rw [hsymbol]
      exact stage.within_mark hopening
    · rw [hsymbol]
      exact depthBehind_mark hopening hclosing
    · exact fun after hpath => hrest after hpath hsymbol
  · rw [bind_of_error (require_of_other hsymbol)]
    exact .halt (.unexpected _ (honly _ hsymbol) (hfault _))

end Consume

/-! ## Designators -/

section Targets

variable {stage stage' : Stage} {reader : Reader}

/-- A bound is due at this stage, and leads to the other one. -/
structure AwaitsBound (stage stage' : Stage) : Prop where
  stage_eq : stage = .start ∨ stage = .stop
  next_number : ∀ bound, stage.next (.number bound) = some stage'

theorem awaitsBound_start : AwaitsBound .start .started :=
  ⟨.inl rfl, fun _ => rfl⟩

theorem awaitsBound_stop : AwaitsBound .stop .stopped :=
  ⟨.inr rfl, fun _ => rfl⟩

/-- A bound beyond the limit is blamed after it was consumed. -/
theorem course_readIndex (hbound : AwaitsBound stage stage') :
    Course stage reader (fun index tokens last _ => last = stage' ∧
      tokens.map Token.symbol = [.number index] ∧
      index.toNat < reader.limits.maxArrayLen.toNat) (readIndex reader) := by
  unfold readIndex
  rw [lookahead_bind]
  cases hsymbol : reader.lookahead.symbol with
  | number value =>
    show Course stage reader _ ((consume >>= _) reader)
    have hnext : stage.next reader.lookahead.symbol = some stage' := by
      rw [hsymbol, hbound.next_number]
    cases hindex : index? value reader.limits.maxArrayLen with
    | some index =>
      obtain ⟨rfl, hlt⟩ := index?_eq_some_iff.1 hindex
      refine course_consume_bind hnext ?_ (by rw [hsymbol]; exact fun _ => rfl) fun after _ => ?_
      · rw [hsymbol]
        rcases hbound.stage_eq with rfl | rfl <;> exact hlt
      · exact .pure index ⟨rfl, by rw [List.map_singleton, hsymbol], hlt⟩
    | none =>
      have hover : reader.limits.maxArrayLen.toNat ≤ value.toNat := by
        rw [index?] at hindex
        split at hindex
        · cases hindex
        · rename_i hlt
          rw [UInt64.lt_iff_toNat_lt] at hlt
          exact Nat.le_of_not_lt hlt
      rcases hpull : reader.cursor.next with ⟨error | lookahead, cursor⟩
      · rw [bind_of_error (consume_of_fault hpull)]
        exact .halt (.lexical error cursor reader.depth (by rw [hnext]; nofun)
          (by rw [hsymbol]; nofun) hpull (.inl rfl))
      · rw [bind_of_ok (consume_of_token hpull)]
        exact .halt (.tooLarge value lookahead cursor hbound.stage_eq hsymbol hover hpull)
  | mark punctuation =>
    refine .unexpected ?_ ?_ <;> rcases hbound.stage_eq with rfl | rfl <;> rw [hsymbol] <;> rfl
  | eof =>
    refine .unexpected ?_ ?_ <;> rcases hbound.stage_eq with rfl | rfl <;> rw [hsymbol] <;> rfl

theorem targetWithin_single {limits : Limits} {index : UInt64}
    (h : index.toNat < limits.maxArrayLen.toNat) : TargetWithin limits (some (.single index)) :=
  List.forall_mem_singleton.2 h

theorem targetWithin_range {limits : Limits} {start stop : UInt64}
    (hstart : start.toNat < limits.maxArrayLen.toNat)
    (hstop : stop.toNat < limits.maxArrayLen.toNat) :
    TargetWithin limits (some (.range start stop)) :=
  List.forall_mem_cons.2 ⟨hstart, List.forall_mem_singleton.2 hstop⟩

/-- The symbols are those of the designator, and its bounds are indices. -/
theorem course_readDesignator (hsquare : reader.lookahead.symbol = .mark .leftSquare) :
    Course .item reader (fun designator tokens last _ => last = .designated ∧
      tokens.map Token.symbol = designator.symbols ∧ TargetWithin reader.limits (some designator))
      (readDesignator reader) := by
  have hopening : require (.mark .leftSquare) reader = consume reader := require_of_symbol hsquare
  unfold readDesignator
  rw [bind_congr_of_eq hopening]
  refine course_consume_bind (by rw [hsquare]; rfl) (by rw [hsquare]; trivial)
    (by rw [hsquare]; exact fun _ => rfl) fun opened hopened => ?_
  refine (course_readIndex awaitsBound_start).bind fun start tokens _ started hstart hpost => ?_
  obtain ⟨rfl, hsymbols, hlow⟩ := hpost
  rw [hopened.limits_eq] at hlow
  rw [lookahead_bind]
  cases hsymbol : started.lookahead.symbol with
  | mark punctuation =>
    cases punctuation with
    | range =>
      refine course_consume_bind (by rw [hsymbol]; rfl) (by rw [hsymbol]; trivial)
        (by rw [hsymbol]; exact fun _ => rfl) fun dotted hdotted => ?_
      refine (course_readIndex awaitsBound_stop).bind fun stop more _ stopped hstop hpost => ?_
      obtain ⟨rfl, hmore, hhigh⟩ := hpost
      rw [hdotted.limits_eq, hstart.limits_eq, hopened.limits_eq] at hhigh
      refine course_require_bind rfl
        (fun _ hother => Stage.next_eq_none fun _ hstep => hother (by cases hstep; rfl))
        (fun _ => rfl) nofun nofun fun closed _ hright => .pure _ ⟨rfl, ?_, ?_⟩
      · simp only [List.map_append, List.map_cons, List.map_nil, hsquare, hsymbols, hsymbol, hmore,
          hright]
        rfl
      · exact targetWithin_range hlow hhigh
    | rightSquare =>
      show Course _ started _ ((require (.mark .rightSquare) >>= _) started)
      rw [bind_congr_of_eq (require_of_symbol hsymbol)]
      refine course_consume_bind (by rw [hsymbol]; rfl) (by rw [hsymbol]; trivial)
        (by rw [hsymbol]; exact fun _ => rfl) fun closed _ => .pure _ ⟨rfl, ?_, ?_⟩
      · simp only [List.map_append, List.map_cons, List.map_nil, hsquare, hsymbols, hsymbol]
        rfl
      · exact targetWithin_single hlow
    | _ => exact .unexpected (by rw [hsymbol]; rfl) rfl
  | _ => exact .unexpected (by rw [hsymbol]; rfl) rfl

theorem course_readTarget :
    Course .item reader (fun designator? tokens last _ => last = .value ∧
      tokens.map Token.symbol = targetSymbols designator? ∧
      TargetWithin reader.limits designator?) (readTarget reader) := by
  unfold readTarget
  rw [isAt_bind]
  by_cases hsquare : reader.lookahead.symbol = .mark .leftSquare
  · have hkind : reader.lookahead.kind = .mark .leftSquare := kind_of_symbol hsquare
    rw [if_pos (decide_eq_true hkind)]
    refine (course_readDesignator hsquare).bind fun designator tokens _ designated _ hpost => ?_
    obtain ⟨rfl, hsymbols, hwithin⟩ := hpost
    refine course_require_bind rfl
      (fun _ hother => Stage.next_eq_none fun _ hstep => hother (by cases hstep; rfl))
      (fun _ => rfl) nofun nofun fun equated _ hequal => .pure _ ⟨rfl, ?_, hwithin⟩
    simp only [List.map_append, List.map_cons, List.map_nil, hsymbols, hequal]
    rfl
  · rw [if_neg fun hkind => hsquare (symbol_of_kind (of_decide_eq_true hkind))]
    exact .skip (.target _ hsquare) (.pure none ⟨rfl, rfl, nofun⟩)

end Targets

/-! ## Moves of the machine -/

/-- From a configuration, by reading symbols, to the next one, where so many aggregates are
open. There are two ways on from a place before a value besides a number, and three from a
place behind an initializer. -/
inductive Move {σ α γ : Type} (builder : Builder σ α γ) (limits : Limits) (depth : Nat) :
    Config α γ → List Symbol → Config α γ → Prop
  | number (enclosing : List (Frame γ)) (value : UInt64) :
    Move builder limits depth ⟨.value, enclosing⟩ [.number value]
      ⟨.complete (builder.number value), enclosing⟩
  | empty (enclosing : List (Frame γ)) (hdepth : depth < limits.maxDepth.toNat) :
    Move builder limits depth ⟨.value, enclosing⟩ [.mark .leftCurly, .mark .rightCurly]
      ⟨.complete (builder.closed builder.opened), enclosing⟩
  | opening (enclosing : List (Frame γ)) (first : Token) (designator? : Option Designator)
      (hdepth : depth < limits.maxDepth.toNat) (hwithin : TargetWithin limits designator?) :
    Move builder limits depth ⟨.value, enclosing⟩ (.mark .leftCurly :: targetSymbols designator?)
      ⟨.value, { aggregate := builder.opened, first, designator? } :: enclosing⟩
  | comma (aggregate : γ) (enclosing : List (Frame γ)) (first : Token)
      (designator? : Option Designator) (hwithin : TargetWithin limits designator?) :
    Move builder limits depth ⟨.between aggregate, enclosing⟩
      (.mark .comma :: targetSymbols designator?)
      ⟨.value, { aggregate, first, designator? } :: enclosing⟩
  | closing (aggregate : γ) (enclosing : List (Frame γ)) :
    Move builder limits depth ⟨.between aggregate, enclosing⟩ [.mark .rightCurly]
      ⟨.complete (builder.closed aggregate), enclosing⟩
  | trailing (aggregate : γ) (enclosing : List (Frame γ)) :
    Move builder limits depth ⟨.between aggregate, enclosing⟩
      [.mark .endComma, .mark .rightCurly] ⟨.complete (builder.closed aggregate), enclosing⟩

section Steps

variable {σ α γ : Type} {builder : Builder σ α γ} {aggregate : γ} {enclosing : List (Frame γ)}
  {reader : Reader}

/-- Handing over a value is followed by a step that consumes a token. -/
def Control.rank : Control α γ → Nat
  | .complete _ => 1
  | _ => 0

/-- What the reader is in front of. -/
def Config.stage (config : Config α γ) : Stage :=
  match config.control with
  | .value => .value
  | .complete _ => .complete
  | .between _ => .behind

/-- If a value is due, its initializer starts with the second of these tokens, and the first one
is an opening brace or a comma. -/
def Config.StartsBehindMark (config : Config α γ) (pulled : List Token) : Prop :=
  ∀ frame enclosing, config.control = .value → config.enclosing = frame :: enclosing →
    ∃ mark rest, pulled = mark :: frame.first :: rest ∧
      (mark.symbol = .mark .leftCurly ∨ mark.symbol = .mark .comma)

/-- The reader makes a move, by consuming these tokens. -/
structure Moves (builder : Builder σ α γ) (config : Config α γ) (reader : Reader)
    (config' : Config α γ) (tokens : List Token) (last : Stage) (after : Reader) : Prop where
  last_eq : last = config'.stage
  move : Move builder reader.limits reader.depth config (tokens.map Token.symbol) config'
  starts : config'.StartsBehindMark (tokens ++ [after.lookahead])

theorem course_startInitializer :
    Course .item reader (fun config tokens last _ => last = .value ∧ ∃ designator?,
      config = ⟨.value, { aggregate, first := reader.lookahead, designator? } :: enclosing⟩ ∧
      tokens.map Token.symbol = targetSymbols designator? ∧
      TargetWithin reader.limits designator?)
      ((startInitializer aggregate enclosing : Reading (Config α γ)) reader) := by
  unfold startInitializer
  rw [lookahead_bind]
  refine course_readTarget.bind fun designator? tokens _ after _ hpost => ?_
  obtain ⟨rfl, hsymbols, hwithin⟩ := hpost
  rw [← List.append_nil tokens] at hsymbols
  exact .pure _ ⟨rfl, designator?, rfl, hsymbols, hwithin⟩

/-- Where a closing brace is consumed, an aggregate is left. -/
theorem course_closeAggregate {stage : Stage}
    (hnext : stage.next (.mark .rightCurly) = some .complete)
    (hbrace : reader.lookahead.symbol = .mark .rightCurly ∨ stage = .closing) :
    Course stage reader (fun config tokens last _ => last = .complete ∧
      config = ⟨.complete (builder.closed aggregate), enclosing⟩ ∧
      tokens.map Token.symbol = [.mark .rightCurly])
      (closeAggregate builder aggregate enclosing reader) := by
  unfold closeAggregate
  by_cases hsymbol : reader.lookahead.symbol = .mark .rightCurly
  · rw [bind_congr_of_eq (require_of_symbol hsymbol)]
    rcases hpull : reader.cursor.next with ⟨error | lookahead, cursor⟩
    · rw [bind_of_error (consume_of_fault hpull)]
      exact .halt (.lexical error cursor reader.depth (by rw [hsymbol, hnext]; nofun)
        (by rw [hsymbol]; nofun) hpull (.inl rfl))
    · rw [bind_of_ok (consume_of_token hpull)]
      have htakes : Takes stage reader .complete { reader with
          cursor, lookahead, consumed := reader.lookahead :: reader.consumed
          depth := reader.depth - 1 } :=
        ⟨by rw [hsymbol]; exact hnext, by rw [hsymbol]; exact stage.within_mark nofun, hpull, rfl,
          rfl, by rw [hsymbol]; rfl⟩
      exact .ok _ _ _ _ (.single htakes) ⟨rfl, rfl, by rw [List.map_singleton, hsymbol]⟩
  · obtain hbrace | rfl := hbrace
    · exact absurd hbrace hsymbol
    · rw [bind_of_error (require_of_other hsymbol)]
      have honly : ∀ symbol, symbol ≠ .mark .rightCurly → Stage.closing.next symbol = none :=
        fun _ hother => Stage.next_eq_none fun _ hstep => hother (by cases hstep; rfl)
      exact .halt (.unexpected _ (honly _ hsymbol) rfl)

theorem course_startValue :
    Course .value reader (Moves builder ⟨.value, enclosing⟩ reader)
      (startValue builder enclosing reader) := by
  unfold startValue
  rw [lookahead_bind]
  cases hsymbol : reader.lookahead.symbol with
  | number value =>
    refine course_consume_bind (by rw [hsymbol]; rfl) (by rw [hsymbol]; trivial)
      (by rw [hsymbol]; exact fun _ => rfl) fun after _ => .pure _ ⟨rfl, ?_, nofun⟩
    rw [List.map_singleton, hsymbol]
    exact .number enclosing value
  | mark punctuation =>
    cases punctuation with
    | leftCurly =>
      refine course_enter_bind hsymbol fun opened hroom hopened => ?_
      rw [isAt_bind]
      by_cases hbrace : opened.lookahead.symbol = .mark .rightCurly
      · have hkind : opened.lookahead.kind = .mark .rightCurly := kind_of_symbol hbrace
        rw [if_pos (decide_eq_true hkind)]
        refine (course_closeAggregate rfl (.inl hbrace)).imp
          fun config tokens last after _ hpost => ?_
        obtain ⟨rfl, rfl, hsymbols⟩ := hpost
        refine ⟨rfl, ?_, nofun⟩
        rw [List.map_cons, hsymbol, hsymbols]
        exact .empty enclosing hroom
      · rw [if_neg fun hkind => hbrace (symbol_of_kind (of_decide_eq_true hkind))]
        refine .skip (.brace _ hbrace) (course_startInitializer.imp
          fun config tokens last after hpath hpost => ?_)
        obtain ⟨rfl, designator?, rfl, hsymbols, hwithin⟩ := hpost
        refine ⟨rfl, ?_, ?_⟩
        · rw [List.map_cons, hsymbol, hsymbols]
          rw [hopened.limits_eq] at hwithin
          exact .opening enclosing _ designator? hroom hwithin
        · rintro frame outer - ⟨⟩
          obtain ⟨rest, hrest⟩ := hpath.exists_eq_lookahead_cons
          exact ⟨reader.lookahead, rest, congrArg (reader.lookahead :: ·) hrest, .inl hsymbol⟩
    | _ => exact .unexpected (by rw [hsymbol]; rfl) rfl
  | eof => exact .unexpected (by rw [hsymbol]; rfl) rfl

theorem course_continueAggregate :
    Course .behind reader (Moves builder ⟨.between aggregate, enclosing⟩ reader)
      (continueAggregate builder aggregate enclosing reader) := by
  unfold continueAggregate
  rw [lookahead_bind]
  cases hsymbol : reader.lookahead.symbol with
  | mark punctuation =>
    cases punctuation with
    | comma =>
      refine course_consume_bind (by rw [hsymbol]; rfl) (by rw [hsymbol]; trivial)
        (by rw [hsymbol]; exact fun _ => rfl) fun separated hseparated => ?_
      refine course_startInitializer.imp fun config tokens last after hpath hpost => ?_
      obtain ⟨rfl, designator?, rfl, hsymbols, hwithin⟩ := hpost
      refine ⟨rfl, ?_, ?_⟩
      · rw [List.map_cons, hsymbol, hsymbols]
        rw [hseparated.limits_eq] at hwithin
        exact .comma aggregate enclosing _ designator? hwithin
      · rintro frame outer - ⟨⟩
        obtain ⟨rest, hrest⟩ := hpath.exists_eq_lookahead_cons
        exact ⟨reader.lookahead, rest, congrArg (reader.lookahead :: ·) hrest, .inr hsymbol⟩
    | endComma =>
      refine course_consume_bind (by rw [hsymbol]; rfl)
        (by rw [hsymbol]; trivial) (by rw [hsymbol]; exact fun _ => rfl) fun ended _ => ?_
      refine (course_closeAggregate rfl (.inr rfl)).imp
        fun config tokens last after _ hpost => ?_
      obtain ⟨rfl, rfl, hsymbols⟩ := hpost
      refine ⟨rfl, ?_, nofun⟩
      rw [List.map_cons, hsymbol, hsymbols]
      exact .trailing aggregate enclosing
    | rightCurly =>
      refine (course_closeAggregate rfl (.inl hsymbol)).imp
        fun config tokens last after _ hpost => ?_
      obtain ⟨rfl, rfl, hsymbols⟩ := hpost
      refine ⟨rfl, ?_, nofun⟩
      rw [hsymbols]
      exact .closing aggregate enclosing
    | leftCurly => exact .unexpected (by rw [hsymbol]; rfl) (by rw [hsymbol]; rfl)
    | leftSquare => exact .unexpected (by rw [hsymbol]; rfl) (by rw [hsymbol]; rfl)
    | _ => exact .unexpected (by rw [hsymbol]; rfl) (by rw [hsymbol]; rfl)
  | number value => exact .unexpected (by rw [hsymbol]; rfl) (by rw [hsymbol]; rfl)
  | eof => exact .unexpected (by rw [hsymbol]; rfl) (by rw [hsymbol]; rfl)

/-- A step reads and goes a course, unless a value is complete. -/
theorem reading_cases (builder : Builder σ α γ) (config : Config α γ) :
    (∃ value, config.control = .complete value) ∨
    ∃ reading : Reading (Config α γ),
      (∀ state : σ, step builder state config = Progress.next state <$> reading) ∧
      ∀ reader, Course config.stage reader (Moves builder config reader) (reading reader) := by
  rcases config with ⟨control, enclosing⟩
  cases control with
  | complete value => exact .inl ⟨value, rfl⟩
  | value => exact .inr ⟨_, fun _ => rfl, fun _ => course_startValue⟩
  | between aggregate => exact .inr ⟨_, fun _ => rfl, fun _ => course_continueAggregate⟩

/-! ## Progress -/

theorem Move.ne_nil {limits : Limits} {depth : Nat} {config config' : Config α γ}
    {symbols : List Symbol} (h : Move builder limits depth config symbols config') :
    symbols ≠ [] := by
  cases h <;> nofun

/-- Reading consumes tokens, and handing over a value is always followed by reading. -/
theorem step_remaining {state state' : σ} {config config' : Config α γ}
    {reader after : Reader}
    (h : step builder state config reader = .ok (.next state' config') after) :
    2 * after.remaining + config'.control.rank < 2 * reader.remaining + config.control.rank := by
  have hrank : config'.control.rank ≤ 1 := by
    cases config'.control <;> simp [Control.rank]
  obtain ⟨value, hcomplete⟩ | ⟨reading, hstep, hcourse⟩ := reading_cases builder config
  · rcases config with ⟨_, enclosing⟩
    cases hcomplete
    cases enclosing with
    | nil => cases (pure_eq_ok_iff.1 h).1
    | cons frame enclosing =>
      obtain ⟨hadd, rfl⟩ := pure_eq_ok_iff.1 h
      unfold addInitializer at hadd
      split at hadd <;> cases hadd
      simp [Control.rank]
  · rw [hstep] at h
    obtain ⟨config', hreading, heq⟩ := map_eq_ok_iff.1 h
    cases heq
    have hread := hcourse reader
    rw [hreading] at hread
    cases hread with
    | ok _ tokens last _ hpath hmoves =>
      have htokens : tokens ≠ [] := fun hnil => hmoves.move.ne_nil (by rw [hnil]; rfl)
      have hlength := List.length_pos_iff.2 htokens
      have hremaining := hpath.length_add_remaining_le
      omega

end Steps

end ArrayLiteral.Parsing
