import ArrayLiteral.Proofs.Grammar
import ArrayLiteral.Proofs.Runs

/-!
# What derives from the grammar is read

`Ahead` says which symbols are in front of a reader, with no lexical error behind
them.  The first lemmas follow the machine along a word: each reads the symbols
that it is for off the front, and the next symbol decides between them.

`run_word` goes through a whole derivation, by induction on it.  From a place
before a value the machine comes to the place behind it, with the literal of the
derivation, and the symbols that follow the value are in front of the reader then.
A source whose tokens derive is parsed (`parseWhole_of_word`).
-/

namespace ArrayLiteral

/-- These symbols are what pulling yields, up to the end of the input. -/
structure Ahead (limits : Limits) (depth : Nat) (symbols : List Symbol) (reader : Reader) :
    Prop where
  fault?_eq : reader.scan.fault? = none
  symbols_eq : reader.scan.tokens.map Token.symbol = symbols
  limits_eq : reader.limits = limits
  depth_eq : reader.depth = depth

namespace Ahead

variable {limits : Limits} {depth : Nat} {symbol : Symbol} {symbols : List Symbol}
  {reader : Reader}

theorem exists_scan (h : Ahead limits depth (symbol :: symbols) reader) :
    ∃ token tokens, reader.scan = { tokens := token :: tokens, fault? := none } ∧
      token.symbol = symbol ∧ tokens.map Token.symbol = symbols := by
  obtain ⟨token, tokens, htokens, htoken, hrest⟩ := List.map_eq_cons_iff.1 h.symbols_eq
  have hfault := h.fault?_eq
  rcases hscan : reader.scan with ⟨found, fault?⟩
  rw [hscan] at htokens hfault
  subst htokens
  subst hfault
  exact ⟨token, tokens, rfl, htoken, hrest⟩

theorem symbol_lookahead (h : Ahead limits depth (symbol :: symbols) reader) :
    reader.lookahead.symbol = symbol := by
  obtain ⟨token, tokens, hscan, htoken, -⟩ := h.exists_scan
  rw [(Reader.lookahead_of_scan hscan).1]
  exact htoken

theorem isEof_lookahead (h : Ahead limits depth [] reader) : reader.lookahead.isEof = true := by
  have htokens := List.map_eq_nil_iff.1 h.symbols_eq
  have hfault := h.fault?_eq
  rcases hscan : reader.scan with ⟨found, fault?⟩
  rw [hscan] at htokens hfault
  subst htokens
  subst hfault
  exact Reader.isEof_of_scan hscan

/-- Whether the lookahead is of a kind is told by the symbol. -/
theorem kind_lookahead (h : Ahead limits depth (symbol :: symbols) reader) :
    reader.lookahead.kind = symbol.kind := by
  rw [← h.symbol_lookahead]
  rfl

open Reading

theorem exists_consume (h : Ahead limits depth (symbol :: symbols) reader) :
    ∃ token after, consume reader = .ok token after ∧ Ahead limits depth symbols after := by
  obtain ⟨token, tokens, hscan, htoken, hrest⟩ := h.exists_scan
  obtain ⟨after, hconsume, hafter, hlimits, hdepth⟩ := Reading.exists_consume hscan (.inr rfl)
  refine ⟨token, after, hconsume, ?_, ?_, hlimits.trans h.limits_eq, hdepth.trans h.depth_eq⟩
  · rw [hafter]
  · rw [hafter]
    exact hrest

theorem exists_require {punctuation : Punctuation}
    (h : Ahead limits depth (.mark punctuation :: symbols) reader) :
    ∃ token after, require (.mark punctuation) reader = .ok token after ∧
      Ahead limits depth symbols after := by
  obtain ⟨token, after, hconsume, hafter⟩ := h.exists_consume
  exact ⟨token, after, require_eq_ok_iff.2 ⟨h.kind_lookahead, hconsume⟩, hafter⟩

end Ahead

namespace Parsing

open Reading

section Steps

variable {limits : Limits} {depth : Nat} {symbols : List Symbol} {reader : Reader}

theorem exists_readIndex {index : UInt64}
    (hwithin : index.toNat < limits.maxArrayLen.toNat)
    (h : Ahead limits depth (.number index :: symbols) reader) :
    ∃ after, readIndex reader = .ok index after ∧ Ahead limits depth symbols after := by
  obtain ⟨token, after, hconsume, hafter⟩ := h.exists_consume
  have hindex : index? index reader.limits.maxArrayLen = some index :=
    index?_eq_some_iff.2 ⟨rfl, by rw [h.limits_eq]; exact hwithin⟩
  refine ⟨after, ?_, hafter⟩
  unfold readIndex
  rw [lookahead_bind]
  simp only [h.symbol_lookahead]
  show (consume >>= fun token => _) reader = _
  rw [bind_of_ok hconsume]
  simp only [hindex]
  rfl

theorem exists_readDesignator {designator : Designator}
    (hwithin : TargetWithin limits (some designator))
    (h : Ahead limits depth (designator.symbols ++ symbols) reader) :
    ∃ after, readDesignator reader = .ok designator after ∧ Ahead limits depth symbols after := by
  unfold readDesignator
  cases designator with
  | single index =>
    obtain ⟨_, opened, hleft, hopened⟩ := h.exists_require
    have hindex := hwithin index (.head _)
    obtain ⟨started, hstart, hstarted⟩ := exists_readIndex hindex hopened
    obtain ⟨_, after, hright, hafter⟩ := hstarted.exists_require
    refine ⟨after, ?_, hafter⟩
    rw [bind_of_ok hleft, bind_of_ok hstart, lookahead_bind]
    simp only [hstarted.symbol_lookahead]
    rw [bind_of_ok hright]
    rfl
  | range start stop =>
    obtain ⟨_, opened, hleft, hopened⟩ := h.exists_require
    have hlow := hwithin start (.head _)
    have hhigh := hwithin stop (.tail _ (.head _))
    obtain ⟨started, hstart, hstarted⟩ := exists_readIndex hlow hopened
    obtain ⟨_, dotted, hdots, hdotted⟩ := hstarted.exists_consume
    obtain ⟨stopped, hstop, hstopped⟩ := exists_readIndex hhigh hdotted
    obtain ⟨_, after, hright, hafter⟩ := hstopped.exists_require
    refine ⟨after, ?_, hafter⟩
    rw [bind_of_ok hleft, bind_of_ok hstart, lookahead_bind]
    simp only [hstarted.symbol_lookahead]
    rw [bind_of_ok hdots, bind_of_ok hstop, bind_of_ok hright]
    rfl

/-- What stands before a value is read up to the value. -/
theorem exists_readTarget {designator? : Option Designator} {value : Derivation}
    (hwithin : TargetWithin limits designator?)
    (h : Ahead limits depth
      (targetSymbols designator? ++ (value.word .endComma ++ symbols)) reader) :
    ∃ after, readTarget reader = .ok designator? after ∧
      Ahead limits depth (value.word .endComma ++ symbols) after := by
  unfold readTarget
  rw [isAt_bind]
  cases designator? with
  | none =>
    obtain ⟨symbol, behind, hword, hsquare, -⟩ :=
      Derivation.exists_word_eq_cons .endComma value
    have hahead : Ahead limits depth (symbol :: (behind ++ symbols)) reader := by
      rw [← List.cons_append, ← hword]
      exact h
    have hkind : reader.lookahead.kind ≠ .mark .leftSquare := by
      intro hkind
      exact hsquare (hahead.symbol_lookahead.symm.trans (symbol_of_kind hkind))
    rw [if_neg (by simpa using hkind)]
    exact ⟨reader, rfl, h⟩
  | some designator =>
    simp only [targetSymbols, List.append_assoc] at h
    obtain ⟨symbol, hsymbol⟩ : ∃ behind, designator.symbols = .mark .leftSquare :: behind := by
      cases designator <;> exact ⟨_, rfl⟩
    have hkind : reader.lookahead.kind = .mark .leftSquare := by
      rw [hsymbol] at h
      exact h.kind_lookahead
    rw [if_pos (decide_eq_true hkind)]
    obtain ⟨targeted, hdesignator, htargeted⟩ := exists_readDesignator hwithin h
    obtain ⟨_, after, hequal, hafter⟩ := htargeted.exists_require
    refine ⟨after, ?_, hafter⟩
    rw [bind_of_ok hdesignator, bind_of_ok hequal]
    rfl

variable {σ α γ : Type} {builder : Builder σ α γ} {aggregate : γ} {enclosing : List (Frame γ)}
  {state : σ}

theorem exists_startInitializer {designator? : Option Designator} {value : Derivation}
    (hwithin : TargetWithin limits designator?)
    (h : Ahead limits depth
      (targetSymbols designator? ++ (value.word .endComma ++ symbols)) reader) :
    ∃ first after, (startInitializer aggregate enclosing : Reading (Config α γ)) reader =
        .ok ⟨.value, { aggregate, first, designator? } :: enclosing⟩ after ∧
      Ahead limits depth (value.word .endComma ++ symbols) after := by
  obtain ⟨after, htarget, hafter⟩ := exists_readTarget hwithin h
  refine ⟨reader.lookahead, after, ?_, hafter⟩
  unfold startInitializer
  rw [lookahead_bind, bind_of_ok htarget]
  rfl

theorem exists_closeAggregate
    (h : Ahead limits (depth + 1) (.mark .rightCurly :: symbols) reader) :
    ∃ after, closeAggregate builder aggregate enclosing reader =
        .ok ⟨.complete (builder.closed aggregate), enclosing⟩ after ∧
      Ahead limits depth symbols after := by
  obtain ⟨_, closed, hright, hclosed⟩ := h.exists_require
  refine ⟨{ closed with depth := closed.depth - 1 }, ?_, hclosed.fault?_eq, hclosed.symbols_eq,
    hclosed.limits_eq, ?_⟩
  · unfold closeAggregate
    rw [bind_of_ok hright]
    rfl
  · rw [hclosed.depth_eq]
    exact Nat.add_sub_cancel depth 1

variable (builder enclosing) in
/-- The braces of an aggregate are entered where there is room for them. -/
theorem exists_enter (hroom : depth < limits.maxDepth.toNat)
    (h : Ahead limits depth (.mark .leftCurly :: symbols) reader) :
    ∃ opened, Ahead limits (depth + 1) symbols opened ∧
      startValue builder enclosing reader =
        (if opened.lookahead.kind = .mark .rightCurly then
          closeAggregate builder builder.opened enclosing
        else
          startInitializer builder.opened enclosing) opened := by
  have hentered : Ahead limits (depth + 1) (.mark .leftCurly :: symbols)
      { reader with depth := reader.depth + 1 } :=
    ⟨h.fault?_eq, h.symbols_eq, h.limits_eq, congrArg (· + 1) h.depth_eq⟩
  obtain ⟨_, opened, hleft, hopened⟩ := hentered.exists_require
  refine ⟨opened, hopened, ?_⟩
  have henter : enterAggregate reader = .ok () { reader with depth := reader.depth + 1 } :=
    enterAggregate_eq_ok_iff.2 ⟨by rw [h.depth_eq, h.limits_eq]; exact hroom, rfl⟩
  unfold startValue
  rw [lookahead_bind]
  simp only [h.symbol_lookahead]
  rw [bind_of_ok henter, bind_of_ok hleft, isAt_bind]
  simp only [decide_eq_true_eq]

end Steps

/-! ## Runs along a word -/

section Run

variable {limits : Limits} {depth : Nat} {symbols : List Symbol} {reader after : Reader}

section Builder

variable {σ α γ : Type} {builder : Builder σ α γ} {aggregate : γ} {enclosing : List (Frame γ)}
  {state : σ} {config : Config α γ}

theorem run_of_startValue (h : startValue builder enclosing reader = .ok config after) :
    run builder state ⟨.value, enclosing⟩ reader = run builder state config after :=
  run_of_next (map_eq_ok_iff.2 ⟨config, h, rfl⟩)

theorem run_of_continueAggregate
    (h : continueAggregate builder aggregate enclosing reader = .ok config after) :
    run builder state ⟨.between aggregate, enclosing⟩ reader = run builder state config after :=
  run_of_next (map_eq_ok_iff.2 ⟨config, h, rfl⟩)

theorem run_number {value : UInt64} (h : Ahead limits depth (.number value :: symbols) reader) :
    ∃ after, run builder state ⟨.value, enclosing⟩ reader =
        run builder state ⟨.complete (builder.number value), enclosing⟩ after ∧
      Ahead limits depth symbols after := by
  obtain ⟨_, after, hconsume, hafter⟩ := h.exists_consume
  refine ⟨after, run_of_startValue ?_, hafter⟩
  unfold startValue
  rw [lookahead_bind]
  simp only [h.symbol_lookahead]
  rw [bind_of_ok hconsume]
  rfl

theorem run_empty (hroom : depth < limits.maxDepth.toNat)
    (h : Ahead limits depth (.mark .leftCurly :: .mark .rightCurly :: symbols) reader) :
    ∃ after, run builder state ⟨.value, enclosing⟩ reader =
        run builder state ⟨.complete (builder.closed builder.opened), enclosing⟩ after ∧
      Ahead limits depth symbols after := by
  obtain ⟨opened, hopened, hstart⟩ := exists_enter builder enclosing hroom h
  obtain ⟨after, hclose, hafter⟩ := exists_closeAggregate hopened
  have hkind : opened.lookahead.kind = .mark .rightCurly := hopened.kind_lookahead
  refine ⟨after, run_of_startValue ?_, hafter⟩
  rw [hstart, if_pos hkind]
  exact hclose

/-- Behind an opening brace, what is no closing brace starts an initializer. -/
theorem run_opening {designator? : Option Designator} {value : Derivation}
    (hroom : depth < limits.maxDepth.toNat) (hwithin : TargetWithin limits designator?)
    (h : Ahead limits depth (.mark .leftCurly ::
      (targetSymbols designator? ++ (value.word .endComma ++ symbols))) reader) :
    ∃ first after, run builder state ⟨.value, enclosing⟩ reader =
        run builder state
          ⟨.value, { aggregate := builder.opened, first, designator? } :: enclosing⟩ after ∧
      Ahead limits (depth + 1) (value.word .endComma ++ symbols) after := by
  obtain ⟨opened, hopened, hstart⟩ := exists_enter builder enclosing hroom h
  have hkind : opened.lookahead.kind ≠ .mark .rightCurly := by
    obtain ⟨symbol, behind, hword, hbrace⟩ :=
      Derivation.exists_initializerWord_eq_cons .endComma { designator?, value }
    have hsymbols : targetSymbols designator? ++ (value.word .endComma ++ symbols) =
        symbol :: (behind ++ symbols) := by
      rw [← List.append_assoc, ← List.cons_append, ← hword]
      rfl
    rw [hsymbols] at hopened
    intro hkind
    exact hbrace (hopened.symbol_lookahead.symm.trans (symbol_of_kind hkind))
  obtain ⟨first, after, hinitializer, hafter⟩ := exists_startInitializer hwithin hopened
  refine ⟨first, after, run_of_startValue ?_, hafter⟩
  rw [hstart, if_neg hkind]
  exact hinitializer

theorem run_comma {designator? : Option Designator} {value : Derivation}
    (hwithin : TargetWithin limits designator?)
    (h : Ahead limits depth (.mark .comma ::
      (targetSymbols designator? ++ (value.word .endComma ++ symbols))) reader) :
    ∃ first after, run builder state ⟨.between aggregate, enclosing⟩ reader =
        run builder state ⟨.value, { aggregate, first, designator? } :: enclosing⟩ after ∧
      Ahead limits depth (value.word .endComma ++ symbols) after := by
  obtain ⟨_, separated, hconsume, hseparated⟩ := h.exists_consume
  obtain ⟨first, after, hstart, hafter⟩ := exists_startInitializer hwithin hseparated
  refine ⟨first, after, run_of_continueAggregate ?_, hafter⟩
  unfold continueAggregate
  rw [lookahead_bind]
  simp only [h.symbol_lookahead]
  rw [bind_of_ok hconsume]
  exact hstart

theorem run_closing {trailing : Bool}
    (h : Ahead limits (depth + 1) (Derivation.closingWord .endComma trailing ++ symbols) reader) :
    ∃ after, run builder state ⟨.between aggregate, enclosing⟩ reader =
        run builder state ⟨.complete (builder.closed aggregate), enclosing⟩ after ∧
      Ahead limits depth symbols after := by
  cases trailing with
  | true =>
    obtain ⟨_, separated, hconsume, hseparated⟩ := h.exists_consume
    obtain ⟨after, hclose, hafter⟩ := exists_closeAggregate hseparated
    refine ⟨after, run_of_continueAggregate ?_, hafter⟩
    unfold continueAggregate
    rw [lookahead_bind]
    simp only [h.symbol_lookahead]
    rw [bind_of_ok hconsume]
    exact hclose
  | false =>
    obtain ⟨after, hclose, hafter⟩ := exists_closeAggregate h
    refine ⟨after, run_of_continueAggregate ?_, hafter⟩
    unfold continueAggregate
    rw [lookahead_bind]
    simp only [h.symbol_lookahead]
    exact hclose

end Builder

/-- A value that derives is read, and nothing behind it is. -/
def ReadsWord (derivation : Derivation) : Prop :=
  ∀ {limits : Limits} {depth : Nat} {symbols : List Symbol} {reader : Reader}
    {enclosing : List (Frame (Array (Initializer Literal)))},
    derivation.Fits limits depth →
    Ahead limits depth (derivation.word .endComma ++ symbols) reader →
    ∃ after, run literalBuilder () ⟨.value, enclosing⟩ reader =
        run literalBuilder () ⟨.complete derivation.literal, enclosing⟩ after ∧
      Ahead limits depth symbols after

/-- The initializers behind one that was added are read, and what closes the
aggregate. -/
theorem run_others {aggregate : Array (Initializer Literal)}
    {enclosing : List (Frame (Array (Initializer Literal)))}
    {others : List (Initializer Derivation)} {trailing : Bool}
    (ih : ∀ item ∈ others, ReadsWord item.value)
    (hfits : ∀ item ∈ others,
      TargetWithin limits item.designator? ∧ item.value.Fits limits (depth + 1))
    (h : Ahead limits (depth + 1)
      (Derivation.othersWord (others.map (Initializer.map (Derivation.word .endComma))) ++
        (Derivation.closingWord .endComma trailing ++ symbols)) reader) :
    ∃ after, run literalBuilder () ⟨.between aggregate, enclosing⟩ reader =
        run literalBuilder () ⟨.complete (.aggregate
          (aggregate.toList ++ others.map (Initializer.map Derivation.literal))), enclosing⟩
          after ∧
      Ahead limits depth symbols after := by
  induction others generalizing aggregate reader with
  | nil =>
    rw [List.map_nil, List.append_nil]
    exact run_closing h
  | cons item others ihothers =>
    obtain ⟨hwithin, hvalueFits⟩ := hfits item (List.mem_cons_self ..)
    have hitem : Derivation.initializerWord (item.map (Derivation.word .endComma)) =
        targetSymbols item.designator? ++ item.value.word .endComma := rfl
    simp only [List.map_cons, Derivation.othersWord_cons, hitem, List.cons_append,
      List.append_assoc] at h
    obtain ⟨first, valued, hcomma, hvalued⟩ := run_comma hwithin h
    obtain ⟨completed, hvalue, hcompleted⟩ := ih item (List.mem_cons_self ..) hvalueFits hvalued
    obtain ⟨after, hothers, hafter⟩ := ihothers
      (fun other hmem => ih other (List.mem_cons_of_mem _ hmem))
      (fun other hmem => hfits other (List.mem_cons_of_mem _ hmem)) hcompleted
    refine ⟨after, ?_, hafter⟩
    rw [hcomma, hvalue, run_added, hothers]
    simp [Frame.handover, Frame.item, Initializer.map]

theorem run_word (derivation : Derivation) : ReadsWord derivation := by
  induction derivation using Derivation.induction with
  | number value =>
    intro limits depth symbols reader enclosing _ h
    rw [Derivation.literal_number]
    rw [Derivation.word_number] at h
    exact run_number h
  | empty =>
    intro limits depth symbols reader enclosing hfits h
    rw [Derivation.literal_empty]
    rw [Derivation.word_empty] at h
    exact run_empty (Derivation.fits_empty.1 hfits) h
  | list first others trailing ihfirst ihothers =>
    intro limits depth symbols reader enclosing hfits h
    obtain ⟨hroom, hitemsFit⟩ := Derivation.fits_list.1 hfits
    obtain ⟨hwithin, hvalueFits⟩ := hitemsFit first (List.mem_cons_self ..)
    have hitem : Derivation.initializerWord (first.map (Derivation.word .endComma)) =
        targetSymbols first.designator? ++ first.value.word .endComma := rfl
    simp only [Derivation.word_list, hitem, List.cons_append, List.append_assoc] at h
    obtain ⟨token, valued, hopening, hvalued⟩ := run_opening hroom hwithin h
    obtain ⟨completed, hvalue, hcompleted⟩ := ihfirst hvalueFits hvalued
    obtain ⟨after, hothers, hafter⟩ := run_others ihothers
      (fun other hmem => hitemsFit other (List.mem_cons_of_mem _ hmem)) hcompleted
    refine ⟨after, ?_, hafter⟩
    rw [hopening, hvalue, run_added, hothers, Derivation.literal_list]
    simp [Frame.handover, Frame.item, Initializer.map, literalBuilder]

/-- A reader that is opened on a source has its tokens ahead. -/
theorem exists_ahead_of_tokenize (limits : Limits) {source : String} {tokens : List Token}
    (htokens : tokenize source = .ok tokens) (hsymbols : tokens.map Token.symbol = symbols) :
    ∃ reader, Reader.ofString source limits = .ok reader ∧ Ahead limits 0 symbols reader := by
  have hscan := tokenize_eq_ok_iff.1 htokens
  obtain ⟨reader, hreader⟩ := Reader.exists_ofString limits (by rw [hscan])
  obtain ⟨hsame, -, hlimits, hdepth⟩ := Reader.scan_of_ofString hreader
  rw [hscan] at hsame
  refine ⟨reader, hreader, by rw [hsame], ?_, hlimits, hdepth⟩
  rw [hsame]
  exact hsymbols

/-- A source is parsed if its tokens derive within the limits. -/
theorem parseWhole_of_word {source : String} {tokens : List Token} {derivation : Derivation}
    (htokens : tokenize source = .ok tokens)
    (hword : tokens.map Token.symbol = derivation.word .endComma)
    (hfits : derivation.Fits limits 0) :
    parseWhole literalBuilder () limits source = .ok (derivation.literal, ()) := by
  obtain ⟨reader, hreader, hahead⟩ := exists_ahead_of_tokenize limits htokens hword
  rw [← List.append_nil (derivation.word .endComma)] at hahead
  obtain ⟨after, hrun, hafter⟩ := run_word derivation hfits hahead
  rw [run_complete] at hrun
  rw [parseWhole_eq _ _ hreader, hrun]
  show (if after.lookahead.isEof = true then _ else _) = _
  rw [if_pos hafter.isEof_lookahead]

end Run

end Parsing

end ArrayLiteral
