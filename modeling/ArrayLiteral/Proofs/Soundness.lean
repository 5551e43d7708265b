import ArrayLiteral.Proofs.Commas
import ArrayLiteral.Proofs.Runs

/-!
# What a run reads derives from the grammar

`Reached` says what the machine has read when it is at a configuration: what is
complete was derived, and what is open is the beginning of a derivation.  The
trailing commas are told apart here, because the tokens are.  Handing a value over
keeps this without a symbol being read (`Reached.added`), and a move appends the
symbols that it reads (`Reached.moved`).

A successful parse has read the whole source, so its tokens derive
(`exists_derivation`).
-/

namespace ArrayLiteral.Parsing

/-- An initializer that keeps to the limits inside `outer` open braces. -/
def ItemFits (limits : Limits) (outer : Nat) (item : Initializer Derivation) : Prop :=
  TargetWithin limits item.designator? ∧ item.value.Fits limits outer

/-- The symbols of an initializer in a source. -/
def itemWord (item : Initializer Derivation) : List Symbol :=
  Derivation.initializerWord (item.map (Derivation.word .endComma))

/-- The symbols of initializers with commas between them. -/
def itemsWord : List (Initializer Derivation) → List Symbol
  | [] => []
  | first :: others =>
    itemWord first ++
      Derivation.othersWord (others.map (Initializer.map (Derivation.word .endComma)))

/-- The symbols of initializers that another one follows. -/
def leadingWord : List (Initializer Derivation) → List Symbol
  | [] => []
  | first :: others => itemsWord (first :: others) ++ [.mark .comma]

theorem leadingWord_of_ne_nil {items : List (Initializer Derivation)} (h : items ≠ []) :
    leadingWord items = itemsWord items ++ [.mark .comma] := by
  cases items with
  | nil => exact absurd rfl h
  | cons first others => rfl

theorem itemsWord_append (items : List (Initializer Derivation))
    (item : Initializer Derivation) :
    itemsWord (items ++ [item]) = leadingWord items ++ itemWord item := by
  cases items with
  | nil => simp [itemsWord, leadingWord]
  | cons first others => simp [itemsWord, leadingWord, Derivation.othersWord, itemWord]

/-- What was read for the open aggregates. -/
inductive Enclosed (limits : Limits) :
    List (Frame (Array (Initializer Literal))) → List Symbol → Prop
  | nil : Enclosed limits [] []
  | cons (frame : Frame (Array (Initializer Literal)))
      (enclosing : List (Frame (Array (Initializer Literal)))) (symbols : List Symbol)
      (items : List (Initializer Derivation))
      (houter : Enclosed limits enclosing symbols)
      (hroom : enclosing.length < limits.maxDepth.toNat)
      (hitems : frame.aggregate.toList = items.map (Initializer.map Derivation.literal))
      (hfits : ∀ item ∈ items, ItemFits limits (enclosing.length + 1) item)
      (htarget : TargetWithin limits frame.designator?) :
      Enclosed limits (frame :: enclosing)
        (symbols ++ .mark .leftCurly :: (leadingWord items ++ targetSymbols frame.designator?))

/-- What was read when the machine is at a configuration. -/
inductive Reached (limits : Limits) : LiteralConfig → List Symbol → Prop
  | value (enclosing : List (Frame (Array (Initializer Literal)))) (symbols : List Symbol)
      (houter : Enclosed limits enclosing symbols) :
      Reached limits ⟨.value, enclosing⟩ symbols
  | complete (enclosing : List (Frame (Array (Initializer Literal)))) (symbols : List Symbol)
      (derivation : Derivation) (houter : Enclosed limits enclosing symbols)
      (hfits : derivation.Fits limits enclosing.length) :
      Reached limits ⟨.complete derivation.literal, enclosing⟩
        (symbols ++ derivation.word .endComma)
  | between (enclosing : List (Frame (Array (Initializer Literal)))) (symbols : List Symbol)
      (aggregate : Array (Initializer Literal)) (items : List (Initializer Derivation))
      (houter : Enclosed limits enclosing symbols)
      (hroom : enclosing.length < limits.maxDepth.toNat)
      (hsome : items ≠ [])
      (hitems : aggregate.toList = items.map (Initializer.map Derivation.literal))
      (hfits : ∀ item ∈ items, ItemFits limits (enclosing.length + 1) item) :
      Reached limits ⟨.between aggregate, enclosing⟩
        (symbols ++ .mark .leftCurly :: itemsWord items)

section Reached

variable {limits : Limits} {symbols : List Symbol} {config config' : LiteralConfig}
  {enclosing : List (Frame (Array (Initializer Literal)))}

theorem Enclosed.length_le (h : Enclosed limits enclosing symbols) :
    enclosing.length ≤ limits.maxDepth.toNat := by
  cases h with
  | nil => exact Nat.zero_le _
  | cons frame enclosing symbols items houter hroom => exact hroom

/-- Handing a value over moves a derivation from the value to the aggregate. -/
theorem Reached.added {literal : Literal} {frame : Frame (Array (Initializer Literal))}
    (h : Reached limits ⟨.complete literal, frame :: enclosing⟩ symbols) :
    Reached limits
      ⟨.between (frame.aggregate.push { designator? := frame.designator?, value := literal }),
        enclosing⟩ symbols := by
  cases h with
  | complete _ _ derivation houter hfits =>
    cases houter with
    | cons _ _ outer items houter hroom hitems hitemsFit htarget =>
      have hword : outer ++ .mark .leftCurly ::
            (leadingWord items ++ targetSymbols frame.designator?) ++ derivation.word .endComma =
          outer ++ .mark .leftCurly ::
            itemsWord (items ++ [{ designator? := frame.designator?, value := derivation }]) := by
        rw [itemsWord_append]
        simp [itemWord, Derivation.initializerWord, Initializer.map]
      rw [hword]
      refine .between enclosing outer _ _ houter hroom (by simp) ?_ ?_
      · rw [Array.toList_push, hitems, List.map_append]
        rfl
      · intro item hmem
        rcases List.mem_append.1 hmem with hmem | hmem
        · exact hitemsFit item hmem
        · rw [List.mem_singleton.1 hmem]
          exact ⟨htarget, hfits⟩

/-- What closes an aggregate makes a derivation of it. -/
theorem Reached.closed {aggregate : Array (Initializer Literal)} (trailing : Bool)
    (h : Reached limits ⟨.between aggregate, enclosing⟩ symbols) :
    Reached limits ⟨.complete (.aggregate aggregate.toList), enclosing⟩
      (symbols ++ Derivation.closingWord .endComma trailing) := by
  cases h with
  | between _ outer _ items houter hroom hsome hitems hfits =>
    obtain ⟨first, others, rfl⟩ := List.exists_cons_of_ne_nil hsome
    have hfits' : (Derivation.list first others trailing).Fits limits enclosing.length :=
      Derivation.fits_list.2 ⟨hroom, hfits⟩
    have hreached := Reached.complete enclosing outer _ houter hfits'
    rw [Derivation.literal_list, ← hitems, Derivation.word_list] at hreached
    simpa [itemsWord, itemWord] using hreached

/-- A move reads on in a derivation. -/
theorem Reached.moved {read : List Symbol} (h : Reached limits config symbols)
    (hmove : Move literalBuilder limits config.openCount config read config') :
    Reached limits config' (symbols ++ read) := by
  cases hmove with
  | number enclosing value =>
    cases h with
    | value _ _ houter =>
      have hreached := Reached.complete enclosing symbols (.number value) houter
        (Derivation.fits_number.2 houter.length_le)
      rwa [Derivation.literal_number, Derivation.word_number] at hreached
  | empty enclosing hdepth =>
    cases h with
    | value _ _ houter =>
      have hreached := Reached.complete enclosing symbols .empty houter
        (Derivation.fits_empty.2 hdepth)
      rwa [Derivation.literal_empty, Derivation.word_empty] at hreached
  | opening enclosing first designator? hdepth hwithin =>
    cases h with
    | value _ _ houter => exact .value _ _ (.cons _ _ _ [] houter hdepth rfl nofun hwithin)
  | comma aggregate enclosing first designator? hwithin =>
    cases h with
    | between _ outer _ items houter hroom hsome hitems hfits =>
      have henclosed := Enclosed.cons { aggregate, first, designator? } enclosing outer items
        houter hroom hitems hfits hwithin
      rw [leadingWord_of_ne_nil hsome] at henclosed
      have hreached := Reached.value _ _ henclosed
      simpa using hreached
  | closing aggregate enclosing => exact h.closed false
  | trailing aggregate enclosing => exact h.closed true

end Reached

/-- The machine has read a part of the source, and the rest is in front of it. -/
structure Halfway (limits : Limits) (source : Scan) (config : LiteralConfig) (reader : Reader) :
    Prop where
  depth_eq : reader.depth = config.openCount
  limits_eq : reader.limits = limits
  source_eq : source = reader.scan.prepend reader.consumed.reverse
  reached : Reached limits config (reader.consumed.reverse.map Token.symbol)

theorem Halfway.next {limits : Limits} {source : Scan} {config config' : LiteralConfig}
    {reader after : Reader} {state state' : Unit} (h : Halfway limits source config reader)
    (hstep : step literalBuilder state config reader = .ok (.next state' config') after) :
    Halfway limits source config' after := by
  have hreached := h.reached
  have hdepth : after.depth = 0 + config'.openCount :=
    depth_of_step (by rw [Nat.zero_add]; exact h.depth_eq) hstep
  rw [Nat.zero_add] at hdepth
  cases stepped_of_step hstep with
  | added frame literal aggregate enclosing hconfig hconfig' hadd hreader =>
    rw [hconfig] at hreached
    rw [hreader] at hdepth ⊢
    cases hadd
    refine ⟨hdepth, h.limits_eq, h.source_eq, ?_⟩
    rw [hconfig']
    exact hreached.added
  | moved tokens hstate hmoves hpath =>
    have hmove := hmoves.move
    have hpass := hpath.passes
    rw [h.limits_eq, h.depth_eq] at hmove
    refine ⟨hdepth, hpass.limits.trans h.limits_eq, ?_, ?_⟩
    · rw [h.source_eq, hpass.scan, hpass.consumed, List.reverse_append, List.reverse_reverse,
        Scan.prepend_append]
    · rw [hpass.consumed, List.reverse_append, List.reverse_reverse, List.map_append]
      exact hreached.moved hmove

/-- Where the outermost value is complete at the end of the input, the whole
source derives. -/
theorem Halfway.finished {limits : Limits} {source : Scan} {literal : Literal} {reader : Reader}
    (h : Halfway limits source ⟨.complete literal, []⟩ reader)
    (hend : reader.lookahead.isEof = true) :
    ∃ derivation : Derivation,
      source = { tokens := reader.consumed.reverse, fault? := none } ∧
        reader.consumed.reverse.map Token.symbol = derivation.word .endComma ∧
        derivation.Fits limits 0 ∧ derivation.literal = literal := by
  have hreached := h.reached
  generalize hsymbols : reader.consumed.reverse.map Token.symbol = symbols at hreached
  cases hreached with
  | complete _ _ derivation houter hfits =>
    cases houter
    refine ⟨derivation, ?_, rfl, hfits, rfl⟩
    rw [h.source_eq, Reader.scan, if_pos hend, Scan.prepend, List.append_nil]

/-- The tokens of a source that is parsed derive, within the limits, and the
literal is what they say. -/
theorem exists_derivation {limits : Limits} {source : String} {literal : Literal}
    (h : parseWhole literalBuilder () limits source = .ok (literal, ())) :
    ∃ (tokens : List Token) (derivation : Derivation), tokenize source = .ok tokens ∧
      tokens.map Token.symbol = derivation.word .endComma ∧ derivation.Fits limits 0 ∧
      derivation.literal = literal := by
  obtain ⟨reader, hreader, hresult, hend⟩ := exists_run_of_parseWhole literalBuilder h
  obtain ⟨hscan, hconsumed, hlimits, hdepth⟩ := Reader.scan_of_ofString hreader
  have hstart : Halfway limits (Cursor.ofString source).scan ⟨.value, []⟩ reader := by
    refine ⟨hdepth, hlimits, ?_, ?_⟩
    · rw [hconsumed, hscan]
      rfl
    · rw [hconsumed]
      exact .value _ _ .nil
  have hhalf : Halfway limits (Cursor.ofString source).scan ⟨.complete literal, []⟩
      (run literalBuilder () ⟨.value, []⟩ reader).reader :=
    run_ok literalBuilder (P := fun _ => Halfway limits (Cursor.ofString source).scan)
      (fun hhalf hstep => hhalf.next hstep) hstart hresult
  obtain ⟨derivation, hsource, hword, hfits, hliteral⟩ := hhalf.finished hend
  exact ⟨_, derivation, tokenize_eq_ok_iff.2 hsource, hword, hfits, hliteral⟩

end ArrayLiteral.Parsing
