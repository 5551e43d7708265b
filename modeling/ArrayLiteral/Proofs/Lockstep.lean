import Mathlib
import ArrayLiteral.Proofs.Images
import ArrayLiteral.Proofs.Ledger

/-!
# The array builder in lockstep with the literal builder

A run of the array builder goes through the images of the configurations that a
run of the literal builder goes through, until it refuses an initializer.  What
it has written is then what the literals of the configuration cost, which is
`Config.spent`, on top of the writes of `earlier` values on the same budget.
`Lockstep` is this invariant.  It covers the cells of all values at hand, so the
builder decides by exact costs.

The trace of the literal builder tells how the run of the array builder ends.
`run_within` is about a trace that the limit covers, and `run_overrun` about one
that it does not.  `spent_add_handovers` adds the trace up to the cost of the
literal that the run results in.
-/

namespace ArrayLiteral

/-! ## An aggregate and its elements -/

/-- The elements of an aggregate whose initializers so far are these. -/
def elementsOf (items : Array (Initializer Literal)) : List Value :=
  (items.toList.map (Initializer.map Literal.materialize)).foldl place []

/-- What was written for an aggregate so far. -/
def aggregateCost (items : Array (Initializer Literal)) : Nat :=
  (Literal.aggregate items.toList).cost

/-- The draft of an aggregate. -/
def draftOf (items : Array (Initializer Literal)) : Draft :=
  { elements := (elementsOf items).toArray }

theorem elementsOf_push (items : Array (Initializer Literal)) (item : Initializer Literal) :
    elementsOf (items.push item) =
      place (elementsOf items) (item.map Literal.materialize) := by
  simp [elementsOf]

theorem draftOf_push (items : Array (Initializer Literal)) (item : Initializer Literal) :
    draftOf (items.push item) = (draftOf items).write (item.map Literal.materialize) := by
  apply Draft.eq_of_toList_eq
  rw [Draft.toList_write]
  exact elementsOf_push items item

/-- An initializer costs what its value costs, and then what placing it costs. -/
theorem aggregateCost_push (items : Array (Initializer Literal)) (item : Initializer Literal) :
    aggregateCost (items.push item) =
      aggregateCost items + item.value.cost +
        placeCost (elementsOf items) (item.map Literal.materialize) := by
  simp only [aggregateCost, elementsOf, Array.toList_push, Literal.cost_aggregate,
    List.map_append, List.sum_append, placingCost_append, List.map_cons, List.map_nil,
    List.sum_cons, List.sum_nil, placingCost]
  omega

/-- The array builder makes the image of what the literal builder makes. -/
theorem image_materialize :
    Builder.Image literalBuilder arrayBuilder Literal.materialize draftOf where
  number value := (Literal.materialize_number value).symm
  opened := rfl
  closed items := (Literal.materialize_aggregate items.toList).symm

/-! ## Cells are covered by costs -/

theorem totalCells_foldl_place_le (elements : List Value) (items : List (Initializer Value)) :
    totalCells (items.foldl place elements) ≤
      totalCells elements + placingCost elements items +
        (items.map fun item => item.value.cells - 1).sum := by
  induction items generalizing elements with
  | nil => simp [placingCost]
  | cons item items ih =>
    have hplace := totalCells_place_le elements item
    have hrest := ih (place elements item)
    rw [List.foldl_cons, placingCost, List.map_cons, List.sum_cons]
    omega

/-- A value has at most one cell more than were written for it: its root. -/
theorem cells_materialize_le (literal : Literal) :
    literal.materialize.cells ≤ literal.cost + 1 := by
  induction literal using Literal.induction with
  | number value => simp
  | aggregate items ih =>
    have hplaced := totalCells_foldl_place_le [] (items.map (Initializer.map Literal.materialize))
    have hvalues : ((items.map (Initializer.map Literal.materialize)).map
          fun item => item.value.cells - 1).sum ≤
        (items.map fun item => item.value.cost).sum := by
      rw [List.map_map]
      apply List.sum_le_sum
      intro item hmem
      have := ih item hmem
      show item.value.materialize.cells - 1 ≤ item.value.cost
      omega
    rw [Literal.materialize_aggregate, Literal.cost_aggregate, cells_array_eq]
    rw [totalCells_nil] at hplaced
    omega

theorem totalCells_elementsOf_le (items : Array (Initializer Literal)) :
    totalCells (elementsOf items) ≤ aggregateCost items := by
  have h := cells_materialize_le (.aggregate items.toList)
  rw [Literal.materialize_aggregate, cells_array_eq] at h
  exact Nat.le_of_add_le_add_left (Nat.le_trans h (Nat.le_of_eq (Nat.add_comm _ _)))

namespace Parsing

/-! ## What was spent -/

/-- The number of cells that placing the initializer writes. -/
def Handover.cost (handover : LiteralHandover) : Nat :=
  placeCost (elementsOf handover.aggregate) (handover.item.map Literal.materialize)

/-- The number of cells that placing initializers writes. -/
def totalCost (trace : List LiteralHandover) : Nat :=
  (trace.map Handover.cost).sum

@[simp] theorem totalCost_nil : totalCost [] = 0 := rfl

@[simp] theorem totalCost_cons (handover : LiteralHandover) (trace : List LiteralHandover) :
    totalCost (handover :: trace) = handover.cost + totalCost trace :=
  List.sum_cons

/-- What was written for all that is complete or open in a configuration. -/
def Config.spent (config : LiteralConfig) : Nat :=
  (match config.control with
    | .value => 0
    | .complete literal => literal.cost
    | .between items => aggregateCost items) +
    (config.enclosing.map fun frame => aggregateCost frame.aggregate).sum

/-- A move spends nothing. -/
theorem spent_of_move {limits : Limits} {depth : Nat} {config config' : LiteralConfig}
    {symbols : List Symbol} (h : Move literalBuilder limits depth config symbols config') :
    config'.spent = config.spent := by
  have hopened : aggregateCost literalBuilder.opened = 0 := by
    simp [aggregateCost, literalBuilder, placingCost]
  cases h with
  | number => simp [Config.spent, literalBuilder]
  | empty =>
    show aggregateCost literalBuilder.opened + _ = _
    rw [hopened]
    rfl
  | opening =>
    simp only [Config.spent, List.map_cons, List.sum_cons]
    rw [hopened, Nat.zero_add]
  | comma => simp [Config.spent]
  | closing => rfl
  | trailing => rfl

/-- Handing over an initializer spends its cost. -/
theorem spent_of_handover (frame : Frame (Array (Initializer Literal))) (literal : Literal)
    (enclosing : List (Frame (Array (Initializer Literal)))) :
    Config.spent ⟨.between (frame.aggregate.push (frame.handover literal).item), enclosing⟩ =
      Config.spent ⟨.complete literal, frame :: enclosing⟩ + (frame.handover literal).cost := by
  simp only [Config.spent, aggregateCost_push, Handover.cost, Frame.handover, Frame.item,
    List.map_cons, List.sum_cons]
  omega

/-! ## Lockstep -/

/-- The array builder with this budget is at the image of the configuration, and
has written what the configuration spent, besides what it wrote earlier. -/
structure Lockstep (earlier : Nat) (budget : Budget) (config : LiteralConfig) : Prop where
  spent : budget.written.toNat = earlier + config.spent
  indices : ∀ frame ∈ config.enclosing, ∀ designator,
    frame.designator? = some designator → designator.last.toNat < maxWord.toNat

theorem last_lt_maxWord {limits : Limits} {designator : Designator}
    (h : TargetWithin limits (some designator)) : designator.last.toNat < maxWord.toNat := by
  have hlimit := toNat_le_maxWord limits.maxArrayLen
  cases designator with
  | single index =>
    have hindex := h index (by simp [targetBounds, Designator.bounds])
    exact Nat.lt_of_lt_of_le hindex hlimit
  | range start stop =>
    have hstart := h start (by simp [targetBounds, Designator.bounds])
    have hstop := h stop (by simp [targetBounds, Designator.bounds])
    rw [Designator.toNat_last_range]
    omega

namespace Lockstep

variable {earlier : Nat} {budget : Budget} {config config' : LiteralConfig}

/-- At the start nothing is spent. -/
theorem start (budget : Budget) : Lockstep budget.written.toNat budget ⟨.value, []⟩ :=
  ⟨rfl, nofun⟩

theorem moved {limits : Limits} {depth : Nat} {symbols : List Symbol}
    (h : Lockstep earlier budget config)
    (hmove : Move literalBuilder limits depth config symbols config') :
    Lockstep earlier budget config' := by
  refine ⟨by rw [h.spent, spent_of_move hmove], ?_⟩
  have hkept := h.indices
  cases hmove with
  | opening enclosing first designator? hroom hwithin =>
    intro frame hmem designator hdesignator
    rcases List.mem_cons.1 hmem with rfl | hmem
    · rw [show designator? = some designator from hdesignator] at hwithin
      exact last_lt_maxWord hwithin
    · exact hkept frame hmem designator hdesignator
  | comma aggregate enclosing first designator? hwithin =>
    intro frame hmem designator hdesignator
    rcases List.mem_cons.1 hmem with rfl | hmem
    · rw [show designator? = some designator from hdesignator] at hwithin
      exact last_lt_maxWord hwithin
    · exact hkept frame hmem designator hdesignator
  | _ => exact hkept

section Handover

variable {frame : Frame (Array (Initializer Literal))} {literal : Literal}
  {enclosing : List (Frame (Array (Initializer Literal)))} {reader : Reader}

theorem held_le (h : Lockstep earlier budget ⟨.complete literal, frame :: enclosing⟩) :
    totalCells (draftOf frame.aggregate).elements.toList + (literal.materialize.cells - 1) ≤
      budget.written.toNat := by
  have hvalue := cells_materialize_le literal
  have helements : totalCells (draftOf frame.aggregate).elements.toList ≤ _ :=
    totalCells_elementsOf_le frame.aggregate
  rw [h.spent]
  simp only [Config.spent, List.map_cons, List.sum_cons]
  omega

theorem priceable (h : Lockstep earlier budget ⟨.complete literal, frame :: enclosing⟩) :
    Priceable budget.limit
      ((frame.map draftOf).item literal.materialize) :=
  .inr (h.indices frame (List.mem_cons_self ..))

/-- What the limit covers is added, and the builders stay in lockstep. -/
theorem step_added (h : Lockstep earlier budget ⟨.complete literal, frame :: enclosing⟩)
    (hfits : earlier + Config.spent ⟨.complete literal, frame :: enclosing⟩ +
      (frame.handover literal).cost ≤ budget.limit.toNat) :
    ∃ budget', step arrayBuilder budget
        (Config.map Literal.materialize draftOf ⟨.complete literal, frame :: enclosing⟩) reader =
          .ok (.next budget' (Config.map Literal.materialize draftOf
            ⟨.between (frame.aggregate.push (frame.handover literal).item), enclosing⟩)) reader ∧
      budget'.limit = budget.limit ∧
      Lockstep earlier budget' ⟨.between (frame.aggregate.push (frame.handover literal).item),
        enclosing⟩ := by
  have hwritten : (UInt64.ofNat (budget.written.toNat + (frame.handover literal).cost)).toNat =
      budget.written.toNat + (frame.handover literal).cost := by
    rw [h.spent]
    exact UInt64.toNat_ofNat_of_lt
      (Nat.lt_succ_of_le (Nat.le_trans hfits (toNat_le_maxWord budget.limit)))
  refine ⟨{ budget with written := .ofNat (budget.written.toNat + (frame.handover literal).cost) },
    step_of_add_ok (frame.map draftOf) ((add_eq_ok_iff h.held_le h.priceable).2
      ⟨draftOf_push _ _, rfl, hwritten, ?_⟩), rfl, ?_⟩
  · rw [hwritten, h.spent]
    exact hfits
  · refine ⟨?_, fun frame' hmem => h.indices frame' (List.mem_cons_of_mem _ hmem)⟩
    rw [hwritten, h.spent, spent_of_handover, Nat.add_assoc]

/-- What the limit does not cover is refused. -/
theorem step_refused (h : Lockstep earlier budget ⟨.complete literal, frame :: enclosing⟩)
    (hover : budget.limit.toNat < earlier + Config.spent ⟨.complete literal, frame :: enclosing⟩ +
      (frame.handover literal).cost) :
    step arrayBuilder budget
        (Config.map Literal.materialize draftOf ⟨.complete literal, frame :: enclosing⟩) reader =
      .ok (.refused budget (frame.refused { limit := budget.limit })) reader := by
  rw [← h.spent] at hover
  have hadd : arrayBuilder.add ((frame.map draftOf).item literal.materialize)
      (budget, draftOf frame.aggregate) =
        .error { limit := budget.limit } (budget, draftOf frame.aggregate) :=
    (add_eq_error_iff h.held_le h.priceable).2 ⟨rfl, rfl, rfl, hover⟩
  exact step_of_add_error (frame.map draftOf) hadd

end Handover

end Lockstep

/-! ## Runs -/

/-- Induction along a run of the literal builder, which refuses nothing. -/
@[elab_as_elim]
theorem literal_run_induction {motive : LiteralConfig → Reader → Prop}
    (added : ∀ literal frame enclosing reader,
      motive ⟨.between (frame.aggregate.push (frame.handover literal).item), enclosing⟩ reader →
        motive ⟨.complete literal, frame :: enclosing⟩ reader)
    (moved : ∀ config reader config' after, config.handover? = none →
      step literalBuilder () config reader = .ok (.next () config') after →
        motive config' after → motive config reader)
    (finished : ∀ literal reader, motive ⟨.complete literal, []⟩ reader)
    (failed : ∀ config reader error after, config.handover? = none →
      step literalBuilder () config reader = .error error after → motive config reader)
    (config : LiteralConfig) (reader : Reader) : motive config reader := by
  refine run_induction literalBuilder (motive := fun _ => motive) ?_ () config reader
  intro _ config reader ih
  cases hhandover : config.handover? with
  | some handover =>
    rcases config with ⟨control, enclosing⟩
    cases control with
    | complete literal =>
      cases enclosing with
      | nil => cases hhandover
      | cons frame enclosing =>
        exact added literal frame enclosing reader (ih () _ reader (step_of_add_ok frame rfl))
    | _ => cases hhandover
  | none =>
    cases hstep : step literalBuilder () config reader with
    | error error after => exact failed config reader error after hhandover hstep
    | ok progress after =>
      cases progress with
      | next state config' =>
        exact moved config reader config' after hhandover hstep (ih () config' after hstep)
      | finished literal =>
        obtain ⟨rfl, rfl⟩ := step_finished_iff.1 hstep
        exact finished literal after
      | refused state error =>
        obtain ⟨_, _, _, _, _, rfl, -⟩ := exists_of_step_refused hstep
        cases hhandover

section Run

variable {earlier : Nat} {budget : Budget} {config : LiteralConfig} {reader : Reader}

/-- The trace that starts by handing over a literal. -/
theorem handovers_added (literal : Literal) (frame : Frame (Array (Initializer Literal)))
    (enclosing : List (Frame (Array (Initializer Literal)))) (reader : Reader) :
    handovers literalBuilder () ⟨.complete literal, frame :: enclosing⟩ reader =
      frame.handover literal :: handovers literalBuilder ()
        ⟨.between (frame.aggregate.push (frame.handover literal).item), enclosing⟩ reader :=
  handovers_of_next (step_of_add_ok frame rfl)

theorem handovers_moved {config' : LiteralConfig} {after : Reader}
    (hread : config.handover? = none)
    (hstep : step literalBuilder () config reader = .ok (.next () config') after) :
    handovers literalBuilder () config reader = handovers literalBuilder () config' after := by
  rw [handovers_of_next hstep, hread]
  rfl

theorem handovers_failed {error : Error} {after : Reader} (hread : config.handover? = none)
    (hstep : step literalBuilder () config reader = .error error after) :
    handovers literalBuilder () config reader = [] := by
  have hend : ∀ state' config' after',
      step literalBuilder () config reader ≠ .ok (.next state' config') after' := by
    intro state' config' after' hnext
    rw [hstep] at hnext
    cases hnext
  rw [handovers_of_end hend, hread]
  rfl

theorem handovers_finished (literal : Literal) (reader : Reader) :
    handovers literalBuilder () ⟨.complete literal, []⟩ reader = [] :=
  handovers_of_end nofun

/-- Where the limit covers the whole trace, the array builder ends where the
literal builder ends, with the value of its literal or with its error. -/
theorem run_within (h : Lockstep earlier budget config)
    (hfits : earlier + config.spent + totalCost (handovers literalBuilder () config reader) ≤
      budget.limit.toNat) :
    ∃ written, run arrayBuilder budget (config.map Literal.materialize draftOf) reader = {
        result := (run literalBuilder () config reader).result.map Literal.materialize
        state := { budget with written }
        reader := (run literalBuilder () config reader).reader } ∧
      written.toNat =
        earlier + config.spent + totalCost (handovers literalBuilder () config reader) := by
  induction config, reader using literal_run_induction generalizing budget with
  | added literal frame enclosing reader ih =>
    rw [handovers_added, totalCost_cons] at hfits ⊢
    obtain ⟨budget', hadded, hlimit, hnext⟩ := h.step_added (by omega)
    have hspent := spent_of_handover frame literal enclosing
    obtain ⟨written, hrun, hwritten⟩ := ih hnext (by rw [hlimit]; omega)
    refine ⟨written, ?_, by omega⟩
    rw [run_added, run_of_next hadded, hrun, hlimit]
  | moved config reader config' after hread hstep ih =>
    rw [handovers_moved hread hstep] at hfits ⊢
    rw [run_of_next hstep, run_of_next (step_image_ok image_materialize hread hstep budget)]
    cases stepped_of_step hstep with
    | added frame literal aggregate enclosing hconfig =>
      rw [hconfig] at hread
      cases hread
    | moved tokens hstate hmoves hpath =>
      have hspent := spent_of_move hmoves.move
      obtain ⟨written, hrun, hwritten⟩ := ih (h.moved hmoves.move) (by omega)
      exact ⟨written, hrun, by omega⟩
  | finished literal reader =>
    rw [handovers_finished, run_complete literalBuilder]
    exact ⟨budget.written, run_complete arrayBuilder budget literal.materialize reader, h.spent⟩
  | failed config reader error after hread hstep =>
    rw [handovers_failed hread hstep]
    rw [run_of_error hstep, run_of_error (step_image_error image_materialize hread hstep budget)]
    exact ⟨budget.written, rfl, h.spent⟩

/-- Where the limit first falls short of the trace, the array builder fails at the
initializer that it falls short of, whatever the literal builder does behind it. -/
theorem run_overrun (h : Lockstep earlier budget config) {front back : List LiteralHandover}
    {handover : LiteralHandover}
    (htrace : handovers literalBuilder () config reader = front ++ handover :: back)
    (hfits : earlier + config.spent + totalCost front ≤ budget.limit.toNat)
    (hover : budget.limit.toNat <
      earlier + config.spent + totalCost front + handover.cost) :
    (run arrayBuilder budget (config.map Literal.materialize draftOf) reader).result =
      .error (.grammar {
        found := handover.first, fault := .arrayTooLarge budget.limit }) := by
  induction config, reader using literal_run_induction generalizing budget front with
  | added literal frame enclosing reader ih =>
    rw [handovers_added] at htrace
    cases front with
    | nil =>
      -- The limit falls short of the very first initializer.
      injection htrace with hfirst _
      subst hfirst
      rw [totalCost_nil] at hover
      rw [run_of_refused (h.step_refused (by omega))]
      rfl
    | cons first front =>
      injection htrace with hfirst htrace
      subst hfirst
      rw [totalCost_cons] at hfits hover
      obtain ⟨budget', hadded, hlimit, hnext⟩ := h.step_added (by omega)
      have hspent := spent_of_handover frame literal enclosing
      rw [run_of_next hadded, ← hlimit]
      exact ih hnext htrace (by rw [hlimit]; omega) (by rw [hlimit]; omega)
  | moved config reader config' after hread hstep ih =>
    rw [handovers_moved hread hstep] at htrace
    rw [run_of_next (step_image_ok image_materialize hread hstep budget)]
    cases stepped_of_step hstep with
    | added frame literal aggregate enclosing hconfig =>
      rw [hconfig] at hread
      cases hread
    | moved tokens hstate hmoves hpath =>
      have hspent := spent_of_move hmoves.move
      exact ih (h.moved hmoves.move) htrace (by omega) (by omega)
  | finished literal reader =>
    rw [handovers_finished] at htrace
    simp at htrace
  | failed config reader error after hread hstep =>
    rw [handovers_failed hread hstep] at htrace
    simp at htrace

/-- A run that results in a literal spends what the literal costs. -/
theorem spent_add_handovers {literal : Literal}
    (hrun : (run literalBuilder () config reader).result = .ok literal) :
    config.spent + totalCost (handovers literalBuilder () config reader) = literal.cost := by
  induction config, reader using literal_run_induction with
  | added given frame enclosing reader ih =>
    rw [run_added] at hrun
    have hspent := spent_of_handover frame given enclosing
    have hrest := ih hrun
    rw [handovers_added, totalCost_cons]
    omega
  | moved config reader config' after hread hstep ih =>
    rw [run_of_next hstep] at hrun
    rw [handovers_moved hread hstep]
    cases stepped_of_step hstep with
    | added frame literal aggregate enclosing hconfig =>
      rw [hconfig] at hread
      cases hread
    | moved tokens hstate hmoves hpath => rw [← spent_of_move hmoves.move, ih hrun]
  | finished given reader =>
    rw [run_complete] at hrun
    cases hrun
    rw [handovers_finished]
    simp [Config.spent]
  | failed config reader error after hread hstep =>
    rw [run_of_error hstep] at hrun
    cases hrun

end Run

end Parsing

end ArrayLiteral
