import Mathlib
import ArrayLiteral.Builder.Workbench
import ArrayLiteral.Proofs.Modes

/-!
# The budget bounds the memory

A workbench drives the array builder by hand, in any order of actions.  `Acted`
lists what can come of one action, and `Ledgered` is the invariant that every
action keeps: what is held is covered by what was written, and that by the limit.
Nothing else is known of a workbench that was reached, and it is enough.  No
count of cells saturates there, and no designator that is accepted reaches
beyond the limit.

The limit has to be below the largest word.  At the largest word a designator
with the highest index of all would be accepted by a fresh budget, and the word
behind that index does not exist.
-/

namespace ArrayLiteral

namespace Workbench

variable {σ α γ : Type}

/-! ## What comes of an action -/

/-- An action, the fault if it was not done, and the workbench afterwards. -/
inductive Acted (builder : Builder σ α γ) :
    Workbench σ α γ → Action → Option Fault → Workbench σ α γ → Prop
  | number (state : σ) (values : List α) (aggregates : List γ) (value : UInt64) :
      Acted builder ⟨state, values, aggregates⟩ (.number value) none
        ⟨state, builder.number value :: values, aggregates⟩
  | opened (state : σ) (values : List α) (aggregates : List γ) :
      Acted builder ⟨state, values, aggregates⟩ .openAggregate none
        ⟨state, values, builder.opened :: aggregates⟩
  | added (state state' : σ) (values : List α) (value : α) (aggregates : List γ)
      (aggregate aggregate' : γ) (designator? : Option Designator)
      (hadd : builder.add { designator?, value } (state, aggregate) =
        .ok () (state', aggregate')) :
      Acted builder ⟨state, value :: values, aggregate :: aggregates⟩ (.add designator?) none
        ⟨state', values, aggregate' :: aggregates⟩
  /-- The value is lost. -/
  | refused (state state' : σ) (values : List α) (value : α) (aggregates : List γ)
      (aggregate aggregate' : γ) (designator? : Option Designator) (refusal : Refusal)
      (hadd : builder.add { designator?, value } (state, aggregate) =
        .error refusal (state', aggregate')) :
      Acted builder ⟨state, value :: values, aggregate :: aggregates⟩ (.add designator?)
        (some (.refused refusal)) ⟨state', values, aggregate' :: aggregates⟩
  | closed (state : σ) (values : List α) (aggregate : γ) (aggregates : List γ) :
      Acted builder ⟨state, values, aggregate :: aggregates⟩ .closeAggregate none
        ⟨state, builder.closed aggregate :: values, aggregates⟩
  | noAggregate (state : σ) (values : List α) (action : Action) :
      Acted builder ⟨state, values, []⟩ action (some .noAggregate) ⟨state, values, []⟩
  | noValue (state : σ) (aggregate : γ) (aggregates : List γ)
      (designator? : Option Designator) :
      Acted builder ⟨state, [], aggregate :: aggregates⟩ (.add designator?) (some .noValue)
        ⟨state, [], aggregate :: aggregates⟩

theorem acted (builder : Builder σ α γ) (bench : Workbench σ α γ) (action : Action) :
    Acted builder bench action (bench.act builder action).1 (bench.act builder action).2 := by
  rcases bench with ⟨state, values, aggregates⟩
  cases action with
  | number value => exact .number state values aggregates value
  | openAggregate => exact .opened state values aggregates
  | closeAggregate =>
    cases aggregates with
    | nil => exact .noAggregate state values _
    | cons aggregate aggregates => exact .closed state values aggregate aggregates
  | add designator? =>
    cases aggregates with
    | nil => exact .noAggregate state values _
    | cons aggregate aggregates =>
      cases values with
      | nil => exact .noValue state aggregate aggregates designator?
      | cons value values =>
        simp only [act]
        cases hadd : builder.add { designator?, value } (state, aggregate) with
        | ok _ added =>
          exact .added state added.1 values value aggregates aggregate added.2 designator? hadd
        | error refusal left =>
          exact .refused state left.1 values value aggregates aggregate left.2 designator? refusal
            hadd

/-- Whatever was not done leaves the state and the open aggregates as they were, if this is so
of a call that the builder refuses. -/
theorem Acted.unchanged {builder : Builder σ α γ} {bench after : Workbench σ α γ}
    {action : Action} {fault? : Option Fault} (h : Acted builder bench action fault? after)
    (hkeeps : builder.KeepsRefused) (hfault : fault? ≠ none) :
    after.state = bench.state ∧ after.aggregates = bench.aggregates := by
  cases h with
  | refused state state' values value aggregates aggregate aggregate' designator? refusal hadd =>
    cases hkeeps hadd
    exact ⟨rfl, rfl⟩
  | noAggregate => exact ⟨rfl, rfl⟩
  | noValue => exact ⟨rfl, rfl⟩
  | _ => exact absurd rfl hfault

/-- Does the actions one after the other. One that is not done stops none of the
next ones. -/
def actAll (builder : Builder σ α γ) (bench : Workbench σ α γ) (actions : List Action) :
    Workbench σ α γ :=
  actions.foldl (fun bench action => (bench.act builder action).2) bench

/-! ## The ledger of a workbench -/

/-- The limit covers what was written, and what was written covers what is held. -/
structure Ledgered (limit : UInt64) (bench : Workbench Budget Value Draft) : Prop where
  limit_eq : bench.state.limit = limit
  held_le : heldCells bench.values bench.aggregates ≤ bench.state.written.toNat
  written_le : bench.state.written.toNat ≤ limit.toNat

section Ledgered

variable {limit : UInt64} {bench after : Workbench Budget Value Draft} {action : Action}
  {fault? : Option Fault}

theorem Ledgered.start (limit : UInt64) : Ledgered limit (ofState (.ofLimit limit)) :=
  ⟨rfl, Nat.le_refl _, Nat.zero_le _⟩

/-- What is added to an aggregate is charged at its exact cost, and the limit
covers it. -/
theorem Ledgered.add_eq_ok {state state' : Budget} {values : List Value} {drafts : List Draft}
    {draft draft' : Draft} {item : Initializer Value}
    (h : Ledgered limit ⟨state, item.value :: values, draft :: drafts⟩)
    (hlimit : limit.toNat < maxWord.toNat)
    (hadd : arrayBuilder.add item (state, draft) = .ok () (state', draft')) :
    draft' = draft.write item ∧
      state'.written.toNat = state.written.toNat + placeCost draft.elements.toList item ∧
      Ledgered limit ⟨state', values, draft' :: drafts⟩ := by
  have hlimitEq : state.limit = limit := h.limit_eq
  have hheld : heldCells (item.value :: values) (draft :: drafts) ≤ state.written.toNat :=
    h.held_le
  -- Below the largest word every index has one behind it.
  have hprice : Priceable state.limit item := .inl (hlimitEq ▸ hlimit)
  have hroom : totalCells draft.elements.toList + (item.value.cells - 1) ≤
      state.written.toNat := by
    rw [heldCells_value_cons, heldCells_draft_cons] at hheld
    omega
  obtain ⟨hdraft, hsame, hwritten, hle⟩ := (add_eq_ok_iff hroom hprice).1 hadd
  rw [hlimitEq] at hle
  exact ⟨hdraft, hwritten, hsame.trans hlimitEq, heldCells_add_le hheld hprice hadd, hle⟩

/-- An action keeps the ledger, and what was written stays written. -/
theorem Ledgered.acted (h : Ledgered limit bench) (hlimit : limit.toNat < maxWord.toNat)
    (hacted : Acted arrayBuilder bench action fault? after) :
    Ledgered limit after ∧ bench.state.written.toNat ≤ after.state.written.toNat := by
  have hheld := h.held_le
  cases hacted with
  | number state values aggregates value =>
    exact ⟨⟨h.limit_eq, by rw [heldCells_number]; exact hheld, h.written_le⟩, Nat.le_refl _⟩
  | opened state values aggregates =>
    exact ⟨⟨h.limit_eq, by rw [heldCells_opened]; exact hheld, h.written_le⟩, Nat.le_refl _⟩
  | closed state values aggregate aggregates =>
    exact ⟨⟨h.limit_eq, by rw [heldCells_closed]; exact hheld, h.written_le⟩, Nat.le_refl _⟩
  | noAggregate => exact ⟨h, Nat.le_refl _⟩
  | noValue => exact ⟨h, Nat.le_refl _⟩
  | refused state state' values value aggregates aggregate aggregate' designator? refusal hadd =>
    cases keepsRefused_arrayBuilder hadd
    have hlost : heldCells values (aggregate :: aggregates) ≤
        heldCells (value :: values) (aggregate :: aggregates) := by
      rw [heldCells_value_cons]
      omega
    exact ⟨⟨h.limit_eq, Nat.le_trans hlost hheld, h.written_le⟩, Nat.le_refl _⟩
  | added state state' values value aggregates aggregate aggregate' designator? hadd =>
    obtain ⟨-, hwritten, hkept⟩ := h.add_eq_ok hlimit hadd
    refine ⟨hkept, ?_⟩
    show state.written.toNat ≤ state'.written.toNat
    omega

/-- The ledger is kept along every run. -/
theorem Ledgered.actAll (h : Ledgered limit bench) (hlimit : limit.toNat < maxWord.toNat)
    (actions : List Action) : Ledgered limit (bench.actAll arrayBuilder actions) := by
  induction actions generalizing bench with
  | nil => exact h
  | cons action actions ih =>
    obtain ⟨hnext, -⟩ := h.acted hlimit (Workbench.acted arrayBuilder bench action)
    exact ih hnext

/-- A designator that is accepted ends below the limit, and within the aggregate
that it was written to. -/
theorem Ledgered.last_lt (h : Ledgered limit bench) (hlimit : limit.toNat < maxWord.toNat)
    {designator : Designator}
    (hacted : Acted arrayBuilder bench (.add (some designator)) none after) :
    designator.last.toNat + 1 ≤ limit.toNat ∧
      ∃ draft drafts, after.aggregates = draft :: drafts ∧
        designator.last.toNat < draft.elements.size := by
  have hheld := h.held_le
  cases hacted with
  | added state state' values value aggregates aggregate aggregate' designator? hadd =>
    obtain ⟨hdraft, hwritten, hkept⟩ := h.add_eq_ok hlimit hadd
    have hle : state'.written.toNat ≤ limit.toNat := hkept.written_le
    have hdesignator : ({ designator? := some designator, value } :
        Initializer Value).designator? = some designator := rfl
    have hlast := last_lt_length_add_placeCost hdesignator aggregate.elements.toList
    have hlength := length_le_totalCells aggregate.elements.toList
    rw [heldCells_value_cons, heldCells_draft_cons] at hheld
    constructor
    · change _ ≤ state.written.toNat at hheld
      omega
    · refine ⟨aggregate', aggregates, rfl, ?_⟩
      rw [hdraft]
      show _ < (aggregate.fill designator.first designator.last value).elements.size
      rw [Draft.size_fill, toNat_max]
      omega

/-- Nothing that is held has more cells than a word can count. -/
theorem Ledgered.cells_le (h : Ledgered limit bench) (hlimit : limit.toNat < maxWord.toNat)
    {value : Value}
    (hvalue : value ∈ bench.values ∨ ∃ draft ∈ bench.aggregates, value ∈ draft.elements) :
    value.cells ≤ maxWord.toNat := by
  have hheld := h.held_le
  have hwritten := h.written_le
  have hheldValue : value.cells - 1 ≤ heldCells bench.values bench.aggregates := by
    rcases hvalue with hmem | ⟨draft, hdraft, hmem⟩
    · have := List.single_le_sum (l := bench.values.map fun value => value.cells - 1)
        (by simp) _ (List.mem_map_of_mem hmem)
      simp only [heldCells]
      omega
    · have := List.single_le_sum
        (l := bench.aggregates.map fun draft => totalCells draft.elements.toList)
        (by simp) _ (List.mem_map_of_mem hdraft)
      have := cells_le_totalCells (Array.mem_toList_iff.2 hmem)
      simp only [heldCells]
      omega
  omega

end Ledgered

/-! ## The bound -/

/-- At a workbench that was reached, what is held is covered by what was written,
and that by the limit, so no count of cells saturates. The next action only adds
to what was written. If it is not done, the state and the open aggregates stay.
If it is done and has a designator, there is a word behind the last index, within
the limit, and a cell at that index. A value that is parsed under the limit has
no more cells than the limit and the root. -/
theorem actAll_within_limit (limit : UInt64) (hlimit : limit < maxWord)
    (actions : List Action) :
    let bench := (ofState (.ofLimit limit)).actAll arrayBuilder actions
    heldCells bench.values bench.aggregates ≤ bench.state.written.toNat ∧
    bench.state.written.toNat ≤ limit.toNat ∧
    (∀ value, (value ∈ bench.values ∨ ∃ draft ∈ bench.aggregates, value ∈ draft.elements) →
      value.saturatedCells.toNat = value.cells) ∧
    (∀ action,
      let fault? := (bench.act arrayBuilder action).1
      let after := (bench.act arrayBuilder action).2
      bench.state.written.toNat ≤ after.state.written.toNat ∧
      (fault? ≠ none → after.state = bench.state ∧ after.aggregates = bench.aggregates) ∧
      (∀ designator, action = .add (some designator) → fault? = none →
        designator.last.toNat + 1 ≤ limit.toNat ∧
        (designator.last + 1).toNat = designator.last.toNat + 1 ∧
        ∃ draft drafts, after.aggregates = draft :: drafts ∧
          designator.last.toNat < draft.elements.size)) ∧
    ∀ limits source value, limits.maxArrayLen = limit →
      parse .array limits source = .ok (.array value) → value.cells ≤ limit.toNat + 1 := by
  intro bench
  rw [UInt64.lt_iff_toNat_lt] at hlimit
  have hledger : Ledgered limit bench := (Ledgered.start limit).actAll hlimit actions
  refine ⟨hledger.held_le, hledger.written_le, ?_, ?_, ?_⟩
  · intro value hvalue
    rw [toNat_saturatedCells, Nat.min_eq_right (hledger.cells_le hlimit hvalue)]
  · intro action fault? after
    have hacted : Acted arrayBuilder bench action fault? after := acted arrayBuilder bench action
    refine ⟨(hledger.acted hlimit hacted).2, hacted.unchanged keepsRefused_arrayBuilder, ?_⟩
    intro designator haction hfault
    rw [haction, hfault] at hacted
    obtain ⟨hlast, hcell⟩ := hledger.last_lt hlimit hacted
    have hword : (designator.last + 1).toNat = designator.last.toNat + 1 :=
      toNat_add_of_le (Nat.le_trans hlast (Nat.le_of_lt hlimit))
    exact ⟨hlast, hword, hcell⟩
  · rintro limits source value rfl hparse
    obtain ⟨budget, hwhole⟩ := parse_array_eq_ok_iff_parseWhole.1 hparse
    obtain ⟨literal, -, hcost, rfl, -⟩ := parseWhole_array_eq_ok_iff.1 hwhole
    exact Nat.le_trans (cells_materialize_le literal) (Nat.add_le_add_right hcost 1)

/-- A limit of five covers a zero and four copies of a number. -/
theorem actAll_within_limit_five :
    (5 : UInt64) < maxWord ∧
      let bench := (ofState (.ofLimit 5)).actAll arrayBuilder [.openAggregate, .number 7]
      (bench.act arrayBuilder (.add (some (.range 4 1)))).1 = none ∧
      ∃ draft drafts,
        (bench.act arrayBuilder (.add (some (.range 4 1)))).2.aggregates = draft :: drafts ∧
          4 < draft.elements.size := by
  have hlimit : (5 : UInt64) < maxWord := by decide
  have hbench := actAll_within_limit 5 hlimit [.openAggregate, .number 7]
  have hadd := (hbench.2.2.2.1 (.add (some (.range 4 1)))).2.2 (.range 4 1) rfl
  have hdone : (((ofState (.ofLimit 5)).actAll arrayBuilder [.openAggregate, .number 7]).act
      arrayBuilder (.add (some (.range 4 1)))).1 = none := by cbv
  exact ⟨hlimit, hdone, (hadd hdone).2.2⟩

end Workbench

end ArrayLiteral
