import ArrayLiteral.Proofs.Braces
import ArrayLiteral.Proofs.Descent
import ArrayLiteral.Proofs.Modes
import ArrayLiteral.Proofs.Nesting
import ArrayLiteral.Proofs.Soundness

/-!
# Nesting is bounded

The limit on depth bounds how many aggregates a parser has open, and with it how deeply
what it makes nests.

An aggregate is open from where it was entered to where it is left.  A configuration of the
machine has as many of them open as the reader has counted, and the next one is entered only
below the limit (`Visits.depth_eq_and_le`).  Calls of the rule for aggregates are another thing,
for the first that such a call does is to ask for entry.  While it is refused, one call more is
open than there are aggregates, and at the limit this does happen
(`program?_eq_none_of_calls`).

A tree has three levels for each open brace and two for what is inside them all
(`height_tree_le`), and the array that is written nests no more deeply than the braces of the
source.
-/

namespace ArrayLiteral

namespace Parsing

/-! ## Open aggregates -/

/-- A run from the start comes to this configuration. -/
inductive Visits {σ α γ : Type} (builder : Builder σ α γ) (start : σ) (reader : Reader) :
    σ → Config α γ → Reader → Prop
  | start : Visits builder start reader start ⟨.value, []⟩ reader
  | next (state state' : σ) (config config' : Config α γ) (before after : Reader)
      (h : Visits builder start reader state config before)
      (hstep : step builder state config before = .ok (.next state' config') after) :
      Visits builder start reader state' config' after

section Visits

variable {σ α γ : Type} {builder : Builder σ α γ} {limits : Limits} {start state : σ}
  {config config' : Config α γ} {reader after : Reader} {symbols : List Symbol}

/-- A move that enters an aggregate is made only where there is room. -/
theorem Move.openCount_le (hmove : Move builder limits config.openCount config symbols config')
    (h : config.openCount ≤ limits.maxDepth.toNat) :
    config'.openCount ≤ limits.maxDepth.toNat := by
  cases hmove with
  | number enclosing value => exact h
  | empty enclosing hdepth => exact h
  | opening enclosing first designator? hdepth hwithin => exact hdepth
  | comma aggregate enclosing first designator? hwithin => exact h
  | closing aggregate enclosing => exact Nat.le_of_succ_le h
  | trailing aggregate enclosing => exact Nat.le_of_succ_le h

/-- The reader counts the aggregates that are open, and keeps to its limit. -/
theorem Visits.depth_eq_and_le (h : Visits builder start reader state config after)
    (hdepth : reader.depth = 0) (hlimits : reader.limits = limits) :
    after.limits = limits ∧ after.depth = config.openCount ∧
      config.openCount ≤ limits.maxDepth.toNat := by
  induction h with
  | start => exact ⟨hlimits, hdepth, Nat.zero_le _⟩
  | next state state' config config' before after h hstep ih =>
    obtain ⟨hsame, hcount, hle⟩ := ih
    have hcount' : after.depth = 0 + config'.openCount :=
      depth_of_step (by rw [Nat.zero_add]; exact hcount) hstep
    rw [Nat.zero_add] at hcount'
    cases stepped_of_step hstep with
    | added frame value aggregate enclosing hconfig hconfig' hadd hreader =>
      rw [hconfig] at hle
      rw [hreader] at hcount' ⊢
      refine ⟨hsame, hcount', ?_⟩
      -- The innermost aggregate has no frame behind its initializer, and is still open.
      rw [hconfig']
      exact hle
    | moved tokens hstate hmoves hpath =>
      have hmove := hmoves.move
      rw [hsame, hcount] at hmove
      exact ⟨hpath.limits_eq.trans hsame, hcount', hmove.openCount_le hle⟩

end Visits

end Parsing

open Parsing

/-! ## Trees -/

theorem Tree.height_node_le_iff {tag : Tag} {children : List Tree} {limit : Nat} :
    (node tag children).height ≤ limit + 1 ↔ ∀ child ∈ children, child.height ≤ limit := by
  rw [height_node, Nat.add_comm, Nat.add_le_add_iff_right, foldl_max_le_iff, List.forall_mem_map]
  exact ⟨fun h => h.2, fun h => ⟨Nat.zero_le _, h⟩⟩

/-- A designator is not higher than a value can be. -/
theorem Derivation.height_initializerNode_le {item : Initializer Tree} {limit : Nat}
    (h : item.value.height ≤ limit + 2) : (initializerNode item).height ≤ limit + 3 := by
  have htarget : ∀ child ∈ targetNodes item.designator?, child.height ≤ 2 := by
    intro child hmem
    rcases item with ⟨_ | ⟨index⟩ | ⟨start, stop⟩, value⟩
    · cases hmem
    · rw [List.mem_singleton.1 hmem, Tree.height_node_le_iff]
      exact List.forall_mem_singleton.2 (Tree.height_leaf index).le
    · rw [List.mem_singleton.1 hmem, Tree.height_node_le_iff]
      exact List.forall_mem_cons.2 ⟨(Tree.height_leaf start).le,
        List.forall_mem_singleton.2 (Tree.height_leaf stop).le⟩
  refine Tree.height_node_le_iff.2 fun child hmem => ?_
  rcases List.mem_append.1 hmem with hmem | hmem
  · exact Nat.le_trans (htarget child hmem) (Nat.le_add_left _ _)
  · rw [List.mem_singleton.1 hmem]
    exact h

/-- A tree has three levels for each open brace, and two for what is inside them all. -/
theorem Derivation.height_tree_le (derivation : Derivation) :
    derivation.tree.height ≤ 3 * derivation.depth + 2 := by
  induction derivation using Derivation.induction with
  | number value =>
    rw [tree_number, depth_number, Tree.height_node_le_iff, List.forall_mem_singleton,
      Tree.height_leaf]
  | empty =>
    rw [tree_empty, depth_empty, Tree.height_node_le_iff, List.forall_mem_singleton,
      Tree.height_node_le_iff]
    nofun
  | list first others trailing ihfirst ihothers =>
    obtain ⟨hroom, hitems⟩ := add_depth_list_le_iff.1
      (Nat.zero_add (list first others trailing).depth).le
    generalize (list first others trailing).depth = depth at hroom hitems ⊢
    obtain ⟨inner, rfl⟩ := Nat.exists_eq_add_of_lt hroom
    have hlevels : 3 * (0 + inner + 1) + 2 = 3 * inner + 3 + 1 + 1 := by omega
    rw [tree_list, hlevels, Tree.height_node_le_iff, List.forall_mem_singleton,
      Tree.height_node_le_iff, List.forall_mem_map]
    intro item hmem
    have hdepth := hitems item hmem
    have hvalue : item.value.tree.height ≤ 3 * item.value.depth + 2 := by
      rcases List.mem_cons.1 hmem with rfl | hmem
      · exact ihfirst
      · exact ihothers item hmem
    apply height_initializerNode_le
    show item.value.tree.height ≤ 3 * inner + 2
    omega

/-! ## Parses -/

section Parses

variable {limits : Limits} {source : String}

theorem height_le_of_parse_ast {literal : Literal}
    (h : parse .ast limits source = .ok (.ast literal)) :
    literal.toTree.height ≤ 3 * limits.maxDepth.toNat + 2 := by
  obtain ⟨tokens, derivation, -, -, hfits, rfl⟩ :=
    exists_derivation (parse_ast_eq_ok_iff_parseWhole.1 h)
  have hroom := hfits.1
  have hheight := derivation.height_tree_le
  rw [derivation.toTree_literal]
  omega

theorem depth_le_of_parse_array {value : Value}
    (h : parse .array limits source = .ok (.array value)) :
    value.depth ≤ braceNesting source ∧ braceNesting source ≤ limits.maxDepth.toNat := by
  obtain ⟨budget, hwhole⟩ := parse_array_eq_ok_iff_parseWhole.1 h
  obtain ⟨literal, hliteral, -, rfl, -⟩ := parseWhole_array_eq_ok_iff.1 hwhole
  obtain ⟨tokens, derivation, htokens, hword, hfits, rfl⟩ := exists_derivation hliteral
  rw [braceNesting_eq_depth htokens hword]
  refine ⟨depth_materialize_le derivation, ?_⟩
  rw [← Nat.zero_add derivation.depth]
  exact hfits.1

/-- The limit on depth bounds the recursion and what comes of it, for every builder. A recursive
parser that allows one call for a value more than the limit, one call for an aggregate more than
the limit, and as many aggregates that were entered and not left as the limit, is never cut off
and has the same result. All along a run the reader counts the aggregates that are open, and they
are no more than the limit. A tree has three levels for each of them and two more, and a value
nests no more deeply than the braces of the source, which are within the limit too. -/
theorem parse_nests_within_maxDepth (limits : Limits) (source : String) :
    (∀ {σ α γ : Type} (builder : Builder σ α γ) (start : σ),
      Descent.program? builder (limits.maxDepth.toNat + 1) (limits.maxDepth.toNat + 1)
          limits.maxDepth.toNat start limits source =
        some (parseWhole builder start limits source) ∧
      ∀ reader state config after, Reader.ofString source limits = .ok reader →
        Visits builder start reader state config after →
          after.depth = config.openCount ∧ config.openCount ≤ limits.maxDepth.toNat) ∧
    (∀ literal, parse .ast limits source = .ok (.ast literal) →
      literal.toTree.height ≤ 3 * limits.maxDepth.toNat + 2) ∧
    (∀ value, parse .array limits source = .ok (.array value) →
      value.depth ≤ braceNesting source ∧ braceNesting source ≤ limits.maxDepth.toNat) := by
  refine ⟨fun builder start => ⟨?_, ?_⟩, ?_, ?_⟩
  · exact program?_eq builder _ _ _ start limits source (Nat.lt_succ_self _) (Nat.lt_succ_self _)
      (Nat.le_refl _)
  · intro reader state config after hreader hvisits
    obtain ⟨-, -, hlimits, hdepth⟩ := Reader.scan_of_ofString hreader
    exact (hvisits.depth_eq_and_le hdepth hlimits).2
  · intro literal h
    exact height_le_of_parse_ast h
  · intro value h
    exact depth_le_of_parse_array h

/-- As many open calls for aggregates as the limit are not enough. Where no aggregate may be
entered, a brace is refused inside of such a call, and a parser that may not make the call is cut
off. -/
theorem program?_eq_none_of_calls :
    let limits : Limits := { maxDepth := 0 }
    let brace : Token :=
      { symbol := .mark .leftCurly, lexeme := "\x7b", start := 0, stop := 1, line := 1 }
    Descent.program? literalBuilder (limits.maxDepth.toNat + 1) limits.maxDepth.toNat
        limits.maxDepth.toNat () limits "\x7b" = none ∧
      parseWhole literalBuilder () limits "\x7b" =
        .error (.grammar { found := brace, fault := .nestingTooDeep 0 }) := by
  intro limits brace
  exact ⟨rfl, by cbv⟩

end Parses

end ArrayLiteral
