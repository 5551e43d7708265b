import Mathlib
import ArrayLiteral.Proofs.Modes

/-!
# Respelled designators

The same indices can be spelled in more than one way: the bounds of a range may be in either
order, and a single index may be written as a range.  A tree keeps the bounds as they are
written.  `Tree.Respells` relates trees that differ in nothing but such spellings, anywhere
in them.

An initializer writes to the indices between the lowest and the highest one that its
designator names, and these are not changed by a spelling (`range?_of_respells`).  So
literals whose trees are respelled stand for the same value and cost the same
(`Literal.materialize_of_respells`), and array mode cannot tell their sources apart
(`parse_array_of_respells`).
-/

namespace ArrayLiteral

/-! ## Spellings -/

/-- The second designator is the first one with its bounds swapped, or with a single index
written as a range, or a range of one index written as a single one. -/
inductive Designator.Respells : Designator → Designator → Prop
  | same (designator : Designator) : Respells designator designator
  | swapped (start stop : UInt64) : Respells (.range start stop) (.range stop start)
  | doubled (index : UInt64) : Respells (.single index) (.range index index)
  | merged (index : UInt64) : Respells (.range index index) (.single index)

/-- The trees are equal but for the spelling of designators. -/
inductive Tree.Respells : Tree → Tree → Prop
  | leaf (value : UInt64) : Respells (.leaf value) (.leaf value)
  | node (tag : Tag) (children children' : List Tree)
      (h : List.Forall₂ Respells children children') :
    Respells (.node tag children) (.node tag children')
  | designator (designator designator' : Designator) (h : designator.Respells designator') :
    Respells designator.toTree designator'.toTree

theorem Designator.first_last_range_self (index : UInt64) :
    (range index index).first = index ∧ (range index index).last = index := by
  constructor
  · apply UInt64.toNat_inj.1
    rw [toNat_first_range, Nat.min_self]
  · apply UInt64.toNat_inj.1
    rw [toNat_last_range, Nat.max_self]

theorem Designator.first_last_of_respells {designator designator' : Designator}
    (h : designator.Respells designator') :
    designator.first = designator'.first ∧ designator.last = designator'.last := by
  cases h with
  | same => exact ⟨rfl, rfl⟩
  | swapped start stop =>
    constructor
    · apply UInt64.toNat_inj.1
      rw [toNat_first_range, toNat_first_range, Nat.min_comm]
    · apply UInt64.toNat_inj.1
      rw [toNat_last_range, toNat_last_range, Nat.max_comm]
  | doubled index =>
    obtain ⟨hfirst, hlast⟩ := first_last_range_self index
    exact ⟨hfirst.symm, hlast.symm⟩
  | merged index => exact first_last_range_self index

/-! ## What respelled trees have in common -/

theorem Designator.toTree_inj {designator designator' : Designator}
    (h : designator.toTree = designator'.toTree) : designator = designator' := by
  cases designator <;> cases designator' <;> cases h <;> rfl

namespace Tree

variable {tag : Tag} {children : List Tree} {tree : Tree}

theorem eq_of_leaf_respells {value : UInt64} (h : (leaf value).Respells tree) :
    tree = leaf value := by
  generalize hleaf : leaf value = other at h
  cases h with
  | leaf => rfl
  | node => cases hleaf
  | designator => cases hleaf

theorem eq_of_leaves_respell {values values' : List UInt64}
    (h : List.Forall₂ Respells (values.map leaf) (values'.map leaf)) : values = values' := by
  induction values generalizing values' with
  | nil =>
    cases values' with
    | nil => rfl
    | cons => cases h
  | cons value values ih =>
    cases values' with
    | nil => cases h
    | cons value' values' =>
      obtain ⟨hvalue, hvalues⟩ := List.forall₂_cons.1 h
      cases eq_of_leaf_respells hvalue
      rw [ih hvalues]

/-- A node that is no designator has the same tag and as many children, respelled in order. -/
theorem children_of_node_respells (htag : tag ≠ .designator)
    (h : (node tag children).Respells tree) :
    ∃ children', tree = node tag children' ∧ List.Forall₂ Respells children children' := by
  generalize hnode : node tag children = other at h
  cases h with
  | leaf => cases hnode
  | node tag' children' others hchildren =>
    cases hnode
    exact ⟨others, rfl, hchildren⟩
  | designator designator designator' =>
    cases hnode
    exact absurd rfl htag

theorem designator_of_respells {designator designator' : Designator}
    (h : designator.toTree.Respells designator'.toTree) : designator.Respells designator' := by
  generalize hthis : designator.toTree = this at h
  generalize hthat : designator'.toTree = that at h
  cases h with
  | leaf => cases hthis
  | node tag children children' hchildren =>
    -- No bound is changed by respelling what is inside the node.
    have hbounds : designator.bounds = designator'.bounds := by
      cases hthis
      cases hthat
      exact eq_of_leaves_respell hchildren
    have hsame : designator.toTree = designator'.toTree := by
      unfold Designator.toTree
      rw [hbounds]
    rw [Designator.toTree_inj hsame]
    exact .same designator'
  | designator first second hrespells =>
    rw [Designator.toTree_inj hthis, Designator.toTree_inj hthat]
    exact hrespells

end Tree

/-! ## Initializers -/

/-- The lowest and the highest index that an initializer names. -/
def Initializer.range? {α : Type} (item : Initializer α) : Option (UInt64 × UInt64) :=
  item.designator?.map fun designator => (designator.first, designator.last)

/-- The initializers name the same indices, if they name any. -/
theorem range?_of_respells {item item' : Initializer Tree}
    (h : item.toTree.Respells item'.toTree) :
    item.range? = item'.range? ∧ item.value.Respells item'.value := by
  have htag : Tag.initializer ≠ .designator := nofun
  obtain ⟨children, hchildren, hrespells⟩ := Tree.children_of_node_respells htag h
  rcases item with ⟨designator?, value⟩
  rcases item' with ⟨designator?', value'⟩
  cases hchildren
  have hlength := hrespells.length_eq
  cases designator? with
  | none =>
    cases designator?' with
    | none => exact ⟨rfl, (List.forall₂_cons.1 hrespells).1⟩
    | some designator' => simp at hlength
  | some designator =>
    cases designator?' with
    | none => simp at hlength
    | some designator' =>
      obtain ⟨hdesignator, hvalue⟩ := List.forall₂_cons.1 hrespells
      obtain ⟨hfirst, hlast⟩ :=
        Designator.first_last_of_respells (Tree.designator_of_respells hdesignator)
      refine ⟨?_, (List.forall₂_cons.1 hvalue).1⟩
      show some (designator.first, designator.last) = some (designator'.first, designator'.last)
      rw [hfirst, hlast]

/-- What an initializer writes, and what that costs, is told by the indices it names and by
its value. -/
theorem place_congr {item item' : Initializer Value} (hrange : item.range? = item'.range?)
    (hvalue : item.value = item'.value) (elements : List Value) :
    place elements item = place elements item' ∧
      placeCost elements item = placeCost elements item' := by
  rcases item with ⟨designator?, value⟩
  rcases item' with ⟨designator?', value'⟩
  cases hvalue
  cases designator? with
  | none =>
    cases designator?' with
    | none => exact ⟨rfl, rfl⟩
    | some designator' => cases hrange
  | some designator =>
    cases designator?' with
    | none => cases hrange
    | some designator' =>
      obtain ⟨hfirst, hlast⟩ := Prod.mk.inj (Option.some.inj hrange)
      simp only [place, placeCost, hfirst, hlast, and_self]

/-- The same of initializers one after the other. -/
theorem placing_congr {items items' : List (Initializer Value)}
    (h : List.Forall₂ (fun item item' => item.range? = item'.range? ∧ item.value = item'.value)
      items items') (elements : List Value) :
    items.foldl place elements = items'.foldl place elements ∧
      placingCost elements items = placingCost elements items' := by
  induction h generalizing elements with
  | nil => exact ⟨rfl, rfl⟩
  | cons hitem hitems ih =>
    obtain ⟨hplace, hcost⟩ := place_congr hitem.1 hitem.2 elements
    rw [List.foldl_cons, List.foldl_cons, placingCost, placingCost, hplace, hcost]
    obtain ⟨hrest, hrestCost⟩ := ih (place elements _)
    exact ⟨hrest, by rw [hrestCost]⟩

/-! ## Literals -/

namespace Literal

/-- The trees of two aggregates are respelled if their initializers are, one by one. -/
theorem items_of_respells {items items' : List (Initializer Literal)}
    (h : (aggregate items).toTree.Respells (aggregate items').toTree) :
    List.Forall₂
      (fun item item' => item.range? = item'.range? ∧ item.value.toTree.Respells item'.value.toTree)
      items items' := by
  have hval : Tag.val ≠ .designator := nofun
  have hinitializers : Tag.initializers ≠ .designator := nofun
  rw [toTree_aggregate, toTree_aggregate] at h
  obtain ⟨children, hchildren, hrespells⟩ := Tree.children_of_node_respells hval h
  cases hchildren
  obtain ⟨children, hchildren, hitems⟩ :=
    Tree.children_of_node_respells hinitializers (List.forall₂_cons.1 hrespells).1
  cases hchildren
  rw [List.forall₂_map_left_iff, List.forall₂_map_right_iff] at hitems
  exact hitems.imp fun item item' hitem => range?_of_respells hitem

theorem values_of_respells {items items' : List (Initializer Literal)}
    (ih : ∀ item ∈ items, ∀ {literal' : Literal}, item.value.toTree.Respells literal'.toTree →
      item.value.materialize = literal'.materialize ∧ item.value.cost = literal'.cost)
    (h : List.Forall₂
      (fun item item' => item.range? = item'.range? ∧ item.value.toTree.Respells item'.value.toTree)
      items items') :
    List.Forall₂ (fun item item' => item.range? = item'.range? ∧ item.value = item'.value)
        (items.map (Initializer.map materialize)) (items'.map (Initializer.map materialize)) ∧
      (items.map fun item => item.value.cost).sum =
        (items'.map fun item => item.value.cost).sum := by
  induction h with
  | nil => exact ⟨.nil, rfl⟩
  | @cons item item' items items' hitem hitems ihitems =>
    obtain ⟨hvalue, hcost⟩ := ih item (List.mem_cons_self ..) hitem.2
    obtain ⟨hvalues, hcosts⟩ := ihitems fun other hmem => ih other (List.mem_cons_of_mem _ hmem)
    constructor
    · exact .cons ⟨hitem.1, hvalue⟩ hvalues
    · rw [List.map_cons, List.map_cons, List.sum_cons, List.sum_cons, hcost, hcosts]

/-- Literals whose trees are respelled stand for the same value, for the same cost. -/
theorem materialize_of_respells {literal literal' : Literal}
    (h : literal.toTree.Respells literal'.toTree) :
    literal.materialize = literal'.materialize ∧ literal.cost = literal'.cost := by
  have hval : Tag.val ≠ .designator := nofun
  induction literal using Literal.induction generalizing literal' with
  | number value =>
    rw [toTree_number] at h
    obtain ⟨children, hchildren, hrespells⟩ := Tree.children_of_node_respells hval h
    cases literal' with
    | number value' =>
      rw [toTree_number] at hchildren
      cases hchildren
      cases Tree.eq_of_leaf_respells (List.forall₂_cons.1 hrespells).1
      exact ⟨rfl, rfl⟩
    | aggregate items' =>
      rw [toTree_aggregate] at hchildren
      cases hchildren
      cases Tree.eq_of_leaf_respells (List.forall₂_cons.1 hrespells).1
  | aggregate items ih =>
    cases literal' with
    | number value' =>
      rw [toTree_aggregate] at h
      obtain ⟨children, hchildren, hrespells⟩ := Tree.children_of_node_respells hval h
      have hinitializers : Tag.initializers ≠ .designator := nofun
      rw [toTree_number] at hchildren
      cases hchildren
      obtain ⟨_, hleaf, -⟩ :=
        Tree.children_of_node_respells hinitializers (List.forall₂_cons.1 hrespells).1
      cases hleaf
    | aggregate items' =>
      obtain ⟨hvalues, hcosts⟩ := values_of_respells ih (items_of_respells h)
      obtain ⟨hplaced, hplacing⟩ := placing_congr hvalues []
      rw [materialize_aggregate, materialize_aggregate, cost_aggregate, cost_aggregate, hplaced,
        hplacing, hcosts]
      exact ⟨rfl, rfl⟩

/-! A literal is respelled from the inside out. -/

theorem val_respells {tree tree' : Tree} (h : tree.Respells tree') :
    (Tree.node .val [tree]).Respells (.node .val [tree']) :=
  .node _ _ _ (.cons h .nil)

theorem number_respells (value : UInt64) :
    (number value).toTree.Respells (number value).toTree := by
  rw [toTree_number]
  exact val_respells (.leaf value)

theorem initializer_respells {designator designator' : Designator} {literal literal' : Literal}
    (hdesignator : designator.Respells designator')
    (hvalue : literal.toTree.Respells literal'.toTree) :
    (Initializer.map toTree ⟨some designator, literal⟩).toTree.Respells
      (Initializer.map toTree ⟨some designator', literal'⟩).toTree :=
  .node _ _ _ (.cons (.designator _ _ hdesignator) (.cons hvalue .nil))

end Literal

/-! ## Array mode -/

section Modes

variable {limits : Limits} {source source' : String} {literal literal' : Literal}

open Parsing

/-- Two sources that ast mode reads as trees that differ in the spelling of designators only
are the same to array mode. It makes the same value of both and writes as many cells for it,
or the limit is too small for both. -/
theorem parse_array_of_respells (h : parse .ast limits source = .ok (.ast literal))
    (h' : parse .ast limits source' = .ok (.ast literal'))
    (hrespells : literal.toTree.Respells literal'.toTree) :
    (∃ value budget,
      parseWhole arrayBuilder (.ofLimit limits.maxArrayLen) limits source = .ok (value, budget) ∧
      parseWhole arrayBuilder (.ofLimit limits.maxArrayLen) limits source' =
        .ok (value, budget) ∧
      parse .array limits source = .ok (.array value) ∧
      parse .array limits source' = .ok (.array value)) ∨
    ∃ found found',
      parse .array limits source =
        .error (.grammar { found, fault := .arrayTooLarge limits.maxArrayLen }) ∧
      parse .array limits source' =
        .error (.grammar { found := found', fault := .arrayTooLarge limits.maxArrayLen }) := by
  have hwhole := parse_ast_eq_ok_iff_parseWhole.1 h
  have hwhole' := parse_ast_eq_ok_iff_parseWhole.1 h'
  obtain ⟨hvalue, hcost⟩ := Literal.materialize_of_respells hrespells
  by_cases hfits : literal.cost ≤ limits.maxArrayLen.toNat
  · left
    have harray := parseWhole_array_of_literal hwhole hfits
    have harray' := parseWhole_array_of_literal hwhole' (hcost ▸ hfits)
    rw [← hvalue, ← hcost] at harray'
    exact ⟨_, _, harray, harray', parse_array_of_parseWhole harray,
      parse_array_of_parseWhole harray'⟩
  · right
    have hover := Nat.lt_of_not_le hfits
    obtain ⟨found, harray⟩ := exists_parseWhole_arrayTooLarge hwhole hover
    obtain ⟨found', harray'⟩ := exists_parseWhole_arrayTooLarge hwhole' (hcost ▸ hover)
    exact ⟨found, found', parse_array_of_parseWhole harray, parse_array_of_parseWhole harray'⟩

/-- A range is turned around and an index becomes a range, in the outer list and inside it. -/
theorem parse_array_of_respells_nested :
    let limits : Limits := { maxArrayLen := 10 }
    let source := "\x7b[2...1]=\x7b[1]=7\x7d,[0]=3\x7d"
    let source' := "\x7b[1...2]=\x7b[1...1]=7\x7d,[0...0]=3\x7d"
    ∃ literal literal',
      parse .ast limits source = .ok (.ast literal) ∧
      parse .ast limits source' = .ok (.ast literal') ∧
      literal.toTree.Respells literal'.toTree ∧
      ((∃ value budget,
        parseWhole arrayBuilder (.ofLimit 10) limits source = .ok (value, budget) ∧
        parseWhole arrayBuilder (.ofLimit 10) limits source' = .ok (value, budget) ∧
        parse .array limits source = .ok (.array value) ∧
        parse .array limits source' = .ok (.array value)) ∨
      ∃ found found',
        parse .array limits source =
          .error (.grammar { found, fault := .arrayTooLarge 10 }) ∧
        parse .array limits source' =
          .error (.grammar { found := found', fault := .arrayTooLarge 10 })) := by
  intro limits source source'
  let inner := Literal.aggregate [⟨some (.single 1), .number 7⟩]
  let inner' := Literal.aggregate [⟨some (.range 1 1), .number 7⟩]
  let literal := Literal.aggregate [⟨some (.range 2 1), inner⟩, ⟨some (.single 0), .number 3⟩]
  let literal' := Literal.aggregate [⟨some (.range 1 2), inner'⟩, ⟨some (.range 0 0), .number 3⟩]
  have hparse : parse .ast limits source = .ok (.ast literal) := by cbv
  have hparse' : parse .ast limits source' = .ok (.ast literal') := by cbv
  have hinner : inner.toTree.Respells inner'.toTree := by
    rw [Literal.toTree_aggregate, Literal.toTree_aggregate]
    apply Literal.val_respells
    apply Tree.Respells.node
    exact .cons (Literal.initializer_respells (.doubled 1) (Literal.number_respells 7)) .nil
  have hrespells : literal.toTree.Respells literal'.toTree := by
    rw [Literal.toTree_aggregate, Literal.toTree_aggregate]
    apply Literal.val_respells
    apply Tree.Respells.node
    apply List.Forall₂.cons
    · exact Literal.initializer_respells (.swapped 2 1) hinner
    · exact .cons (Literal.initializer_respells (.doubled 0) (Literal.number_respells 3)) .nil
  exact ⟨literal, literal', hparse, hparse', hrespells,
    parse_array_of_respells hparse hparse' hrespells⟩

end Modes

end ArrayLiteral
