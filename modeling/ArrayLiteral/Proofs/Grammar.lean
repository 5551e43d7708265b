import ArrayLiteral.Literal

/-!
# The grammar

    val          := NUMBER | "{" initializers "}"
    initializers := initializer ("," initializer)* ","? | ε
    initializer  := target val
    target       := ("[" NUMBER ( "..." NUMBER )? "]" "=")?

A `Derivation` is a derivation of `val`, with a constructor for every way to
derive one.  `Derivation.word` is the sequence of symbols that it derives, and
`Derivation.tree` has one node for every use of a rule.  The grammar is
unambiguous (`word_inj`): a word has one derivation at most.

The two limits of a parse are stated here too.  `Derivation.depth` is the largest
number of braces that are open at once, and `Derivation.bounds` lists the bounds
of all designators.
-/

namespace ArrayLiteral

/-! ## Derivations -/

/-- A derivation of a value: a number, braces around nothing, or braces around
initializers, with a trailing comma or without. -/
inductive Derivation
  | number (value : UInt64)
  | empty
  | list (first : Initializer Derivation) (others : List (Initializer Derivation))
    (trailing : Bool)

namespace Derivation

/-- Replaces every value by what is given for the way to derive it. -/
def fold {β : Type} (onNumber : UInt64 → β) (onEmpty : β)
    (onList : Initializer β → List (Initializer β) → Bool → β) : Derivation → β
  | number value => onNumber value
  | empty => onEmpty
  | list first others trailing =>
    onList { first with value := first.value.fold onNumber onEmpty onList }
      (others.map fun item => { item with value := item.value.fold onNumber onEmpty onList })
      trailing
decreasing_by
  · rcases first with ⟨designator?, value⟩
    simp only [Initializer.mk.sizeOf_spec, Derivation.list.sizeOf_spec]
    omega
  · rename_i hmem
    have := List.sizeOf_lt_of_mem hmem
    rcases item with ⟨designator?, value⟩
    simp only [Initializer.mk.sizeOf_spec, Derivation.list.sizeOf_spec] at *
    omega

section Fold

variable {β : Type} (onNumber : UInt64 → β) (onEmpty : β)
  (onList : Initializer β → List (Initializer β) → Bool → β)

@[simp] theorem fold_number (value : UInt64) :
    (number value).fold onNumber onEmpty onList = onNumber value := by
  rw [fold]

@[simp] theorem fold_empty : empty.fold onNumber onEmpty onList = onEmpty := by
  rw [fold]

@[simp] theorem fold_list (first : Initializer Derivation)
    (others : List (Initializer Derivation)) (trailing : Bool) :
    (list first others trailing).fold onNumber onEmpty onList =
      onList (first.map (fold onNumber onEmpty onList))
        (others.map (Initializer.map (fold onNumber onEmpty onList))) trailing := by
  rw [fold]
  rfl

end Fold

/-- Induction over derivations, with the hypothesis for every initializer. -/
@[elab_as_elim]
theorem induction {motive : Derivation → Prop} (number : ∀ value, motive (.number value))
    (empty : motive .empty)
    (list : ∀ first others trailing, motive first.value →
      (∀ item ∈ others, motive item.value) → motive (.list first others trailing)) :
    ∀ derivation, motive derivation
  | .number value => number value
  | .empty => empty
  | .list first others trailing =>
    list first others trailing (induction number empty list first.value)
      fun item _ => induction number empty list item.value
decreasing_by
  · rcases first with ⟨designator?, value⟩
    simp only [Initializer.mk.sizeOf_spec, Derivation.list.sizeOf_spec]
    omega
  · rename_i hmem
    have := List.sizeOf_lt_of_mem hmem
    rcases item with ⟨designator?, value⟩
    simp only [Initializer.mk.sizeOf_spec, Derivation.list.sizeOf_spec] at *
    omega

/-! ## Words -/

/-- What closes an aggregate, where `mark` is what a trailing comma is read as. -/
def closingWord (mark : Punctuation) : Bool → List Symbol
  | true => [.mark mark, .mark .rightCurly]
  | false => [.mark .rightCurly]

/-- The symbols of an initializer, given those of its value. -/
def initializerWord (item : Initializer (List Symbol)) : List Symbol :=
  targetSymbols item.designator? ++ item.value

/-- The symbols of initializers that follow another one. -/
def othersWord (items : List (Initializer (List Symbol))) : List Symbol :=
  items.flatMap fun item => .mark .comma :: initializerWord item

/-- The symbols that a derivation derives, where `mark` is what a trailing comma
is read as. In the grammar it is a comma like any other. -/
def word (mark : Punctuation) : Derivation → List Symbol :=
  fold (fun value => [.number value]) [.mark .leftCurly, .mark .rightCurly]
    fun first others trailing =>
      .mark .leftCurly :: (initializerWord first ++ othersWord others ++ closingWord mark trailing)

section Word

variable (mark : Punctuation)

@[simp] theorem word_number (value : UInt64) : (number value).word mark = [.number value] :=
  fold_number _ _ _ _

@[simp] theorem word_empty : empty.word mark = [.mark .leftCurly, .mark .rightCurly] :=
  fold_empty _ _ _

@[simp] theorem word_list (first : Initializer Derivation)
    (others : List (Initializer Derivation)) (trailing : Bool) :
    (list first others trailing).word mark =
      .mark .leftCurly :: (initializerWord (first.map (word mark)) ++
        othersWord (others.map (Initializer.map (word mark))) ++ closingWord mark trailing) :=
  fold_list _ _ _ _ _ _

@[simp] theorem othersWord_nil : othersWord [] = [] := rfl

@[simp] theorem othersWord_cons (item : Initializer (List Symbol))
    (items : List (Initializer (List Symbol))) :
    othersWord (item :: items) = .mark .comma :: (initializerWord item ++ othersWord items) :=
  rfl

end Word

/-! ## Trees and literals -/

/-- The node of a designator over its numbers, if there is a designator. -/
def targetNodes : Option Designator → List Tree
  | none => []
  | some (.single index) => [.node .designator [.leaf index]]
  | some (.range start stop) => [.node .designator [.leaf start, .leaf stop]]

/-- The node of an initializer, given that of its value. -/
def initializerNode (item : Initializer Tree) : Tree :=
  .node .initializer (targetNodes item.designator? ++ [item.value])

/-- One node for every use of a rule. A trailing comma has none. -/
def tree : Derivation → Tree :=
  fold (fun value => .node .val [.leaf value]) (.node .val [.node .initializers []])
    fun first others _ => .node .val [.node .initializers ((first :: others).map initializerNode)]

/-- What a derivation says. -/
def literal : Derivation → Literal :=
  fold .number (.aggregate []) fun first others _ => .aggregate (first :: others)

@[simp] theorem literal_number (value : UInt64) : (number value).literal = .number value :=
  fold_number _ _ _ _

@[simp] theorem literal_empty : empty.literal = .aggregate [] :=
  fold_empty _ _ _

@[simp] theorem literal_list (first : Initializer Derivation)
    (others : List (Initializer Derivation)) (trailing : Bool) :
    (list first others trailing).literal =
      .aggregate ((first :: others).map (Initializer.map literal)) :=
  fold_list _ _ _ _ _ _

@[simp] theorem tree_number (value : UInt64) :
    (number value).tree = .node .val [.leaf value] :=
  fold_number _ _ _ _

@[simp] theorem tree_empty : empty.tree = .node .val [.node .initializers []] :=
  fold_empty _ _ _

@[simp] theorem tree_list (first : Initializer Derivation)
    (others : List (Initializer Derivation)) (trailing : Bool) :
    (list first others trailing).tree =
      .node .val [.node .initializers
        ((first :: others).map fun item => initializerNode (item.map tree))] := by
  rw [tree, fold_list, List.map_cons, List.map_cons, List.map_map]
  rfl

theorem toTree_eq_initializerNode (item : Initializer Tree) :
    item.toTree = initializerNode item := by
  rcases item with ⟨_ | ⟨index⟩ | ⟨start, stop⟩, value⟩ <;> rfl

/-- The tree of a literal has the nodes of the derivation. -/
theorem toTree_literal (derivation : Derivation) :
    derivation.literal.toTree = derivation.tree := by
  induction derivation using Derivation.induction with
  | number value => rw [literal_number, Literal.toTree_number, tree_number]
  | empty =>
    rw [literal_empty, Literal.toTree_aggregate, tree_empty]
    rfl
  | list first others trailing ihfirst ihothers =>
    have hitems : ∀ item ∈ first :: others,
        ((item.map literal).map Literal.toTree).toTree = initializerNode (item.map tree) := by
      intro item hmem
      have hvalue : item.value.literal.toTree = item.value.tree := by
        rcases List.mem_cons.1 hmem with rfl | hmem
        · exact ihfirst
        · exact ihothers item hmem
      rw [toTree_eq_initializerNode]
      simp only [Initializer.map, hvalue]
    rw [literal_list, Literal.toTree_aggregate, tree_list, List.map_map]
    rw [← List.map_congr_left hitems]
    rfl

/-! ## Limits -/

/-- The largest number of braces that are open at once. -/
def depth : Derivation → Nat :=
  fold (fun _ => 0) 1 fun first others _ =>
    1 + (first :: others).foldr (fun item deepest => max item.value deepest) 0

@[simp] theorem depth_number (value : UInt64) : (number value).depth = 0 :=
  fold_number _ _ _ _

@[simp] theorem depth_empty : empty.depth = 1 :=
  fold_empty _ _ _

/-- The bounds of all designators. -/
def bounds : Derivation → List UInt64 :=
  fold (fun _ => []) [] fun first others _ =>
    (first :: others).flatMap fun item => targetBounds item.designator? ++ item.value

/-- Inside `outer` open braces a derivation keeps to the limits. -/
def Fits (limits : Limits) (outer : Nat) (derivation : Derivation) : Prop :=
  outer + derivation.depth ≤ limits.maxDepth.toNat ∧
    ∀ bound ∈ derivation.bounds, bound.toNat < limits.maxArrayLen.toNat

section Fits

variable {limits : Limits} {outer : Nat}

theorem fits_number {value : UInt64} :
    (number value).Fits limits outer ↔ outer ≤ limits.maxDepth.toNat := by
  have hbounds : (number value).bounds = [] := fold_number _ _ _ _
  unfold Fits
  rw [depth_number, hbounds]
  exact ⟨fun h => h.1, fun h => ⟨h, nofun⟩⟩

theorem fits_empty : empty.Fits limits outer ↔ outer < limits.maxDepth.toNat := by
  have hbounds : empty.bounds = [] := fold_empty _ _ _
  unfold Fits
  rw [depth_empty, hbounds]
  exact ⟨fun h => h.1, fun h => ⟨h, nofun⟩⟩

private theorem add_deepest_le_iff {items : List (Initializer Derivation)} {limit : Nat} :
    outer + (items.map (Initializer.map depth)).foldr
        (fun item deepest => max item.value deepest) 0 ≤ limit ↔
      outer ≤ limit ∧ ∀ item ∈ items, outer + item.value.depth ≤ limit := by
  induction items with
  | nil => simp
  | cons item items ih =>
    have hmax : ∀ deepest, outer + max item.value.depth deepest ≤ limit ↔
        outer + item.value.depth ≤ limit ∧ outer + deepest ≤ limit := by
      intro deepest
      omega
    rw [List.map_cons, List.foldr_cons, List.forall_mem_cons]
    show outer + max item.value.depth _ ≤ limit ↔ _
    rw [hmax, ih]
    exact ⟨fun h => ⟨h.2.1, h.1, h.2.2⟩, fun h => ⟨h.2.1, h.1, h.2.2⟩⟩

/-- There is room for a list if there is room for its braces, and for its values inside. -/
theorem add_depth_list_le_iff {first : Initializer Derivation}
    {others : List (Initializer Derivation)} {trailing : Bool} {limit : Nat} :
    outer + (list first others trailing).depth ≤ limit ↔
      outer < limit ∧ ∀ item ∈ first :: others, outer + 1 + item.value.depth ≤ limit := by
  have hdepth : (list first others trailing).depth =
      1 + ((first :: others).map (Initializer.map depth)).foldr
        (fun item deepest => max item.value deepest) 0 :=
    fold_list _ _ _ _ _ _
  rw [hdepth, ← Nat.add_assoc]
  exact add_deepest_le_iff

/-- The bounds in a list are those of its initializers. -/
theorem forall_bounds_list {first : Initializer Derivation}
    {others : List (Initializer Derivation)} {trailing : Bool} {p : UInt64 → Prop} :
    (∀ bound ∈ (list first others trailing).bounds, p bound) ↔
      ∀ item ∈ first :: others, (∀ bound ∈ targetBounds item.designator?, p bound) ∧
        ∀ bound ∈ item.value.bounds, p bound := by
  have hbounds : (list first others trailing).bounds =
      ((first :: others).map (Initializer.map bounds)).flatMap
        fun item => targetBounds item.designator? ++ item.value :=
    fold_list _ _ _ _ _ _
  rw [hbounds, List.flatMap_map]
  simp only [List.mem_flatMap, List.mem_append]
  constructor
  · intro h item hmem
    exact ⟨fun bound hbound => h bound ⟨item, hmem, .inl hbound⟩,
      fun bound hbound => h bound ⟨item, hmem, .inr hbound⟩⟩
  · rintro h bound ⟨item, hmem, hbound⟩
    rcases hbound with hbound | hbound
    · exact (h item hmem).1 bound hbound
    · exact (h item hmem).2 bound hbound

/-- A list keeps to the limits if there is room for its braces, and its
initializers keep to the limits inside. -/
theorem fits_list {first : Initializer Derivation} {others : List (Initializer Derivation)}
    {trailing : Bool} :
    (list first others trailing).Fits limits outer ↔
      outer < limits.maxDepth.toNat ∧ ∀ item ∈ first :: others,
        TargetWithin limits item.designator? ∧ item.value.Fits limits (outer + 1) := by
  unfold Fits
  rw [add_depth_list_le_iff, forall_bounds_list]
  constructor
  · intro h
    obtain ⟨⟨hroom, hdeep⟩, hbelow⟩ := h
    exact ⟨hroom, fun item hmem => ⟨(hbelow item hmem).1, hdeep item hmem, (hbelow item hmem).2⟩⟩
  · intro h
    obtain ⟨hroom, hitems⟩ := h
    exact ⟨⟨hroom, fun item hmem => (hitems item hmem).2.1⟩,
      fun item hmem => ⟨(hitems item hmem).1, (hitems item hmem).2.2⟩⟩

end Fits

/-! ## The grammar is unambiguous -/

/-- A value starts with a number or a brace. -/
theorem exists_word_eq_cons (mark : Punctuation) (derivation : Derivation) :
    ∃ symbol rest, derivation.word mark = symbol :: rest ∧
      symbol ≠ .mark .leftSquare ∧ symbol ≠ .mark .rightCurly := by
  cases derivation with
  | number value => exact ⟨_, _, word_number mark value, nofun, nofun⟩
  | empty => exact ⟨_, _, word_empty mark, nofun, nofun⟩
  | list first others trailing => exact ⟨_, _, word_list mark first others trailing, nofun, nofun⟩

/-- An initializer does not start with a closing brace. -/
theorem exists_initializerWord_eq_cons (mark : Punctuation) (item : Initializer Derivation) :
    ∃ symbol rest, initializerWord (item.map (word mark)) = symbol :: rest ∧
      symbol ≠ .mark .rightCurly := by
  rcases item with ⟨designator?, value⟩
  cases designator? with
  | none =>
    obtain ⟨symbol, rest, hword, -, hbrace⟩ := exists_word_eq_cons mark value
    exact ⟨symbol, rest, hword, hbrace⟩
  | some designator => cases designator <;> exact ⟨.mark .leftSquare, _, rfl, nofun⟩

/-- No other derivation derives the same word, and the end of the word can be told
whatever follows. -/
def Unambiguous (derivation : Derivation) : Prop :=
  ∀ (derivation' : Derivation) (rest rest' : List Symbol),
    derivation.word .comma ++ rest = derivation'.word .comma ++ rest' →
      derivation = derivation' ∧ rest = rest'

section Unambiguous

variable {rest rest' : List Symbol}

theorem targetSymbols_append_inj {designator? designator?' : Option Designator}
    {value value' : Derivation}
    (h : targetSymbols designator? ++ (value.word .comma ++ rest) =
      targetSymbols designator?' ++ (value'.word .comma ++ rest')) :
    designator? = designator?' ∧ value.word .comma ++ rest = value'.word .comma ++ rest' := by
  obtain ⟨symbol, behind, hword, hsquare, -⟩ := exists_word_eq_cons .comma value
  obtain ⟨symbol', behind', hword', hsquare', -⟩ := exists_word_eq_cons .comma value'
  rw [hword, hword'] at h ⊢
  rcases designator? with _ | ⟨index⟩ | ⟨start, stop⟩ <;>
    rcases designator?' with _ | ⟨index'⟩ | ⟨start', stop'⟩ <;>
    simp_all [targetSymbols, Designator.symbols]

theorem initializerWord_append_inj {item item' : Initializer Derivation}
    (ih : item.value.Unambiguous)
    (h : initializerWord (item.map (word .comma)) ++ rest =
      initializerWord (item'.map (word .comma)) ++ rest') :
    item = item' ∧ rest = rest' := by
  rcases item with ⟨designator?, value⟩
  rcases item' with ⟨designator?', value'⟩
  simp only [initializerWord, Initializer.map, List.append_assoc] at h
  obtain ⟨rfl, hvalue⟩ := targetSymbols_append_inj h
  obtain ⟨hsame, hrest⟩ := ih _ _ _ hvalue
  exact ⟨congrArg (Initializer.mk designator?) hsame, hrest⟩

/-- What follows the first initializer is told by the symbol behind each comma. -/
theorem othersWord_append_inj {others others' : List (Initializer Derivation)}
    {trailing trailing' : Bool}
    (ih : ∀ item ∈ others, item.value.Unambiguous)
    (h : othersWord (others.map (Initializer.map (word .comma))) ++
        (closingWord .comma trailing ++ rest) =
      othersWord (others'.map (Initializer.map (word .comma))) ++
        (closingWord .comma trailing' ++ rest')) :
    others = others' ∧ trailing = trailing' ∧ rest = rest' := by
  induction others generalizing others' with
  | nil =>
    cases others' with
    | nil => cases trailing <;> cases trailing' <;> simp_all [closingWord]
    | cons item' others' =>
      obtain ⟨symbol, behind, hword, hbrace⟩ := exists_initializerWord_eq_cons .comma item'
      cases trailing <;> simp_all [closingWord]
  | cons item others ihothers =>
    obtain ⟨symbol, behind, hword, hbrace⟩ := exists_initializerWord_eq_cons .comma item
    cases others' with
    | nil => cases trailing' <;> simp_all [closingWord]
    | cons item' others' =>
      simp only [List.map_cons, othersWord_cons, List.cons_append, List.cons.injEq, true_and,
        List.append_assoc] at h
      obtain ⟨rfl, hothers⟩ := initializerWord_append_inj (ih item (List.mem_cons_self ..)) h
      obtain ⟨rfl, htrailing, hrest⟩ :=
        ihothers (fun other hmem => ih other (List.mem_cons_of_mem _ hmem)) hothers
      exact ⟨rfl, htrailing, hrest⟩

theorem unambiguous (derivation : Derivation) : derivation.Unambiguous := by
  induction derivation using Derivation.induction with
  | number value =>
    intro derivation' rest rest' h
    cases derivation' <;> simp_all
  | empty =>
    intro derivation' rest rest' h
    cases derivation' with
    | list first' others' trailing' =>
      obtain ⟨symbol, behind, hword, hbrace⟩ := exists_initializerWord_eq_cons .comma first'
      simp_all
    | _ => simp_all
  | list first others trailing ihfirst ihothers =>
    intro derivation' rest rest' h
    obtain ⟨symbol, behind, hword, hbrace⟩ := exists_initializerWord_eq_cons .comma first
    cases derivation' with
    | list first' others' trailing' =>
      simp only [word_list, List.cons_append, List.cons.injEq, true_and, List.append_assoc] at h
      obtain ⟨rfl, hothers⟩ := initializerWord_append_inj ihfirst h
      obtain ⟨rfl, rfl, hrest⟩ := othersWord_append_inj ihothers hothers
      exact ⟨rfl, hrest⟩
    | _ => simp_all

/-- A word has one derivation at most. -/
theorem word_inj {derivation derivation' : Derivation}
    (h : derivation.word .comma = derivation'.word .comma) : derivation = derivation' :=
  (derivation.unambiguous derivation' [] [] (by rw [h])).1

end Unambiguous

end Derivation

end ArrayLiteral
