import ArrayLiteral.Proofs.Descent

/-!
# Recursion on the pieces that are pending

`Descent.paced` is the parser with one function for each rule of the grammar, where a bound on
the pieces is handed from call to call: behind a brace it is one less, and a loop has as many
rounds.  It is cut off when the bound is used up, and yet it is the parser, from every reader
where no more pieces are pending (`paced_eq`).  That is what it means that loop and recursion
are well-founded on them.

The reason is that every value consumes a token (`spends_paced`), and so does every round of
the loop that is not the last (`round_cases`).  None of them is the end of the input.  Both
hold for all bounds, and so for the calls inside of a call.
-/

namespace ArrayLiteral

open Parsing

namespace Descent

section Paced

variable {σ α γ : Type} (builder : Builder σ α γ)

/-- A round of the loop that reads initializers, where `again` is the rest of the loop. -/
def round (value : Descent σ α) (again : γ → Descent σ γ) (aggregate : γ) : Descent σ γ := do
  let aggregate ← initializer builder value aggregate
  separator again aggregate

/-- Reads a value, where so many pieces are pending at most. -/
def paced : (pieces : Nat) → Descent σ α
  | 0 => numberOr builder cutOff
  | pieces + 1 =>
    numberOr builder <| aggregate <| braced builder <|
      itemsWithin builder (pieces + 1) (paced pieces)

end Paced

end Descent

/-! ## What a call consumes -/

/-- If a call from this reader succeeds, it consumes at least so many tokens. -/
inductive Spends {σ β : Type} (least : Nat) (reader : Reader) :
    EStateM.Result (Option Error) (σ × Reader) β → Prop
  | ok (value : β) (state : σ) (after : Reader) (h : Consumes least reader after) :
    Spends least reader (.ok value (state, after))
  | error (error? : Option Error) (place : σ × Reader) : Spends least reader (.error error? place)

namespace Spends

variable {σ β β' : Type} {least more : Nat} {state : σ} {reader middle : Reader}

theorem consumes {value : β} {after : Reader}
    (h : Spends least reader (.ok value (state, after))) : Consumes least reader after := by
  cases h with
  | ok _ _ _ h => exact h

theorem weaken {result : EStateM.Result (Option Error) (σ × Reader) β}
    (h : Spends least reader result) (hle : more ≤ least) : Spends more reader result := by
  cases h with
  | ok value state after h => exact .ok value state after (h.weaken hle)
  | error error? place => exact .error error? place

theorem after_consumes (hfirst : Consumes least reader middle)
    {result : EStateM.Result (Option Error) (σ × Reader) β} (h : Spends more middle result) :
    Spends (least + more) reader result := by
  cases h with
  | ok value state after h => exact .ok value state after (hfirst.trans h)
  | error error? place => exact .error error? place

theorem bind_add {first : Descent σ β} {next : β → Descent σ β'}
    (hfirst : Spends least reader (first (state, reader)))
    (hnext : ∀ value state middle, Spends more middle (next value (state, middle))) :
    Spends (least + more) reader ((first >>= next) (state, reader)) := by
  show Spends _ reader (EStateM.bind first next (state, reader))
  unfold EStateM.bind
  generalize first (state, reader) = result at hfirst ⊢
  cases hfirst with
  | ok value state middle h => exact after_consumes h (hnext value state middle)
  | error error? place => exact .error error? place

/-- The first of two calls consumes enough. -/
theorem bind {first : Descent σ β} {next : β → Descent σ β'}
    (hfirst : Spends least reader (first (state, reader)))
    (hnext : ∀ value state middle, Spends 0 middle (next value (state, middle))) :
    Spends least reader ((first >>= next) (state, reader)) :=
  bind_add hfirst hnext

/-- The second of two calls consumes enough. -/
theorem bind_right {first : Descent σ β} {next : β → Descent σ β'}
    (hfirst : Spends 0 reader (first (state, reader)))
    (hnext : ∀ value state middle, Spends least middle (next value (state, middle))) :
    Spends least reader ((first >>= next) (state, reader)) := by
  have hboth := bind_add hfirst hnext
  rwa [Nat.zero_add] at hboth

theorem pure (value : β) : Spends 0 reader ((Pure.pure value : Descent σ β) (state, reader)) :=
  .ok value state reader (.refl reader)

end Spends

namespace Descent

open Reading

section Rules

variable {σ α β γ : Type} {builder : Builder σ α γ} {least : Nat} {state : σ} {reader : Reader}

theorem read_lookahead_bind (next : Token → Descent σ β) :
    (read lookahead >>= next) (state, reader) = next reader.lookahead (state, reader) :=
  rfl

theorem read_of_ok {reading : Reading β} {value : β} {after : Reader}
    (h : reading reader = .ok value after) :
    read reading (state, reader) = .ok value (state, after) := by
  unfold read
  dsimp only
  rw [h]

theorem read_of_error {reading : Reading β} {error : Error} {after : Reader}
    (h : reading reader = .error error after) :
    read reading (state, reader) = .error (some error) (state, after) := by
  unfold read
  dsimp only
  rw [h]

theorem spends_read {reading : Reading β} (h : Metered least reader (reading reader)) :
    Spends least reader (read reading (state, reader)) := by
  unfold read
  dsimp only
  generalize reading reader = result at h ⊢
  cases h with
  | ok value after h => exact .ok value state after h
  | error error after => exact .error _ _

theorem spends_add (frame : Frame γ) (value : α) :
    Spends 0 reader (add builder frame value (state, reader)) := by
  unfold add
  dsimp only
  cases builder.add (frame.item value) (state, frame.aggregate) with
  | ok _ added => exact .ok _ _ reader (.refl reader)
  | error refusal left => exact .error _ _

/-! ### Rounds of the loop -/

theorem spends_initializer {value : Descent σ α}
    (hvalue : ∀ state reader, Spends 1 reader (value (state, reader))) (aggregate : γ) :
    Spends 1 reader (initializer builder value aggregate (state, reader)) := by
  unfold initializer
  rw [read_lookahead_bind]
  have htargeted : Spends 0 reader (read readTarget (state, reader)) :=
    spends_read (metered_readTarget reader)
  exact htargeted.bind_right fun designator? state targeted =>
    (hvalue state targeted).bind fun built _ _ => spends_add _ built

/-- Behind an initializer the loop goes on behind a token that was consumed, or it does not
go on at all. -/
theorem separator_cases (aggregate : γ) (state : σ) (reader : Reader) :
    (∃ after, Consumes 1 reader after ∧
      ∀ again, separator again aggregate (state, reader) = again aggregate (state, after)) ∨
    (∃ result, Spends 0 reader result ∧
      ∀ again, separator again aggregate (state, reader) = result) := by
  unfold separator
  dsimp only [read_lookahead_bind]
  cases hsymbol : reader.lookahead.symbol with
  | mark punctuation =>
    have hmore : reader.lookahead.isEof = false := Token.isEof_of_symbol hsymbol (by nofun)
    have hmetered : Metered 1 reader (consume reader) := metered_consume hmore
    cases punctuation with
    | comma =>
      cases hconsume : consume reader with
      | ok token after =>
        rw [hconsume] at hmetered
        exact .inl ⟨after, hmetered.consumes, fun again => bind_of_ok (read_of_ok hconsume)⟩
      | error error after =>
        exact .inr ⟨_, .error _ _, fun again => bind_of_error (read_of_error hconsume)⟩
    | endComma =>
      have hlast : Spends 1 reader ((read consume >>= fun _ => Pure.pure aggregate :
          Descent σ γ) (state, reader)) := (spends_read hmetered).bind fun _ _ _ => .pure aggregate
      exact .inr ⟨_, hlast.weaken (Nat.zero_le 1), fun _ => rfl⟩
    | rightCurly => exact .inr ⟨_, .pure aggregate, fun _ => rfl⟩
    | leftCurly => exact .inr ⟨_, .error _ _, fun _ => rfl⟩
    | leftSquare => exact .inr ⟨_, .error _ _, fun _ => rfl⟩
    | _ => exact .inr ⟨_, .error _ _, fun _ => rfl⟩
  | number number => exact .inr ⟨_, .error _ _, fun _ => rfl⟩
  | eof => exact .inr ⟨_, .error _ _, fun _ => rfl⟩

theorem initializers_succ (value : Descent σ α) (rounds : Nat) :
    initializers builder value (rounds + 1) =
      round builder value (initializers builder value rounds) :=
  rfl

/-- A round of the loop that goes on has consumed a value and the comma behind it. -/
theorem round_cases {value : Descent σ α}
    (hvalue : ∀ state reader, Spends 1 reader (value (state, reader))) (aggregate : γ)
    (state : σ) (reader : Reader) :
    (∃ aggregate' state' after, Consumes 2 reader after ∧
      ∀ again, round builder value again aggregate (state, reader) =
        again aggregate' (state', after)) ∨
    (∃ result, Spends 1 reader result ∧
      ∀ again, round builder value again aggregate (state, reader) = result) := by
  have hspends : Spends 1 reader (initializer builder value aggregate (state, reader)) :=
    spends_initializer hvalue aggregate
  cases hfirst : initializer builder value aggregate (state, reader) with
  | error error? place => exact .inr ⟨_, .error _ _, fun again => bind_of_error hfirst⟩
  | ok aggregate' place =>
    obtain ⟨state', middle⟩ := place
    rw [hfirst] at hspends
    obtain ⟨after, hcomma, hagain⟩ | ⟨result, hresult, hend⟩ :=
      separator_cases aggregate' state' middle
    · exact .inl ⟨aggregate', state', after, hspends.consumes.trans hcomma,
        fun again => (bind_of_ok hfirst).trans (hagain again)⟩
    · exact .inr ⟨result, .after_consumes hspends.consumes hresult,
        fun again => (bind_of_ok hfirst).trans (hend again)⟩

/-! ### Values -/

section Values

variable {value : Descent σ α}

theorem spends_initializers (hvalue : ∀ state reader, Spends 1 reader (value (state, reader)))
    (rounds : Nat) (aggregate : γ) (state : σ) (reader : Reader) :
    Spends 1 reader (initializers builder value rounds aggregate (state, reader)) := by
  induction rounds generalizing aggregate state reader with
  | zero => exact .error _ _
  | succ rounds ih =>
    rw [initializers_succ]
    obtain ⟨aggregate', state', after, hround, hagain⟩ | ⟨result, hresult, hend⟩ :=
      round_cases hvalue aggregate state reader
    · rw [hagain]
      exact (Spends.after_consumes hround (ih aggregate' state' after)).weaken (by omega)
    · rw [hend]
      exact hresult

theorem spends_itemsWithin (hvalue : ∀ state reader, Spends 1 reader (value (state, reader)))
    (rounds : Nat) (state : σ) (reader : Reader) :
    Spends 0 reader (itemsWithin builder rounds value (state, reader)) := by
  show Spends 0 reader ((if decide (reader.lookahead.kind = .mark .rightCurly) then _ else _ :
    Descent σ γ) (state, reader))
  split
  · exact .pure _
  · exact (spends_initializers hvalue rounds _ _ _).weaken (Nat.zero_le 1)

theorem spends_braced {inside : Descent σ γ}
    (hinside : ∀ state reader, Spends 0 reader (inside (state, reader))) (state : σ)
    (reader : Reader) : Spends 1 reader (braced builder inside (state, reader)) := by
  have hopening : Spends 1 reader (read (require (.mark .leftCurly)) (state, reader)) :=
    spends_read (metered_require (by nofun))
  refine hopening.bind fun _ state opened => ?_
  refine (hinside state opened).bind_right fun _ state filled => ?_
  have hclosing : Spends 1 filled (read (require (.mark .rightCurly)) (state, filled)) :=
    spends_read (metered_require (by nofun))
  refine (hclosing.weaken (Nat.zero_le 1)).bind fun _ state closed => ?_
  exact (spends_read metered_leaveAggregate).bind fun _ _ _ => .pure _

theorem spends_aggregate {body : Descent σ α}
    (hbody : ∀ state reader, Spends 1 reader (body (state, reader))) (state : σ)
    (reader : Reader) : Spends 1 reader (aggregate body (state, reader)) :=
  (spends_read metered_enterAggregate).bind_right fun _ => hbody

theorem spends_numberOr {call : Descent σ α}
    (hcall : ∀ state reader, Spends 1 reader (call (state, reader))) (state : σ)
    (reader : Reader) : Spends 1 reader (numberOr builder call (state, reader)) := by
  unfold numberOr
  rw [read_lookahead_bind]
  cases hsymbol : reader.lookahead.symbol with
  | number number =>
    have hmore : reader.lookahead.isEof = false := Token.isEof_of_symbol hsymbol (by nofun)
    exact (spends_read (metered_consume hmore)).bind fun _ _ _ => .pure _
  | mark punctuation =>
    cases punctuation with
    | leftCurly => exact hcall state reader
    | _ => exact spends_read (metered_expected _)
  | eof => exact spends_read (metered_expected _)

/-- A value is made of one token at least, however deep the call is. -/
theorem spends_paced (pieces : Nat) (state : σ) (reader : Reader) :
    Spends 1 reader (paced builder pieces (state, reader)) := by
  induction pieces generalizing state reader with
  | zero => exact spends_numberOr (fun _ _ => .error _ _) state reader
  | succ pieces ih =>
    have hitems : ∀ state reader, Spends 0 reader
        (itemsWithin builder (pieces + 1) (paced builder pieces) (state, reader)) :=
      spends_itemsWithin ih (pieces + 1)
    exact spends_numberOr (spends_aggregate (spends_braced hitems)) state reader

end Values

end Rules

end Descent

namespace Parsing

variable {σ α γ : Type}

/-! ## The recursion and the machine -/

/-- No more pieces are pending later. -/
theorem persists_pending_le (pieces : Nat) : Persists fun reader => reader.pending ≤ pieces :=
  fun _ _ hkept hle => Nat.le_trans hkept.pending_le hle

/-- A call that is handed a bound on the pieces that are pending is not cut off. -/
theorem unrolls_paced (builder : Builder σ α γ) (pieces : Nat) (enclosing : List (Frame γ)) :
    UnrollsValue builder (fun reader => reader.pending ≤ pieces) enclosing
      (Descent.paced builder pieces) := by
  induction pieces generalizing enclosing with
  | zero =>
    intro state reader hopen hpending
    refine unrolls_numberOr hopen (fun hmore _ => ?_) rfl
    rw [Reader.pending_of_more hmore] at hpending
    exact absurd hpending (Nat.not_succ_le_zero _)
  | succ pieces ih =>
    intro state reader hopen hpending
    refine unrolls_numberOr hopen (fun _ hrest => ?_) rfl
    refine unrolls_aggregate hopen (fun _ hrest => ?_) hrest
    have hdeeper : ({ reader with depth := reader.depth + 1 } : Reader).depth =
        enclosing.length + 1 := congrArg (· + 1) hopen
    refine (unrolls_braced hdeeper (fun opened hkept hless hitems => ?_) hrest).imp
      fun built state' after hlast => ?_
    · -- The brace was one of the pieces, so the rest of them is enough for what is inside.
      have hinside : opened.pending ≤ pieces :=
        Nat.le_of_lt_succ (Nat.lt_of_lt_of_le hless hpending)
      exact unrolls_itemsWithin (persists_pending_le pieces) (fun frame => ih (frame :: enclosing))
        (pieces + 1) (hkept.depth_eq.trans hdeeper) hinside (Nat.lt_succ_of_le hinside) hitems
    · exact ⟨hlast.depth_eq, hlast.limits_eq, hlast.pending_le, hlast.outcome_eq⟩

/-- How a run ended, as the result of a call. -/
def Outcome.toDescent (outcome : Outcome σ α) : EStateM.Result (Option Error) (σ × Reader) α :=
  match outcome.result with
  | .ok value => .ok value (outcome.state, outcome.reader)
  | .error error => .error (some error) (outcome.state, outcome.reader)

/-- From a reader without open aggregates the bounded recursion is the parser, with its
result, its state and the place where it stops. -/
theorem paced_eq (builder : Builder σ α γ) {pieces : Nat} (state : σ) {reader : Reader}
    (hdepth : reader.depth = 0) (hpieces : reader.pending ≤ pieces) :
    Descent.paced builder pieces (state, reader) = (parseValue builder state reader).toDescent := by
  have hunrolls : Unrolls (parseValue builder state reader) _
      (Descent.paced builder pieces (state, reader)) :=
    unrolls_paced builder pieces [] state reader hdepth hpieces
  change Unrolls _ (Completed builder [] (parseValue builder state reader) reader) _ at hunrolls
  generalize parseValue builder state reader = outcome at hunrolls ⊢
  generalize Descent.paced builder pieces (state, reader) = result at hunrolls ⊢
  cases hunrolls with
  | ok built state' after h =>
    rw [h.outcome_eq, run_complete]
    rfl
  | error error state' after houtcome =>
    rw [houtcome]
    rfl

end Parsing

end ArrayLiteral
