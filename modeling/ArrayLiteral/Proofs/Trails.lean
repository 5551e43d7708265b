import ArrayLiteral.Proofs.Pulls
import ArrayLiteral.Proofs.Runs

/-!
# The path of a run

The steps of a run go along paths, and where one of them ends the next one starts.  A value that
is complete is handed over only inside an aggregate, and then the reader is in front of what
follows an initializer.  So a whole run goes along one path (`ran`), and ends with a value, at
a halt or with a refusal.

A refusal points at the first token of an initializer.  It is known where this token comes from:
it was pulled right behind an opening brace or a comma (`pull_of_mem_handovers`).
-/

namespace ArrayLiteral

/-- All tokens that a reader has got, the consumed ones first. -/
def Reader.pulled (reader : Reader) : List Token :=
  reader.consumed.reverse ++ [reader.lookahead]

theorem Reader.lookahead_mem_pulled (reader : Reader) : reader.lookahead ∈ reader.pulled :=
  List.mem_append_right _ (List.mem_singleton.2 rfl)

namespace Parsing

open Reading

/-! ## Where initializers start -/

/-- The token comes right behind an opening brace or a comma. -/
def StartsIn (tokens : List Token) (first : Token) : Prop :=
  ∃ before mark rest, tokens = before ++ mark :: first :: rest ∧
    (mark.symbol = .mark .leftCurly ∨ mark.symbol = .mark .comma)

section Pulled

variable {stage last : Stage} {reader after : Reader} {tokens : List Token} {first : Token}

theorem StartsIn.append (h : StartsIn tokens first) (more : List Token) :
    StartsIn (tokens ++ more) first := by
  obtain ⟨before, mark, rest, rfl, hmark⟩ := h
  exact ⟨before, mark, rest ++ more, by rw [List.append_assoc]; rfl, hmark⟩

theorem StartsIn.mem (h : StartsIn tokens first) : first ∈ tokens := by
  obtain ⟨before, mark, rest, rfl, -⟩ := h
  exact List.mem_append_right _ (List.mem_cons_of_mem _ (List.mem_cons_self ..))

theorem Path.pulled_eq (h : Path stage reader tokens last after) :
    after.pulled = reader.consumed.reverse ++ (tokens ++ [after.lookahead]) := by
  rw [Reader.pulled, h.passes.consumed, List.reverse_append, List.reverse_reverse,
    List.append_assoc]

/-- The tokens that a reader has got are kept, and more may come. -/
theorem Path.exists_pulled_eq (h : Path stage reader tokens last after) :
    ∃ more, after.pulled = reader.pulled ++ more := by
  obtain ⟨more, hmore⟩ := h.exists_eq_lookahead_cons
  refine ⟨more, ?_⟩
  rw [h.pulled_eq, hmore, Reader.pulled, List.append_assoc]
  rfl

theorem Path.startsIn (h : Path stage reader tokens last after)
    (hstarts : StartsIn reader.pulled first) : StartsIn after.pulled first := by
  obtain ⟨more, hmore⟩ := h.exists_pulled_eq
  rw [hmore]
  exact hstarts.append more

end Pulled

section Yields

variable {source behind : Cursor} {stage last : Stage} {reader after : Reader}
  {tokens : List Token} {first : Token}

/-- What is consumed was pulled. -/
theorem Path.yields (h : Path stage reader tokens last after)
    (hyields : source.Yields reader.pulled reader.cursor) :
    source.Yields after.pulled after.cursor := by
  induction h with
  | refl => exact hyields
  | skip _ _ ih => exact ih hyields
  | take h _ ih =>
    apply ih
    rw [Reader.pulled, h.consumed_eq, List.reverse_cons]
    exact hyields.snoc h.pull_eq

theorem StartsIn.exists_pull (h : StartsIn tokens first) (hyields : source.Yields tokens behind) :
    ∃ earlier mark, source.pull earlier = .ok mark ∧
      (mark.symbol = .mark .leftCurly ∨ mark.symbol = .mark .comma) ∧
      source.pull (earlier + 1) = .ok first := by
  obtain ⟨before, mark, rest, rfl, hmark⟩ := h
  exact ⟨before.length, mark, hyields.pull_eq _ _ (by simp), hmark,
    hyields.pull_eq _ _ (by simp)⟩

end Yields

section Frames

variable {σ α γ : Type} {builder : Builder σ α γ} {config config' : Config α γ}
  {reader after : Reader} {tokens : List Token}

/-- The initializers that are being read start with tokens that the reader has got. -/
def StartsKept (enclosing : List (Frame γ)) (reader : Reader) : Prop :=
  ∀ frame ∈ enclosing, StartsIn reader.pulled frame.first

/-- A move keeps what is around it, or starts one more initializer. -/
theorem Move.enclosing_cases {limits : Limits} {depth : Nat} {symbols : List Symbol}
    (h : Move builder limits depth config symbols config') :
    config'.enclosing = config.enclosing ∨
      ∃ frame, config' = ⟨.value, frame :: config.enclosing⟩ := by
  cases h with
  | opening => exact .inr ⟨_, rfl⟩
  | comma => exact .inr ⟨_, rfl⟩
  | _ => exact .inl rfl

/-- A move that starts an initializer has just pulled the first token of it. -/
theorem StartsKept.moves (h : StartsKept config.enclosing reader)
    (hmoves : Moves builder config reader config' tokens config'.stage after)
    (hpath : Path config.stage reader tokens config'.stage after) :
    StartsKept config'.enclosing after := by
  have hold : StartsKept config.enclosing after :=
    fun frame hmem => hpath.startsIn (h frame hmem)
  obtain hsame | ⟨frame, rfl⟩ := hmoves.move.enclosing_cases
  · rw [hsame]
    exact hold
  · obtain ⟨mark, rest, hpulled, hmark⟩ := hmoves.starts frame config.enclosing rfl rfl
    have hnew : StartsIn after.pulled frame.first :=
      ⟨reader.consumed.reverse, mark, rest, by rw [hpath.pulled_eq, hpulled], hmark⟩
    exact List.forall_mem_cons.2 ⟨hnew, hold⟩

theorem StartsKept.step {state state' : σ} (h : StartsKept config.enclosing reader)
    (hstep : step builder state config reader = .ok (.next state' config') after) :
    StartsKept config'.enclosing after := by
  cases stepped_of_step hstep with
  | added frame value aggregate enclosing hconfig hconfig' _ hreader =>
    rw [hconfig] at h
    rw [hconfig', hreader]
    exact (List.forall_mem_cons.1 h).2
  | moved tokens _ hmoves hpath => exact h.moves hmoves hpath

/-- Every initializer that is handed over starts with the token that was pulled right behind an
opening brace or a comma. -/
theorem pull_of_mem_handovers {source : Cursor} (state : σ) (config : Config α γ)
    (reader : Reader) (hyields : source.Yields reader.pulled reader.cursor)
    (hkept : StartsKept config.enclosing reader) {handover : Handover α γ}
    (hmem : handover ∈ handovers builder state config reader) :
    ∃ earlier mark, source.pull earlier = .ok mark ∧
      (mark.symbol = .mark .leftCurly ∨ mark.symbol = .mark .comma) ∧
      source.pull (earlier + 1) = .ok handover.first := by
  induction state, config, reader using run_induction builder with
  | next state config reader ih =>
    have hfirst : handover ∈ config.handover?.toList → StartsIn reader.pulled handover.first := by
      rcases config with ⟨control, enclosing⟩
      cases control with
      | complete value =>
        cases enclosing with
        | nil => nofun
        | cons frame enclosing =>
          intro hmem
          rw [List.mem_singleton.1 hmem]
          exact (List.forall_mem_cons.1 hkept).1
      | _ => nofun
    rw [handovers] at hmem
    rcases List.mem_append.1 hmem with hmem | hmem
    · exact (hfirst hmem).exists_pull hyields
    · split at hmem
      · rename_i state' config' after hstep
        refine ih state' config' after hstep ?_ (hkept.step hstep) hmem
        cases stepped_of_step hstep with
        | added frame value aggregate enclosing _ _ _ hreader => exact hreader ▸ hyields
        | moved tokens _ _ hpath => exact hpath.yields hyields
      · cases hmem

end Frames

/-! ## Runs -/

section Runs

variable {σ α γ : Type} {builder : Builder σ α γ} {stage here : Stage} {reader middle : Reader}
  {outcome : Outcome σ α}

/-- A run goes along a path, and then it has a value, with so many aggregates open, or the reader
comes to a halt, or the builder refuses an initializer. -/
inductive Ran (builder : Builder σ α γ) (outer : Nat) (stage : Stage) (reader : Reader) :
    Outcome σ α → Prop
  | finished (value : α) (state : σ) (tokens : List Token) (after : Reader)
    (hpath : Path stage reader tokens .complete after) (hdepth : after.depth = outer) :
    Ran builder outer stage reader { result := .ok value, state, reader := after }
  | halted (error : Error) (state : σ) (tokens : List Token) (last : Stage)
    (before after : Reader) (hpath : Path stage reader tokens last before)
    (hhalts : Halts last before error after) :
    Ran builder outer stage reader { result := .error error, state, reader := after }
  | refused (frame : Frame γ) (value : α) (state state' : σ) (refusal : Refusal) (left : γ)
    (tokens : List Token) (after : Reader) (hpath : Path stage reader tokens .complete after)
    (hadd : builder.add (frame.item value) (state, frame.aggregate) =
      .error refusal (state', left))
    (hstarts : StartsIn after.pulled frame.first) :
    Ran builder outer stage reader {
      result := .error (frame.refused refusal), state := state', reader := after }

theorem Ran.of_path {outer : Nat} {tokens : List Token}
    (hpath : Path stage reader tokens here middle) (h : Ran builder outer here middle outcome) :
    Ran builder outer stage reader outcome := by
  cases h with
  | finished value state more after hmore hdepth =>
    exact .finished value state _ after (hpath.append hmore) hdepth
  | halted error state more last before after hmore hhalts =>
    exact .halted error state _ last before after (hpath.append hmore) hhalts
  | refused frame value state state' refusal left more after hmore hadd hstarts =>
    exact .refused frame value state state' refusal left _ after (hpath.append hmore) hadd hstarts

/-- Besides those of the machine there may be other aggregates that are open. -/
theorem ran (outer : Nat) (state : σ) (config : Config α γ) (reader : Reader)
    (hdepth : reader.depth = outer + config.openCount)
    (hkept : StartsKept config.enclosing reader) :
    Ran builder outer config.stage reader (run builder state config reader) := by
  induction state, config, reader using run_induction builder with
  | next state config reader ih =>
    cases hstep : step builder state config reader with
    | error error after =>
      obtain ⟨tokens, last, before, hpath, hhalts⟩ := halts_of_step_error hstep
      rw [run_of_error hstep]
      exact .halted error state tokens last before after hpath hhalts
    | ok progress after =>
      cases progress with
      | finished value =>
        obtain ⟨rfl, rfl⟩ := step_finished_iff.1 hstep
        rw [run_of_finished hstep]
        exact .finished value state [] after (.refl _ after) hdepth
      | refused state' error =>
        obtain ⟨value, frame, enclosing, refusal, left, rfl, hadd, rfl, rfl⟩ :=
          exists_of_step_refused hstep
        rw [run_of_refused hstep]
        exact .refused frame value state state' refusal left [] after (.refl _ after) hadd
          (List.forall_mem_cons.1 hkept).1
      | next state' config' =>
        have hrest : Ran builder outer config'.stage after (run builder state' config' after) :=
          ih state' config' after hstep (depth_of_step hdepth hstep) (hkept.step hstep)
        rw [run_of_next hstep]
        cases stepped_of_step hstep with
        | added frame value aggregate enclosing hconfig hconfig' _ hreader =>
          rw [hconfig] at hdepth ⊢
          rw [hconfig', hreader] at hrest
          rw [hconfig', hreader]
          have hopen : reader.depth ≠ 0 := by
            rw [hdepth]
            exact Nat.succ_ne_zero _
          exact .of_path (.skip (.added _ hopen) (.refl .behind reader)) hrest
        | moved tokens _ hmoves hpath => exact .of_path hpath hrest

/-- Nothing is assumed of the reader that a value is parsed from. -/
theorem ran_parseValue (builder : Builder σ α γ) (state : σ) (reader : Reader) :
    Ran builder reader.depth .value reader (parseValue builder state reader) :=
  ran reader.depth state ⟨.value, []⟩ reader rfl nofun

end Runs

end Parsing

/-- A reader that was opened on a source has pulled its lookahead. -/
theorem Reader.yields_of_ofString {source : String} {limits : Limits} {reader : Reader}
    (h : ofString source limits = .ok reader) :
    (Cursor.ofString source).Yields reader.pulled reader.cursor := by
  unfold ofString at h
  split at h
  · rename_i hnext
    cases h
    exact (Cursor.Yields.nil (.ofString source)).snoc hnext
  · cases h

end ArrayLiteral
