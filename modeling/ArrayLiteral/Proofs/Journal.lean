import ArrayLiteral.Proofs.Trails

/-!
# What a reader has pulled

A reader pulls from a cursor, and every result of a pull goes to one of two places.  A
token becomes the lookahead, and the lookahead before it is put to the record of consumed
tokens.  A lexical error is returned, and neither of the two changes.

`Follows` says this of two readers and of all pulls between them, and so it does of the ends of
a path (`Path.follows`).  `Accounted` says it of a step of a reader, whether it succeeds or
fails: a lexical error is returned if and only if the last pull failed, and no other pull fails.
It also says that an error that is not lexical is about a token that was pulled.  Nothing is
assumed of the reader, so all this holds behind errors too.
-/

namespace ArrayLiteral

/-! ## The results of pulls -/

/-- The tokens among the results of pulls. -/
def tokensOf (results : List (Except LexicalError Token)) : List Token :=
  results.filterMap fun
    | .ok token => some token
    | .error _ => none

/-- The lexical errors among the results of pulls. -/
def faultsOf (results : List (Except LexicalError Token)) : List LexicalError :=
  results.filterMap fun
    | .ok _ => none
    | .error error => some error

section Results

variable (front back : List (Except LexicalError Token)) (tokens : List Token)

@[simp] theorem tokensOf_append : tokensOf (front ++ back) = tokensOf front ++ tokensOf back :=
  List.filterMap_append

@[simp] theorem faultsOf_append : faultsOf (front ++ back) = faultsOf front ++ faultsOf back :=
  List.filterMap_append

@[simp] theorem tokensOf_map_ok : tokensOf (tokens.map .ok) = tokens := by
  induction tokens with
  | nil => rfl
  | cons token tokens ih => exact congrArg (token :: ·) ih

@[simp] theorem faultsOf_map_ok : faultsOf (tokens.map .ok) = [] := by
  induction tokens with
  | nil => rfl
  | cons token tokens ih => exact ih

end Results

/-- What the error says of the last pull. Only a lexical error says that it failed. -/
def Error.results : Error → List (Except LexicalError Token)
  | lexical error => [.error error]
  | grammar _ => []

/-- An error that is not lexical is about one of these tokens. -/
def Error.FoundIn (tokens : List Token) : Error → Prop
  | lexical _ => True
  | grammar error => error.found ∈ tokens

namespace Cursor

/-- The results of so many pulls, the first one first. -/
def results (cursor : Cursor) (pulls : Nat) : List (Except LexicalError Token) :=
  (List.range pulls).map cursor.pull

@[simp] theorem length_results (cursor : Cursor) (pulls : Nat) :
    (cursor.results pulls).length = pulls := by
  rw [results, List.length_map, List.length_range]

theorem pull_add (cursor : Cursor) (pulls earlier : Nat) :
    cursor.pull (pulls + earlier) = (cursor.after pulls).pull earlier := by
  rw [pull, pull, after_add]

theorem results_add (cursor : Cursor) (pulls more : Nat) :
    cursor.results (pulls + more) = cursor.results pulls ++ (cursor.after pulls).results more := by
  rw [results, List.range_add, List.map_append, List.map_map]
  congr 1
  apply List.map_congr_left
  intro earlier _
  exact pull_add cursor pulls earlier

theorem results_one (cursor : Cursor) : cursor.results 1 = [cursor.next.1] :=
  rfl

end Cursor

/-! ## Readers -/

/-- From one reader to the other the pulls gave these results. The tokens among them were
added to those that the reader had, and no more aggregates are open than may be, if it
was so before. -/
structure Follows (results : List (Except LexicalError Token)) (reader after : Reader) :
    Prop where
  results_eq : reader.cursor.results results.length = results
  cursor_eq : after.cursor = reader.cursor.after results.length
  pulled_eq : after.pulled = reader.pulled ++ tokensOf results
  limits_eq : after.limits = reader.limits
  depth_le : reader.depth ≤ reader.limits.maxDepth.toNat →
    after.depth ≤ reader.limits.maxDepth.toNat

namespace Follows

variable {front back : List (Except LexicalError Token)} {reader middle after : Reader}

theorem refl (reader : Reader) : Follows [] reader reader where
  results_eq := rfl
  cursor_eq := rfl
  pulled_eq := (List.append_nil _).symm
  limits_eq := rfl
  depth_le h := h

theorem append (hfront : Follows front reader middle) (hback : Follows back middle after) :
    Follows (front ++ back) reader after where
  results_eq := by
    have hrest := hback.results_eq
    rw [hfront.cursor_eq] at hrest
    rw [List.length_append, Cursor.results_add, hfront.results_eq, hrest]
  cursor_eq := by
    rw [List.length_append, Cursor.after_add, ← hfront.cursor_eq, hback.cursor_eq]
  pulled_eq := by
    rw [hback.pulled_eq, hfront.pulled_eq, tokensOf_append, List.append_assoc]
  limits_eq := hback.limits_eq.trans hfront.limits_eq
  depth_le h := by
    have hmiddle := hback.depth_le
    rw [hfront.limits_eq] at hmiddle
    exact hmiddle (hfront.depth_le h)

end Follows

/-- The pulls from a source gave these results, and the reader has the tokens among them. -/
structure Recorded (source : Cursor) (results : List (Except LexicalError Token))
    (reader : Reader) : Prop where
  results_eq : source.results results.length = results
  cursor_eq : reader.cursor = source.after results.length
  pulled_eq : reader.pulled = tokensOf results

namespace Recorded

variable {source : Cursor} {front back : List (Except LexicalError Token)}
  {reader after : Reader}

/-- Opening a reader pulls its lookahead. -/
theorem ofString {text : String} {limits : Limits} (h : Reader.ofString text limits = .ok reader) :
    Recorded (.ofString text) [.ok reader.lookahead] reader := by
  unfold Reader.ofString at h
  split at h
  · rename_i lookahead cursor hnext
    cases h
    refine ⟨(Cursor.results_one _).trans (by rw [hnext]), ?_, rfl⟩
    show cursor = (Cursor.ofString text).next.2
    rw [hnext]
  · cases h

theorem follows (h : Recorded source front reader) (hfollows : Follows back reader after) :
    Recorded source (front ++ back) after where
  results_eq := by
    have hback := hfollows.results_eq
    rw [h.cursor_eq] at hback
    rw [List.length_append, Cursor.results_add, h.results_eq, hback]
  cursor_eq := by
    rw [List.length_append, Cursor.after_add, ← h.cursor_eq, hfollows.cursor_eq]
  pulled_eq := by rw [hfollows.pulled_eq, h.pulled_eq, tokensOf_append]

end Recorded

/-- A step from this reader leads to a reader that follows. If it succeeds, then all its
pulls gave tokens, and it has the property. -/
inductive Accounted {α : Type} (post : α → Reader → Prop) (reader : Reader) :
    EStateM.Result Error Reader α → Prop
  | ok (value : α) (after : Reader) (tokens : List Token)
    (hfollows : Follows (tokens.map .ok) reader after) (hpost : post value after) :
    Accounted post reader (.ok value after)
  | error (error : Error) (after : Reader) (tokens : List Token)
    (hfollows : Follows (tokens.map .ok ++ error.results) reader after)
    (hfound : error.FoundIn after.pulled) :
    Accounted post reader (.error error after)

theorem Accounted.imp {α : Type} {post post' : α → Reader → Prop} {reader : Reader}
    {result : EStateM.Result Error Reader α} (h : Accounted post reader result)
    (hpost : ∀ value after, post value after → post' value after) :
    Accounted post' reader result := by
  cases h with
  | ok value after tokens hfollows hvalue =>
    exact .ok value after tokens hfollows (hpost value after hvalue)
  | error error after tokens hfollows hfound => exact .error error after tokens hfollows hfound

/-! ## Steps of a reader -/

namespace Reading

variable {α : Type} {post : α → Reader → Prop} {reader : Reader}

/-- Pulling a token makes it the lookahead, and the lookahead before it is kept. A failing
pull moves the cursor and nothing else. -/
theorem accounted_consume :
    Accounted (fun token after => token ∈ after.pulled) reader (consume reader) := by
  unfold consume
  split
  · rename_i lookahead cursor hnext
    refine .ok _ _ [lookahead] ⟨?_, ?_, ?_, rfl, fun h => h⟩ ?_
    · exact (Cursor.results_one _).trans (by rw [hnext]; rfl)
    · show cursor = reader.cursor.next.2
      rw [hnext]
    · rw [tokensOf_map_ok, Reader.pulled, Reader.pulled, List.reverse_cons]
    · rw [Reader.pulled, List.reverse_cons, List.append_assoc]
      exact List.mem_append_right _ (List.mem_cons_self ..)
  · rename_i error cursor hnext
    refine .error _ _ [] ⟨?_, ?_, ?_, rfl, fun h => h⟩ trivial
    · exact (Cursor.results_one _).trans (by rw [hnext]; rfl)
    · show cursor = reader.cursor.next.2
      rw [hnext]
    · exact (List.append_nil _).symm

theorem accounted_reject {found : Token} (fault : GrammarFault) (h : found ∈ reader.pulled) :
    Accounted post reader (reject found fault reader) :=
  .error _ _ [] (.refl reader) h

theorem accounted_expected (description : String) :
    Accounted post reader (expected description reader) :=
  accounted_reject _ reader.lookahead_mem_pulled

theorem accounted_require (kind : Kind) :
    Accounted (fun _ _ => True) reader (require kind reader) := by
  unfold require
  rw [isAt_bind]
  split
  · exact accounted_consume.imp fun _ _ _ => trivial
  · exact accounted_expected _

/-- An aggregate is entered only where there is room for it. -/
theorem accounted_enterAggregate :
    Accounted (fun _ _ => True) reader (enterAggregate reader) := by
  by_cases hroom : reader.depth < reader.limits.maxDepth.toNat
  · rw [enterAggregate_eq_ok_iff.2 ⟨hroom, rfl⟩]
    exact .ok _ _ [] ⟨rfl, rfl, (List.append_nil _).symm, rfl, fun _ => hroom⟩ trivial
  · rw [enterAggregate_of_full (Nat.le_of_not_lt hroom)]
    exact .error _ _ [] (.refl reader) reader.lookahead_mem_pulled

theorem accounted_leaveAggregate :
    Accounted (fun _ _ => True) reader (leaveAggregate reader) :=
  .ok _ _ []
    ⟨rfl, rfl, (List.append_nil _).symm, rfl, fun h => Nat.le_trans (Nat.sub_le _ _) h⟩ trivial

end Reading

namespace Parsing

/-! ## Paths -/

section Paths

variable {stage last : Stage} {reader after : Reader} {tokens : List Token}

/-- A brace is consumed only where there is room for it. -/
theorem Takes.depth_le (h : Takes stage reader last after)
    (hle : reader.depth ≤ reader.limits.maxDepth.toNat) :
    after.depth ≤ reader.limits.maxDepth.toNat := by
  have hnext := h.next_eq
  have hwithin := h.within
  rw [h.depth_eq]
  cases hsymbol : reader.lookahead.symbol with
  | mark punctuation =>
    rw [hsymbol] at hnext hwithin
    cases punctuation with
    | leftCurly =>
      cases stage with
      | value => exact hwithin
      | _ => cases hnext
    | rightCurly => exact Nat.le_trans (Nat.sub_le _ _) hle
    | _ => exact hle
  | _ => exact hle

theorem Takes.follows (h : Takes stage reader last after) :
    Follows [.ok after.lookahead] reader after where
  results_eq := (Cursor.results_one _).trans (by rw [h.pull_eq])
  cursor_eq := by
    show after.cursor = reader.cursor.next.2
    rw [h.pull_eq]
  pulled_eq := by
    rw [Reader.pulled, Reader.pulled, h.consumed_eq, List.reverse_cons]
    rfl
  limits_eq := h.limits_eq
  depth_le := h.depth_le

/-- All pulls along a path give tokens. -/
theorem Path.follows (h : Path stage reader tokens last after) :
    ∃ pulled : List Token, Follows (pulled.map .ok) reader after := by
  induction h with
  | refl stage reader => exact ⟨[], .refl reader⟩
  | skip _ _ ih => exact ih
  | take h _ ih =>
    obtain ⟨pulled, hfollows⟩ := ih
    exact ⟨_ :: pulled, h.follows.append hfollows⟩

/-- At a halt one more pull is made at most. If it fails, its error is the one that is
returned. -/
theorem Halts.follows {error : Error} (h : Halts stage reader error after) :
    ∃ pulled : List Token, Follows (pulled.map .ok ++ error.results) reader after ∧
      error.FoundIn after.pulled := by
  cases h with
  | lexical error cursor depth _ _ hpull hdepth =>
    refine ⟨[], ⟨?_, ?_, (List.append_nil _).symm, rfl, fun hle => ?_⟩, trivial⟩
    · exact (Cursor.results_one _).trans (by rw [hpull]; rfl)
    · show cursor = reader.cursor.next.2
      rw [hpull]
    · rcases hdepth with rfl | ⟨rfl, hroom⟩
      · exact hle
      · exact hroom
  | unexpected => exact ⟨[], .refl reader, reader.lookahead_mem_pulled⟩
  | tooDeep => exact ⟨[], .refl reader, reader.lookahead_mem_pulled⟩
  | tooLarge bound lookahead cursor _ _ _ hpull =>
    refine ⟨[lookahead], ⟨?_, ?_, ?_, rfl, id⟩, ?_⟩
    · exact (Cursor.results_one _).trans (by rw [hpull]; rfl)
    · show cursor = reader.cursor.next.2
      rw [hpull]
    · rw [Reader.pulled, Reader.pulled, List.reverse_cons]
      rfl
    · exact List.mem_append_left _ (List.mem_reverse.2 (List.mem_cons_self ..))

end Paths

/-! ## Runs -/

section Runs

variable {σ α γ : Type}

/-- How a run ended, as the result of a step. -/
def Outcome.toResult (outcome : Outcome σ α) : EStateM.Result Error Reader α :=
  match outcome.result with
  | .ok value => .ok value outcome.reader
  | .error error => .error error outcome.reader

/-- Parsing a value is accounted for, from any reader on. What is refused is reported with the
first token of an initializer, which was pulled before. -/
theorem accounted_parseValue (builder : Builder σ α γ) (state : σ) (reader : Reader) :
    Accounted (fun _ _ => True) reader (parseValue builder state reader).toResult := by
  have hran := ran_parseValue builder state reader
  generalize parseValue builder state reader = outcome at hran ⊢
  cases hran with
  | finished value state tokens after hpath =>
    obtain ⟨pulled, hfollows⟩ := hpath.follows
    exact .ok value after pulled hfollows trivial
  | halted error state tokens last before after hpath hhalts =>
    obtain ⟨pulled, hfollows⟩ := hpath.follows
    obtain ⟨more, hmore, hfound⟩ := hhalts.follows
    refine .error error after (pulled ++ more) ?_ hfound
    rw [List.map_append, List.append_assoc]
    exact hfollows.append hmore
  | refused frame value state state' refusal left tokens after hpath _ hstarts =>
    obtain ⟨pulled, hfollows⟩ := hpath.follows
    refine .error _ after pulled ?_ hstarts.mem
    show Follows (pulled.map .ok ++ []) reader after
    rw [List.append_nil]
    exact hfollows

end Runs

end Parsing

end ArrayLiteral
