import ArrayLiteral.Proofs.Journal

/-!
# Pieces that are still to be read

A source has so many pieces, tokens and lexical errors, and every pull in front of the end of
the input takes one of them (`Cursor.pieces`, `pull_isEof_iff`).  For a reader the lookahead
counts as a piece that is still to be read, unless it is the end of the input
(`Reader.pending`).

`Uses` is the account of what happens to them: each token that is consumed is one piece less,
and so is each pull that fails.  It is kept along a path and at a halt (`Path.uses`,
`Halts.exists_uses`).  `Metered` says this of a step of a reader, whether it succeeds or fails,
together with a number of tokens that it consumes at least if it succeeds.  No step consumes
the end of the input.  Nothing is assumed of the reader, so all this holds of every course and
every run, from any reader on.
-/

namespace ArrayLiteral

/-! ## The pieces in front of a cursor -/

namespace Cursor

/-- The number of pulls before the one that comes to the end of the input. -/
def pieces (cursor : Cursor) : Nat :=
  match _ : cursor.next with
  | (.error _, after) => after.pieces + 1
  | (.ok token, after) => if _ : token.isEof then 0 else after.pieces + 1
termination_by cursor.rest.length
decreasing_by
  · rename_i hnext
    exact next_length_lt hnext nofun
  · rename_i hnext hend
    refine next_length_lt hnext fun _ htoken => ?_
    injection htoken with htoken
    rw [← htoken]
    simpa using hend

section Next

variable {cursor after : Cursor}

theorem pieces_of_end {token : Token} (h : cursor.next = (.ok token, after))
    (heof : token.isEof = true) : cursor.pieces = 0 := by
  rw [pieces]
  split <;> rename_i hnext <;> rw [h] at hnext <;> cases hnext
  rw [dif_pos heof]

theorem pieces_of_piece {result : Except LexicalError Token} (h : cursor.next = (result, after))
    (hmore : ∀ token, result = .ok token → token.isEof = false) :
    cursor.pieces = after.pieces + 1 := by
  rw [pieces]
  split <;> rename_i hnext <;> rw [h] at hnext <;> cases hnext
  · rfl
  · rw [dif_neg (by rw [hmore _ rfl]; exact Bool.false_ne_true)]

/-- Every piece has a character at least. -/
theorem pieces_le_length (cursor : Cursor) : cursor.pieces ≤ cursor.rest.length := by
  fun_induction pieces cursor with
  | case1 cursor error after hnext ih =>
    have hlt := next_length_lt hnext nofun
    omega
  | case2 cursor token after hnext hend => exact Nat.zero_le _
  | case3 cursor token after hnext hend ih =>
    have hlt := next_length_lt hnext fun _ htoken => by
      cases htoken
      exact Bool.eq_false_iff.2 hend
    omega

end Next

/-- The pulls behind all pieces come to the end of the input, and no other pull does. -/
theorem pull_isEof_iff (cursor : Cursor) (earlier : Nat) :
    (∃ token, cursor.pull earlier = .ok token ∧ token.isEof = true) ↔
      cursor.pieces ≤ earlier := by
  rcases hnext : cursor.next with ⟨result, after⟩
  by_cases hend : ∃ token, result = .ok token ∧ token.isEof = true
  · obtain ⟨token, rfl, heof⟩ := hend
    rw [pieces_of_end hnext heof]
    exact ⟨fun _ => Nat.zero_le _, fun _ => ⟨token, pull_of_isEof hnext heof earlier, heof⟩⟩
  · have hmore : ∀ token, result = .ok token → token.isEof = false := fun token hresult =>
      Bool.eq_false_iff.2 fun heof => hend ⟨token, hresult, heof⟩
    rw [pieces_of_piece hnext hmore]
    cases earlier with
    | zero =>
      have hfirst : cursor.pull 0 = result := congrArg Prod.fst hnext
      rw [hfirst]
      exact ⟨fun h => absurd h hend, fun h => absurd h (Nat.not_succ_le_zero _)⟩
    | succ earlier =>
      rw [pull_succ, hnext, after.pull_isEof_iff earlier, Nat.add_le_add_iff_right]

end Cursor

/-! ## The pieces in front of a reader -/

namespace Reader

/-- The pieces that are still to be consumed, the lookahead included. -/
def pending (reader : Reader) : Nat :=
  reader.cursor.pieces + if reader.lookahead.isEof then 0 else 1

theorem pending_of_more {reader : Reader} (hmore : reader.lookahead.isEof = false) :
    reader.pending = reader.cursor.pieces + 1 := by
  rw [pending, hmore, if_neg Bool.false_ne_true]

/-- All pieces behind a place are pending when the first of them is the lookahead. -/
theorem pending_of_next (reader : Reader) {cursor : Cursor}
    (h : cursor.next = (.ok reader.lookahead, reader.cursor)) :
    reader.pending = cursor.pieces := by
  cases hmore : reader.lookahead.isEof with
  | true =>
    obtain ⟨-, hrest, -⟩ := Cursor.eq_of_next_isEof h hmore
    have hnone := reader.cursor.pieces_le_length
    rw [hrest, List.length_nil] at hnone
    rw [Cursor.pieces_of_end h hmore, pending, hmore, if_pos rfl]
    omega
  | false =>
    have hpiece : ∀ token, Except.ok (ε := LexicalError) reader.lookahead = .ok token →
        token.isEof = false := by
      intro token htoken
      cases htoken
      exact hmore
    rw [pending_of_more hmore, Cursor.pieces_of_piece h hpiece]

theorem pending_of_ofString {source : String} {limits : Limits} {reader : Reader}
    (h : ofString source limits = .ok reader) :
    reader.pending = (Cursor.ofString source).pieces := by
  unfold ofString at h
  split at h
  · rename_i hnext
    cases h
    exact pending_of_next _ hnext
  · cases h

theorem pending_le_remaining (reader : Reader) : reader.pending ≤ reader.remaining :=
  Nat.add_le_add_right reader.cursor.pieces_le_length _

end Reader

/-- From one reader to the other these tokens were consumed, none of which is the end of the
input, and so many pulls failed. The pieces that are no longer pending are as many. -/
structure Uses (tokens : List Token) (failures : Nat) (reader after : Reader) : Prop where
  consumed_eq : after.consumed = tokens.reverse ++ reader.consumed
  isEof_eq : ∀ token ∈ tokens, token.isEof = false
  pending_eq : after.pending + tokens.length + failures = reader.pending

namespace Uses

variable {reader middle after : Reader} {front back : List Token} {failures : Nat}

theorem refl (reader : Reader) : Uses [] 0 reader reader :=
  ⟨rfl, nofun, rfl⟩

theorem append (hfront : Uses front 0 reader middle) (hback : Uses back failures middle after) :
    Uses (front ++ back) failures reader after where
  consumed_eq := by
    rw [hback.consumed_eq, hfront.consumed_eq, List.reverse_append, List.append_assoc]
  isEof_eq := List.forall_mem_append.2 ⟨hfront.isEof_eq, hback.isEof_eq⟩
  pending_eq := by
    have hfirst := hfront.pending_eq
    have hrest := hback.pending_eq
    rw [List.length_append]
    omega

end Uses

/-- So many tokens were consumed at least, none of which is the end of the input, and as many
pieces are no longer pending. -/
def Consumes (least : Nat) (reader after : Reader) : Prop :=
  ∃ tokens, Uses tokens 0 reader after ∧ least ≤ tokens.length

namespace Consumes

variable {least more : Nat} {reader middle after : Reader}

theorem refl (reader : Reader) : Consumes 0 reader reader :=
  ⟨[], .refl reader, Nat.le_refl 0⟩

theorem trans (hfirst : Consumes least reader middle) (hsecond : Consumes more middle after) :
    Consumes (least + more) reader after := by
  obtain ⟨front, hfront, hleast⟩ := hfirst
  obtain ⟨back, hback, hmore⟩ := hsecond
  refine ⟨front ++ back, hfront.append hback, ?_⟩
  rw [List.length_append]
  exact Nat.add_le_add hleast hmore

theorem weaken (h : Consumes least reader after) (hle : more ≤ least) :
    Consumes more reader after := by
  obtain ⟨tokens, huses, hleast⟩ := h
  exact ⟨tokens, huses, Nat.le_trans hle hleast⟩

/-- Behind two tokens there are fewer pieces that were not pulled. Behind one there need not
be, since the lookahead was pulled before. -/
theorem pieces_lt (h : Consumes 2 reader after) : after.cursor.pieces < reader.cursor.pieces := by
  obtain ⟨tokens, huses, hleast⟩ := h
  have hpending := huses.pending_eq
  unfold Reader.pending at hpending
  split at hpending <;> split at hpending <;> omega

end Consumes

/-- A step from this reader accounts for every piece, and if it succeeds it consumes at least
so many tokens. -/
inductive Metered {α : Type} (least : Nat) (reader : Reader) :
    EStateM.Result Error Reader α → Prop
  | ok (value : α) (after : Reader) (h : Consumes least reader after) :
    Metered least reader (.ok value after)
  | error (error : Error) (after : Reader) (tokens : List Token)
    (huses : Uses tokens error.results.length reader after) :
    Metered least reader (.error error after)

theorem Metered.consumes {α : Type} {least : Nat} {reader after : Reader} {value : α}
    (h : Metered least reader (.ok value after)) : Consumes least reader after := by
  cases h with
  | ok _ _ h => exact h

/-! ## Steps of a reader -/

namespace Reading

variable {α : Type} {least : Nat} {reader : Reader}

/-- Consuming a token makes one piece less, and so does passing over the text of an error. -/
theorem metered_consume (hmore : reader.lookahead.isEof = false) :
    Metered 1 reader (consume reader) := by
  have hpending := Reader.pending_of_more hmore
  unfold consume
  split
  · rename_i lookahead cursor hnext
    refine .ok _ _ ⟨[reader.lookahead], ⟨rfl, ?_, ?_⟩, Nat.le_refl 1⟩
    · intro token hmem
      rw [List.mem_singleton.1 hmem]
      exact hmore
    · rw [hpending, Reader.pending_of_next _ hnext]
      rfl
  · rename_i error cursor hnext
    refine .error _ _ [] ⟨rfl, nofun, ?_⟩
    have hmoved : Reader.pending { reader with cursor } = cursor.pieces + 1 :=
      Reader.pending_of_more hmore
    rw [hpending, hmoved, Cursor.pieces_of_piece hnext nofun]
    rfl

theorem metered_reject (found : Token) (fault : GrammarFault) :
    Metered least reader ((reject found fault : Reading α) reader) :=
  .error _ _ [] (.refl reader)

theorem metered_expected (description : String) :
    Metered least reader ((expected description : Reading α) reader) :=
  metered_reject _ _

/-- The end of the input is never required. -/
theorem metered_require {kind : Kind} (hkind : kind ≠ .eof) :
    Metered 1 reader (require kind reader) := by
  unfold require
  rw [isAt_bind]
  by_cases hfound : reader.lookahead.kind = kind
  · rw [if_pos (decide_eq_true hfound)]
    apply metered_consume
    rw [Token.isEof, hfound]
    exact decide_eq_false hkind
  · rw [if_neg (by simpa using hfound)]
    exact metered_expected _

theorem metered_enterAggregate : Metered 0 reader (enterAggregate reader) := by
  by_cases hroom : reader.depth < reader.limits.maxDepth.toNat
  · rw [enterAggregate_eq_ok_iff.2 ⟨hroom, rfl⟩]
    exact .ok _ _ ⟨[], ⟨rfl, nofun, rfl⟩, Nat.le_refl 0⟩
  · rw [enterAggregate_of_full (Nat.le_of_not_lt hroom)]
    exact .error _ _ [] (.refl reader)

theorem metered_leaveAggregate : Metered 0 reader (leaveAggregate reader) :=
  .ok _ _ ⟨[], ⟨rfl, nofun, rfl⟩, Nat.le_refl 0⟩

end Reading

namespace Parsing

/-! ## Courses and runs -/

section Paths

variable {stage last : Stage} {reader after : Reader} {tokens : List Token}

theorem Takes.uses (h : Takes stage reader last after) :
    Uses [reader.lookahead] 0 reader after where
  consumed_eq := h.consumed_eq
  isEof_eq := List.forall_mem_singleton.2 h.isEof_eq
  pending_eq := by
    rw [Reader.pending_of_more h.isEof_eq, after.pending_of_next h.pull_eq]
    rfl

/-- The tokens of a path are pieces that were pending. -/
theorem Path.uses (h : Path stage reader tokens last after) : Uses tokens 0 reader after := by
  induction h with
  | refl stage reader => exact .refl reader
  | skip _ _ ih => exact ih
  | take h _ ih => exact h.uses.append ih

/-- At a halt one piece more is used at most, by a pull that fails or for an index that is too
large. -/
theorem Halts.exists_uses {error : Error} (h : Halts stage reader error after) :
    ∃ more, Uses more error.results.length reader after := by
  cases h with
  | lexical error cursor depth hnext _ hpull _ =>
    have hmore : reader.lookahead.isEof = false :=
      Token.isEof_eq_false_iff.2 fun heof => hnext (by rw [heof, stage.next_eof])
    have hmoved : Reader.pending { reader with cursor, depth } = cursor.pieces + 1 :=
      Reader.pending_of_more hmore
    refine ⟨[], rfl, nofun, ?_⟩
    rw [Reader.pending_of_more hmore, hmoved, Cursor.pieces_of_piece hpull nofun]
    rfl
  | unexpected => exact ⟨[], .refl reader⟩
  | tooDeep => exact ⟨[], .refl reader⟩
  | tooLarge bound lookahead cursor _ hbound _ hpull =>
    have hmore : reader.lookahead.isEof = false := Token.isEof_of_symbol hbound (by nofun)
    refine ⟨[reader.lookahead], rfl, List.forall_mem_singleton.2 hmore, ?_⟩
    rw [Reader.pending_of_more hmore, Reader.pending_of_next _ hpull]
    rfl

/-- A course is metered by the tokens that are consumed on it where it succeeds. -/
theorem Course.metered {α : Type} {least : Nat} {post : α → List Token → Stage → Reader → Prop}
    {result : EStateM.Result Error Reader α} (h : Course stage reader post result)
    (hleast : ∀ value tokens last after, post value tokens last after → least ≤ tokens.length) :
    Metered least reader result := by
  cases h with
  | ok value tokens last after hpath hpost =>
    exact .ok value after ⟨tokens, hpath.uses, hleast value tokens last after hpost⟩
  | error error tokens last before after hpath hhalts =>
    obtain ⟨more, hmore⟩ := hhalts.exists_uses
    exact .error error after _ (hpath.uses.append hmore)

theorem metered_readTarget (reader : Reader) : Metered 0 reader (readTarget reader) :=
  course_readTarget.metered fun _ _ _ _ _ => Nat.zero_le _

/-- Where a value is due there is nothing to be left out. -/
theorem Path.ne_nil (h : Path .value reader tokens .complete after) : tokens ≠ [] := by
  cases h with
  | skip h _ => cases h
  | take _ _ => nofun

end Paths

/-- A value is made of one token at least. -/
theorem metered_parseValue {σ α γ : Type} (builder : Builder σ α γ) (state : σ)
    (reader : Reader) : Metered 1 reader (parseValue builder state reader).toResult := by
  have hran := ran_parseValue builder state reader
  generalize parseValue builder state reader = outcome at hran ⊢
  cases hran with
  | finished value state tokens after hpath =>
    exact .ok value after ⟨tokens, hpath.uses, List.length_pos_iff.2 hpath.ne_nil⟩
  | halted error state tokens last before after hpath hhalts =>
    obtain ⟨more, hmore⟩ := hhalts.exists_uses
    exact .error error after _ (hpath.uses.append hmore)
  | refused frame value state state' refusal left tokens after hpath =>
    exact .error _ after tokens hpath.uses

end Parsing

end ArrayLiteral
