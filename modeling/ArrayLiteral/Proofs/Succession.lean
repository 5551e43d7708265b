import Mathlib
import ArrayLiteral.Proofs.Completeness
import ArrayLiteral.Proofs.Modes
import ArrayLiteral.Proofs.Soundness
import ArrayLiteral.Proofs.Surroundings
import ArrayLiteral.Proofs.Trails

/-!
# Values one after the other

A reader can be used again when a value is parsed.  `parseNth` gives the outcome of one of
several calls, which go on with the reader and with the state that the call before left.

On sources with blanks between them each call parses one source (`parseValue_passage`): it
reads the tokens of the source, which are those that it has alone, and no more.  The first
token of the next source is the lookahead then.  The calls of the array builder share one
budget.  They write the values of the sources, each for its exact cost, as long as the budget
covers them (`parseNth_passages`).
-/

namespace ArrayLiteral

open Text (isBlank)

namespace Parsing

/-- What a call gives, by the number of calls before it. Each call goes on where the one
before it stopped. -/
def parseNth {σ α γ : Type} (builder : Builder σ α γ) : Nat → σ → Reader → Outcome σ α
  | 0, state, reader => parseValue builder state reader
  | calls + 1, state, reader =>
    let outcome := parseValue builder state reader
    parseNth builder calls outcome.state outcome.reader

end Parsing

open Parsing

/-- A source that ast mode accepts, with blanks in front of it. -/
structure Passage (limits : Limits) where
  blanks : String
  source : String
  literal : Literal
  isBlank_of_mem : ∀ c ∈ blanks.toList, isBlank c = true
  accepted : parse .ast limits source = .ok (.ast literal)

namespace Passage

variable {limits : Limits}

/-- The text of the passages. -/
def joined (passages : List (Passage limits)) : String :=
  .join (passages.map fun passage => passage.blanks ++ passage.source)

/-- The characters of the passages. -/
def chars (passages : List (Passage limits)) : List Char :=
  passages.flatMap fun passage => passage.blanks.toList ++ passage.source.toList

theorem chars_cons (passage : Passage limits) (passages : List (Passage limits)) :
    chars (passage :: passages) = chars [passage] ++ chars passages := by
  simp only [chars, List.flatMap_cons, List.flatMap_nil, List.append_nil]

/-- What writing the values of the passages costs. -/
def totalCost (passages : List (Passage limits)) : Nat :=
  (passages.map fun passage => passage.literal.cost).sum

theorem totalCost_cons (passage : Passage limits) (passages : List (Passage limits)) :
    totalCost (passage :: passages) = passage.literal.cost + totalCost passages := by
  rw [totalCost, List.map_cons, List.sum_cons, totalCost]

/-- Behind these passages the reader is at the first token of the next one, or at the end of
the input, and no aggregate is open. -/
def StandsBetween (front back : List (Passage limits)) (reader : Reader) : Prop :=
  reader.depth = 0 ∧
    match back with
    | [] => reader.lookahead.isEof = true
    | next :: _ => ∃ first others, tokenize next.source = .ok (first :: others) ∧
        reader.lookahead = first.behind (chars front ++ next.blanks.toList)

/-! ## The tokens of passages -/

/-- The tokens of the source alone. -/
def tokens (passage : Passage limits) : List Token :=
  (Cursor.ofString passage.source).scan.tokens

/-- The tokens of passages behind a text. -/
def tokensBehind (before : List Char) : List (Passage limits) → List Token
  | [] => []
  | passage :: passages =>
    passage.tokens.map (Token.behind (before ++ passage.blanks.toList)) ++
      tokensBehind (before ++ passage.blanks.toList ++ passage.source.toList) passages

/-- The reader is in front of these passages, which stand behind a text. -/
structure Faces (before : List Char) (passages : List (Passage limits)) (reader : Reader) :
    Prop where
  scan_eq : reader.scan = { tokens := tokensBehind before passages, fault? := none }
  limits_eq : reader.limits = limits
  depth_eq : reader.depth = 0

theorem exists_word (passage : Passage limits) :
    ∃ derivation : Derivation, tokenize passage.source = .ok passage.tokens ∧
      passage.tokens.map Token.symbol = derivation.word .endComma ∧
      derivation.Fits limits 0 ∧ derivation.literal = passage.literal := by
  obtain ⟨tokens, derivation, htokens, hword, hfits, hliteral⟩ :=
    exists_derivation (parse_ast_eq_ok_iff_parseWhole.1 passage.accepted)
  have hsame : passage.tokens = tokens := by rw [Passage.tokens, tokenize_eq_ok_iff.1 htokens]
  rw [hsame]
  exact ⟨derivation, htokens, hword, hfits, hliteral⟩

end Passage

/-- A word ends in a number or in a closing brace. -/
theorem Derivation.getLast?_word (derivation : Derivation) :
    ∀ symbol ∈ (derivation.word .endComma).getLast?, symbol.plain ≠ .mark .comma := by
  intro symbol hmem
  cases derivation with
  | number value =>
    rw [word_number] at hmem
    cases hmem
    nofun
  | empty =>
    rw [word_empty] at hmem
    cases hmem
    nofun
  | list first others trailing =>
    have hclosing : (closingWord .endComma trailing).getLast? = some (.mark .rightCurly) := by
      cases trailing <;> rfl
    have hne : closingWord .endComma trailing ≠ [] := by
      cases trailing <;> nofun
    have hlast := List.getLast?_append_of_ne_nil (.mark .leftCurly ::
      (initializerWord (first.map (word .endComma)) ++
        othersWord (others.map (Initializer.map (word .endComma))))) hne
    rw [word_list, ← List.cons_append, hlast, hclosing] at hmem
    cases hmem
    nofun

namespace Passage

variable {limits : Limits}

/-- What is behind a passage starts with a blank, if there is anything. -/
theorem isBlank_of_head? {passages : List (Passage limits)}
    (hseparated : ∀ passage ∈ passages, passage.blanks ≠ "") :
    ∀ c ∈ (chars passages).head?, isBlank c = true := by
  cases passages with
  | nil => nofun
  | cons passage passages =>
    have hne : passage.blanks.toList ≠ [] := by
      simpa using hseparated passage (List.mem_cons_self ..)
    obtain ⟨blank, blanks, hblanks⟩ := List.exists_cons_of_ne_nil hne
    have hmem : blank ∈ passage.blanks.toList := hblanks ▸ List.mem_cons_self ..
    intro c hc
    rw [chars, List.flatMap_cons, hblanks] at hc
    cases hc
    exact passage.isBlank_of_mem blank hmem

/-- The tokens of passages are those that the sources have alone, each behind what stands in
front of its source. -/
theorem scan_between {passages : List (Passage limits)}
    (hseparated : ∀ passage ∈ passages.tail, passage.blanks ≠ "") (before : List Char) :
    (Cursor.between before (chars passages)).scan =
      { tokens := tokensBehind before passages, fault? := none } := by
  induction passages generalizing before with
  | nil => exact Cursor.scan_of_eof (Cursor.next_of_rest_nil rfl) (Token.isEof_atEnd ..)
  | cons passage passages ih =>
    obtain ⟨derivation, htokens, hword, -⟩ := passage.exists_word
    have hend : ∀ token ∈ passage.tokens.getLast?, token.symbol.plain ≠ .mark .comma := by
      intro token hmem
      apply derivation.getLast?_word
      rw [← hword, List.getLast?_map]
      exact Option.mem_map_of_mem _ hmem
    have hothers : ∀ other ∈ passages, other.blanks ≠ "" := hseparated
    have hrest : ∀ other ∈ passages.tail, other.blanks ≠ "" := fun other hmem =>
      hothers other (List.mem_of_mem_tail hmem)
    have hchars : chars (passage :: passages) =
        passage.blanks.toList ++ (passage.source.toList ++ chars passages) := by
      rw [chars, List.flatMap_cons, List.append_assoc]
      rfl
    rw [hchars, scan_between_blanks passage.isBlank_of_mem,
      scan_between_source (isBlank_of_head? hothers) htokens hend, ih hrest]
    rfl

end Passage

namespace Parsing

variable {limits : Limits}

/-- A call that succeeds has passed some tokens. -/
theorem exists_passes {σ α γ : Type} (builder : Builder σ α γ) {state : σ} {reader : Reader}
    {value : α} (hvalue : (parseValue builder state reader).result = .ok value) :
    ∃ tokens, Passes tokens reader (parseValue builder state reader).reader := by
  have hran := ran_parseValue builder state reader
  generalize parseValue builder state reader = outcome at hran hvalue ⊢
  cases hran with
  | finished value state tokens after hpath => exact ⟨tokens, hpath.passes⟩
  | halted => cases hvalue
  | refused => cases hvalue

section Calls

variable {reader : Reader} {front back : List (Passage limits)} {passage : Passage limits}
  {before : List Char}

/-- One call reads the tokens of one source. -/
theorem parseValue_passage (h : Passage.Faces before (passage :: back) reader) :
    ∃ after, parseValue literalBuilder () reader =
        { result := .ok passage.literal, state := (), reader := after } ∧
      Passage.Faces (before ++ Passage.chars [passage]) back after := by
  obtain ⟨derivation, -, hword, hfits, hliteral⟩ := passage.exists_word
  have hsymbols : (passage.tokens.map (Token.behind (before ++ passage.blanks.toList))).map
      Token.symbol = derivation.word .endComma := by
    rw [List.map_map, ← hword]
    rfl
  have hscan := h.scan_eq
  rw [Passage.tokensBehind] at hscan
  have hahead : Ahead limits 0 (derivation.word .endComma ++
      (Passage.tokensBehind (before ++ passage.blanks.toList ++ passage.source.toList) back).map
        Token.symbol) reader := by
    refine ⟨by rw [hscan], ?_, h.limits_eq, h.depth_eq⟩
    rw [hscan, ← hsymbols, ← List.map_append]
  obtain ⟨after, hrun, hafter⟩ := run_word derivation hfits hahead
  rw [run_complete, hliteral] at hrun
  refine ⟨after, hrun, ?_, hafter.limits_eq, hafter.depth_eq⟩
  -- The symbols that are left tell how many tokens are left, and these are the last ones.
  obtain ⟨read, hpass⟩ : ∃ read, Passes read reader
      (run literalBuilder () ⟨.value, []⟩ reader).reader :=
    exists_passes literalBuilder (congrArg Outcome.result hrun)
  have hsplit := hpass.scan
  rw [hrun, hscan] at hsplit
  have hlength := congrArg List.length hafter.symbols_eq
  rw [List.length_map, List.length_map] at hlength
  have hback := (List.append_inj' (congrArg Scan.tokens hsplit) hlength.symm).2
  have hfault : none = after.scan.fault? := congrArg Scan.fault? hsplit
  rw [hfault, Passage.chars, List.flatMap_singleton, ← List.append_assoc, hback]

/-- Every call goes on in front of its own source. -/
theorem exists_parseNth_literal (h : Passage.Faces before (front ++ back) reader) :
    ∃ middle, parseNth literalBuilder front.length () reader =
        parseValue literalBuilder () middle ∧
      Passage.Faces (before ++ Passage.chars front) back middle := by
  induction front generalizing before reader with
  | nil => exact ⟨reader, rfl, (List.append_nil before).symm ▸ h⟩
  | cons first front ih =>
    obtain ⟨after, hcall, hafter⟩ := parseValue_passage h
    obtain ⟨middle, hcalls, hmiddle⟩ := ih hafter
    refine ⟨middle, ?_, ?_⟩
    · rw [List.length_cons, parseNth, hcall]
      exact hcalls
    · rwa [Passage.chars_cons, ← List.append_assoc]

variable {budget : Budget}

/-- A call of the array builder that the budget covers leaves the reader where a call of the
literal builder leaves it, and pays for the value. -/
theorem parseValue_array_passage (h : Passage.Faces before (passage :: back) reader)
    (hfits : budget.written.toNat + passage.literal.cost ≤ budget.limit.toNat) :
    ∃ after written, parseValue arrayBuilder budget reader =
        { result := .ok passage.literal.materialize
          state := { budget with written }
          reader := after } ∧
      written.toNat = budget.written.toNat + passage.literal.cost ∧
      Passage.Faces (before ++ Passage.chars [passage]) back after := by
  obtain ⟨after, hcall, hafter⟩ := parseValue_passage h
  obtain ⟨written, harray, hwritten⟩ :=
    parseValue_array_of_literal (congrArg Outcome.result hcall) hfits
  rw [hcall] at harray
  exact ⟨after, written, harray, hwritten, hafter⟩

/-- A call that the budget does not cover is refused. -/
theorem parseValue_array_overrun (h : Passage.Faces before (passage :: back) reader)
    (hwritten : budget.written.toNat ≤ budget.limit.toNat)
    (hover : budget.limit.toNat < budget.written.toNat + passage.literal.cost) :
    ∃ found, (parseValue arrayBuilder budget reader).result =
      .error (.grammar { found, fault := .arrayTooLarge budget.limit }) := by
  obtain ⟨after, hcall, -⟩ := parseValue_passage h
  exact exists_parseValue_arrayTooLarge (congrArg Outcome.result hcall) hwritten hover

/-- Calls of the array builder go on in front of their sources as long as the budget covers
the values, and pay for these. -/
theorem exists_parseNth_array (h : Passage.Faces before (front ++ back) reader)
    (hfits : budget.written.toNat + Passage.totalCost front ≤ budget.limit.toNat) :
    ∃ (middle : Reader) (paid : Budget),
      parseNth arrayBuilder front.length budget reader = parseValue arrayBuilder paid middle ∧
      paid.limit = budget.limit ∧
      paid.written.toNat = budget.written.toNat + Passage.totalCost front ∧
      Passage.Faces (before ++ Passage.chars front) back middle := by
  induction front generalizing before reader budget with
  | nil => exact ⟨reader, budget, rfl, rfl, rfl, (List.append_nil before).symm ▸ h⟩
  | cons first front ih =>
    rw [Passage.totalCost_cons] at hfits ⊢
    have hfirst : budget.written.toNat + first.literal.cost ≤ budget.limit.toNat := by omega
    obtain ⟨after, spent, hcall, hspent, hafter⟩ := parseValue_array_passage h hfirst
    let others : Budget := { budget with written := spent }
    have hothers : others.written.toNat + Passage.totalCost front ≤ others.limit.toNat := by
      show spent.toNat + _ ≤ budget.limit.toNat
      omega
    obtain ⟨middle, paid, hcalls, hlimit, hpaid, hmiddle⟩ := ih hafter hothers
    refine ⟨middle, paid, ?_, hlimit, ?_, ?_⟩
    · rw [List.length_cons, parseNth, hcall]
      exact hcalls
    · rw [hpaid]
      show spent.toNat + _ = _
      omega
    · rwa [Passage.chars_cons, ← List.append_assoc]

end Calls

end Parsing

namespace Passage

variable {limits : Limits} {passages : List (Passage limits)}

theorem ofString_joined (passages : List (Passage limits)) :
    Cursor.ofString (joined passages) = Cursor.between [] (chars passages) := by
  rw [Cursor.ofString, joined, String.toList_join, List.flatMap_map, Cursor.between, chars]
  simp only [String.toList_append]
  rfl

/-- A reader opened on the text is in front of all passages. -/
theorem exists_reader (hseparated : ∀ passage ∈ passages.tail, passage.blanks ≠ "") :
    ∃ reader, Reader.ofString (joined passages) limits = .ok reader ∧
      Faces [] passages reader := by
  have hscan := scan_between hseparated []
  rw [← ofString_joined] at hscan
  obtain ⟨reader, hreader⟩ := Reader.exists_ofString limits (by rw [hscan])
  obtain ⟨hsame, -, hlimits, hdepth⟩ := Reader.scan_of_ofString hreader
  exact ⟨reader, hreader, hsame.trans hscan, hlimits, hdepth⟩

/-- A reader in front of passages has the first token of them as its lookahead. -/
theorem Faces.standsBetween {front back : List (Passage limits)} {reader : Reader}
    (h : Faces (chars front) back reader) : StandsBetween front back reader := by
  have hscan := h.scan_eq
  refine ⟨h.depth_eq, ?_⟩
  cases back with
  | nil => exact Reader.isEof_of_scan hscan
  | cons next back =>
    obtain ⟨derivation, htokens, hword, -⟩ := next.exists_word
    obtain ⟨symbol, symbols, hsymbols, -⟩ := Derivation.exists_word_eq_cons .endComma derivation
    rw [hsymbols] at hword
    obtain ⟨first, others, hfirst, -⟩ := List.map_eq_cons_iff.1 hword
    rw [tokensBehind, hfirst] at hscan
    rw [hfirst] at htokens
    exact ⟨first, others, htokens, (Reader.lookahead_of_scan hscan).1⟩

end Passage

/-- Values are parsed one after the other from one reader. On accepted sources with blanks
between them, every call of the literal builder gives what its source says, and leaves the
reader in front of the next source. So does every call of the array builder with a budget that
they share, for the exact cost of the value, up to the first one that the budget does not
cover. -/
theorem parseNth_passages {limits : Limits} (passages : List (Passage limits))
    (hseparated : ∀ passage ∈ passages.tail, passage.blanks ≠ "") :
    ∃ reader, Reader.ofString (Passage.joined passages) limits = .ok reader ∧
      ∀ front passage back, passages = front ++ passage :: back →
        (let outcome := parseNth literalBuilder front.length () reader
         outcome.result = .ok passage.literal ∧
           Passage.StandsBetween (front ++ [passage]) back outcome.reader) ∧
        ∀ limit : UInt64,
          let spent := Passage.totalCost front
          let outcome := parseNth arrayBuilder front.length (.ofLimit limit) reader
          (spent + passage.literal.cost ≤ limit.toNat →
            outcome.result = .ok passage.literal.materialize ∧
            outcome.state.written.toNat = spent + passage.literal.cost ∧
            outcome.state.limit = limit ∧
            Passage.StandsBetween (front ++ [passage]) back outcome.reader) ∧
          (spent ≤ limit.toNat → limit.toNat < spent + passage.literal.cost →
            ∃ found, outcome.result =
              .error (.grammar { found, fault := .arrayTooLarge limit })) := by
  obtain ⟨reader, hreader, hall⟩ := Passage.exists_reader hseparated
  refine ⟨reader, hreader, ?_⟩
  intro front passage back hpassages
  rw [hpassages] at hall
  have hchars : Passage.chars front ++ Passage.chars [passage] =
      Passage.chars (front ++ [passage]) := List.flatMap_append.symm
  constructor
  · obtain ⟨middle, hcalls, hmiddle⟩ := exists_parseNth_literal hall
    obtain ⟨after, hcall, hafter⟩ := parseValue_passage hmiddle
    rw [List.nil_append, hchars] at hafter
    rw [hcalls, hcall]
    exact ⟨rfl, hafter.standsBetween⟩
  · intro limit spent outcome
    have hnothing : (Budget.ofLimit limit).written.toNat = 0 := rfl
    -- Both answers are about a front that the budget covers.
    have hcovered (hfront : spent ≤ limit.toNat) :
        ∃ (middle : Reader) (paid : Budget), outcome = parseValue arrayBuilder paid middle ∧
          paid.limit = limit ∧ paid.written.toNat = spent ∧
          Passage.Faces (Passage.chars front) (passage :: back) middle := by
      obtain ⟨middle, paid, hcalls, hlimit, hpaid, hmiddle⟩ :=
        exists_parseNth_array hall (by rw [hnothing, Nat.zero_add]; exact hfront)
      rw [hnothing, Nat.zero_add] at hpaid
      exact ⟨middle, paid, hcalls, hlimit, hpaid, hmiddle⟩
    constructor
    · intro hfits
      obtain ⟨middle, paid, houtcome, rfl, hpaid, hmiddle⟩ := hcovered (by omega)
      rw [← hpaid] at hfits ⊢
      obtain ⟨after, written, hcall, hwritten, hafter⟩ := parseValue_array_passage hmiddle hfits
      rw [hchars] at hafter
      rw [houtcome, hcall]
      exact ⟨rfl, hwritten, rfl, hafter.standsBetween⟩
    · intro hfits hover
      obtain ⟨middle, paid, houtcome, rfl, hpaid, hmiddle⟩ := hcovered hfits
      rw [← hpaid] at hfits hover
      rw [houtcome]
      exact parseValue_array_overrun hmiddle hfits hover

/-- Three sources on one reader, and a budget that does not cover the last one. -/
theorem parseNth_passages_three :
    ∃ passages : List (Passage {}),
      Passage.joined passages = "\x7b7, 8\x7d\n5 \x7b\x7b\x7d\x7d" ∧
      (∀ passage ∈ passages.tail, passage.blanks ≠ "") ∧
      ∃ reader, Reader.ofString (Passage.joined passages) {} = .ok reader ∧
        (parseNth literalBuilder 2 () reader).result =
          .ok (.aggregate [⟨none, .aggregate []⟩]) ∧
        (parseNth arrayBuilder 1 (.ofLimit 2) reader).result = .ok (.integer 5) ∧
        (parseNth arrayBuilder 1 (.ofLimit 2) reader).state.written.toNat = 2 ∧
        ∃ found, (parseNth arrayBuilder 2 (.ofLimit 2) reader).result =
          .error (.grammar { found, fault := .arrayTooLarge 2 }) := by
  let first : Passage {} := {
    blanks := ""
    source := "\x7b7, 8\x7d"
    literal := .aggregate [⟨none, .number 7⟩, ⟨none, .number 8⟩]
    isBlank_of_mem := nofun
    accepted := by cbv }
  let second : Passage {} := {
    blanks := "\n"
    source := "5"
    literal := .number 5
    isBlank_of_mem := List.all_eq_true.1 rfl
    accepted := by cbv }
  let third : Passage {} := {
    blanks := " "
    source := "\x7b\x7b\x7d\x7d"
    literal := .aggregate [⟨none, .aggregate []⟩]
    isBlank_of_mem := List.all_eq_true.1 rfl
    accepted := by cbv }
  have hseparated : ∀ passage ∈ [first, second, third].tail, passage.blanks ≠ "" := by
    simp [first, second, third]
  obtain ⟨reader, hreader, hcalls⟩ := parseNth_passages [first, second, third] hseparated
  obtain ⟨-, hsecond⟩ := hcalls [first] second [third] rfl
  obtain ⟨hthird, hlast⟩ := hcalls [first, second] third [] rfl
  have hcost : Passage.totalCost [first] + second.literal.cost = 2 := by cbv
  have hcosts : Passage.totalCost [first, second] = 2 := by cbv
  have hlastCost : third.literal.cost = 1 := by cbv
  have hfive : second.literal.materialize = .integer 5 := Literal.materialize_number 5
  obtain ⟨hvalue, hwritten, -⟩ := (hsecond 2).1 (Nat.le_of_eq hcost)
  have hrefused := (hlast 2).2 (Nat.le_of_eq hcosts) (by rw [hcosts, hlastCost]; decide)
  exact ⟨[first, second, third], rfl, hseparated, reader, hreader, hthird.1, hfive ▸ hvalue,
    hwritten.trans hcost, hrefused⟩

end ArrayLiteral
