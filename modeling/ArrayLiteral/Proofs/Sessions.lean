import Mathlib
import ArrayLiteral.Proofs.Journal

/-!
# Sessions with a reader

A reader can be used by hand: tokens are consumed, aggregates are entered and left, and
values are parsed, in any order and with any builder.  An operation that fails leaves the
reader somewhere, and the session goes on from there.

No token is lost in this, and none is seen twice (`performAll_keeps_journal`).  The tokens
consumed and the lookahead are what the pulls from the source gave, and each lexical error
that they gave was returned by an operation of its own.
-/

namespace ArrayLiteral

open Parsing

/-- One thing to do with a reader. -/
inductive Operation : Type 1
  | consume
  | require (kind : Kind)
  | enterAggregate
  | leaveAggregate
  /-- Parses one value with a builder in some state. -/
  | value {σ α γ : Type} (builder : Builder σ α γ) (state : σ)

/-- The lexical error that an operation failed with, if it failed with one. -/
def lexicalFault? : Option Error → Option LexicalError
  | some (.lexical error) => some error
  | _ => none

namespace Reader

/-- The error that a step failed with, if it failed, and the reader that it left. -/
def settle {α : Type} : EStateM.Result Error Reader α → Option Error × Reader
  | .ok _ after => (none, after)
  | .error error after => (some error, after)

/-- Does one operation. -/
def perform (reader : Reader) : Operation → Option Error × Reader
  | .consume => settle (Reading.consume reader)
  | .require kind => settle (Reading.require kind reader)
  | .enterAggregate => settle (Reading.enterAggregate reader)
  | .leaveAggregate => settle (Reading.leaveAggregate reader)
  | .value builder state => settle (parseValue builder state reader).toResult

/-- Does the operations one after the other. One that fails stops none of the next ones. -/
def performAll (reader : Reader) : List Operation → List (Option Error) × Reader
  | [] => ([], reader)
  | operation :: operations =>
    let (error?, after) := reader.perform operation
    let (errors, last) := after.performAll operations
    (error? :: errors, last)

/-- An operation follows, and returns the lexical error of the pull that failed. -/
theorem exists_follows_settle {α : Type} {post : α → Reader → Prop} {reader : Reader}
    {result : EStateM.Result Error Reader α} (h : Accounted post reader result) :
    ∃ results, Follows results reader (settle result).2 ∧
      faultsOf results = (lexicalFault? (settle result).1).toList := by
  cases h with
  | ok value after tokens hfollows => exact ⟨_, hfollows, faultsOf_map_ok tokens⟩
  | error error after tokens hfollows =>
    refine ⟨_, hfollows, ?_⟩
    rw [faultsOf_append, faultsOf_map_ok]
    cases error <;> rfl

theorem exists_follows_perform (reader : Reader) (operation : Operation) :
    ∃ results, Follows results reader (reader.perform operation).2 ∧
      faultsOf results = (lexicalFault? (reader.perform operation).1).toList := by
  cases operation with
  | consume => exact exists_follows_settle Reading.accounted_consume
  | require kind => exact exists_follows_settle (Reading.accounted_require kind)
  | enterAggregate => exact exists_follows_settle Reading.accounted_enterAggregate
  | leaveAggregate => exact exists_follows_settle Reading.accounted_leaveAggregate
  | value builder state => exact exists_follows_settle (accounted_parseValue builder state reader)

theorem exists_follows_performAll (reader : Reader) (operations : List Operation) :
    ∃ results, Follows results reader (reader.performAll operations).2 ∧
      faultsOf results = (reader.performAll operations).1.filterMap lexicalFault? := by
  induction operations generalizing reader with
  | nil => exact ⟨[], .refl reader, rfl⟩
  | cons operation operations ih =>
    obtain ⟨results, hfollows, hfaults⟩ := exists_follows_perform reader operation
    obtain ⟨more, hfollows', hfaults'⟩ := ih (reader.perform operation).2
    refine ⟨results ++ more, hfollows.append hfollows', ?_⟩
    rw [faultsOf_append, hfaults, hfaults']
    show _ = List.filterMap lexicalFault? ((reader.perform operation).1 :: _)
    cases hlexical : lexicalFault? (reader.perform operation).1 with
    | none => rw [List.filterMap_cons_none hlexical]; rfl
    | some error => rw [List.filterMap_cons_some hlexical]; rfl

/-- Whatever was done with a reader, no more aggregates are open than may be, and the
tokens consumed, with the lookahead behind them, are the tokens that the pulls from the
source gave, in this order. The lookahead is the last of them. The errors that these pulls
gave are those that the operations returned, in this order. -/
theorem performAll_keeps_journal (limits : Limits) (source : String) (reader : Reader)
    (hopened : Reader.ofString source limits = .ok reader) (operations : List Operation) :
    let errors := (reader.performAll operations).1
    let after := (reader.performAll operations).2
    after.depth ≤ limits.maxDepth.toNat ∧
    ∃ pulls,
      let results := (Cursor.ofString source).results pulls
      after.cursor = (Cursor.ofString source).after pulls ∧
      tokensOf results = after.consumed.reverse ++ [after.lookahead] ∧
      (tokensOf results).getLast? = some after.lookahead ∧
      faultsOf results = errors.filterMap lexicalFault? := by
  intro errors after
  obtain ⟨-, -, hlimits, hdepth⟩ := Reader.scan_of_ofString hopened
  obtain ⟨more, hfollows, hfaults⟩ := exists_follows_performAll reader operations
  have hrecorded := (Recorded.ofString hopened).follows hfollows
  have htokens : tokensOf _ = after.consumed.reverse ++ [after.lookahead] :=
    hrecorded.pulled_eq.symm
  constructor
  · have hle := hfollows.depth_le (by rw [hdepth]; exact Nat.zero_le _)
    rwa [hlimits] at hle
  · refine ⟨_, hrecorded.cursor_eq, ?_⟩
    rw [hrecorded.results_eq]
    refine ⟨htokens, ?_, ?_⟩
    · rw [htokens, List.getLast?_append, List.getLast?_singleton, Option.some_or]
    · rw [faultsOf_append, hfaults]
      rfl

/-- A strange character is returned once, and the brace before it is consumed once. -/
theorem performAll_keeps_journal_dollar :
    let source := "\x7b$1"
    ∃ reader, Reader.ofString source {} = .ok reader ∧
      let after := (reader.performAll [.consume, .consume, .value literalBuilder ()]).2
      after.depth ≤ 128 ∧ after.consumed.length = 2 ∧ ∃ pulls,
        tokensOf ((Cursor.ofString source).results pulls) =
          after.consumed.reverse ++ [after.lookahead] ∧
        faultsOf ((Cursor.ofString source).results pulls) =
          [{ fault := .unexpectedCharacter '$', position := 1, line := 1 }] := by
  intro source
  let brace : Token :=
    { symbol := .mark .leftCurly, lexeme := "\x7b", start := 0, stop := 1, line := 1 }
  let reader : Reader :=
    { cursor := { rest := ['$', '1'], offset := 1, line := 1 }, lookahead := brace,
      consumed := [], limits := {}, depth := 0 }
  have hopened : Reader.ofString source {} = .ok reader := by cbv
  have herrors :
      (reader.performAll [.consume, .consume, .value literalBuilder ()]).1.filterMap lexicalFault? =
        [{ fault := .unexpectedCharacter '$', position := 1, line := 1 }] := by cbv
  have hlength :
      (reader.performAll [.consume, .consume, .value literalBuilder ()]).2.consumed.length = 2 := by
    cbv
  obtain ⟨hdepth, pulls, -, htokens, -, hfaults⟩ := performAll_keeps_journal {} source reader
    hopened [.consume, .consume, .value literalBuilder ()]
  exact ⟨reader, hopened, hdepth, hlength, pulls, htokens, hfaults.trans herrors⟩

end Reader

end ArrayLiteral
