import Mathlib
import ArrayLiteral.Program
import ArrayLiteral.Proofs.Pulls
import ArrayLiteral.Proofs.Spacing

/-!
# What the program answers

The program looks at its source twice.  It takes the blanks off the ends, and prints nothing
if nothing is left.  Otherwise it parses the source, which pulls tokens from it.  The two agree
on what an empty source is: trimming leaves nothing if and only if the first pull comes to the
end of the input (`isEmpty_iff_next`), and so if and only if there are no tokens
(`tokenize_eq_nil_iff`).  So the program reports no error about the end of a source that has
nothing in it, though in two of the modes a parse of it would fail.

What is printed for any other source is one line or more of JSON text, and the only line break
at its end is the one that the program puts there (`endsVisibly_render`).
-/

namespace ArrayLiteral

open Text

/-! ## Empty sources -/

theorem trim_eq_nil_iff {text : List Char} : trim text = [] ↔ ∀ c ∈ text, isBlank c = true := by
  rw [trim, List.reverse_eq_nil_iff, List.dropWhile_eq_nil_iff]
  constructor
  · intro h
    -- What is left in front starts with a character that is no blank, if with any.
    have hnone : text.dropWhile isBlank = [] := by
      rw [← List.head?_eq_none_iff, Option.eq_none_iff_forall_not_mem]
      intro c hhead
      have hblank := h c (List.mem_reverse.2 (List.mem_of_mem_head? hhead))
      have hvisible := List.head?_dropWhile_not isBlank text
      rw [Option.mem_def.1 hhead] at hvisible
      simp [hblank] at hvisible
    exact List.dropWhile_eq_nil_iff.1 hnone
  · intro h c hmem
    exact h c ((List.dropWhile_suffix _).subset (List.mem_reverse.1 hmem))

/-- A pull comes to the end of the input if nothing but blanks is left, and only then. -/
theorem Cursor.exists_next_isEof_iff {cursor : Cursor} :
    (∃ token, cursor.next.1 = .ok token ∧ token.isEof = true) ↔
      ∀ c ∈ cursor.rest, isBlank c = true := by
  rw [← List.dropWhile_eq_nil_iff]
  constructor
  · intro h
    obtain ⟨token, hresult, heof⟩ := h
    obtain ⟨hbehind, hrest, -⟩ := eq_of_next_isEof (Prod.ext hresult rfl) heof
    rwa [hbehind, skipBlanks_rest] at hrest
  · intro h
    exact ⟨_, congrArg Prod.fst (next_of_skipBlanks_nil (cursor.skipBlanks_rest.trans h)), rfl⟩

/-- Trimming and pulling agree on which sources are empty. -/
theorem Program.isEmpty_iff_next {source : String} :
    Program.isEmpty source = true ↔
      ∃ token, (Cursor.ofString source).next.1 = .ok token ∧ token.isEof = true := by
  rw [Program.isEmpty, List.isEmpty_iff, trim_eq_nil_iff, Cursor.exists_next_isEof_iff]
  rfl

theorem Program.tokenize_eq_nil_iff {source : String} :
    tokenize source = .ok [] ↔ Program.isEmpty source = true := by
  rw [tokenize_eq_ok_iff, Program.isEmpty_iff_next]
  rcases hnext : (Cursor.ofString source).next with ⟨result, after⟩
  cases result with
  | error error =>
    rw [Cursor.scan_of_error hnext]
    simp
  | ok token =>
    cases heof : token.isEof with
    | true =>
      rw [Cursor.scan_of_eof hnext heof]
      exact ⟨fun _ => ⟨token, rfl, heof⟩, fun _ => rfl⟩
    | false =>
      rw [Cursor.scan_of_token hnext heof]
      simp [Scan.prepend, heof]

/-! ## Printed texts -/

/-- The text has a last character, which is no line break. -/
def EndsVisibly (text : String) : Prop :=
  ∃ front last, text.toList = front ++ [last] ∧ last ≠ '\n'

theorem EndsVisibly.prepend (front : String) {back : String} (h : EndsVisibly back) :
    EndsVisibly (front ++ back) := by
  obtain ⟨before, last, htext, hlast⟩ := h
  refine ⟨front.toList ++ before, last, ?_, hlast⟩
  rw [String.toList_append, htext, List.append_assoc]

theorem endsVisibly_toString (number : Nat) : EndsVisibly (toString number) := by
  have hne : (toString number).toList ≠ [] := by
    rw [Nat.toString_eq_ofList_toDigits, String.toList_ofList]
    exact Nat.toDigits_ne_nil
  refine ⟨_, _, (List.dropLast_append_getLast hne).symm, ?_⟩
  intro hbreak
  have hdigit := isDigit_of_mem_toString (List.getLast_mem hne)
  rw [hbreak] at hdigit
  cases hdigit

namespace Json

theorem endsVisibly_quote (text : String) : EndsVisibly (quote text) :=
  .prepend _ ⟨[], '"', rfl, by decide⟩

theorem endsVisibly_compact (document : Json) : EndsVisibly document.compact := by
  cases document with
  | number value =>
    rw [compact_number]
    exact endsVisibly_toString _
  | string text =>
    rw [compact_string]
    exact endsVisibly_quote text
  | array elements =>
    rw [compact_array]
    exact .prepend _ ⟨[], ']', rfl, by decide⟩
  | object fields =>
    rw [compact_object]
    exact .prepend _ ⟨[], '\x7d', rfl, by decide⟩

theorem endsVisibly_pretty (document : Json) : EndsVisibly document.pretty := by
  unfold pretty
  cases document with
  | number value =>
    rw [prettyAt_number]
    exact endsVisibly_toString _
  | string text =>
    rw [prettyAt_string]
    exact endsVisibly_quote text
  | array elements =>
    rw [prettyAt_array]
    split
    · exact ⟨['['], ']', rfl, by decide⟩
    · exact .prepend _ ⟨[], ']', rfl, by decide⟩
  | object fields =>
    rw [prettyAt_object]
    split
    · exact ⟨['\x7b'], '\x7d', rfl, by decide⟩
    · exact .prepend _ ⟨[], '\x7d', rfl, by decide⟩

theorem endsVisibly_render (pretty : Bool) (document : Json) :
    EndsVisibly (document.render pretty) := by
  cases pretty with
  | true => exact endsVisibly_pretty document
  | false => exact endsVisibly_compact document

end Json

/-- The text ends in a line break, and not in two. -/
def EndsInOneLineBreak (text : String) : Prop :=
  ∃ line, text = line ++ "\n" ∧ line.toList.getLast? ≠ some '\n'

theorem EndsVisibly.endsInOneLineBreak {text : String} (h : EndsVisibly text) :
    EndsInOneLineBreak (text ++ "\n") := by
  obtain ⟨front, last, htext, hlast⟩ := h
  refine ⟨text, rfl, fun hbreak => hlast ?_⟩
  rw [htext, List.getLast?_concat] at hbreak
  exact Option.some.inj hbreak

/-! ## Answers -/

namespace Program

section Answer

variable {arguments : List String} {surroundings : Surroundings} {options : Options}
  {source : String}

theorem run_eq_answer (haccepted : CommandLine.read arguments = .run options)
    (hreadable : options.input.source surroundings = .ok source) :
    run arguments surroundings = answer options source := by
  simp only [run, haccepted, hreadable]

theorem answer_of_isEmpty (h : isEmpty source = true) :
    answer options source = { exitCode := 0 } := by
  rw [answer, if_pos h]

theorem answer_of_ok {output : Output} (h : isEmpty source = false)
    (hparse : parse options.mode options.limits source = .ok output) :
    answer options source =
      { exitCode := 0, stdout := output.toJson.render options.pretty ++ "\n" } := by
  simp [answer, h, hparse]

theorem answer_of_error {error : Error} (h : isEmpty source = false)
    (hparse : parse options.mode options.limits source = .error error) :
    answer options source = { exitCode := 1, stderr := error.message ++ "\n" } := by
  simp [answer, h, hparse]

/-- The program says nothing and succeeds if and only if its source has no tokens, in all
modes. For any other source it succeeds if and only if the parse does, and then it prints the
JSON text and one line break. If the parse fails it prints nothing, fails, and reports the
error of the parse. No error that it reports is about the end of the input where that is the
first token. -/
theorem run_agrees_with_parse (haccepted : CommandLine.read arguments = .run options)
    (hreadable : options.input.source surroundings = .ok source) :
    let answer := run arguments surroundings
    let result := parse options.mode options.limits source
    (answer.exitCode = 0 ∧ answer.stdout = "" ↔ tokenize source = .ok []) ∧
    (tokenize source ≠ .ok [] →
      (answer.exitCode = 0 ∧ EndsInOneLineBreak answer.stdout ↔ ∃ output, result = .ok output) ∧
      (answer.exitCode = 1 ∧ answer.stdout = "" ↔ ∃ error, result = .error error) ∧
      ∀ output, result = .ok output →
        answer.stdout = output.toJson.render options.pretty ++ "\n") ∧
    (answer.exitCode = 1 → ∃ error, result = .error error ∧ answer.stderr = error.message ++ "\n" ∧
      ∀ found fault, error = .grammar { found, fault } →
        (Cursor.ofString source).next.1 = .ok found → found.isEof = false) := by
  rw [run_eq_answer haccepted hreadable]
  intro answer result
  cases hempty : isEmpty source with
  | true =>
    have hanswer : answer = { exitCode := 0 } := answer_of_isEmpty hempty
    have htokens := tokenize_eq_nil_iff.2 hempty
    rw [hanswer]
    exact ⟨⟨fun _ => htokens, fun _ => ⟨rfl, rfl⟩⟩, fun hmore => absurd htokens hmore, nofun⟩
  | false =>
    have hmore : tokenize source ≠ .ok [] := by
      rw [ne_eq, tokenize_eq_nil_iff, hempty]
      exact Bool.false_ne_true
    have hfirst : ∀ found, (Cursor.ofString source).next.1 = .ok found → found.isEof = false := by
      intro found hnext
      cases heof : found.isEof with
      | false => rfl
      | true =>
        rw [isEmpty_iff_next.2 ⟨found, hnext, heof⟩] at hempty
        cases hempty
    cases hresult : result with
    | ok output =>
      have hanswer : answer = _ := answer_of_ok hempty hresult
      have hends := (Json.endsVisibly_render options.pretty output.toJson).endsInOneLineBreak
      rw [hanswer]
      refine ⟨⟨fun h => absurd h.2 ?_, fun h => absurd h hmore⟩, fun _ => ⟨?_, ?_, ?_⟩, nofun⟩
      · simp
      · exact ⟨fun _ => ⟨output, rfl⟩, fun _ => ⟨rfl, hends⟩⟩
      · exact ⟨nofun, nofun⟩
      · intro output' heq
        cases heq
        rfl
    | error error =>
      have hanswer : answer = _ := answer_of_error hempty hresult
      rw [hanswer]
      refine ⟨⟨nofun, fun h => absurd h hmore⟩, fun _ => ⟨⟨nofun, nofun⟩, ?_, nofun⟩, fun _ => ?_⟩
      · exact ⟨fun _ => ⟨error, rfl⟩, fun _ => ⟨rfl, rfl⟩⟩
      · exact ⟨error, rfl, rfl, fun found fault _ hnext => hfirst found hnext⟩

end Answer

/-- Blanks beyond ASCII are no program, and no error either, though there is no tree of them. -/
theorem run_agrees_with_parse_blanks :
    let arguments := ["-pm", "ast", "\u2003\n\u3000"]
    let surroundings : Surroundings := { standardInput := .empty, file := fun _ => .error .missing }
    let options : Options := { mode := .ast, pretty := true, contents? := some "\u2003\n\u3000" }
    CommandLine.read arguments = .run options ∧
    options.input.source surroundings = .ok "\u2003\n\u3000" ∧
    (∃ error, parse options.mode options.limits "\u2003\n\u3000" = .error error) ∧
    (run arguments surroundings).exitCode = 0 ∧ (run arguments surroundings).stdout = "" := by
  intro arguments surroundings options
  have haccepted : CommandLine.read arguments = .run options := rfl
  have hreadable : options.input.source surroundings = .ok "\u2003\n\u3000" := rfl
  have htokens : tokenize "\u2003\n\u3000" = .ok [] := by cbv
  have hfails : ∃ error, parse options.mode options.limits "\u2003\n\u3000" = .error error :=
    ⟨.grammar {
      found := .atEnd 7 2
      fault := .unexpectedToken "NUMBER or LCURLY" }, by cbv⟩
  have hanswer := (run_agrees_with_parse haccepted hreadable).1
  exact ⟨haccepted, hreadable, hfails, hanswer.2 htokens⟩

end Program

end ArrayLiteral
