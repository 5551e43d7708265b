import Mathlib
import ArrayLiteral.Proofs.Commas
import ArrayLiteral.Proofs.Pieces
import ArrayLiteral.Proofs.StringsIn

/-!
# What the renderings have in common

An output is printed as JSON in one of two forms, and a value also as text.  All outputs are
bare documents, because lexemes are made of digits, of dots and of marks
(`Cursor.isBare_of_scan`).  So the compact form is the pretty one without spaces and line
breaks, and every lexeme stands in the text as it is.  Reading the lexemes back from either
form gives the source without its blanks (`renderings_agree`).
-/

namespace ArrayLiteral

open Text (isBlank)

/-! ## Values and trees -/

/-- The text of a value is its compact JSON text with spaces behind the commas. -/
theorem Value.without_isSpace_display (value : Value) :
    without isSpace value.display = value.toJson.compact := by
  have hseparator : without isSpace ", " = "," := rfl
  induction value using Value.induction with
  | integer value =>
    rw [display_integer, toJson_integer, Json.compact_number]
    exact without_eq_self fun c hmem => isSpace_of_isDigit (isDigit_of_mem_toString hmem)
  | array elements ih =>
    have helements : (elements.map display).map (without isSpace) =
        (elements.map toJson).map Json.compact := by
      rw [List.map_map, List.map_map]
      exact List.map_congr_left ih
    rw [display_array, toJson_array, Json.compact_array, without_append, without_append,
      without_intercalate, helements, hseparator]
    rfl

theorem Value.bare_toJson (value : Value) : value.toJson.Bare := by
  induction value using Value.induction with
  | integer value =>
    rw [toJson_integer, Json.Bare, Json.strings_number]
    nofun
  | array elements ih =>
    rw [toJson_array, Json.Bare, Json.strings_array, List.flatMap_map]
    intro text hmem
    obtain ⟨element, helement, htext⟩ := List.mem_flatMap.1 hmem
    exact ih element helement text htext

theorem Tag.isBare_name (tag : Tag) : ∀ c ∈ tag.name.toList, Json.isBare c = true := by
  rw [← List.all_eq_true]
  cases tag <;> rfl

theorem Tree.bare_toJson (tree : Tree) : tree.toJson.Bare := by
  have htag : ∀ c ∈ "tag".toList, Json.isBare c = true := List.all_eq_true.1 rfl
  have hkids : ∀ c ∈ "kids".toList, Json.isBare c = true := List.all_eq_true.1 rfl
  induction tree using Tree.induction with
  | leaf value =>
    rw [toJson_leaf, Json.Bare, Json.strings_number]
    nofun
  | node tag children ih =>
    rw [toJson_node, Json.Bare]
    simp only [Json.strings_object, Json.strings_string, Json.strings_array, List.flatMap_cons,
      List.flatMap_nil, List.append_nil, List.flatMap_map]
    intro text hmem
    simp only [List.cons_append, List.nil_append, List.mem_cons] at hmem
    rcases hmem with rfl | rfl | rfl | hmem
    · exact htag
    · exact tag.isBare_name
    · exact hkids
    · obtain ⟨child, hchild, htext⟩ := List.mem_flatMap.1 hmem
      exact ih child hchild text htext

/-! ## Tokens -/

namespace Lexeme

variable {first : Char} {rest lexeme behind : List Char} {symbol : Symbol}

/-- What is read as a symbol is made of digits, of dots, or of a mark. -/
theorem isBare_of_readSymbol (hmunch : munch first rest = (lexeme, behind))
    (hread : readSymbol first lexeme behind = .ok symbol) :
    ∀ c ∈ lexeme, Json.isBare c = true := by
  unfold readSymbol at hread
  rcases munch_cases first rest with ⟨hdigit, h⟩ | ⟨hdigit, hdot, h⟩ | ⟨hdigit, hdot, h⟩
  · rw [hmunch] at h
    cases h
    exact fun c hmem => Json.isBare_of_isDigit (all_run rest hdigit c hmem)
  · rw [hmunch] at h
    cases h
    intro c hmem
    rw [of_decide_eq_true (all_run rest hdot c hmem)]
    decide
  · rw [hmunch] at h
    cases h
    rw [if_neg (by rw [hdigit]; nofun), if_neg (by rw [hdot]; nofun)] at hread
    rw [List.forall_mem_singleton]
    split at hread <;> first | decide | cases hread

end Lexeme

theorem mem_dropWhile {p : Char → Bool} {c : Char} {text : List Char} (hmem : c ∈ text)
    (hc : p c = false) : c ∈ text.dropWhile p := by
  rw [← List.takeWhile_append_dropWhile (p := p) (l := text), List.mem_append] at hmem
  rcases hmem with hmem | hmem
  · rw [List.all_eq_true.1 List.all_takeWhile c hmem] at hc
    cases hc
  · exact hmem

/-- Blanks apart, the characters of a text without lexical errors are bare. -/
theorem Cursor.isBare_of_scan (cursor : Cursor) (hfault : cursor.scan.fault? = none) :
    ∀ c ∈ cursor.rest, isBlank c = false → Json.isBare c = true := by
  intro c hmem hblank
  have hbehind := mem_dropWhile hmem hblank
  clear hmem
  fun_induction Cursor.scan cursor with
  | case1 => cases hfault
  | case2 cursor token after hnext hend =>
    obtain ⟨rfl, hnil, -⟩ := Cursor.eq_of_next_isEof hnext hend
    rw [← cursor.skipBlanks_rest, hnil] at hbehind
    cases hbehind
  | case3 cursor token after hnext hend ih =>
    obtain ⟨first, lexeme, rest, hrest, hmunch, hread⟩ :=
      Cursor.readSymbol_of_next hnext (Bool.eq_false_iff.2 hend)
    have hlexeme := Lexeme.munch_append first rest
    rw [hmunch] at hlexeme
    rw [hrest, ← hlexeme, List.mem_append] at hbehind
    rcases hbehind with hmem | hmem
    · exact Lexeme.isBare_of_readSymbol hmunch hread c hmem
    · exact ih hfault (mem_dropWhile hmem hblank)

section Tokens

variable {source : String} {tokens : List Token}

theorem flatMap_lexeme (h : tokenize source = .ok tokens) :
    tokens.flatMap (fun token => token.lexeme.toList) =
      source.toList.filter fun c => !isBlank c := by
  have hscan := tokenize_eq_ok_iff.1 h
  have hlexemes := flatMap_lexeme_scan (Located.ofString source) (by rw [hscan])
  rwa [hscan] at hlexemes

theorem isBare_lexeme (h : tokenize source = .ok tokens) {token : Token} (hmem : token ∈ tokens) :
    ∀ c ∈ token.lexeme.toList, Json.isBare c = true := by
  intro c hc
  have hsource : c ∈ tokens.flatMap fun token => token.lexeme.toList :=
    List.mem_flatMap_of_mem hmem hc
  rw [flatMap_lexeme h, List.mem_filter, Bool.not_eq_true'] at hsource
  have hfault : (Cursor.ofString source).scan.fault? = none := by rw [tokenize_eq_ok_iff.1 h]
  exact (Cursor.ofString source).isBare_of_scan hfault c hsource.1 hsource.2

theorem Kind.isBare_name (kind : Kind) : ∀ c ∈ kind.name.toList, Json.isBare c = true := by
  rw [← List.all_eq_true]
  rcases kind with _ | punctuation | _
  · rfl
  · cases punctuation <;> rfl
  · rfl

theorem Token.strings_toJson (token : Token) :
    token.toJson.strings = ["kind", token.kind.name, "lexeme", token.lexeme] := by
  simp [toJson]

theorem strings_tokens (tokens : List Token) :
    (Output.tokens tokens).toJson.strings =
      tokens.flatMap fun token => ["kind", token.kind.name, "lexeme", token.lexeme] := by
  rw [Output.toJson, Json.strings_array, List.flatMap_map]
  simp only [Token.strings_toJson]

theorem bare_tokens (h : tokenize source = .ok tokens) : (Output.tokens tokens).toJson.Bare := by
  rw [Json.Bare, strings_tokens]
  intro text htext
  obtain ⟨token, hmem, htext⟩ := List.mem_flatMap.1 htext
  simp only [List.mem_cons, List.not_mem_nil, or_false] at htext
  rcases htext with rfl | rfl | rfl | rfl
  · exact List.all_eq_true.1 rfl
  · exact token.kind.isBare_name
  · exact List.all_eq_true.1 rfl
  · exact isBare_lexeme h hmem

end Tokens

/-- Where names and values take turns, the values that have the name. -/
def valuesNamed (name : String) : List String → List String
  | key :: value :: others =>
    if key = name then value :: valuesNamed name others else valuesNamed name others
  | _ => []

/-- The lexemes that a JSON text of tokens names. -/
def lexemesIn (text : String) : List String :=
  valuesNamed "lexeme" (Json.stringsIn text.toList)

theorem lexemesIn_render (tokens : List Token) (pretty : Bool) :
    lexemesIn ((Output.tokens tokens).toJson.render pretty) = tokens.map Token.lexeme := by
  rw [lexemesIn, Json.stringsIn_render, strings_tokens]
  induction tokens with
  | nil => rfl
  | cons token tokens ih =>
    rw [List.flatMap_cons, List.map_cons, ← ih]
    rfl

/-- A token in a JSON text, in one of the two forms, with its lexeme as it is. -/
def Token.written (pretty : Bool) (token : Token) : String :=
  if pretty then
    "  \x7b\n    \"kind\": \"" ++ token.kind.name ++ "\",\n    \"lexeme\": \"" ++
      token.lexeme ++ "\"\n  \x7d"
  else
    "\x7b\"kind\":\"" ++ token.kind.name ++ "\",\"lexeme\":\"" ++ token.lexeme ++ "\"\x7d"

/-- A list of tokens as a JSON text. -/
def writtenTokens (pretty : Bool) (tokens : List Token) : String :=
  if pretty && !tokens.isEmpty then
    "[\n" ++ ",\n".intercalate (tokens.map (Token.written true)) ++ "\n]"
  else "[" ++ ",".intercalate (tokens.map (Token.written false)) ++ "]"

section Written

variable {token : Token} (hlexeme : ∀ c ∈ token.lexeme.toList, Json.isBare c = true)

include hlexeme

theorem Token.compact_toJson : token.toJson.compact = token.written false := by
  have hkey : Json.quote "kind" = "\"kind\"" := by cbv
  have hkey' : Json.quote "lexeme" = "\"lexeme\"" := by cbv
  rw [toJson, Json.compact_object, List.map_cons, List.map_cons, List.map_nil,
    String.intercalate_cons_cons, String.intercalate_singleton, Json.compact_string,
    Json.compact_string, Json.quote_of_isBare token.kind.isBare_name,
    Json.quote_of_isBare hlexeme, hkey, hkey', written, if_neg Bool.false_ne_true]
  apply String.toList_inj.1
  simp

theorem Token.prettyAt_toJson :
    Json.indent 1 ++ token.toJson.prettyAt 1 = token.written true := by
  have hkey : Json.quote "kind" = "\"kind\"" := by cbv
  have hkey' : Json.quote "lexeme" = "\"lexeme\"" := by cbv
  have hindent : Json.indent 1 = "  " := by cbv
  have hindent' : Json.indent (1 + 1) = "    " := by cbv
  rw [toJson, Json.prettyAt_object, if_neg (by simp), List.map_cons, List.map_cons, List.map_nil,
    String.intercalate_cons_cons, String.intercalate_singleton, Json.prettyAt_string,
    Json.prettyAt_string, Json.quote_of_isBare token.kind.isBare_name,
    Json.quote_of_isBare hlexeme, hkey, hkey', hindent, hindent', written, if_pos rfl]
  apply String.toList_inj.1
  simp

end Written

theorem render_tokens {source : String} {tokens : List Token} (h : tokenize source = .ok tokens)
    (pretty : Bool) :
    (Output.tokens tokens).toJson.render pretty = writtenTokens pretty tokens := by
  cases pretty with
  | false =>
    have hwritten : (tokens.map Token.toJson).map Json.compact =
        tokens.map (Token.written false) := by
      rw [List.map_map]
      exact List.map_congr_left fun token hmem => Token.compact_toJson (isBare_lexeme h hmem)
    show Json.compact (.array (tokens.map Token.toJson)) = _
    rw [Json.compact_array, hwritten]
    rfl
  | true =>
    have hwritten : ((tokens.map Token.toJson).map fun document =>
        Json.indent 1 ++ document.prettyAt 1) = tokens.map (Token.written true) := by
      rw [List.map_map]
      exact List.map_congr_left fun token hmem => Token.prettyAt_toJson (isBare_lexeme h hmem)
    show Json.prettyAt (.array (tokens.map Token.toJson)) 0 = _
    rw [Json.prettyAt_array, Nat.zero_add, hwritten, List.isEmpty_map, writtenTokens]
    cases tokens with
    | nil => rfl
    | cons token tokens =>
      have hindent : Json.indent 0 = "" := by cbv
      apply String.toList_inj.1
      simp [hindent]

section Parse

variable {mode : Mode} {limits : Limits} {source : String} {output : Output} {tokens : List Token}

/-- The outputs of the three modes. -/
theorem output_of_parse (h : parse mode limits source = .ok output) :
    match mode with
    | .array => ∃ value, output = .array value
    | .ast => ∃ literal, output = .ast literal
    | .tokens => ∃ tokens, output = .tokens tokens ∧ tokenize source = .ok tokens := by
  cases mode with
  | array =>
    cases hvalue : parseArray limits source <;> simp only [parse, hvalue, Except.map] at h <;>
      cases h
    exact ⟨_, rfl⟩
  | ast =>
    cases hliteral : parseLiteral limits source <;> simp only [parse, hliteral, Except.map] at h <;>
      cases h
    exact ⟨_, rfl⟩
  | tokens =>
    cases htokens : tokenize source <;>
      simp only [parse, htokens, Except.map, Except.mapError] at h <;> cases h
    exact ⟨_, rfl, rfl⟩

theorem bare_output (h : parse mode limits source = .ok output) : output.toJson.Bare := by
  cases mode with
  | array =>
    obtain ⟨value, rfl⟩ := output_of_parse h
    exact value.bare_toJson
  | ast =>
    obtain ⟨literal, rfl⟩ := output_of_parse h
    exact literal.toTree.bare_toJson
  | tokens =>
    obtain ⟨tokens, rfl, htokens⟩ := output_of_parse h
    exact bare_tokens htokens

/-- What comes of a source is the same in all renderings. Without spaces and line breaks, the
pretty form is the compact one, and so is the text of a value without its spaces. Tokens are
written with their lexemes as they are, and the lexemes read back are the source without its
blanks. -/
theorem renderings_agree (h : parse mode limits source = .ok output) :
    without isSpacing output.toJson.pretty = output.toJson.compact ∧
    (mode = .array → ∃ value, output = .array value ∧
      without isSpace value.display = output.toJson.compact) ∧
    (mode = .tokens → ∃ tokens, output = .tokens tokens ∧ ∀ pretty,
      output.toJson.render pretty = writtenTokens pretty tokens ∧
      lexemesIn (output.toJson.render pretty) = tokens.map Token.lexeme ∧
      String.join (lexemesIn (output.toJson.render pretty)) = without isBlank source) := by
  refine ⟨Json.spacing_pretty (bare_output h), ?_, ?_⟩
  · rintro rfl
    obtain ⟨value, rfl⟩ := output_of_parse h
    exact ⟨value, rfl, value.without_isSpace_display⟩
  · rintro rfl
    obtain ⟨tokens, rfl, htokens⟩ := output_of_parse h
    refine ⟨tokens, rfl, fun pretty => ?_⟩
    have hlexemes := lexemesIn_render tokens pretty
    refine ⟨render_tokens htokens pretty, hlexemes, ?_⟩
    rw [hlexemes, ← String.toList_inj, String.toList_join, List.flatMap_map,
      flatMap_lexeme htokens, without, String.toList_ofList]

/-- Tokens with blanks between them, and with a leading zero. -/
theorem renderings_agree_tokens :
    let source := "\x7b 07,\n 8\t\x7d"
    ∃ output,
      parse .tokens {} source = .ok output ∧
      without isSpacing output.toJson.pretty = output.toJson.compact ∧
      ∃ tokens, output = .tokens tokens ∧ ∀ pretty,
        output.toJson.render pretty = writtenTokens pretty tokens ∧
        lexemesIn (output.toJson.render pretty) = tokens.map Token.lexeme ∧
        String.join (lexemesIn (output.toJson.render pretty)) = "\x7b07,8\x7d" := by
  intro source
  have hparse : parse .tokens {} source = .ok (.tokens [
      { symbol := .mark .leftCurly, lexeme := "\x7b", start := 0, stop := 1, line := 1 },
      { symbol := .number 7, lexeme := "07", start := 2, stop := 4, line := 1 },
      { symbol := .mark .comma, lexeme := ",", start := 4, stop := 5, line := 1 },
      { symbol := .number 8, lexeme := "8", start := 7, stop := 8, line := 2 },
      { symbol := .mark .rightCurly, lexeme := "\x7d", start := 9, stop := 10, line := 2 }]) := by
    cbv
  have hblanks : without isBlank source = "\x7b07,8\x7d" := by cbv
  obtain ⟨hpretty, -, htokens⟩ := renderings_agree hparse
  rw [hblanks] at htokens
  exact ⟨_, hparse, hpretty, htokens rfl⟩

end Parse

end ArrayLiteral
