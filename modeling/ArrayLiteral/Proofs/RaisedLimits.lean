import Mathlib
import ArrayLiteral.Proofs.Companions
import ArrayLiteral.Proofs.Ledger

/-!
# Raising the limits

Limits are looked at in three places: where an index is read, where an aggregate is opened,
and where an initializer is charged.  Under higher limits each of these does what it did
before, unless it failed there because a limit was crossed.  So a reader under higher limits
is a companion, and crossed limits are excused (`lawful_underLimits`).

A budget with a higher limit covers what the lower one covers.  So whole parses agree too.
-/

namespace ArrayLiteral

/-- The same reader under other limits. -/
def Companion.underLimits (limits limits' : Limits) : Companion where
  readers reader other := reader.limits = limits ∧ other = { reader with limits := limits' }
  token := id
  error := id
  excused := Error.CrossesLimit

open Parsing

section Raised

variable {limits limits' : Limits}

/-- Pulling a token has nothing to do with limits. -/
theorem matches_consume_underLimits {reader other : Reader}
    (h : (Companion.underLimits limits limits').readers reader other) :
    (Companion.underLimits limits limits').Matches id (Reading.consume reader)
      (Reading.consume other) := by
  obtain ⟨hlimits, rfl⟩ := h
  unfold Reading.consume
  dsimp only
  split
  · exact .ok _ _ _ ⟨hlimits, rfl⟩
  · exact .error _ _ _ ⟨hlimits, rfl⟩

theorem lawful_underLimits (hraised : limits.Raised limits') :
    (Companion.underLimits limits limits').Lawful where
  symbol_token _ := rfl
  error_grammar _ _ := rfl
  lookahead_eq := by
    rintro reader _ ⟨-, rfl⟩
    rfl
  depth_eq := by
    rintro reader _ ⟨-, rfl⟩
    rfl
  withDepth := by
    rintro reader _ ⟨hlimits, rfl⟩ depth
    exact ⟨hlimits, rfl⟩
  limits := by
    rintro reader _ ⟨rfl, rfl⟩
    exact .inr ⟨hraised, fun _ hcrossed => hcrossed⟩
  consume := matches_consume_underLimits

theorem opens_underLimits (limits limits' : Limits) (source : String) :
    Opens (.underLimits limits limits') source limits source limits' := by
  rcases hnext : (Cursor.ofString source).next with ⟨error | lookahead, cursor⟩
  · exact opens_of_next hnext hnext (.inr ⟨error, error, rfl, rfl, rfl⟩)
  · exact opens_of_next hnext hnext (.inl ⟨lookahead, lookahead, rfl, rfl, rfl, rfl⟩)

theorem accompanied_literalBuilder :
    literalBuilder.Accompanied (.underLimits limits limits') fun _ _ => True where
  add_ok _ hadd := ⟨_, hadd, trivial⟩
  add_error _ _ := .inl fun _ => nofun

/-- What a limit covers a higher one covers too. -/
theorem accompanied_arrayBuilder (hraised : limits.Raised limits') :
    arrayBuilder.Accompanied (.underLimits limits limits') fun budget budget' =>
      budget.limit = limits.maxArrayLen ∧
        budget' = { budget with limit := limits'.maxArrayLen } where
  add_error _ _ := .inl fun _ => nofun
  add_ok := by
    rintro budget _ after item draft draft' ⟨hlimit, rfl⟩ hadd
    obtain ⟨hcharge, hdraft⟩ := arrayBuilder_add_eq_ok_iff.1 hadd
    obtain ⟨hsame, hwritten, hle⟩ := Budget.charge_eq_ok_iff.1 hcharge
    rw [hsame, hlimit] at hle
    have hle' := Nat.le_trans hle (UInt64.le_iff_toNat_le.1 hraised.maxArrayLen)
    refine ⟨{ after with limit := limits'.maxArrayLen }, arrayBuilder_add_eq_ok_iff.2 ⟨?_, hdraft⟩,
      hsame.trans hlimit, rfl⟩
    exact Budget.charge_eq_ok_iff.2 ⟨rfl, hwritten, hle'⟩

/-- A parse that crosses no limit gives the same under higher limits. -/
theorem parseWhole_raised {σ α γ : Type} {builder : Builder σ α γ} {goesWith : σ → σ → Prop}
    (hraised : limits.Raised limits')
    (hbuilder : builder.Accompanied (.underLimits limits limits') goesWith) (source : String)
    {state state' : σ} (hstate : goesWith state state') :
    (∃ error, parseWhole builder state limits source = .error error ∧ error.CrossesLimit) ∨
      (parseWhole builder state' limits' source).map Prod.fst =
        (parseWhole builder state limits source).map Prod.fst := by
  refine (parseWhole_accompanied (lawful_underLimits hraised) hbuilder
    (opens_underLimits limits limits' source) hstate).imp_right fun hsame => hsame.trans ?_
  cases parseWhole builder state limits source <;> rfl

end Raised

/-- A result that is no crossed limit stays as it is if both limits are raised:
the same output, or the same lexical error, or the same token that does not fit
the grammar, for the same reason. -/
theorem parse_of_raised_limits (mode : Mode) (limits limits' : Limits) (source : String)
    (hlength : limits.maxArrayLen ≤ limits'.maxArrayLen)
    (hdepth : limits.maxDepth ≤ limits'.maxDepth)
    (hkept : ∀ found fault, parse mode limits source = .error (.grammar { found, fault }) →
      fault.limit? = none) :
    parse mode limits' source = parse mode limits source := by
  have hraised : limits.Raised limits' := ⟨hlength, hdepth⟩
  have hcross : ∀ {error : Error}, parse mode limits source = .error error →
      ¬ error.CrossesLimit := by
    intro error herror hcrossed
    cases error with
    | lexical error => exact hcrossed
    | grammar error => exact hcrossed (hkept error.found error.fault herror)
  cases mode with
  | tokens => rfl
  | ast =>
    rcases parseWhole_raised hraised accompanied_literalBuilder source trivial with
      ⟨error, hwhole, hcrossed⟩ | hsame
    · exact absurd hcrossed (hcross (parse_ast_of_parseWhole hwhole))
    · exact congrArg (Except.map Output.ast) hsame
  | array =>
    have hbudget : (Budget.ofLimit limits.maxArrayLen).limit = limits.maxArrayLen ∧
        Budget.ofLimit limits'.maxArrayLen =
          { Budget.ofLimit limits.maxArrayLen with limit := limits'.maxArrayLen } := ⟨rfl, rfl⟩
    rcases parseWhole_raised hraised (accompanied_arrayBuilder hraised) source hbudget with
      ⟨error, hwhole, hcrossed⟩ | hsame
    · exact absurd hcrossed (hcross (parse_array_of_parseWhole hwhole))
    · exact congrArg (Except.map Output.array) hsame

/-- A missing equals sign is reported under higher limits as under low ones. -/
theorem parse_of_raised_limits_equal :
    let source := "\x7b1, [2] 3\x7d"
    parse .array { maxArrayLen := 3, maxDepth := 1 } source = .error (.grammar {
        found := { symbol := .number 3, lexeme := "3", start := 8, stop := 9, line := 1 }
        fault := .unexpectedToken "EQUAL" }) ∧
      parse .array { maxArrayLen := 18446744073709551615, maxDepth := 128 } source =
        parse .array { maxArrayLen := 3, maxDepth := 1 } source := by
  intro source
  have hparse : parse .array { maxArrayLen := 3, maxDepth := 1 } source = .error (.grammar {
      found := { symbol := .number 3, lexeme := "3", start := 8, stop := 9, line := 1 }
      fault := .unexpectedToken "EQUAL" }) := by cbv
  refine ⟨hparse, parse_of_raised_limits .array _ _ source (by decide) (by decide) ?_⟩
  intro found fault h
  rw [hparse] at h
  cases h
  rfl

end ArrayLiteral
