import ArrayLiteral.Proofs.Completeness
import ArrayLiteral.Proofs.Soundness

/-!
# The language of a parse

Ast mode accepts the sources whose tokens derive from the grammar within the
limits, and no other.  The tree is the tree of the derivation.
-/

namespace ArrayLiteral

open Parsing

/-- A source has a tree in ast mode exactly if it can be split into tokens that,
with every comma read alike, derive from the grammar, with no more braces open at
once than the limit allows and all bounds of designators below the other limit.
There is no other derivation, and the tree is its tree. -/
theorem parse_ast_eq_ok_iff_derives (limits : Limits) (source : String) (tree : Tree) :
    (∃ literal, parse .ast limits source = .ok (.ast literal) ∧ literal.toTree = tree) ↔
      ∃ (tokens : List Token) (derivation : Derivation),
        tokenize source = .ok tokens ∧
        (tokens.map fun token => token.symbol.plain) = derivation.word .comma ∧
        (∀ other : Derivation,
          (tokens.map fun token => token.symbol.plain) = other.word .comma →
            other = derivation) ∧
        derivation.depth ≤ limits.maxDepth.toNat ∧
        (∀ bound ∈ derivation.bounds, bound.toNat < limits.maxArrayLen.toNat) ∧
        derivation.tree = tree := by
  simp only [parse_ast_eq_ok_iff_parseWhole]
  constructor
  · intro h
    obtain ⟨literal, hparse, rfl⟩ := h
    obtain ⟨tokens, derivation, htokens, hword, ⟨hdepth, hbounds⟩, rfl⟩ :=
      exists_derivation hparse
    rw [Nat.zero_add] at hdepth
    have hplain := (map_symbol_eq_word_iff htokens derivation).1 hword
    refine ⟨tokens, derivation, htokens, hplain, ?_, hdepth, hbounds, ?_⟩
    · intro other hother
      exact Derivation.word_inj (hother.symm.trans hplain)
    · exact derivation.toTree_literal.symm
  · intro h
    obtain ⟨tokens, derivation, htokens, hplain, -, hdepth, hbounds, rfl⟩ := h
    have hword := (map_symbol_eq_word_iff htokens derivation).2 hplain
    have hfits : derivation.Fits limits 0 := ⟨by rw [Nat.zero_add]; exact hdepth, hbounds⟩
    exact ⟨derivation.literal, parseWhole_of_word htokens hword hfits,
      derivation.toTree_literal⟩

end ArrayLiteral
