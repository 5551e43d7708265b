import ArrayLiteral.Parsing.Course

/-!
# Runs of the parsing machine

    program := val EOF

`run` makes steps until the outermost value is complete or something fails.
`parseValue` parses one value off the front of a reader, and `parseWhole` a
source that is one value.
-/

namespace ArrayLiteral.Parsing

variable {σ α γ : Type} (builder : Builder σ α γ)

/-- How a run ended, and where it stopped. -/
structure Outcome (σ α : Type) where
  result : Except Error α
  state : σ
  reader : Reader

/-- Makes steps to the end. -/
def run (state : σ) (config : Config α γ) (reader : Reader) : Outcome σ α :=
  match _ : step builder state config reader with
  | .ok (.next state config) reader => run state config reader
  | .ok (.finished value) reader => { result := .ok value, state, reader }
  | .ok (.refused state error) reader => { result := .error error, state, reader }
  | .error error reader => { result := .error error, state, reader }
termination_by 2 * reader.remaining + config.control.rank
decreasing_by
  rename_i hstep
  exact step_remaining hstep

/-- Parses one value. -/
def parseValue (state : σ) (reader : Reader) : Outcome σ α :=
  run builder state { control := .value, enclosing := [] } reader

/-- Parses a source that is one value. The result has what the builder made of
it, and the state that the builder was left in. -/
def parseWhole (state : σ) (limits : Limits) (source : String) : Except Error (α × σ) := do
  let reader ← Reader.ofString source limits
  let outcome := parseValue builder state reader
  let value ← outcome.result
  let found := outcome.reader.lookahead
  if found.isEof then
    return (value, outcome.state)
  else
    throw (.grammar { found, fault := .trailingInput })

end ArrayLiteral.Parsing
