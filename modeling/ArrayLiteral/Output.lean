import ArrayLiteral.Parsing.Run

/-!
# Output

A source can be turned into the array it describes, into its syntax tree, or
into its tokens.  `Mode` names the choice, and `parse` makes it.
-/

namespace ArrayLiteral

inductive Mode
  | array
  | ast
  | tokens
  deriving DecidableEq

/-- A name that is no mode. -/
structure UnknownMode where
  name : String
  deriving DecidableEq

namespace Mode

def name : Mode → String
  | array => "array"
  | ast => "ast"
  | tokens => "tokens"

/-- The mode of that name. -/
def ofName (name : String) : Except UnknownMode Mode :=
  match name with
  | "array" => .ok array
  | "ast" => .ok ast
  | "tokens" => .ok tokens
  | _ => .error { name }

theorem ofName_eq_ok_iff {name : String} {mode : Mode} :
    ofName name = .ok mode ↔ name = mode.name := by
  constructor
  · intro h
    unfold ofName at h
    split at h <;> cases h <;> rfl
  · rintro rfl
    cases mode <;> rfl

end Mode

def UnknownMode.message (mode : UnknownMode) : String :=
  "Unknown mode " ++ Text.quotedString mode.name ++ ", expected one of: array, ast, tokens."

/-- What a source was turned into. -/
inductive Output
  | array (value : Value)
  | ast (literal : Literal)
  | tokens (list : List Token)

/-- The value of a source. -/
def parseArray (limits : Limits) (source : String) : Except Error Value :=
  (Parsing.parseWhole arrayBuilder (.ofLimit limits.maxArrayLen) limits source).map Prod.fst

/-- What a source says. -/
def parseLiteral (limits : Limits) (source : String) : Except Error Literal :=
  (Parsing.parseWhole literalBuilder () limits source).map Prod.fst

/-- Turns a source into what the mode asks for. The limits do not matter to
tokens. -/
def parse (mode : Mode) (limits : Limits) (source : String) : Except Error Output :=
  match mode with
  | .array => (parseArray limits source).map .array
  | .ast => (parseLiteral limits source).map .ast
  | .tokens => ((tokenize source).mapError .lexical).map .tokens

/-- The name of the kind and the lexeme. -/
def Token.toJson (token : Token) : Json :=
  .object [("kind", .string token.kind.name), ("lexeme", .string token.lexeme)]

namespace Output

def toJson : Output → Json
  | array value => value.toJson
  | ast literal => literal.toTree.toJson
  | tokens list => .array (list.map Token.toJson)

/-- The value or the tree as text. Tokens have none. -/
def display? : Output → Option String
  | array value => some value.display
  | ast literal => some literal.toTree.display
  | tokens _ => none

end Output

/-- The JSON text of a document, in one of the two forms. -/
def Json.render (pretty : Bool) (document : Json) : String :=
  if pretty then document.pretty else document.compact

end ArrayLiteral
