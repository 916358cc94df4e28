import Vtl.Text.Position

namespace Vtl

namespace Token

inductive Kind where
  | identifier
  | integerConstant
  | numberConstant
  | stringConstant
  | trueConstant
  | falseConstant
  | nullConstant
  | plus
  | minus
  | times
  | over
  | concat
  | equal
  | notEqual
  | less
  | lessEqual
  | greater
  | greaterEqual
  | and
  | or
  | xor
  | not
  | assign
  | leftParen
  | rightParen
  | semicolon
  | endOfInput
deriving DecidableEq

namespace Kind

/-- How messages call a kind of token. -/
def describe : Kind → String
  | .identifier => "identifier"
  | .integerConstant => "integer constant"
  | .numberConstant => "number constant"
  | .stringConstant => "string constant"
  | .trueConstant => "'true'"
  | .falseConstant => "'false'"
  | .nullConstant => "'null'"
  | .plus => "'+'"
  | .minus => "'-'"
  | .times => "'*'"
  | .over => "'/'"
  | .concat => "'||'"
  | .equal => "'='"
  | .notEqual => "'<>'"
  | .less => "'<'"
  | .lessEqual => "'<='"
  | .greater => "'>'"
  | .greaterEqual => "'>='"
  | .and => "'and'"
  | .or => "'or'"
  | .xor => "'xor'"
  | .not => "'not'"
  | .assign => "':='"
  | .leftParen => "'('"
  | .rightParen => "')'"
  | .semicolon => "';'"
  | .endOfInput => "end of input"

/-- The reserved words, in lower case. -/
def keywords : List (String × Kind) :=
  [("and", .and), ("or", .or), ("xor", .xor), ("not", .not), ("true", .trueConstant),
    ("false", .falseConstant), ("null", .nullConstant)]

/-- The kind of a reserved word in any letter case. Only the Latin letters A to Z have a lower case
that occurs in such a word, so it is enough to fold those. -/
def keyword? (word : List Char) : Option Kind :=
  let folded := String.ofList (word.map Char.toLower)
  (keywords.find? fun entry => entry.1 == folded).map Prod.snd

def isKeyword (kind : Kind) : Bool := keywords.any fun entry => entry.2 = kind

end Kind

end Token

/-- A token with the text it stands for: the source text, or the contents of a string constant or a
quoted name. -/
structure Token where
  kind : Token.Kind
  text : String
  span : Span
deriving DecidableEq

end Vtl
