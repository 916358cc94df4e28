import Vtl.Token.Basic

namespace Vtl

namespace SyntaxError

inductive Cause where
  | loneBar
  | loneColon
  | openComment
  | openString
  | openName
  | strayCharacter (c : Char)
  | integerOutOfRange (text : String)
  | noExpression (found : Token.Kind)
  | wrongToken (expected found : Token.Kind)
deriving DecidableEq

def Cause.text : Cause → String
  | .loneBar => "expected '||'"
  | .loneColon => "expected ':='"
  | .openComment => "unterminated comment"
  | .openString => "unterminated string constant"
  | .openName => "unterminated quoted identifier"
  | .strayCharacter c => s!"unexpected character '{c}'"
  | .integerOutOfRange text => s!"integer out of range: {text}"
  | .noExpression found => s!"expected expression, found {found.describe}"
  | .wrongToken expected found => s!"expected {expected.describe}, found {found.describe}"

end SyntaxError

structure SyntaxError where
  cause : SyntaxError.Cause
  span : Span
deriving DecidableEq

def SyntaxError.message (e : SyntaxError) : String :=
  s!"syntax error at {e.span.place}: {e.cause.text}"

end Vtl
