import TwoTier.Token.Kind

namespace TwoTier.Surface

inductive Cause where
  | unexpected (found : Token.Kind) (expected : String)
  | expectedExpression (found : Token.Kind)
  | expectedIdentifier (found : Token.Kind)
  | invalidTarget
  | invalidNumber (lexeme : String)
  | duplicateParameter (name : String)
  | breakOutsideLoop
  | continueOutsideLoop
  | returnOutsideFunction
  | unsupported (construct : String)
  | lexical (message : String)
deriving DecidableEq, Repr

def Cause.message : Cause → String
  | unexpected found expected =>
    "unexpected token: found " ++ found.label ++ ", expected " ++ expected
  | expectedExpression found => "expected expression, found " ++ found.label
  | expectedIdentifier found => "expected identifier, found " ++ found.label
  | invalidTarget => "invalid assignment target"
  | invalidNumber lexeme => "invalid number literal: " ++ lexeme
  | duplicateParameter name => "duplicate parameter name: " ++ name
  | breakOutsideLoop => "'break' outside loop"
  | continueOutsideLoop => "'continue' outside loop"
  | returnOutsideFunction => "'return' outside function"
  | unsupported construct => "unsupported syntax: " ++ construct
  | lexical message => "lexical error: " ++ message

structure Problem where
  cause : Cause
  span : Span
  hint : Option String := none
deriving DecidableEq, Repr

def Problem.message (problem : Problem) : String :=
  let place := problem.cause.message ++ " at " ++ problem.span.text
  match problem.hint with
  | none => place
  | some hint => place ++ " (hint: " ++ hint ++ ")"

end TwoTier.Surface
