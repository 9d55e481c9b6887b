import TwoTier.Text.Span

/-! Kinds of tokens. Keywords and symbols are tables from a constructor to its spelling. -/

namespace TwoTier.Token

inductive Keyword where
  | kwDef | kwReturn | kwIf | kwElif | kwElse | kwFor | kwIn | kwWhile | kwBreak | kwContinue
  | kwPass | kwAnd | kwOr | kwNot | kwIs | kwLambda | kwImport | kwFrom | kwAs | kwGlobal
  | kwNonlocal | kwTry | kwExcept | kwFinally | kwRaise | kwClass | kwWith | kwYield
  | kwTrue | kwFalse | kwNone
deriving DecidableEq, Repr

namespace Keyword

def spelling : Keyword → String
  | kwDef => "def" | kwReturn => "return" | kwIf => "if" | kwElif => "elif" | kwElse => "else"
  | kwFor => "for" | kwIn => "in" | kwWhile => "while" | kwBreak => "break"
  | kwContinue => "continue" | kwPass => "pass" | kwAnd => "and" | kwOr => "or" | kwNot => "not"
  | kwIs => "is" | kwLambda => "lambda" | kwImport => "import" | kwFrom => "from" | kwAs => "as"
  | kwGlobal => "global" | kwNonlocal => "nonlocal" | kwTry => "try" | kwExcept => "except"
  | kwFinally => "finally" | kwRaise => "raise" | kwClass => "class" | kwWith => "with"
  | kwYield => "yield" | kwTrue => "True" | kwFalse => "False" | kwNone => "None"

def all : List Keyword :=
  [kwDef, kwReturn, kwIf, kwElif, kwElse, kwFor, kwIn, kwWhile, kwBreak, kwContinue, kwPass,
    kwAnd, kwOr, kwNot, kwIs, kwLambda, kwImport, kwFrom, kwAs, kwGlobal, kwNonlocal, kwTry,
    kwExcept, kwFinally, kwRaise, kwClass, kwWith, kwYield, kwTrue, kwFalse, kwNone]

def ofSpelling? (word : String) : Option Keyword :=
  all.find? (·.spelling == word)

end Keyword

inductive Symbol where
  | plus | minus | star | starStar | slash | slashSlash | percent | atSign | amp | pipe | caret
  | tilde | shl | shr | assign | plusEq | minusEq | starEq | slashEq | slashSlashEq | percentEq
  | starStarEq | ampEq | pipeEq | caretEq | shlEq | shrEq | eqEq | notEq | lt | gt | ltEq | gtEq
  | arrow | lParen | rParen | lBracket | rBracket | lBrace | rBrace | comma | colon | semicolon
  | dot
deriving DecidableEq, Repr

namespace Symbol

def spelling : Symbol → String
  | plus => "+" | minus => "-" | star => "*" | starStar => "**" | slash => "/"
  | slashSlash => "//" | percent => "%" | atSign => "@" | amp => "&" | pipe => "|" | caret => "^"
  | tilde => "~" | shl => "<<" | shr => ">>" | assign => "=" | plusEq => "+=" | minusEq => "-="
  | starEq => "*=" | slashEq => "/=" | slashSlashEq => "//=" | percentEq => "%="
  | starStarEq => "**=" | ampEq => "&=" | pipeEq => "|=" | caretEq => "^=" | shlEq => "<<="
  | shrEq => ">>=" | eqEq => "==" | notEq => "!=" | lt => "<" | gt => ">" | ltEq => "<="
  | gtEq => ">=" | arrow => "->" | lParen => "(" | rParen => ")" | lBracket => "["
  | rBracket => "]" | lBrace => "\x7b" | rBrace => "\x7d" | comma => "," | colon => ":"
  | semicolon => ";" | dot => "."

/-- Longer spellings come first, so the first one that fits is the longest match. -/
def all : List Symbol :=
  [slashSlashEq, starStarEq, shlEq, shrEq, starStar, slashSlash, shl, shr, plusEq, minusEq,
    starEq, slashEq, percentEq, ampEq, pipeEq, caretEq, eqEq, notEq, ltEq, gtEq, arrow, plus,
    minus, star, slash, percent, atSign, amp, pipe, caret, tilde, assign, lt, gt, lParen, rParen,
    lBracket, rBracket, lBrace, rBrace, comma, colon, semicolon, dot]

def opensBracket : Symbol → Bool
  | lParen | lBracket | lBrace => true
  | _ => false

def closesBracket : Symbol → Bool
  | rParen | rBracket | rBrace => true
  | _ => false

end Symbol

inductive Radix where
  | decimal | hexadecimal | octal | binary
deriving DecidableEq, Repr

inductive Kind where
  | keyword (word : Keyword)
  | symbol (mark : Symbol)
  | integer (radix : Radix)
  | float
  | string
  | ident
  | comment
  | newline
  | indent
  | dedent
  | eof
  | error
deriving DecidableEq, Repr

namespace Kind

def label : Kind → String
  | keyword word => word.spelling
  | symbol mark => mark.spelling
  | integer _ => "integer"
  | float => "float"
  | string => "string"
  | ident => "identifier"
  | comment => "comment"
  | newline => "newline"
  | indent => "indent"
  | dedent => "dedent"
  | eof => "end of file"
  | error => "error"

/-- Layout tokens mark structure and cover no significant text. -/
def isLayout : Kind → Bool
  | newline | indent | dedent | eof => true
  | _ => false

end Kind
end TwoTier.Token

namespace TwoTier

/-- A token; the lexeme of a string literal is its decoded content. -/
structure Token where
  kind : Token.Kind
  span : Span
  lexeme : String
deriving DecidableEq, Repr

end TwoTier
