/-!
# Tokens

A token is a word (a keyword, an integer literal or an identifier) or a punctuator. Its text is what
stands in the source, and its description is what messages show.
-/

namespace MiniC

/-- A word with a meaning of its own. -/
inductive Keyword where
  | int
  | ret
  deriving DecidableEq, Repr

namespace Keyword

/-- The keywords. -/
def all : List Keyword := [.int, .ret]

/-- How a keyword is written. -/
def text : Keyword → String
  | .int => "int"
  | .ret => "return"

/-- The keyword that is written like `text`, if there is one. -/
def ofText? (text : String) : Option Keyword := all.find? fun k => k.text = text

end Keyword

/-- A mark of one or two operator characters. -/
inductive Punctuator where
  | openCurly
  | closeCurly
  | openParen
  | closeParen
  | semicolon
  | minus
  | tilde
  | bang
  | plus
  | slash
  | star
  | andAnd
  | orOr
  | equalEqual
  | bangEqual
  | less
  | greater
  | lessEqual
  | greaterEqual
  | ampersand
  | pipe
  | equal
  deriving DecidableEq, Repr

namespace Punctuator

/-- The punctuators. -/
def all : List Punctuator :=
  [.openCurly, .closeCurly, .openParen, .closeParen, .semicolon, .minus, .tilde, .bang, .plus,
    .slash, .star, .andAnd, .orOr, .equalEqual, .bangEqual, .less, .greater, .lessEqual,
    .greaterEqual, .ampersand, .pipe, .equal]

/-- How a punctuator is written. -/
def text : Punctuator → String
  | .openCurly => "\x7b"
  | .closeCurly => "\x7d"
  | .openParen => "("
  | .closeParen => ")"
  | .semicolon => ";"
  | .minus => "-"
  | .tilde => "~"
  | .bang => "!"
  | .plus => "+"
  | .slash => "/"
  | .star => "*"
  | .andAnd => "&&"
  | .orOr => "||"
  | .equalEqual => "=="
  | .bangEqual => "!="
  | .less => "<"
  | .greater => ">"
  | .lessEqual => "<="
  | .greaterEqual => ">="
  | .ampersand => "&"
  | .pipe => "|"
  | .equal => "="

/-- The punctuator that is written like `text`, if there is one. -/
def ofText? (text : String) : Option Punctuator := all.find? fun p => p.text = text

end Punctuator

/-- A unit of the source text. -/
inductive Token where
  /-- A word that is neither a keyword nor an integer literal. -/
  | identifier (name : String)
  /-- A word with a meaning of its own. -/
  | keyword (k : Keyword)
  /-- An integer literal by its text, whose value is read by the parser. -/
  | literal (text : String)
  /-- A mark of one or two operator characters. -/
  | punctuator (p : Punctuator)
  deriving DecidableEq, Repr

namespace Token

/-- How a token is written. -/
def text : Token → String
  | .identifier name => name
  | .keyword k => k.text
  | .literal text => text
  | .punctuator p => p.text

/-- How messages show a token: its kind unless it is a punctuator, and its text in backquotes. -/
def description : Token → String
  | .identifier name => "identifier `" ++ name ++ "`"
  | .keyword k => "keyword `" ++ k.text ++ "`"
  | .literal text => "literal `" ++ text ++ "`"
  | .punctuator p => "`" ++ p.text ++ "`"

end Token

end MiniC
