/-!
# Kinds of tokens

The alphabet of the grammar: literals and their pieces, names, keywords, punctuation and line breaks. Each
kind knows how a message calls it, and the few classes that the grammar asks for are decided here.
-/

namespace RubyCheck

/-- The reserved words. -/
inductive Keyword where
  | alias_ | and_ | begin_ | beginHook | break_ | case_ | class_ | def_ | defined_ | do_ | else_
  | elsif_ | end_ | endHook | ensure_ | false_ | for_ | if_ | in_ | module_ | next_ | nil_ | not_
  | or_ | redo_ | rescue_ | retry_ | return_ | self_ | super_ | then_ | true_ | undef_ | unless_
  | until_ | when_ | while_ | yield_
deriving DecidableEq, Inhabited, Repr

namespace Keyword

/-- How a keyword is written. -/
def text : Keyword → String
  | alias_ => "alias" | and_ => "and" | begin_ => "begin" | beginHook => "BEGIN"
  | break_ => "break" | case_ => "case" | class_ => "class" | def_ => "def"
  | defined_ => "defined?" | do_ => "do" | else_ => "else" | elsif_ => "elsif" | end_ => "end"
  | endHook => "END" | ensure_ => "ensure" | false_ => "false" | for_ => "for" | if_ => "if"
  | in_ => "in" | module_ => "module" | next_ => "next" | nil_ => "nil" | not_ => "not"
  | or_ => "or" | redo_ => "redo" | rescue_ => "rescue" | retry_ => "retry"
  | return_ => "return" | self_ => "self" | super_ => "super" | then_ => "then"
  | true_ => "true" | undef_ => "undef" | unless_ => "unless" | until_ => "until"
  | when_ => "when" | while_ => "while" | yield_ => "yield"

/-- The keyword with a given spelling. -/
def ofText? : String → Option Keyword
  | "alias" => some alias_ | "and" => some and_ | "begin" => some begin_
  | "BEGIN" => some beginHook | "break" => some break_ | "case" => some case_
  | "class" => some class_ | "def" => some def_ | "defined?" => some defined_
  | "do" => some do_ | "else" => some else_ | "elsif" => some elsif_ | "end" => some end_
  | "END" => some endHook | "ensure" => some ensure_ | "false" => some false_
  | "for" => some for_ | "if" => some if_ | "in" => some in_ | "module" => some module_
  | "next" => some next_ | "nil" => some nil_ | "not" => some not_ | "or" => some or_
  | "redo" => some redo_ | "rescue" => some rescue_ | "retry" => some retry_
  | "return" => some return_ | "self" => some self_ | "super" => some super_
  | "then" => some then_ | "true" => some true_ | "undef" => some undef_
  | "unless" => some unless_ | "until" => some until_ | "when" => some when_
  | "while" => some while_ | "yield" => some yield_
  | _ => none

end Keyword

/-- Operators, brackets and separators. -/
inductive Punct where
  | plus | minus | star | pow | slash | percent | eq | eqEq | eqEqEq | notEq | matches_ | notMatches
  | lt | gt | ltEq | gtEq | cmp | ampAmp | pipePipe | bang | tilde | amp | pipe | caret | shl | shr
  | question | colon | colonColon | dot | ampDot | dotDot | dotDotDot | arrow | fatArrow
  | lParen | rParen | lBracket | rBracket | lBrace | rBrace | comma | semicolon
deriving DecidableEq, Inhabited, Repr

namespace Punct

/-- How a mark is written. -/
def text : Punct → String
  | plus => "+" | minus => "-" | star => "*" | pow => "**" | slash => "/" | percent => "%"
  | eq => "=" | eqEq => "==" | eqEqEq => "===" | notEq => "!=" | matches_ => "=~"
  | notMatches => "!~" | lt => "<" | gt => ">" | ltEq => "<=" | gtEq => ">=" | cmp => "<=>"
  | ampAmp => "&&" | pipePipe => "||" | bang => "!" | tilde => "~" | amp => "&" | pipe => "|"
  | caret => "^" | shl => "<<" | shr => ">>" | question => "?" | colon => ":"
  | colonColon => "::" | dot => "." | ampDot => "&." | dotDot => ".." | dotDotDot => "..."
  | arrow => "->" | fatArrow => "=>" | lParen => "(" | rParen => ")" | lBracket => "["
  | rBracket => "]" | lBrace => "\x7b" | rBrace => "\x7d" | comma => "," | semicolon => ";"

/-- Whether a mark can be defined as a method, as in `def ==(other)`. -/
def isMethodName : Punct → Bool
  | plus | minus | star | pow | slash | percent | eqEq | eqEqEq | notEq | matches_ | notMatches
  | lt | gt | ltEq | gtEq | cmp | bang | tilde | amp | pipe | caret | shl | shr => true
  | _ => false

end Punct

/-- What a token is. -/
inductive TokenKind where
  /-- An integer such as `10`, `0x1f` or `1_000`. -/
  | integer
  /-- An integer with a leading zero and more digits, such as `0123`. -/
  | legacyOctal
  /-- A float such as `3.14` or `1e5`. -/
  | float
  /-- The opening of a string, or of a heredoc. -/
  | stringBegin
  /-- Text inside a string or regular expression. -/
  | stringContent
  /-- The end of a string or regular expression. -/
  | stringEnd
  /-- The beginning of code inside a literal. -/
  | interpolationBegin
  /-- The end of code inside a literal. -/
  | interpolationEnd
  /-- A symbol such as `:name`, quoted or not. -/
  | symbol
  /-- The opening of a regular expression. -/
  | regexBegin
  /-- A character literal such as `?a`. -/
  | character
  /-- A percent literal that is one token: `%w`, `%i` or `%q`. -/
  | percentLiteral
  /-- The name of a variable or method. -/
  | identifier
  /-- A name that begins with a capital. -/
  | constant
  /-- An instance variable, `@name`. -/
  | instanceVariable
  /-- A class variable, `@@name`. -/
  | classVariable
  /-- A global variable, `$name`. -/
  | globalVariable
  /-- A key such as `name:` in a hash or an argument list. -/
  | label
  /-- A reserved word. -/
  | keyword (word : Keyword)
  /-- An operator, bracket or separator. -/
  | punct (mark : Punct)
  /-- An assignment with an operator, such as `+=`. -/
  | opAssign
  /-- A line break that ends a statement. -/
  | newline
  /-- The end of the text. -/
  | eof
deriving DecidableEq, Inhabited, Repr

namespace TokenKind

/-- Whether a token begins a literal. -/
def isLiteral : TokenKind → Bool
  | integer | legacyOctal | float | stringBegin | symbol | regexBegin | character
  | percentLiteral => true
  | _ => false

/-- Whether a token is a reserved word. -/
def isKeyword : TokenKind → Bool
  | keyword _ => true
  | _ => false

/-- Whether a token is an operator that can be defined as a method. -/
def isOperatorMethod : TokenKind → Bool
  | punct mark => mark.isMethodName
  | _ => false

/-- Whether a token ends a statement. -/
def isTerminator : TokenKind → Bool
  | newline | punct .semicolon | eof => true
  | _ => false

/-- What a message calls a token of this kind. -/
def display : TokenKind → String
  | integer | legacyOctal => "integer"
  | float => "float"
  | stringBegin => "string"
  | stringContent => "string content"
  | stringEnd => "end of string"
  | interpolationBegin => "#\x7b"
  | interpolationEnd => "\x7d"
  | symbol => "symbol"
  | regexBegin => "regexp"
  | character => "character literal"
  | percentLiteral => "percent literal"
  | identifier => "identifier"
  | constant => "constant"
  | instanceVariable => "instance variable"
  | classVariable => "class variable"
  | globalVariable => "global variable"
  | label => "label"
  | keyword word => word.text
  | punct mark => mark.text
  | opAssign => "operator assignment"
  | newline => "newline"
  | eof => "end of input"

end TokenKind

end RubyCheck
