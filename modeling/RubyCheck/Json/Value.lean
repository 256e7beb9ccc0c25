import RubyCheck.Json.Text

/-!
# Values of JSON

A value keeps its strings as they are written, because a reader may pass over a string that stands for no
text. It is written without blanks, and read by way of lexemes.
-/

namespace RubyCheck

/-- A value. -/
inductive Json where
  | null
  | bool (b : Bool)
  /-- A number as it is written. -/
  | number (written : List Char)
  /-- A string as it is written between its quotes. -/
  | string (written : List Char)
  | array (items : List Json)
  /-- Members with their keys as these are written. -/
  | object (members : List (List Char × Json))
deriving Inhabited, Repr

namespace Json

/-- A string with a given text. -/
def ofText (s : String) : Json := .string (escape s.toList)

/-- An array of strings with given texts. -/
def ofTexts (ss : List String) : Json := .array (ss.map ofText)

/-! ### Writing -/

/-- A string between its quotes. -/
def writeString (written : List Char) : List Char := '"' :: (written ++ ['"'])

mutual

/-- A value as text. -/
def write : Json → List Char
  | .null => "null".toList
  | .bool true => "true".toList
  | .bool false => "false".toList
  | .number written => written
  | .string written => writeString written
  | .array items => '[' :: (writeItems items ++ [']'])
  | .object members => '\x7b' :: (writeMembers members ++ ['\x7d'])

/-- Items with commas between them. -/
def writeItems : List Json → List Char
  | [] => []
  | [x] => write x
  | x :: y :: xs => write x ++ ',' :: writeItems (y :: xs)

/-- Members with commas between them. -/
def writeMembers : List (List Char × Json) → List Char
  | [] => []
  | [(key, x)] => writeString key ++ ':' :: write x
  | (key, x) :: m :: ms => writeString key ++ ':' :: (write x ++ ',' :: writeMembers (m :: ms))

end

/-! ### Lexemes -/

/-- A piece of a text. -/
inductive Lexeme where
  /-- A bracket, a colon or a comma. -/
  | mark (c : Char)
  /-- A number, or one of the three words. -/
  | word (cs : List Char)
  /-- A string as it is written between its quotes. -/
  | string (written : List Char)
deriving DecidableEq, Inhabited, Repr

/-- Whether a character may stand between lexemes. -/
def isSpace (c : Char) : Bool := c == ' ' || c == '\t' || c == '\n' || c == '\r'

/-- Whether a character is a lexeme of its own. -/
def isMark (c : Char) : Bool :=
  c == '[' || c == ']' || c == '\x7b' || c == '\x7d' || c == ':' || c == ','

/-- Where splitting stands. -/
inductive Place where
  | between
  /-- In a word, given backwards. -/
  | word (seen : List Char)
  /-- In a string, given backwards. -/
  | string (seen : List Char)

/-- Splits a text into lexemes, behind the lexemes split off already, last first. A control character in a
string is refused. -/
def lexemesFrom (seen : List Lexeme) : Place → List Char → Option (List Lexeme)
  | .between, [] => some seen.reverse
  | .between, c :: cs =>
    if isSpace c then lexemesFrom seen .between cs
    else if isMark c then lexemesFrom (.mark c :: seen) .between cs
    else if c = '"' then lexemesFrom seen (.string []) cs
    else lexemesFrom seen (.word [c]) cs
  | .word w, [] => some (Lexeme.word w.reverse :: seen).reverse
  | .word w, c :: cs =>
    if isSpace c then lexemesFrom (.word w.reverse :: seen) .between cs
    else if isMark c then lexemesFrom (.mark c :: .word w.reverse :: seen) .between cs
    else lexemesFrom seen (.word (c :: w)) cs
  | .string _, [] => none
  | .string s, '\\' :: c :: cs => lexemesFrom seen (.string (c :: '\\' :: s)) cs
  | .string s, c :: cs =>
    if c = '"' then lexemesFrom (.string s.reverse :: seen) .between cs
    else if c.toNat < 32 then none
    else lexemesFrom seen (.string (c :: s)) cs

/-- The lexemes of a text. -/
def lexemes? (cs : List Char) : Option (List Lexeme) := lexemesFrom [] .between cs

/-! ### Words -/

/-- Whether a character is a decimal digit. -/
def isDigit (c : Char) : Bool := '0' ≤ c && c ≤ '9'

/-- Whether one or more digits and nothing else stand here. -/
def areDigits (cs : List Char) : Bool := !cs.isEmpty && cs.all isDigit

/-- Whether an exponent, or nothing, stands here. -/
def isExponent : List Char → Bool
  | [] => true
  | c :: cs =>
    (c == 'e' || c == 'E') &&
      match cs with
      | '+' :: ds => areDigits ds
      | '-' :: ds => areDigits ds
      | ds => areDigits ds

/-- Whether a fraction and an exponent stand here, either of which may be missing. -/
def isFraction : List Char → Bool
  | '.' :: cs => !(cs.takeWhile isDigit).isEmpty && isExponent (cs.dropWhile isDigit)
  | cs => isExponent cs

/-- Whether a number without a sign stands here. It begins with a zero only if that is its whole integer
part. -/
def isUnsigned : List Char → Bool
  | '0' :: cs => isFraction cs
  | c :: cs => isDigit c && isFraction (cs.dropWhile isDigit)
  | [] => false

/-- Whether a number stands here. -/
def isNumber : List Char → Bool
  | '-' :: cs => isUnsigned cs
  | cs => isUnsigned cs

/-- The value of a word. -/
def ofWord? (w : List Char) : Option Json :=
  if w = "null".toList then some .null
  else if w = "true".toList then some (.bool true)
  else if w = "false".toList then some (.bool false)
  else if isNumber w then some (.number w)
  else none

/-! ### Reading -/

mutual

/-- A value at the head of some lexemes, and the lexemes behind it. -/
def value : Nat → List Lexeme → Option (Json × List Lexeme)
  | 0, _ => none
  | n + 1, ls =>
    match ls with
    | .word w :: ls => (ofWord? w).map (·, ls)
    | .string s :: ls => if wellEscaped s then some (.string s, ls) else none
    | .mark '[' :: .mark ']' :: ls => some (.array [], ls)
    | .mark '[' :: ls => (items n ls).map fun p => (.array p.1, p.2)
    | .mark '\x7b' :: .mark '\x7d' :: ls => some (.object [], ls)
    | .mark '\x7b' :: ls => (members n ls).map fun p => (.object p.1, p.2)
    | _ => none

/-- The items of an array up to its closer, and the lexemes behind that. -/
def items : Nat → List Lexeme → Option (List Json × List Lexeme)
  | 0, _ => none
  | n + 1, ls =>
    match value n ls with
    | some (x, .mark ',' :: ls) => (items n ls).map fun p => (x :: p.1, p.2)
    | some (x, .mark ']' :: ls) => some ([x], ls)
    | _ => none

/-- The members of an object up to its closer, and the lexemes behind that. -/
def members : Nat → List Lexeme → Option (List (List Char × Json) × List Lexeme)
  | 0, _ => none
  | n + 1, ls =>
    match ls with
    | .string key :: .mark ':' :: ls =>
      if wellEscaped key then
        match value n ls with
        | some (x, .mark ',' :: ls) => (members n ls).map fun p => ((key, x) :: p.1, p.2)
        | some (x, .mark '\x7d' :: ls) => some ([(key, x)], ls)
        | _ => none
      else none
    | _ => none

end

/-- The value that a text is. -/
def read? (cs : List Char) : Option Json := do
  let ls ← lexemes? cs
  match value (ls.length + 1) ls with
  | some (x, []) => some x
  | _ => none

end Json

end RubyCheck
