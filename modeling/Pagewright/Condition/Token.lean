import Pagewright.Binary64.Decimal
import Pagewright.Text.Alphanumeric
import Pagewright.Text.Quoted

/-! # `Condition.Token`: the words of a condition

A condition is read as a row of tokens: numbers, quoted texts, names and signs. `Token.scan` splits a
text into them or says at which offset it cannot. What can go wrong with a condition, here and later, is
listed in `ConditionError`.
-/

namespace Pagewright.Condition

/-- An operator between two operands. -/
inductive Operator
  | or | and
  | eq | notEq | strictEq | strictNotEq
  | lt | le | gt | ge
deriving DecidableEq, Inhabited

namespace Operator

/-- How tightly an operator binds, loosest first. -/
def level : Operator → Nat
  | or => 0
  | and => 1
  | eq | notEq | strictEq | strictNotEq => 2
  | lt | le | gt | ge => 3

/-- An operator as it is written. -/
def text : Operator → Text
  | or => "||".toList
  | and => "&&".toList
  | eq => "==".toList
  | notEq => "!=".toList
  | strictEq => "===".toList
  | strictNotEq => "!==".toList
  | lt => "<".toList
  | le => "<=".toList
  | gt => ">".toList
  | ge => ">=".toList

end Operator

/-- A token of a condition. -/
inductive Token
  | number (x : Binary64)
  | string (t : Text)
  | ident (name : Text)
  | lparen | rparen
  | lbracket | rbracket
  | lbrace | rbrace
  | comma | colon | dot
  | not | minus
  | operator (o : Operator)
deriving DecidableEq, Inhabited

/-- A token as messages show it. -/
def Token.text : Token → Text
  | number x => x.plainText
  | string t => Text.shown t
  | ident name => name
  | lparen => ['(']
  | rparen => [')']
  | lbracket => ['[']
  | rbracket => [']']
  | lbrace => ['\x7b']
  | rbrace => ['\x7d']
  | comma => [',']
  | colon => [':']
  | dot => ['.']
  | not => ['!']
  | minus => ['-']
  | operator o => o.text

/-- Why a condition has no value. -/
inductive ConditionError
  /-- A character that begins no token, with its offset. -/
  | unexpectedChar (c : Char) (offset : Nat)
  /-- A quoted text that does not end, with the offset of its opening quote. -/
  | unterminatedString (offset : Nat)
  /-- A `\u` without four digits of a character, with the offset of the `u`. -/
  | invalidEscape (offset : Nat)
  /-- Digits that are not a number. -/
  | invalidNumber (digits : Text)
  /-- A token that cannot stand where it does. -/
  | unexpectedToken (token : Token)
  /-- An expression that ends too early. -/
  | unexpectedEnd
  /-- A name that the scope does not have. -/
  | unknownIdentifier (name : Text)
  /-- A property asked of nothing; `target` says which kind of nothing it is. -/
  | memberOfNothing (property target : Text)
deriving DecidableEq, Inhabited

/-- The message for an error. -/
def ConditionError.message : ConditionError → Text
  | unexpectedChar c n =>
    "Unexpected character '".toList ++ [c] ++ "' at position ".toList ++ Text.ofNat n
  | unterminatedString n => "Unterminated string starting at position ".toList ++ Text.ofNat n
  | invalidEscape n => "Invalid escape sequence at position ".toList ++ Text.ofNat n
  | invalidNumber ds => "Invalid number: ".toList ++ ds
  | unexpectedToken t => "Unexpected token: ".toList ++ t.text
  | unexpectedEnd => "Unexpected end of expression".toList
  | unknownIdentifier name => name ++ " is not defined".toList
  | memberOfNothing property target =>
    "Cannot read properties of ".toList ++ target ++ " (reading '".toList ++ property ++ "')".toList

namespace Token

/-! ## Names -/

/-- Can the character begin a name? -/
def isNameStart (c : Char) : Bool := Text.isAlphabetic c || c = '_' || c = '$'

/-- Can the character stand in a name? -/
def isNameChar (c : Char) : Bool := Text.isAlphanumeric c || c = '_' || c = '$'

/-! ## Numbers -/

/-- Does the text begin with a digit? -/
def startsWithDigit : Text → Bool
  | c :: _ => Text.isDigit c
  | [] => false

/-- The literal of a fraction, the point included, if there is one: a point without a digit behind it
belongs to what follows the number. -/
def fractionPart : Text → Text × Text
  | '.' :: r =>
    if startsWithDigit r then ('.' :: r.takeWhile Text.isDigit, r.dropWhile Text.isDigit)
    else ([], '.' :: r)
  | t => ([], t)

/-- The literal of an exponent, if there is one: the letter needs a digit behind it, with an optional
sign between them. -/
def exponentPart : Text → Text × Text
  | [] => ([], [])
  | e :: r =>
    if e = 'e' || e = 'E' then
      match r with
      | s :: r' =>
        if (s = '+' || s = '-') && startsWithDigit r' then
          (e :: s :: r'.takeWhile Text.isDigit, r'.dropWhile Text.isDigit)
        else if Text.isDigit s then (e :: r.takeWhile Text.isDigit, r.dropWhile Text.isDigit)
        else ([], e :: r)
      | [] => ([], e :: r)
    else ([], e :: r)

/-- The literal of a number at the start of a text, and the rest. -/
def numberLiteral (t : Text) : Text × Text :=
  let whole := t.takeWhile Text.isDigit
  let (fraction, r) := fractionPart (t.dropWhile Text.isDigit)
  let (exponent, r) := exponentPart r
  (whole ++ fraction ++ exponent, r)

/-! ## Quoted texts -/

/-- The character that a letter after a backslash stands for; all but a few stand for themselves. -/
def escaped (c : Char) : Char :=
  if c = 'n' then '\n'
  else if c = 't' then '\t'
  else if c = 'r' then '\r'
  else if c = 'b' then '\x08'
  else if c = 'f' then '\x0c'
  else if c = '0' then '\x00'
  else c

/-- The character with a code point given by hexadecimal digits. -/
def charOfHex? (ds : Text) : Option Char :=
  match Text.natOfDigits? 16 ds with
  | some n => if h : n.isValidChar then some (Char.ofNatAux n h) else none
  | none => none

/-- The rest of a quoted text up to its closing quote, and what follows it. The text begins at the
offset `offset`, the opening quote stands at `start`. -/
def quotedTail (quote : Char) (start : Nat) :
    Nat → Text → Except ConditionError (Text × Text)
  | _, [] => .error (.unterminatedString start)
  | offset, c :: r =>
    if c = quote then .ok ([], r)
    else if c = '\\' then
      match r with
      | [] => .error (.unterminatedString start)
      | 'u' :: a :: b :: d :: e :: r' =>
        match charOfHex? [a, b, d, e] with
        | none => .error (.invalidEscape (offset + 1))
        | some x =>
          (quotedTail quote start (offset + 6) r').map fun (s, rest) => (x :: s, rest)
      | e :: r' =>
        -- fewer than four characters are left behind the letter
        if e = 'u' then .error (.invalidEscape (offset + 1))
        else (quotedTail quote start (offset + 1 + e.utf8Size) r').map fun (s, rest) =>
          (escaped e :: s, rest)
    else (quotedTail quote start (offset + c.utf8Size) r).map fun (s, rest) => (c :: s, rest)

/-! ## Signs -/

/-- The sign that begins with a character, and the rest. -/
def sign? (c : Char) (r : Text) : Option (Token × Text) :=
  if c = '(' then some (lparen, r)
  else if c = ')' then some (rparen, r)
  else if c = '[' then some (lbracket, r)
  else if c = ']' then some (rbracket, r)
  else if c = '\x7b' then some (lbrace, r)
  else if c = '\x7d' then some (rbrace, r)
  else if c = ',' then some (comma, r)
  else if c = ':' then some (colon, r)
  else if c = '.' then some (dot, r)
  else if c = '-' then some (minus, r)
  else if c = '!' then
    match r with
    | '=' :: '=' :: r => some (operator .strictNotEq, r)
    | '=' :: r => some (operator .notEq, r)
    | r => some (not, r)
  else if c = '=' then
    match r with
    | '=' :: '=' :: r => some (operator .strictEq, r)
    | '=' :: r => some (operator .eq, r)
    | _ => none
  else if c = '<' then
    match r with
    | '=' :: r => some (operator .le, r)
    | r => some (operator .lt, r)
  else if c = '>' then
    match r with
    | '=' :: r => some (operator .ge, r)
    | r => some (operator .gt, r)
  else if c = '&' then
    match r with
    | '&' :: r => some (operator .and, r)
    | _ => none
  else if c = '|' then
    match r with
    | '|' :: r => some (operator .or, r)
    | _ => none
  else none

/-! ## All tokens of a text -/

/-- The token that begins with a character, which is no blank, and the rest. -/
def next (offset : Nat) (c : Char) (r : Text) : Except ConditionError (Token × Text) :=
  if Text.isDigit c then
    let (literal, rest) := numberLiteral (c :: r)
    match Binary64.parse? literal with
    | some x => .ok (number x, rest)
    | none => .error (.invalidNumber literal)
  else if c = '"' || c = '\'' then
    (quotedTail c offset (offset + 1) r).map fun (s, rest) => (string s, rest)
  else if isNameStart c then
    .ok (ident (c :: r.takeWhile isNameChar), r.dropWhile isNameChar)
  else
    match sign? c r with
    | some found => .ok found
    | none => .error (.unexpectedChar c offset)

/-- The tokens of a text that begins at an offset. -/
def scanFrom (offset : Nat) : Text → Except ConditionError (List Token)
  | [] => .ok []
  | c :: r =>
    if Text.isBlank c then scanFrom (offset + c.utf8Size) r
    else
      match next offset c r with
      | .error e => .error e
      | .ok (token, rest) =>
        -- every token is at least one character long
        if rest.length ≤ r.length then
          (scanFrom (offset + Text.size (c :: r) - Text.size rest) rest).map (token :: ·)
        else .ok [token]
termination_by t => t.length

/-- The tokens of a text. -/
def scan (t : Text) : Except ConditionError (List Token) := scanFrom 0 t

end Token

end Pagewright.Condition
