import Dethernety.Foundations.Text

/-!
# Splitting a Cypher script into statements

Model of `ParseStatements` of `pkg/cypher/parse.go` and of `parseStatements` of
`scripts/module-manager/database.ts`. Both walk over the code units of the script, bytes in Go and
UTF-16 units in TypeScript, through the same branches (`step`); they differ in the units, in what
`TrimSpace` and `trim` take for white space, and in that Go refuses a script that ends in an open
string or block comment.
-/

namespace Cypher

/-- The variables of the loop. -/
structure Scan (α : Type) where
  statements : List (List α) := []
  current : List α := []
  inString : Bool := false
  stringChar : Option α := none
  inLineComment : Bool := false
  inBlockComment : Bool := false

section

variable {α : Type} [DecidableEq α]

/-- One round of the loop, at the unit `ch` with `next` after it, and whether two units are done.
`unit` writes an ASCII character and `emit` gives the statements that a flush adds for `current`. -/
def step (unit : Char → α) (emit : List α → List (List α)) (s : Scan α) (ch : α) (next : Option α) :
    Scan α × Bool :=
  -- block comment
  if !s.inString ∧ !s.inLineComment ∧ !s.inBlockComment ∧ ch = unit '/' ∧ next = some (unit '*') then
    ({ s with inBlockComment := true }, true)
  else if s.inBlockComment ∧ ch = unit '*' ∧ next = some (unit '/') then
    ({ s with inBlockComment := false }, true)
  else if s.inBlockComment then (s, false)
  -- line comment, whose newline is kept
  else if !s.inString ∧ !s.inLineComment ∧ ch = unit '/' ∧ next = some (unit '/') then
    ({ s with inLineComment := true }, true)
  else if s.inLineComment ∧ ch = unit '\n' then
    ({ s with inLineComment := false, current := s.current ++ [unit '\n'] }, false)
  else if s.inLineComment then (s, false)
  -- escape sequence, also outside of a string
  else if ch = unit '\\' ∧ next.isSome then
    ({ s with current := s.current ++ [ch] ++ next.toList }, true)
  -- string literal
  else if !s.inString ∧ (ch = unit '\'' ∨ ch = unit '"') then
    ({ s with inString := true, stringChar := some ch, current := s.current ++ [ch] }, false)
  else if s.inString ∧ some ch = s.stringChar then
    ({ s with inString := false, current := s.current ++ [ch] }, false)
  -- statement delimiter
  else if !s.inString ∧ ch = unit ';' then
    ({ s with statements := s.statements ++ emit s.current, current := [] }, false)
  else ({ s with current := s.current ++ [ch] }, false)

/-- The loop. -/
def scan (unit : Char → α) (emit : List α → List (List α)) : Scan α → List α → Scan α
  | s, [] => s
  | s, ch :: rest =>
    match step unit emit s ch rest.head? with
    | (s', false) => scan unit emit s' rest
    | (s', true) =>
      match rest with
      | [] => s'
      | _ :: rest' => scan unit emit s' rest'

/-- The statements with the trailing one. -/
def Scan.finish (emit : List α → List (List α)) (s : Scan α) : List (List α) :=
  s.statements ++ emit s.current

/-- A trimmed statement, or none when nothing is left. -/
def keep (statement : List α) : List (List α) :=
  if statement = [] then [] else [statement]

/-- Drop words of `white` from the left, at most `fuel` of them. -/
def trimLeft (white : List (List α)) : Nat → List α → List α
  | 0, s => s
  | fuel + 1, s =>
    match white.find? (fun w => w.isPrefixOf s) with
    | some w => trimLeft white fuel (s.drop w.length)
    | none => s

/-- Drop words of `white` from the right, at most `fuel` of them. -/
def trimRight (white : List (List α)) : Nat → List α → List α
  | 0, s => s
  | fuel + 1, s =>
    match white.find? (fun w => w.isSuffixOf s) with
    | some w => trimRight white fuel (s.take (s.length - w.length))
    | none => s

/-- Drop all words of `white` from both ends. -/
def trimWords (white : List (List α)) (s : List α) : List α :=
  trimRight white s.length (trimLeft white s.length s)

end

/-- The characters that are white space to both languages. -/
def space : List Char :=
  ['\t', '\n', '\x0b', '\x0c', '\r', ' ', '\u00a0', '\u1680', '\u2000', '\u2001', '\u2002', '\u2003',
    '\u2004', '\u2005', '\u2006', '\u2007', '\u2008', '\u2009', '\u200a', '\u2028', '\u2029', '\u202f',
    '\u205f', '\u3000']

/-- NEL, white space to Go only. -/
def nextLine : Char := '\u0085'

def byteOrderMark : Char := '\ufeff'

/-- What `unicode.IsSpace` accepts. -/
def goSpace : List Char := nextLine :: space

/-- What `String.prototype.trim` removes. -/
def jsSpace : List Char := byteOrderMark :: space

/-- What `ParseStatements` returns as an error. -/
inductive ParseError
  | unterminatedString
  | unterminatedBlockComment
  deriving DecidableEq

def ParseError.message : ParseError → String
  | unterminatedString => "unterminated string literal"
  | unterminatedBlockComment => "unterminated block comment"

def trimSpace (s : List UInt8) : List UInt8 :=
  trimWords (goSpace.map CharCode.utf8.word) s

def goParseStatements (content : List UInt8) : Except ParseError (List (List UInt8)) :=
  let flush := fun current => keep (trimSpace current)
  let s := scan CharCode.utf8.unit flush {} content
  if s.inString then .error .unterminatedString
  else if s.inBlockComment then .error .unterminatedBlockComment
  else .ok (s.finish flush)

/-- `String.prototype.trim` -/
def trim (s : List UInt16) : List UInt16 :=
  trimWords (jsSpace.map CharCode.utf16.word) s

def tsParseStatements (content : List UInt16) : List (List UInt16) :=
  let flush := fun current => keep (trim current)
  (scan CharCode.utf16.unit flush {} content).finish flush

end Cypher
