import Dethernety.Foundations.Text

/-!
# The source of a policy

What the loader of a file-backed module reads out of a `policies.rego` before the engine sees it: the source that
a stored policy holds (`decodePolicySource`), its package, and whether it can be evaluated on its own. The regular
expressions are written as tests of a place in the text, given the character before it.
-/

namespace FileModule

abbrev Text := List Char

/-- The value of a base64 digit, of either alphabet. -/
def sextet (c : Char) : Option ℕ :=
  if 'A' ≤ c ∧ c ≤ 'Z' then some (c.toNat - 65)
  else if 'a' ≤ c ∧ c ≤ 'z' then some (c.toNat - 71)
  else if '0' ≤ c ∧ c ≤ '9' then some (c.toNat + 4)
  else if c = '+' ∨ c = '-' then some 62
  else if c = '/' ∨ c = '_' then some 63
  else none

def bytesOfSextets : List ℕ → List UInt8
  | a :: b :: c :: d :: rest =>
    .ofNat (a * 4 + b / 16) :: .ofNat (b % 16 * 16 + c / 4) :: .ofNat (c % 4 * 64 + d) :: bytesOfSextets rest
  | [a, b, c] => [.ofNat (a * 4 + b / 16), .ofNat (b % 16 * 16 + c / 4)]
  | [a, b] => [.ofNat (a * 4 + b / 16)]
  | _ => []

/-- `Buffer.from(value, 'base64').toString('utf-8')`; other characters than digits are passed over. -/
def fromBase64 (value : Text) : Text :=
  decodeUtf8 (bytesOfSextets (value.filterMap sextet))

/-- Whether the text starts with a package clause. -/
def isSource (text : Text) : Bool :=
  "package ".toList.isPrefixOf (ecmaTrim text)

def decodePolicySource (value : Text) : Option Text :=
  if value = [] then none
  else if isSource value then some value
  else if isSource (fromBase64 value) then some (fromBase64 value)
  else some value

/-! ## The analysis of a source -/

inductive Mode
  | code
  | comment
  | rawString
  | string
  /-- After a backslash in a string. -/
  | escaped

def blank (c : Char) : Char :=
  if c = '\n' then c else ' '

/-- The scan of `stripNonCode`. -/
def stripFrom : Mode → Text → Text
  | _, [] => []
  | .code, c :: text =>
    if c = '#' then blank c :: stripFrom .comment text
    else if c.toNat = 0x60 then blank c :: stripFrom .rawString text
    else if c = '"' then blank c :: stripFrom .string text
    else c :: stripFrom .code text
  | .comment, c :: text => blank c :: stripFrom (if c = '\n' then .code else .comment) text
  | .rawString, c :: text => blank c :: stripFrom (if c.toNat = 0x60 then .code else .rawString) text
  | .string, c :: text =>
    blank c :: stripFrom (if c = '"' then .code else if c = '\\' then .escaped else .string) text
  | .escaped, c :: text => blank c :: stripFrom .string text

def stripNonCode (source : Text) : Text :=
  stripFrom .code source

/-- The leftmost match of a pattern, from a place with a character before it on. -/
def firstMatch {α : Type} (pattern : Option Char → Text → Option α) : Option Char → Text → Option α
  | before, [] => pattern before []
  | before, c :: text => (pattern before (c :: text)).orElse fun _ => firstMatch pattern (some c) text

/-- `^` of a pattern with the flag `m` -/
def lineStart (before : Option Char) : Bool :=
  before.all fun c => [0x0a, 0x0d, 0x2028, 0x2029].contains c.toNat

/-- `\w` -/
def isWord (c : Char) : Bool :=
  c.isAlphanum || c = '_'

def isWordOrDot (c : Char) : Bool :=
  c = '.' || isWord c

def literal (l : String) (text : Text) : Option Text :=
  if l.toList.isPrefixOf text then some (text.drop l.length) else none

/-- What follows `\s+`. -/
def spaces : Text → Option Text
  | [] => none
  | c :: text => if isEcmaSpace c then some (text.dropWhile isEcmaSpace) else none

/-- `/^\s*package\s+(\S+)/m` -/
def packageClause (before : Option Char) (text : Text) : Option Text := do
  guard (lineStart before)
  let text ← literal "package" (text.dropWhile isEcmaSpace)
  let text ← spaces text
  let name := text.takeWhile (!isEcmaSpace ·)
  guard (name ≠ [])
  return name

def extractPackage (source : Text) : Option Text :=
  firstMatch packageClause none (stripNonCode source)

/-- `/^\s*import\s+data\b/m` -/
def importsData (before : Option Char) (text : Text) : Option Unit := do
  guard (lineStart before)
  let text ← literal "import" (text.dropWhile isEcmaSpace)
  let text ← spaces text
  let text ← literal "data" text
  guard (text.head?.all (!isWord ·))

/-- `/\bwith\s+data\b/` -/
def overridesData (before : Option Char) (text : Text) : Option Unit := do
  guard (before.all (!isWord ·))
  let text ← literal "with" text
  let text ← spaces text
  let text ← literal "data" text
  guard (text.head?.all (!isWord ·))

/-- `/(?<![.\w])data(?![.\w])/` -/
def wholeData (before : Option Char) (text : Text) : Option Unit := do
  guard (before.all (!isWordOrDot ·))
  let text ← literal "data" text
  guard (text.head?.all (!isWordOrDot ·))

/-- `/(?<![.\w])data\.([A-Za-z_][A-Za-z0-9_.]*)/g`, for a package that is not the policy's own. -/
def foreignData (packageName : Text) (before : Option Char) (text : Text) : Option Unit := do
  guard (before.all (!isWordOrDot ·))
  let text ← literal "data." text
  guard (text.head?.any fun c => c.isAlpha || c = '_')
  let ref := text.takeWhile isWordOrDot
  guard (ref ≠ packageName ∧ ¬ packageName ++ ['.'] <+: ref)

def hasIsolationViolations (source packageName : Text) : Bool :=
  let code := stripNonCode source
  (firstMatch importsData none code).isSome || (firstMatch overridesData none code).isSome ||
    (firstMatch wholeData none code).isSome || (firstMatch (foreignData packageName) none code).isSome

end FileModule
