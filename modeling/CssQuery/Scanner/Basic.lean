import CssQuery.Error
import CssQuery.Text.Space
import CssQuery.Token.Pattern

/-!
# Scanners

A scanner moves through a text and remembers its last step.  It recognises a
token at the place where the next one begins, which lies behind the selector
space ahead if the scanner skips space.  A step that succeeds keeps the text
it matched and the one matched before it, and can be undone once.  A step that
fails changes nothing.
-/

namespace CssQuery

/-- A place in a text with the memory of the last step. -/
structure Scanner where
  text : List Char
  /-- How many characters lie before the place. -/
  position : Nat := 0
  /-- The place to which undoing returns. -/
  undoPosition : Nat := 0
  /-- The text that the last step matched. -/
  matched : List Char := []
  /-- The text that the step before it matched. -/
  lastMatch : List Char := []
  /-- Whether selector space is skipped before every token. -/
  skipsSpace : Bool := false
deriving DecidableEq, Repr

/-- A token that a caller may ask a scanner for. -/
inductive Request where
  | character
  | literal (text : List Char)
  /-- A nonempty run of characters that pass a test. -/
  | run (description : String) (test : Char → Bool)
  | ofPattern (pattern : Pattern)

namespace Request

def ofClass (charClass : CharClass) : Request :=
  run "a character of the required class" charClass.holds

def letters : Request :=
  run "a letter" Char.isAlpha

/-- The words for the token in an error message. -/
def description : Request → String
  | character => "any character"
  | literal text => "\"" ++ String.ofList text ++ "\""
  | run description _ => description
  | ofPattern pattern => pattern.description

def recognise : Request → Recogniser
  | character => Recogniser.character
  | literal text => Recogniser.literal text
  | run _ test => Recogniser.run test
  | ofPattern pattern => pattern.recognise

end Request

namespace Scanner

def ofText (text : String) (skipsSpace : Bool) : Scanner :=
  { text := text.toList, skipsSpace := skipsSpace }

def remainder (scanner : Scanner) : List Char :=
  scanner.text.drop scanner.position

def finished (scanner : Scanner) : Bool :=
  scanner.text.length ≤ scanner.position

def current? (scanner : Scanner) : Option Char :=
  scanner.text[scanner.position]?

/-- The character behind the one at the place. -/
def peek? (scanner : Scanner) : Option Char :=
  scanner.text[scanner.position + 1]?

def spaceAhead (scanner : Scanner) : Nat :=
  (scanner.remainder.takeWhile isSpace).length

def tokenStart (scanner : Scanner) : Nat :=
  if scanner.skipsSpace then scanner.position + scanner.spaceAhead
  else scanner.position

/-- Nothing but space to be skipped lies ahead. -/
def atEnd (scanner : Scanner) : Bool :=
  scanner.text.length ≤ scanner.tokenStart

/-- Records a step to another place that matched some text. -/
def commit (scanner : Scanner) (position : Nat) (matched : List Char) : Scanner :=
  { scanner with
    position := position
    undoPosition := scanner.position
    matched := matched
    lastMatch := scanner.matched }

/-- Takes the token asked for if it is next. -/
def take? (scanner : Scanner) (request : Request) :
    Option (List Char × Scanner) :=
  (request.recognise (scanner.text.drop scanner.tokenStart)).map fun token =>
    (token.value,
      scanner.commit (scanner.tokenStart + token.lexeme.length) token.value)

/-- Takes the token asked for, which must be next. -/
def expect (scanner : Scanner) (request : Request) :
    Except ScanError (List Char × Scanner) :=
  match scanner.take? request with
  | some taken => .ok taken
  | none =>
      .error (.unexpected scanner.tokenStart (some request.description)
        scanner.text[scanner.tokenStart]?)

/-- Steps back over one character; at the start nothing happens. -/
def previous (scanner : Scanner) : Scanner :=
  if scanner.position = 0 then scanner
  else
    { scanner with
      position := scanner.position - 1
      undoPosition := scanner.position }

/-- Returns to where the last step began. -/
def undo (scanner : Scanner) : Scanner :=
  { scanner with position := scanner.undoPosition }

def skipSpace (scanner : Scanner) : Scanner :=
  { scanner with position := scanner.position + scanner.spaceAhead }

/-- Moves to the next occurrence of a character, or to the end if that is
allowed.  The text passed over is the text matched. -/
def seek (scanner : Scanner) (target : Char) (orEnd : Bool) :
    Except ScanError Scanner :=
  if orEnd || scanner.remainder.contains target then
    let passed := scanner.remainder.takeWhile (· != target)
    .ok (scanner.commit (scanner.position + passed.length) passed)
  else
    .error (.state scanner.position
      ("'" ++ String.singleton target ++ "' not found"))

/-- Requires that nothing but space to be skipped lies ahead. -/
def expectEnd (scanner : Scanner) (requirement : Option String) :
    Except ScanError Unit :=
  if scanner.atEnd then .ok ()
  else
    .error (.state scanner.tokenStart (requirement.getD
      ("unexpected trailing input \""
        ++ String.ofList (trim scanner.remainder) ++ "\"")))

/-- Requires that a token lies ahead. -/
def expectMore (scanner : Scanner) (requirement : Option String) :
    Except ScanError Unit :=
  if scanner.atEnd then
    .error (.state scanner.tokenStart (requirement.getD "unexpected end of input"))
  else .ok ()

end Scanner

end CssQuery
