/-!
# Why a text is not an identifier

A refusal names its cause and the character offset at which it was found. A missing closing
bracket, brace or parenthesis is found at the one that opens.
-/

namespace OlapClient

/-- Why a text cannot be read on. -/
inductive Reason where
  /-- The text ends where a segment is expected. -/
  | missingSegment
  /-- A second key mark before the key part. -/
  | repeatedKeyMark
  /-- A character that no segment starts with. -/
  | notASegment (found : Char)
  | unclosedBracket
  /-- No parenthesis opens the tuple; the text may have ended. -/
  | notATuple (found : Option Char)
  | unclosedTuple
  | strayInTuple (found : Char)
  /-- A comma that no element follows. -/
  | trailingComma
  | unopenedBrace
  | unclosedBrace
  | strayInList (found : Char)
  /-- A character after the end of what was to be read. -/
  | strayAtEnd (found : Char)
  /-- A reason that a caller words. -/
  | other (text : String)
  deriving DecidableEq, Repr

/-- A reason and the character offset at which it was found. -/
structure Refusal where
  reason : Reason
  position : Nat
  deriving DecidableEq, Repr

/-- Why an identifier, tuple or list was not read. -/
inductive IdentifierError where
  /-- Blank text where an identifier is required. -/
  | empty
  /-- A text refused at one place. -/
  | refused (refusal : Refusal) (input : String)
  deriving DecidableEq, Repr

namespace Reason

/-- The wording of a reason. -/
def message : Reason → String
  | missingSegment => "expected identifier segment, found end of input"
  | repeatedKeyMark => "unexpected '&'"
  | notASegment c => "unexpected '" ++ c.toString ++ "' where an identifier segment was expected"
  | unclosedBracket => "unterminated bracket: missing ']'"
  | notATuple (some c) => "expected '(' to open a tuple, found '" ++ c.toString ++ "'"
  | notATuple none => "expected '(' to open a tuple, found end of input"
  | unclosedTuple => "unterminated tuple: missing ')'"
  | strayInTuple c => "unexpected '" ++ c.toString ++ "' in tuple"
  | trailingComma => "trailing ',' in list"
  | unopenedBrace => "mismatched braces: '\x7d' without opening '\x7b'"
  | unclosedBrace => "mismatched braces: missing closing '\x7d'"
  | strayInList c => "unexpected '" ++ c.toString ++ "' in list"
  | strayAtEnd c => "unexpected '" ++ c.toString ++ "' after end of expression"
  | other text => text

end Reason

namespace IdentifierError

/-- The wording of an error. -/
def message : IdentifierError → String
  | empty => "empty identifier"
  | refused r input =>
    "parse error at position " ++ toString r.position ++ " in \"" ++ input ++ "\": " ++
      r.reason.message

/-- The offending character offset, where there is one. -/
def position? : IdentifierError → Option Nat
  | empty => none
  | refused r _ => some r.position

end IdentifierError

end OlapClient
