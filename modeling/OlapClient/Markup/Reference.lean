import OlapClient.Text.Number

/-!
# Entity and character references

A reference runs from an ampersand to the next semicolon. It names one of five characters, or
gives a character by its number, decimal or hexadecimal.
-/

namespace OlapClient.Markup

/-- Why a numeric reference gives no character. -/
inductive CharacterFault where
  | sign
  | number (fault : Text.NumberFault)
  | nul
  | notACharacter (code : Nat)
  deriving DecidableEq, Repr

/-- Why a reference is refused. -/
inductive ReferenceFault where
  /-- No semicolon ends the reference. -/
  | unterminated (start stop : Nat)
  | unknown (start stop : Nat) (name : String)
  | character (fault : CharacterFault)
  deriving DecidableEq, Repr

namespace CharacterFault

/-- The wording of a fault. -/
def message : CharacterFault → String
  | sign => "unexpected number sign"
  | number fault => fault.message
  | nul => "0x0 character is not permitted in XML"
  | notACharacter code => "`" ++ toString code ++ "` is not a valid codepoint"

end CharacterFault

namespace ReferenceFault

/-- The wording of a fault. -/
def message : ReferenceFault → String
  | unterminated start stop =>
    "Error while escaping character at range " ++ toString start ++ ".." ++ toString stop ++
      ": Cannot find ';' after '&'"
  | unknown start stop name =>
    "at " ++ toString start ++ ".." ++ toString stop ++ ": unrecognized entity `" ++ name ++ "`"
  | character fault => "invalid character reference: " ++ fault.message

end ReferenceFault

/-- The characters that have a name, and their names. -/
def namedCharacters : List (Char × String) :=
  [('<', "lt"), ('>', "gt"), ('&', "amp"), ('\'', "apos"), ('"', "quot")]

/-- The character of a name. -/
def characterNamed? (name : List Char) : Option Char :=
  (namedCharacters.find? fun entry => entry.2.toList == name).map (·.1)

/-- The character with this number, written in the given radix. -/
def characterNumbered (radix : Nat) (digits : List Char) : Except CharacterFault Char :=
  match digits with
  | '+' :: _ | '-' :: _ => .error .sign
  | _ =>
    match Text.unsigned radix 0xFFFFFFFF digits with
    | .error fault => .error (.number fault)
    | .ok code =>
      if code = 0 then .error .nul
      else if code.isValidChar then .ok (Char.ofNat code)
      else .error (.notACharacter code)

/-- The character of the reference `name`, which starts at the given offset. -/
def characterOf (start : Nat) (name : List Char) : Except ReferenceFault Char :=
  match name with
  | '#' :: 'x' :: digits => (characterNumbered 16 digits).mapError .character
  | '#' :: digits => (characterNumbered 10 digits).mapError .character
  | _ =>
    match characterNamed? name with
    | some c => .ok c
    | none =>
      let text := String.ofList name
      .error (.unknown start (start + text.utf8ByteSize) text)

/-- A place in a text with references. -/
inductive ReferenceState where
  /-- Outside references. -/
  | plain
  /-- In a reference whose ampersand stands at `start`; its name has its last character first. -/
  | inName (start : Nat) (name : List Char)
  deriving DecidableEq, Repr

/-- The characters after byte `offset`, references resolved, in a text of `size` bytes. -/
def resolveFrom (size offset : Nat) (state : ReferenceState) :
    List Char → Except ReferenceFault (List Char)
  | [] =>
    match state with
    | .plain => .ok []
    | .inName start _ => .error (.unterminated start size)
  | c :: cs =>
    match state with
    | .plain =>
      if c = '&' then resolveFrom size (offset + 1) (.inName offset []) cs
      else do
        let rest ← resolveFrom size (offset + c.utf8Size) .plain cs
        return c :: rest
    | .inName start name =>
      if c = '&' then .error (.unterminated start size)
      else if c = ';' then do
        let resolved ← characterOf (start + 1) name.reverse
        let rest ← resolveFrom size (offset + 1) .plain cs
        return resolved :: rest
      else resolveFrom size (offset + c.utf8Size) (.inName start (c :: name)) cs

/-- A text with its references resolved. -/
def resolve (s : String) : Except ReferenceFault String :=
  (resolveFrom s.utf8ByteSize 0 .plain s.toList).map String.ofList

/-! ### Writing -/

/-- A character as it is written: those that have a name by their name. -/
def escapeChar (c : Char) : List Char :=
  match namedCharacters.find? fun entry => entry.1 == c with
  | some entry => '&' :: (entry.2.toList ++ [';'])
  | none => [c]

/-- A text as it is written inside a document. -/
def escape (s : String) : String := String.ofList (s.toList.flatMap escapeChar)

end OlapClient.Markup
