import Justflow.Library.Json

/-!
# Authored identifiers, references and placeholders

A reference path is kept as the parser leaves it: the authored text, the root identifier and
the remaining tokens.  A string with placeholders is split once into literal pieces and names;
a literal piece is never empty, so a string that is one placeholder is one segment.
-/

namespace Justflow

def identifierStart (c : Char) : Bool :=
  ('a' ≤ c && c ≤ 'z') || ('A' ≤ c && c ≤ 'Z') || c == '_'

def identifierChar (c : Char) : Bool :=
  identifierStart c || ('0' ≤ c && c ≤ '9')

/-- Full match of the identifier pattern. -/
def isIdentifier : List Char → Bool
  | [] => false
  | c :: rest => identifierStart c && rest.all identifierChar

def maxIdentifierLength : Nat := 128

/-- The constraint every authored name carries. -/
def validIdentifier (name : String) : Bool :=
  isIdentifier name.toList && decide (name.length ≤ maxIdentifierLength)

theorem ne_empty_of_validIdentifier {name : String} (h : validIdentifier name = true) :
    name ≠ "" := by
  rintro rfl
  simp [validIdentifier, isIdentifier] at h

def reservedDataRoots : List String := ["error", "input", "request_id"]

/-- A path token.  A boolean subscript of a condition passes for an integer in its parser, and
for neither a key nor an index when the path is walked. -/
inductive ReferenceToken where
  | key (name : String)
  | index (position : Int)
  | flag (value : Bool)
  deriving DecidableEq, Repr

structure ReferencePath where
  value : String
  root : String
  path : List ReferenceToken
  deriving DecidableEq, Repr

inductive Segment where
  | text (piece : String)
  | placeholder (name : String)
  deriving DecidableEq, Repr

/-- A literal piece in front of later segments; an empty one is dropped. -/
def Segment.emit (piece : List Char) (rest : List Segment) : List Segment :=
  if piece = [] then rest else .text (String.ofList piece.reverse) :: rest

/-- Where the scanner stands: in literal text, or inside a placeholder opened earlier. -/
inductive Scan where
  | literal (piece : List Char)
  | name (start : Nat) (chars : List Char)

/-- One pass over the characters; `position` counts them for the error texts, and the names of
a placeholder and of a literal piece are collected in reverse. -/
def scanPlaceholders (reprStr : String → String) :
    Scan → Nat → List Char → Except String (List Segment)
  | .literal piece, _, [] => .ok (Segment.emit piece [])
  | .literal piece, position, '$' :: '{' :: rest => do
      let segments ← scanPlaceholders reprStr (.name position []) (position + 2) rest
      return Segment.emit piece segments
  | .literal piece, position, c :: rest =>
      scanPlaceholders reprStr (.literal (c :: piece)) (position + 1) rest
  | .name start _, _, [] =>
      .error s!"placeholder beginning at character {start} is unclosed"
  | .name start chars, position, '}' :: rest =>
      if isIdentifier chars.reverse then do
        let segments ← scanPlaceholders reprStr (.literal []) (position + 1) rest
        return .placeholder (String.ofList chars.reverse) :: segments
      else
        let quoted := reprStr (String.ofList chars.reverse)
        .error s!"placeholder at character {start} has invalid name {quoted}"
  | .name start chars, position, c :: rest =>
      scanPlaceholders reprStr (.name start (c :: chars)) (position + 1) rest

def parsePlaceholders (reprStr : String → String) (value : String) :
    Except String (List Segment) :=
  scanPlaceholders reprStr (.literal []) 0 value.toList

example : parsePlaceholders id "a${x}b" =
    .ok [.text "a", .placeholder "x", .text "b"] := by decide

end Justflow
