/-
References in a text. A dollar sign and a name in braces stand for the
value of that name. Behind the name, still in the braces, a colon and a
minus may be followed by a text, which stands in when the name has no
value; without it nothing does. Whatever is not a whole reference stands
for itself.

The names of values are any characters but a closing brace and a colon,
and the text that stands in ends at the first closing brace, so that no
reference is found inside another one.
-/
namespace RobotLang.Text

/-- A reference: the name of a value, and what stands in for it. -/
structure Reference where
  name : String
  otherwise : String
  deriving DecidableEq, Repr

namespace Reference

/-- The reference with which the characters begin, if they do, and how many
of them it takes. -/
def read? : List Char → Option (Reference × Nat)
  | '$' :: '\x7b' :: cs =>
    let name := cs.takeWhile fun c => c ≠ '\x7d' && c ≠ ':'
    match cs.drop name.length with
    | '\x7d' :: _ => some (⟨String.ofList name, ""⟩, name.length + 3)
    | ':' :: '-' :: rest =>
      let other := rest.takeWhile (· ≠ '\x7d')
      if other.length < rest.length then
        some (⟨String.ofList name, String.ofList other⟩,
          name.length + other.length + 5)
      else none
    | _ => none
  | _ => none

end Reference

/-- A piece of a text: a character that stands for itself, or a
reference. -/
inductive Piece
  | char (c : Char)
  | reference (r : Reference)
  deriving DecidableEq, Repr

namespace Piece

/-- The pieces of the characters behind the first `skip`, which belong to
a reference that has been read. -/
def scan : Nat → List Char → List Piece
  | _, [] => []
  | skip + 1, _ :: cs => scan skip cs
  | 0, c :: cs =>
    match Reference.read? (c :: cs) with
    | some (r, length) => reference r :: scan (length - 1) cs
    | none => char c :: scan 0 cs

/-- What a piece stands for. -/
def expand (value : String → Option String) : Piece → List Char
  | char c => [c]
  | reference r => ((value r.name).getD r.otherwise).toList

end Piece

/-- The references in a text, in order. -/
def references (text : String) : List Reference :=
  (Piece.scan 0 text.toList).filterMap fun
    | .reference r => some r
    | .char _ => none

/-- The text with each reference replaced by what it stands for. -/
def expand (value : String → Option String) (text : String) : String :=
  String.ofList ((Piece.scan 0 text.toList).flatMap (Piece.expand value))

end RobotLang.Text
