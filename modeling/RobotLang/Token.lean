/-
Tokens of a robot program, and the split of a text into them.

Six punctuation marks are tokens of their own; every other token is a
maximal run of characters that are neither white space nor marks. Only a
mark may touch another token, so the split needs no knowledge of the
words of the language, and no text is refused.

The split walks the characters once and builds its result from the right:
the tokens of a text are those of the text without its first character,
after that character has been dropped (white space), put in front as a
token (a mark, or the last letter of a word), or put in front of the
first token's letters (any other letter of a word).
-/
import RobotLang.Text.Blank

namespace RobotLang

open Text

-- ============================================================== places

/-- A place. In a text lines count from one and columns from zero, both in
characters; elsewhere a place is whatever numbers are given. -/
structure Place where
  line : Int
  column : Int
  deriving DecidableEq, Repr

namespace Place

/-- Where a text begins. -/
def start : Place := ⟨1, 0⟩

/-- The place after a character: only a line feed ends a line. -/
def next (p : Place) (c : Char) : Place :=
  if c = '\n' then ⟨p.line + 1, 0⟩ else ⟨p.line, p.column + 1⟩

/-- The place after several characters. -/
def after (p : Place) (cs : List Char) : Place := cs.foldl next p

end Place

-- ============================================================== tokens

/-- A token: its text and the place of its first character. -/
structure Token where
  value : String
  place : Place
  deriving DecidableEq, Repr

/-- The punctuation marks. -/
inductive Mark
  | openParen | closeParen | openBrace | closeBrace | comma | semicolon
  deriving DecidableEq, Repr

namespace Mark

def all : List Mark :=
  [openParen, closeParen, openBrace, closeBrace, comma, semicolon]

def char : Mark → Char
  | openParen => '('
  | closeParen => ')'
  | openBrace => '\x7b'
  | closeBrace => '\x7d'
  | comma => ','
  | semicolon => ';'

/-- The mark as the text of a token. -/
def word (m : Mark) : String := String.ofList [m.char]

end Mark

/-- Whether the character is a mark. -/
def isMark (c : Char) : Bool := Mark.all.any fun m => m.char == c

/-- The characters that words are made of. -/
def isLetter (c : Char) : Bool := !isBlank c && !isMark c

/-- A token under construction, as a list of characters. -/
structure Lexeme where
  letters : List Char
  place : Place
  deriving DecidableEq, Repr

namespace Lexeme

/-- The finished token. -/
def token (l : Lexeme) : Token := ⟨String.ofList l.letters, l.place⟩

/-- Puts a character in front of the first lexeme, which then begins
where that character stands. -/
def extend (c : Char) (p : Place) : List Lexeme → List Lexeme
  | [] => [⟨[c], p⟩]
  | l :: ls => ⟨c :: l.letters, p⟩ :: ls

/-- Whether a word would go on with the next character. -/
def goesOn : List Char → Bool
  | [] => false
  | c :: _ => isLetter c

/-- The lexemes of the characters that begin at a place. -/
def scan (p : Place) : List Char → List Lexeme
  | [] => []
  | c :: cs =>
    let later := scan (p.next c) cs
    if isBlank c then later
    else if isMark c || !goesOn cs then ⟨[c], p⟩ :: later
    else extend c p later

end Lexeme

/-- The tokens of a text, in order. -/
def tokenize (text : String) : List Token :=
  (Lexeme.scan Place.start text.toList).map Lexeme.token

end RobotLang
