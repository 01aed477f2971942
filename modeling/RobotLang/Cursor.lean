/-
A cursor over a list of tokens: the list, which never changes, and how
many of its tokens have been taken. Any reading can be performed at the
cursor, which then stands where the reading stopped, whether it ended with
a value or with a refusal.
-/
import RobotLang.Reading.Rules

namespace RobotLang

/-- A token list and the number of tokens taken from it. -/
structure Cursor where
  tokens : List Token
  taken : Nat
  deriving DecidableEq, Repr

namespace Cursor

/-- The cursor in front of all the tokens. -/
def ofTokens (tokens : List Token) : Cursor := ⟨tokens, 0⟩

/-- The cursor in front of the tokens of a text. -/
def ofText (text : String) : Cursor := ofTokens (tokenize text)

/-- The tokens not yet taken. -/
def left (c : Cursor) : List Token := c.tokens.drop c.taken

/-- The cursor in front of the first token again. -/
def reset (c : Cursor) : Cursor := { c with taken := 0 }

/-- The cursor moved to where so many tokens are left. -/
def leaving (c : Cursor) (rest : List Token) : Cursor :=
  { c with taken := c.tokens.length - rest.length }

/-- Performs a reading at the cursor. -/
def perform {α : Type} (c : Cursor) (r : Reading α) :
    Except Refusal α × Cursor :=
  match r c.left with
  | .ok a rest => (.ok a, c.leaving rest)
  | .error e rest => (.error e, c.leaving rest)

/-- The values of the tokens from the cursor up to `count` places further
on. An end in front of the first token is counted back from behind the last
one. -/
def upcoming (c : Cursor) (count : Int) : List String :=
  let stop := c.taken + count
  let stop := if stop < 0 then stop + c.tokens.length else stop
  ((c.tokens.take stop.toNat).drop c.taken).map Token.value

end Cursor

-- ============================================================ requests

/-- What a token may be compared with: a word or a pattern. -/
inductive Wanted
  | word (w : String)
  | pattern (p : Pattern)
  deriving DecidableEq, Repr

/-- Whether a word is the wanted one. -/
def Wanted.fits : Wanted → String → Bool
  | .word v, w => w == v
  | .pattern p, w => p.fits w

/-- What can be asked of a cursor. -/
inductive Request
  | hasNext (wanted : Option Wanted)
  | peek
  | current
  | next
  | upcoming (count : Int)
  | reset
  | checkFor (wanted : Wanted)
  | require (wanted : Wanted) (message : String)
  | fail (message : String)
  | read (rule : Rule)
  deriving DecidableEq, Repr

/-- What a cursor answers. -/
inductive Reply
  | nothing
  | truth (b : Bool)
  | word (w : String)
  | words (ws : List String)
  | token (t : Token)
  | tree (t : Tree)
  deriving DecidableEq, Repr

namespace Cursor

/-- Fulfils a request. -/
def ask (c : Cursor) : Request → Except Refusal Reply × Cursor
  | .hasNext none => c.perform do
    return .truth (!(← Reading.atEnd))
  | .hasNext (some w) => c.perform do
    return .truth (← Reading.sees w.fits)
  | .peek => c.perform do
    match ← Reading.peek with
    | none => return .nothing
    | some t => return .word t.value
  | .current => c.perform do
    match ← Reading.peek with
    | none => return .nothing
    | some t => return .token t
  | .next => c.perform do
    return .word (← Reading.next)
  | .upcoming n => (.ok (.words (c.upcoming n)), c)
  | .reset => (.ok .nothing, c.reset)
  | .checkFor w => c.perform do
    let taken ← Reading.accept (Reading.passing w.fits)
    return .truth taken.isSome
  | .require w m => c.perform do
    return .word (← Reading.require (Reading.passing w.fits) (.stated m))
  | .fail m => c.perform (Reading.refuse (.stated m))
  | .read rule => c.perform do
    return .tree (← rule.read)

end Cursor

end RobotLang
