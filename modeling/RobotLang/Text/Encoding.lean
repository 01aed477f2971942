/-
The encodings in which program files are read: UTF-8, Latin-1 and ASCII.
Others are not modelled.
Decoding gives the characters or the first flaw, with the positions of the
bytes that are to blame.

A UTF-8 character begins with a byte that settles how many bytes go on and
in which range each of them must be. If one is out of its range, the bytes
before it are to blame, and likewise if the text ends too early.
-/
namespace RobotLang.Text

/-- Raw content. -/
abbrev Bytes := List UInt8

-- =========================================================== encodings

inductive Encoding
  | utf8 | latin1 | ascii
  deriving DecidableEq, Repr

namespace Encoding

def name : Encoding → String
  | utf8 => "utf-8"
  | latin1 => "latin-1"
  | ascii => "ascii"

/-- Names of an encoding besides its own, in plain form. -/
def aliases : Encoding → List String
  | utf8 => ["utf8", "utf", "u8", "utf8_ucs2", "utf8_ucs4", "cp65001"]
  | latin1 =>
    ["latin1", "latin", "l1", "8859", "iso8859", "iso8859_1", "iso_8859_1",
     "iso_8859_1_1987", "iso_ir_100", "ibm819", "cp819", "csisolatin1"]
  | ascii =>
    ["us_ascii", "us", "646", "iso646_us", "iso_646.irv_1991", "iso_ir_6",
     "ansi_x3.4_1968", "ansi_x3_4_1968", "ansi_x3.4_1986", "ibm367", "cp367",
     "csascii"]

/-- The plain form of a name: in lower case, and with an underscore for
whatever is between ASCII letters, digits and dots. -/
def plain (n : String) : String :=
  let isKept (c : Char) : Bool := c.isAlphanum || c = '.'
  let cs := n.toList.map fun c => if isKept c then c.toLower else '_'
  let words := (cs.splitOn '_').filter (· ≠ [])
  "_".intercalate (words.map String.ofList)

/-- Whether a name in plain form is a name of the encoding. In the other
names an underscore may be written as a dot. -/
def isCalled (e : Encoding) (n : String) : Bool :=
  let undotted := n.map fun c => if c = '.' then '_' else c
  plain e.name == n || e.aliases.contains n || e.aliases.contains undotted

/-- The encoding of a name. Exactly `locale` means that of the system. Only
the three encodings above are modelled: that the name of any other counts as
unknown, `utf-16` or `cp1252` say, is a limit of the model. -/
def ofName? (n : String) : Option Encoding :=
  if n = "locale" then some utf8
  else [utf8, latin1, ascii].find? (·.isCalled (plain n))

end Encoding

/-- The UTF-8 bytes of a text. -/
def utf8 (text : String) : Bytes :=
  text.toList.flatMap String.utf8EncodeChar

-- ================================================================ flaws

/-- What can be wrong with bytes. -/
inductive Flaw
  | badStart | badContinuation | cutShort | notAscii
  deriving DecidableEq, Repr

def Flaw.message : Flaw → String
  | badStart => "invalid start byte"
  | badContinuation => "invalid continuation byte"
  | cutShort => "unexpected end of data"
  | notAscii => "ordinal not in range(128)"

/-- A flaw and its place: the first byte to blame, its position, and how
many more bytes are to blame with it. -/
structure DecodeError where
  encoding : Encoding
  flaw : Flaw
  byte : UInt8
  position : Nat
  more : Nat
  deriving DecidableEq, Repr

/-- Two hexadecimal digits. -/
def hexByte (b : UInt8) : String :=
  String.ofList [(b.toNat / 16).digitChar, (b.toNat % 16).digitChar]

/-- The flaw in words. -/
def DecodeError.message (e : DecodeError) : String :=
  let place :=
    if e.more = 0 then
      "byte 0x" ++ hexByte e.byte ++ " in position " ++ toString e.position
    else
      "bytes in position " ++ toString e.position ++ "-"
        ++ toString (e.position + e.more)
  "'" ++ e.encoding.name ++ "' codec can't decode " ++ place ++ ": "
    ++ e.flaw.message

-- ============================================================= decoding

/-- The ranges of the bytes that go on after a first byte; none if a
character cannot begin with it. -/
def continuations (b : Nat) : Option (List (Nat × Nat)) :=
  let any := (0x80, 0xBF)
  if b < 0x80 then some []
  else if b < 0xC2 then none
  else if b < 0xE0 then some [any]
  else if b = 0xE0 then some [(0xA0, 0xBF), any]
  else if b = 0xED then some [(0x80, 0x9F), any]
  else if b < 0xF0 then some [any, any]
  else if b = 0xF0 then some [(0x90, 0xBF), any, any]
  else if b < 0xF4 then some [any, any, any]
  else if b = 0xF4 then some [(0x80, 0x8F), any, any]
  else none

/-- How many bytes from the front are in their ranges. -/
def inRange : List (Nat × Nat) → Bytes → Nat
  | r :: rs, b :: bs =>
    if r.1 ≤ b.toNat ∧ b.toNat ≤ r.2 then inRange rs bs + 1 else 0
  | _, _ => 0

/-- The character of a first byte and those that go on, six bits each. -/
def assemble (b : UInt8) (more : Bytes) : Char :=
  let lead :=
    match more.length with
    | 0 => b.toNat
    | 1 => b.toNat - 0xC0
    | 2 => b.toNat - 0xE0
    | _ => b.toNat - 0xF0
  Char.ofNat (more.foldl (fun n c => n * 64 + (c.toNat - 0x80)) lead)

/-- Decodes UTF-8 from a position on, after as many bytes as belong to a
character already decoded. -/
def decodeUtf8 (position skip : Nat) :
    Bytes → Except DecodeError (List Char)
  | [] => .ok []
  | b :: bs =>
    match skip with
    | n + 1 => decodeUtf8 (position + 1) n bs
    | 0 =>
      match continuations b.toNat with
      | none => .error ⟨.utf8, .badStart, b, position, 0⟩
      | some ranges =>
        let n := inRange ranges bs
        if n = ranges.length then do
          let cs ← decodeUtf8 (position + 1) n bs
          return assemble b (bs.take n) :: cs
        else if n = bs.length then .error ⟨.utf8, .cutShort, b, position, n⟩
        else .error ⟨.utf8, .badContinuation, b, position, n⟩

/-- Decodes ASCII from a position on. -/
def decodeAscii (position : Nat) : Bytes → Except DecodeError (List Char)
  | [] => .ok []
  | b :: bs =>
    if b.toNat < 0x80 then do
      let cs ← decodeAscii (position + 1) bs
      return Char.ofNat b.toNat :: cs
    else .error ⟨.ascii, .notAscii, b, position, 0⟩

/-- Decodes Latin-1, in which a byte is a code point. -/
def decodeLatin1 (bytes : Bytes) : List Char :=
  bytes.map fun b => Char.ofNat b.toNat

/-- The characters of encoded bytes. -/
def decode (encoding : Encoding) (bytes : Bytes) :
    Except DecodeError (List Char) :=
  match encoding with
  | .utf8 => decodeUtf8 0 0 bytes
  | .ascii => decodeAscii 0 bytes
  | .latin1 => .ok (decodeLatin1 bytes)

-- ============================================================ line ends

/-- The characters with every line end as a line feed: carriage return and
line feed together, or a carriage return alone. -/
def unifyLineEnds : List Char → List Char
  | '\r' :: '\n' :: cs => '\n' :: unifyLineEnds cs
  | c :: cs => (if c = '\r' then '\n' else c) :: unifyLineEnds cs
  | [] => []

end RobotLang.Text
