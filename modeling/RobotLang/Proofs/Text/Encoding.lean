/-
Storing texts in an encoding and reading them back.

An encoding gives a text its bytes, if it has any for each of the
characters, and decoding them gives the text back. In Latin-1 and ASCII a
character has one byte, which is its number. In UTF-8 it has a first byte
and up to three that go on after it. How many there are, and in which range
the first of them must be, can be told from the first byte alone; a
character's number leaves the ranges open that the first byte closes, since
it is not in the gap of the surrogates, nor too large, nor too small for so
many bytes. Decoding then puts the number together from six bits each.
-/
import Mathlib.Data.List.Forall2
import RobotLang.Text.Encoding

namespace RobotLang.Text

/-- The bytes of a text in an encoding, if each of its characters has
some there. -/
def encode (e : Encoding) (text : String) : Option Bytes :=
  let cs := text.toList
  let oneEach (limit : Nat) : Option Bytes :=
    if cs.all (·.toNat < limit) then some (cs.map Char.toUInt8) else none
  match e with
  | .utf8 => some (utf8 text)
  | .latin1 => oneEach 256
  | .ascii => oneEach 128

-- ====================================================== bytes that go on

/-- The ranges hold the bytes, one each. -/
def AllIn (ranges : List (Nat × Nat)) (bytes : Bytes) : Prop :=
  List.Forall₂ (fun r b => r.1 ≤ b.toNat ∧ b.toNat ≤ r.2) ranges bytes

theorem AllIn.inRange_append {ranges : List (Nat × Nat)} {more : Bytes}
    (h : AllIn ranges more) (rest : Bytes) :
    inRange ranges (more ++ rest) = ranges.length := by
  induction h with
  | nil => cases rest <;> rfl
  | cons hb _ ih =>
      rw [List.cons_append, inRange, if_pos hb, ih, List.length_cons]

/-- Bytes that belong to a character already decoded are passed over. -/
theorem decodeUtf8_skip (position : Nat) (more rest : Bytes) :
    decodeUtf8 position more.length (more ++ rest)
      = decodeUtf8 (position + more.length) 0 rest := by
  induction more generalizing position with
  | nil => rfl
  | cons b more ih =>
      rw [List.length_cons, List.cons_append, decodeUtf8, ih]
      congr 1
      omega

/-- A first byte and those that go on are decoded to their character. -/
theorem decodeUtf8_character {b : UInt8} {ranges : List (Nat × Nat)}
    {more : Bytes} (hb : continuations b.toNat = some ranges)
    (hmore : AllIn ranges more) (position : Nat) (rest : Bytes) :
    decodeUtf8 position 0 (b :: more ++ rest)
      = (decodeUtf8 (position + 1 + more.length) 0 rest).map
          (assemble b more :: ·) := by
  have hlength : ranges.length = more.length := hmore.length_eq
  have hcount := hmore.inRange_append rest
  rw [List.cons_append, decodeUtf8, hb]
  dsimp only
  rw [hcount, if_pos rfl, hlength, decodeUtf8_skip, List.take_left]
  cases decodeUtf8 (position + 1 + more.length) 0 rest <;> rfl

-- ========================================================== characters

theorem toNat_ofNat_of_lt {n : Nat} (h : n < 256) :
    (UInt8.ofNat n).toNat = n := Nat.mod_eq_of_lt h

/-- The six low bits of a number in a byte that goes on. -/
theorem toNat_continuing (n : Nat) :
    (UInt8.ofNat (n % 64 + 128)).toNat = n % 64 + 128 :=
  toNat_ofNat_of_lt (by omega)

theorem AllIn.continuing {ranges : List (Nat × Nat)} {more : Bytes}
    (h : AllIn ranges more) (n : Nat) :
    AllIn ((0x80, 0xBF) :: ranges) (UInt8.ofNat (n % 64 + 128) :: more) := by
  refine .cons ?_ h
  rw [toNat_continuing]
  dsimp only
  omega

theorem continuations_two {n : Nat} (hn : 0xC2 ≤ n) (hn' : n < 0xE0) :
    continuations n = some [(0x80, 0xBF)] := by
  unfold continuations
  rw [if_neg (by omega), if_neg (by omega), if_pos hn']

theorem continuations_three {n m : Nat} (hn : 0xE0 ≤ n) (hn' : n < 0xF0)
    (hlow : n = 0xE0 → 0xA0 ≤ m) (hhigh : n = 0xED → m ≤ 0x9F)
    (hm : 0x80 ≤ m ∧ m ≤ 0xBF) :
    ∃ r : Nat × Nat, continuations n = some [r, (0x80, 0xBF)]
      ∧ r.1 ≤ m ∧ m ≤ r.2 := by
  unfold continuations
  rw [if_neg (by omega), if_neg (by omega), if_neg (by omega)]
  by_cases hfirst : n = 0xE0
  · exact ⟨_, if_pos hfirst, hlow hfirst, hm.2⟩
  rw [if_neg hfirst]
  by_cases hlast : n = 0xED
  · exact ⟨_, if_pos hlast, hm.1, hhigh hlast⟩
  rw [if_neg hlast]
  exact ⟨_, if_pos hn', hm⟩

theorem continuations_four {n m : Nat} (hn : 0xF0 ≤ n) (hn' : n ≤ 0xF4)
    (hlow : n = 0xF0 → 0x90 ≤ m) (hhigh : n = 0xF4 → m ≤ 0x8F)
    (hm : 0x80 ≤ m ∧ m ≤ 0xBF) :
    ∃ r : Nat × Nat, continuations n = some [r, (0x80, 0xBF), (0x80, 0xBF)]
      ∧ r.1 ≤ m ∧ m ≤ r.2 := by
  unfold continuations
  rw [if_neg (by omega), if_neg (by omega), if_neg (by omega),
    if_neg (by omega), if_neg (by omega), if_neg (by omega)]
  by_cases hfirst : n = 0xF0
  · exact ⟨_, if_pos hfirst, hlow hfirst, hm.2⟩
  rw [if_neg hfirst]
  by_cases hlast : n = 0xF4
  · rw [if_neg (by omega)]
    exact ⟨_, if_pos hlast, hm.1, hhigh hlast⟩
  · exact ⟨_, if_pos (by omega), hm⟩

/-- A first byte and those that go on after it make up the character. -/
def SpellsOut (c : Char) (b : UInt8) (more : Bytes) : Prop :=
  ∃ ranges, continuations b.toNat = some ranges ∧ AllIn ranges more
    ∧ assemble b more = c

/-- A number is that of one character only. -/
theorem ofNat_of_eq_toNat {c : Char} {n : Nat} (h : n = c.toNat) :
    Char.ofNat n = c := by
  rw [h, Char.ofNat_toNat]

theorem spellsOut_one {c : Char} (h : c.toNat ≤ 0x7F) :
    SpellsOut c (UInt8.ofNat c.toNat) [] := by
  refine ⟨[], ?_, .nil, ?_⟩
  · rw [toNat_ofNat_of_lt (by omega)]
    exact if_pos (by omega)
  · apply ofNat_of_eq_toNat
    exact toNat_ofNat_of_lt (by omega)

theorem spellsOut_two {c : Char} (h : 0x7F < c.toNat)
    (h' : c.toNat ≤ 0x7FF) :
    SpellsOut c (UInt8.ofNat (c.toNat / 64 % 32 + 192))
      [UInt8.ofNat (c.toNat % 64 + 128)] := by
  refine ⟨_, ?_, .continuing .nil _, ?_⟩
  · rw [toNat_ofNat_of_lt (by omega)]
    exact continuations_two (by omega) (by omega)
  · apply ofNat_of_eq_toNat
    simp only [List.foldl, List.length, toNat_continuing]
    rw [toNat_ofNat_of_lt (by omega)]
    omega

theorem spellsOut_three {c : Char} (h : 0x7FF < c.toNat)
    (h' : c.toNat ≤ 0xFFFF) :
    SpellsOut c (UInt8.ofNat (c.toNat / 4096 % 16 + 224))
      [UInt8.ofNat (c.toNat / 64 % 64 + 128),
        UInt8.ofNat (c.toNat % 64 + 128)] := by
  -- no character has a number in the gap
  have hgap : c.toNat < 0xD800 ∨ 0xDFFF < c.toNat ∧ c.toNat < 0x110000 :=
    c.valid
  obtain ⟨r, hr, hin⟩ := continuations_three
    (n := c.toNat / 4096 % 16 + 224) (m := c.toNat / 64 % 64 + 128)
    (by omega) (by omega) (by omega) (by omega) (by omega)
  rw [← toNat_continuing] at hin
  refine ⟨_, ?_, .cons hin (AllIn.continuing .nil _), ?_⟩
  · rw [toNat_ofNat_of_lt (by omega)]
    exact hr
  · apply ofNat_of_eq_toNat
    simp only [List.foldl, List.length, toNat_continuing]
    rw [toNat_ofNat_of_lt (by omega)]
    omega

theorem spellsOut_four {c : Char} (h : 0xFFFF < c.toNat) :
    SpellsOut c (UInt8.ofNat (c.toNat / 262144 % 8 + 240))
      [UInt8.ofNat (c.toNat / 4096 % 64 + 128),
        UInt8.ofNat (c.toNat / 64 % 64 + 128),
        UInt8.ofNat (c.toNat % 64 + 128)] := by
  have hlast : c.toNat < 0xD800 ∨ 0xDFFF < c.toNat ∧ c.toNat < 0x110000 :=
    c.valid
  obtain ⟨r, hr, hin⟩ := continuations_four
    (n := c.toNat / 262144 % 8 + 240) (m := c.toNat / 4096 % 64 + 128)
    (by omega) (by omega) (by omega) (by omega) (by omega)
  rw [← toNat_continuing] at hin
  refine ⟨_, ?_, .cons hin (AllIn.continuing (AllIn.continuing .nil _) _), ?_⟩
  · rw [toNat_ofNat_of_lt (by omega)]
    exact hr
  · apply ofNat_of_eq_toNat
    simp only [List.foldl, List.length, toNat_continuing]
    rw [toNat_ofNat_of_lt (by omega)]
    omega

/-- The UTF-8 bytes of a character spell it out. -/
theorem utf8EncodeChar_spellsOut (c : Char) :
    ∃ b more, String.utf8EncodeChar c = b :: more ∧ SpellsOut c b more := by
  have hcode : c.val.toNat = c.toNat := rfl
  unfold String.utf8EncodeChar
  rw [hcode]
  dsimp only
  by_cases h1 : c.toNat ≤ 0x7F
  · exact ⟨_, _, if_pos h1, spellsOut_one h1⟩
  rw [if_neg h1]
  by_cases h2 : c.toNat ≤ 0x7FF
  · exact ⟨_, _, if_pos h2, spellsOut_two (by omega) h2⟩
  rw [if_neg h2]
  by_cases h3 : c.toNat ≤ 0xFFFF
  · exact ⟨_, _, if_pos h3, spellsOut_three (by omega) h3⟩
  · exact ⟨_, _, if_neg h3, spellsOut_four (by omega)⟩

/-- UTF-8 gives every text back. -/
theorem decodeUtf8_utf8 (position : Nat) (cs : List Char) :
    decodeUtf8 position 0 (cs.flatMap String.utf8EncodeChar) = .ok cs := by
  induction cs generalizing position with
  | nil => rfl
  | cons c cs ih =>
      obtain ⟨b, more, hbytes, ranges, hb, hmore, hc⟩ :=
        utf8EncodeChar_spellsOut c
      rw [List.flatMap_cons, hbytes, decodeUtf8_character hb hmore, ih, hc]
      rfl

-- ========================================================= a byte for each

/-- The byte of a character with a small number has that number. -/
theorem toNat_toUInt8 {c : Char} (hc : c.toNat < 256) :
    c.toUInt8.toNat = c.toNat := Nat.mod_eq_of_lt hc

theorem decodeLatin1_toUInt8 {cs : List Char} (h : ∀ c ∈ cs, c.toNat < 256) :
    decodeLatin1 (cs.map Char.toUInt8) = cs := by
  unfold decodeLatin1
  rw [List.map_map]
  refine (List.map_congr_left fun c hc => ?_).trans (List.map_id cs)
  show Char.ofNat c.toUInt8.toNat = c
  rw [toNat_toUInt8 (h c hc), Char.ofNat_toNat]

theorem decodeAscii_toUInt8 {cs : List Char} (h : ∀ c ∈ cs, c.toNat < 128)
    (position : Nat) :
    decodeAscii position (cs.map Char.toUInt8) = .ok cs := by
  induction cs generalizing position with
  | nil => rfl
  | cons c cs ih =>
      have hc := h c (List.mem_cons_self ..)
      have hcs := ih (fun d hd => h d (List.mem_cons_of_mem _ hd))
        (position + 1)
      have hbyte : c.toUInt8.toNat = c.toNat := toNat_toUInt8 (by omega)
      rw [List.map_cons, decodeAscii, hbyte, if_pos hc, hcs,
        Char.ofNat_toNat]
      rfl

-- ============================================================ both ways

/-- A text has one byte a character where its characters have few enough
numbers. -/
theorem encode_oneEach {cs : List Char} {limit : Nat} {bytes : Bytes}
    (h : (if cs.all (·.toNat < limit) then some (cs.map Char.toUInt8)
      else none) = some bytes) :
    (∀ c ∈ cs, c.toNat < limit) ∧ bytes = cs.map Char.toUInt8 := by
  by_cases hall : cs.all (·.toNat < limit)
  · rw [if_pos hall] at h
    cases h
    exact ⟨by simpa using hall, rfl⟩
  · rw [if_neg hall] at h
    cases h

/-- What is stored in an encoding is read in it. -/
theorem decode_encode {e : Encoding} {text : String} {bytes : Bytes}
    (h : encode e text = some bytes) : decode e bytes = .ok text.toList := by
  cases e with
  | utf8 =>
      cases h
      exact decodeUtf8_utf8 0 text.toList
  | latin1 =>
      obtain ⟨hall, rfl⟩ := encode_oneEach h
      exact congrArg Except.ok (decodeLatin1_toUInt8 hall)
  | ascii =>
      obtain ⟨hall, rfl⟩ := encode_oneEach h
      exact decodeAscii_toUInt8 hall 0

end RobotLang.Text
