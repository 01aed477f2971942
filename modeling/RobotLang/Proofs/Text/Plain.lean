/-
Plain texts and the encodings they are stored in.

A text is plain if it has ASCII characters only and no carriage return.
Every encoding stores such a text as the same bytes, one a character, and
gives it back from them. So a plain text can be written in one encoding and
read in another. With no carriage return in it, unifying the line ends
changes nothing either.

A text is visible if it has no control characters either. Then it is plain
and all on one line.
-/
import RobotLang.Proofs.Text.Encoding

namespace RobotLang.Text

-- ====================================================== every character

section
variable {P : Char → Prop} {s t : String} {ts : List String}

theorem forall_append (hs : ∀ c ∈ s.toList, P c)
    (ht : ∀ c ∈ t.toList, P c) : ∀ c ∈ (s ++ t).toList, P c := by
  intro c hc
  rw [String.toList_append, List.mem_append] at hc
  exact hc.elim (hs c) (ht c)

theorem forall_intercalate (hs : ∀ c ∈ s.toList, P c)
    (hts : ∀ t ∈ ts, ∀ c ∈ t.toList, P c) :
    ∀ c ∈ (s.intercalate ts).toList, P c := by
  induction ts with
  | nil => exact fun c hc => absurd hc List.not_mem_nil
  | cons t ts ih =>
      have ht := hts t (List.mem_cons_self ..)
      have hrest := ih fun u hu => hts u (List.mem_cons_of_mem _ hu)
      cases ts with
      | nil =>
          rw [String.intercalate_singleton]
          exact ht
      | cons u us =>
          rw [String.intercalate_cons_cons]
          exact forall_append (forall_append ht hs) hrest

end

-- ============================================================= plain texts

/-- The text has ASCII characters only, and none is a carriage return. -/
def IsPlain (text : String) : Prop :=
  ∀ c ∈ text.toList, c.toNat < 128 ∧ c ≠ '\r'

instance (text : String) : Decidable (IsPlain text) :=
  List.decidableBAll _ _

/-- With no carriage return every line end is a line feed already. -/
theorem unifyLineEnds_of_ne {cs : List Char} (h : ∀ c ∈ cs, c ≠ '\r') :
    unifyLineEnds cs = cs := by
  induction cs with
  | nil => rfl
  | cons c cs ih =>
      have hc := h c (List.mem_cons_self ..)
      rw [unifyLineEnds.eq_2 _ _ fun _ hr => absurd hr hc, if_neg hc,
        ih fun d hd => h d (List.mem_cons_of_mem _ hd)]

-- =========================================================== visible texts

/-- The text has only the ASCII characters from the space to the tilde. -/
def IsVisible (text : String) : Prop :=
  ∀ c ∈ text.toList, 32 ≤ c.toNat ∧ c.toNat < 127

instance (text : String) : Decidable (IsVisible text) :=
  List.decidableBAll _ _

namespace IsVisible

variable {s t : String} {ts : List String}

theorem append (hs : IsVisible s) (ht : IsVisible t) : IsVisible (s ++ t) :=
  forall_append hs ht

theorem intercalate (hs : IsVisible s) (hts : ∀ t ∈ ts, IsVisible t) :
    IsVisible (s.intercalate ts) :=
  forall_intercalate hs hts

theorem isPlain (hs : IsVisible s) : IsPlain s := by
  intro c hc
  have hrange := hs c hc
  refine ⟨by omega, ?_⟩
  rintro rfl
  exact absurd hrange.1 (by decide)

/-- A visible text does not end a line. -/
theorem newline_notMem (hs : IsVisible s) : '\n' ∉ s.toList :=
  fun hmem => absurd (hs '\n' hmem).1 (by decide)

end IsVisible

-- =============================================================== encoding

theorem utf8EncodeChar_of_lt {c : Char} (hc : c.toNat < 128) :
    String.utf8EncodeChar c = [c.toUInt8] :=
  if_pos (Nat.le_of_lt_succ hc)

theorem flatMap_utf8EncodeChar_of_lt {cs : List Char}
    (h : ∀ c ∈ cs, c.toNat < 128) :
    cs.flatMap String.utf8EncodeChar = cs.map Char.toUInt8 := by
  induction cs with
  | nil => rfl
  | cons c cs ih =>
      have hc := h c (List.mem_cons_self ..)
      rw [List.flatMap_cons, utf8EncodeChar_of_lt hc,
        ih fun d hd => h d (List.mem_cons_of_mem _ hd)]
      rfl

/-- A plain text has the same bytes in every encoding. -/
theorem encode_of_plain (e : Encoding) {text : String}
    (h : IsPlain text) :
    encode e text = some (text.toList.map Char.toUInt8) := by
  have hascii : ∀ c ∈ text.toList, c.toNat < 128 := fun c hc => (h c hc).1
  have hunder (limit : Nat) (hlimit : 128 ≤ limit) :
      (text.toList.all fun c => c.toNat < limit) = true := by
    simp only [List.all_eq_true, decide_eq_true_eq]
    exact fun c hc => Nat.lt_of_lt_of_le (hascii c hc) hlimit
  cases e with
  | utf8 => exact congrArg some (flatMap_utf8EncodeChar_of_lt hascii)
  | latin1 => exact if_pos (hunder 256 (by decide))
  | ascii => exact if_pos (hunder 128 (by decide))

/-- What is plain is read in any encoding. -/
theorem decode_of_plain (e : Encoding) {text : String} (h : IsPlain text) :
    decode e (text.toList.map Char.toUInt8) = .ok text.toList :=
  decode_encode (encode_of_plain e h)

end RobotLang.Text
