/-
Readings that account for where they stop.

Behind some tokens a reading faces a nonterminal if, whatever comes there,
it reads a phrase of it next, and it grants a word if it takes a token with
that word there. A reading accounts for its stops if

- the reason of every rejection is truthful: what it asks for is granted
  where the reading stopped, and at the end of the tokens, if that is the
  reason, a nonterminal is faced;
- a numeral is taken only where an expression is faced.

Both are about where a reading stands, so for a sequence the first reading
has to have ended there whatever comes next. Most readings have: a mark is
a mark, and a phrase that was read stays read. Where it is not so, as
behind statements, the second reading must not do anything at once that
has to be accounted for (`AtOnce`).
-/
import RobotLang.Proofs.Reading.Ample

namespace RobotLang

open Reading

/-- What it takes for a reason to be truthful, by what is next, which
nonterminals are faced and which words are granted. Some reasons are never
given. -/
def Reason.Truthful (next : Option String) (faces : Rule → Prop)
    (grants : String → Prop) : Reason → Prop
  | .nothingLeft => next = none ∧ ∃ rule, rule ≠ .program ∧ faces rule
  | .unknownStatement w => next = some w
  | .noCloseBrace => next = none ∧ grants Mark.closeBrace.word
  | .noSemicolon => grants Mark.semicolon.word
  | .noOpenBrace => grants Mark.openBrace.word
  | .noOpenParen => grants Mark.openParen.word
  | .noCloseParen | .noCloseAmount => grants Mark.closeParen.word
  | .noComma | .noCommaIn _ => grants Mark.comma.word
  | .notCondition =>
    ∀ w ∈ ["lt", "gt", "eq", "and", "or", "not"], grants w
  | .notExpression =>
    ∀ w, Legible [w] → Pattern.number.fits w = true
      ∨ Pattern.sensor.fits w = true ∨ Pattern.operation.fits w = true →
      grants w
  | .notAction | .notLoop | .notIf | .notWhile | .notRelation
  | .notConnective | .notSensor | .notOperation | .endOfInput
  | .stated _ => False

theorem Reason.Truthful.imp {reason : Reason} {next : Option String}
    {faces faces' : Rule → Prop} {grants grants' : String → Prop}
    (h : reason.Truthful next faces grants)
    (hfaces : ∀ rule, rule ≠ .program → faces rule → faces' rule)
    (hgrants : ∀ w, Legible [w] → grants w → grants' w) :
    reason.Truthful next faces' grants' := by
  have hmark (m : Mark) : Legible [m.word] := by simp
  cases reason with
  | nothingLeft =>
      obtain ⟨hnext, rule, hrule, h⟩ := h
      exact ⟨hnext, rule, hrule, hfaces rule hrule h⟩
  | unknownStatement w => exact h
  | noCloseBrace => exact ⟨h.1, hgrants _ (hmark _) h.2⟩
  | notCondition =>
      have hlegible : ∀ w ∈ ["lt", "gt", "eq", "and", "or", "not"],
          Numeral.isNumeral w = false := by decide
      refine fun w hw => hgrants w (legible_singleton.2 fun hnumeral => ?_)
        (h w hw)
      rw [hlegible w hw] at hnumeral
      cases hnumeral
  | notExpression => exact fun w hw hfits => hgrants w hw (h w hw hfits)
  | noSemicolon | noOpenBrace | noOpenParen | noCloseParen
  | noCloseAmount | noComma | noCommaIn o =>
      exact hgrants _ (hmark _) h
  | notAction | notLoop | notIf | notWhile | notRelation | notConnective
  | notSensor | notOperation | endOfInput | stated m =>
      exact False.elim h

namespace Reading

variable {α β : Type}

-- ============================================= what a reading does behind

/-- Behind the tokens the reading reads a phrase of the rule next, whatever
comes there. -/
def Faces (r : Reading α) (taken : List Token) (rule : Rule) : Prop :=
  ∃ (β : Type) (tree : β → Tree) (s : Reading β) (g : β → Reading α),
    rule.read = (do return tree (← s))
      ∧ (∀ b ts, left (g b ts) <:+ ts)
      ∧ ∀ more, r (taken ++ more) = (s >>= g) more

/-- Behind the tokens the reading takes a token with the word. -/
def Grants (r : Reading α) (taken : List Token) (w : String) : Prop :=
  ∀ t ts, t.value = w → left (r (taken ++ t :: ts)) <:+ ts

section

variable {r : Reading α} {f : α → Reading β} {taken : List Token}

theorem bind_ok {ts mid : List Token} {a : α} (h : r ts = .ok a mid) :
    (r >>= f) ts = f a mid := by
  show EStateM.bind r f ts = _
  unfold EStateM.bind
  rw [h]

theorem bind_error {ts mid : List Token} {e : Refusal}
    (h : r ts = .error e mid) : (r >>= f) ts = .error e mid := by
  show EStateM.bind r f ts = _
  unfold EStateM.bind
  rw [h]

theorem bind_congr_at {s : Reading α} {ts us : List Token}
    (h : r ts = s us) : (r >>= f) ts = (s >>= f) us := by
  show EStateM.bind r f ts = EStateM.bind s f us
  unfold EStateM.bind
  rw [h]

/-- The second reading goes on from what the first one left. -/
theorem left_bind (hf : ∀ a ts, left (f a ts) <:+ ts) (ts : List Token) :
    left ((r >>= f) ts) <:+ left (r ts) := by
  cases h : r ts with
  | ok a mid =>
      rw [bind_ok h]
      exact hf a mid
  | error e mid =>
      rw [bind_error h]
      exact List.suffix_refl mid

theorem Faces.bind {rule : Rule} (h : Faces r taken rule)
    (hf : ∀ a ts, left (f a ts) <:+ ts) : Faces (r >>= f) taken rule := by
  obtain ⟨γ, tree, s, g, hread, hg, hr⟩ := h
  refine ⟨γ, tree, s, fun b => g b >>= f, hread, fun b ts => ?_,
    fun more => ?_⟩
  · exact (left_bind hf ts).trans (hg b ts)
  · rw [← bind_assoc]
    exact bind_congr_at (hr more)

theorem Grants.bind {w : String} (h : Grants r taken w)
    (hf : ∀ a ts, left (f a ts) <:+ ts) : Grants (r >>= f) taken w :=
  fun t ts ht => (left_bind hf _).trans (h t ts ht)

end

section

variable {r : Reading α} {s : Reading α} {x y : List Token}

theorem Faces.behind {rule : Rule} (h : Faces s y rule)
    (hrs : ∀ more, r (x ++ (y ++ more)) = s (y ++ more)) :
    Faces r (x ++ y) rule := by
  obtain ⟨β, tree, s', g, hread, hg, hs⟩ := h
  refine ⟨β, tree, s', g, hread, hg, fun more => ?_⟩
  rw [List.append_assoc, hrs, hs]

theorem Grants.behind {w : String} (h : Grants s y w)
    (hrs : ∀ more, r (x ++ (y ++ more)) = s (y ++ more)) :
    Grants r (x ++ y) w := by
  intro t ts ht
  rw [List.append_assoc, hrs]
  exact h t ts ht

/-- What is said of the second reading behind its tokens holds of the whole
behind all tokens. -/
theorem truthful_behind {reason : Reason} {next : Option String}
    (h : reason.Truthful next (Faces s y) (Grants s y))
    (hrs : ∀ more, r (x ++ (y ++ more)) = s (y ++ more)) :
    reason.Truthful next (Faces r (x ++ y)) (Grants r (x ++ y)) :=
  h.imp (fun _ _ hfaces => hfaces.behind hrs)
    fun _ _ hgrants => hgrants.behind hrs

end

-- -------------------------------------------------- in front of a mark

theorem ne_mark {w : String} (hw : Numeral.isNumeral w = true)
    (m : Mark) : w ≠ m.word := by
  intro hm
  have hmark := Pattern.fits_mark m .number
  rw [← hm] at hmark
  exact absurd (hw.symm.trans hmark) (by decide)

theorem word_ok {t : Token} {w : String} (ht : t.value = w)
    (reason : Reason) (ts : List Token) :
    word w reason (t :: ts) = .ok () ts := by
  have hrequire : require (passing (· == w)) reason (t :: ts)
      = .ok t.value ts := by
    rw [require_cons, passing, if_pos (beq_iff_eq.2 ht)]
  rw [word, bind_ok hrequire]
  rfl

theorem word_refuses {t : Token} {w : String} (ht : t.value ≠ w)
    (reason : Reason) (ts : List Token) :
    word w reason (t :: ts) = refuse reason (t :: ts) := by
  have hrequire : require (passing (· == w)) reason (t :: ts)
      = .error (.rejected (.before reason (t :: ts))) (t :: ts) := by
    rw [require_cons, passing, if_neg (mt beq_iff_eq.1 ht)]
  rw [word, bind_error hrequire]
  rfl

theorem settled_mark (m : Mark) (reason : Reason) :
    Settled (mark m reason) := by
  intro taken rest a h more
  cases taken with
  | nil =>
      have hlt := Takes.mark m reason _ _ _ h
      exact absurd hlt (Nat.lt_irrefl _)
  | cons t taken =>
      rw [List.cons_append] at h
      by_cases ht : t.value = m.word
      · rw [mark, word_ok ht] at h
        injection h with _ h
        rw [List.append_left_eq_self.1 h]
        exact word_ok ht reason more
      · rw [mark, word_refuses ht] at h
        cases h

theorem Grants.mark (m : Mark) (reason : Reason) :
    Grants (mark m reason) [] m.word := by
  intro t ts ht
  rw [List.nil_append, Reading.mark, word_ok ht]
  exact List.suffix_refl ts

/-- What is granted without something optional, unless it is that. -/
theorem Grants.accept {meaning : String → Option α}
    {f : Option α → Reading β} {w : String} (hw : meaning w = none)
    (h : Grants (f none) [] w) : Grants (accept meaning >>= f) [] w := by
  intro t ts ht
  have haccept : Reading.accept meaning (t :: ts) = .ok none (t :: ts) := by
    rw [accept_cons, ht, hw]
  rw [List.nil_append, bind_ok haccept]
  exact h t ts ht

-- ============================================================ accounting

/-- On these tokens the reading accounts for where it stops. -/
structure AccountsOn (r : Reading α) (ts : List Token) : Prop where
  rejected : ∀ {taken rest f}, ts = taken ++ rest →
    r ts = .error (.rejected f) rest →
    f.reason.Truthful (nextWord rest) (Faces r taken) (Grants r taken)
  numeral : ∀ {taken t rest}, ts = taken ++ t :: rest →
    Numeral.isNumeral t.value = true → left (r ts) <:+ rest →
    Faces r taken .expr

/-- On fewer than so many tokens the reading accounts for where it
stops. -/
structure Accounts (k : Nat) (r : Reading α) : Prop where
  suffix : ∀ ts, left (r ts) <:+ ts
  on : ∀ {ts}, ts.length < k → AccountsOn r ts

/-- What the reading does at once in front of the tokens: if it is rejected
there, the reason is truthful, and it does not take a numeral. -/
structure AtOnce (r : Reading α) (rest : List Token)
    (faces : Rule → Prop) (grants : String → Prop) : Prop where
  rejected : ∀ {f}, r rest = .error (.rejected f) rest →
    f.reason.Truthful (nextWord rest) faces grants
  numeral : ∀ {t ts}, rest = t :: ts →
    Numeral.isNumeral t.value = true → ¬ left (r rest) <:+ ts

-- --------------------------------------------------- what has been taken

theorem not_suffix_tail (t : Token) (xs ts : List Token) :
    ¬ xs ++ t :: ts <:+ ts := by
  intro h
  have hlen := h.length_le
  rw [List.length_append, List.length_cons] at hlen
  omega

theorem cons_append_ne (t : Token) (xs ts : List Token) :
    t :: (xs ++ ts) ≠ ts := by
  intro h
  have hlen := congrArg List.length h
  rw [List.length_cons, List.length_append] at hlen
  omega

/-- A token either is taken or is left. -/
theorem suffix_or_left {taken rest mid : List Token} {t : Token}
    (h : mid <:+ taken ++ t :: rest) : mid <:+ rest ∨ t :: rest <:+ mid := by
  have hsuffix : t :: rest <:+ taken ++ t :: rest :=
    List.suffix_append taken _
  rcases List.suffix_or_suffix_of_suffix h hsuffix with hmid | hmid
  · rcases List.suffix_cons_iff.1 hmid with heq | hmid
    · rw [heq]
      exact .inr (List.suffix_refl _)
    · exact .inl hmid
  · exact .inr hmid

-- --------------------------------------------------- by what comes at once

theorem AtOnce.pure (a : α) (rest : List Token) (faces : Rule → Prop)
    (grants : String → Prop) : AtOnce (Pure.pure a) rest faces grants where
  rejected h := by cases h
  numeral hrest _ h := by
    rw [hrest] at h
    exact absurd h (not_suffix_tail _ [] _)

theorem AtOnce.map {r : Reading α} {rest : List Token}
    {faces : Rule → Prop} {grants : String → Prop}
    (h : AtOnce r rest faces grants) (g : α → β) :
    AtOnce (do return g (← r)) rest faces grants where
  rejected := by
    intro e he
    rcases bind_eq_error_iff.1 he with he | ⟨a, mid, -, he⟩
    · exact h.rejected he
    · cases he
  numeral := by
    intro t ts hrest ht hleft
    refine h.numeral hrest ht ?_
    cases hr : r rest with
    | ok a mid =>
        rw [bind_ok hr] at hleft
        exact hleft
    | error e mid =>
        rw [bind_error hr] at hleft
        exact hleft

/-- A reading that begins with a mark is rejected at once only if the mark
is missing. -/
theorem AtOnce.mark {m : Mark} {reason : Reason} {f : Unit → Reading α}
    {rest : List Token} {faces : Rule → Prop} {grants : String → Prop}
    (hf : ∀ ts, left (f () ts) <:+ ts)
    (h : nextWord rest ≠ some m.word →
      reason.Truthful (nextWord rest) faces grants) :
    AtOnce (mark m reason >>= f) rest faces grants where
  rejected := by
    intro e he
    cases rest with
    | nil =>
        cases he
        exact h fun hnext => by cases hnext
    | cons t ts =>
        by_cases ht : t.value = m.word
        · have hsuffix := hf ts
          rw [← bind_ok (f := f) (word_ok ht reason ts)] at hsuffix
          rw [show (word m.word reason >>= f) (t :: ts) = _ from he]
            at hsuffix
          exact absurd hsuffix (not_suffix_tail t [] ts)
        · rw [Reading.mark, bind_error (word_refuses ht reason ts)] at he
          cases he
          exact h fun hnext => ht (Option.some.inj hnext)
  numeral := by
    intro t ts hrest ht hleft
    have hrefuses := word_refuses (ne_mark ht m) reason ts
    rw [hrest, Reading.mark, bind_error hrefuses] at hleft
    exact absurd hleft (not_suffix_tail t [] ts)

namespace AccountsOn

variable {ts : List Token}

/-- A reading that takes nothing and is never rejected. -/
theorem of_still {r : Reading α} (hleft : left (r ts) = ts)
    (hr : ∀ f rest, r ts ≠ .error (.rejected f) rest) :
    AccountsOn r ts where
  rejected _ h := absurd h (hr _ _)
  numeral hts _ h := by
    rw [hleft, hts] at h
    exact absurd h (not_suffix_tail _ _ _)

theorem pure (a : α) : AccountsOn (Pure.pure a) ts :=
  of_still rfl fun _ _ h => by cases h

/-- A refusal for a truthful reason. -/
theorem of_refused {r : Reading α} {reason : Reason}
    (hr : r ts = refuse reason ts)
    (htrue : reason.Truthful (nextWord ts) (Faces r []) (Grants r [])) :
    AccountsOn r ts := by
  refine ⟨fun {taken rest f} htaken h => ?_,
    fun {taken t rest} htaken ht h => ?_⟩
  · rw [hr] at h
    cases h
    rw [List.append_left_eq_self.1 htaken.symm]
    exact htrue
  · rw [hr, htaken] at h
    exact absurd h (not_suffix_tail t taken rest)

/-- A first word that is taken, and what is left to read behind it. -/
theorem of_taken {r s : Reading α} {t : Token}
    (hrs : ∀ ts, r (t :: ts) = s ts) (hs : AccountsOn s ts)
    (hsuffix : left (s ts) <:+ ts)
    (hnumeral : Numeral.isNumeral t.value = true → Faces r [] .expr) :
    AccountsOn r (t :: ts) := by
  refine ⟨fun {taken rest f} htaken h => ?_,
    fun {taken t' rest} htaken ht h => ?_⟩
  · rw [hrs] at h
    cases taken with
    | nil =>
        rw [List.nil_append] at htaken
        rw [h, ← htaken] at hsuffix
        exact absurd hsuffix (not_suffix_tail t [] ts)
    | cons t' taken =>
        obtain ⟨rfl, rfl⟩ := List.cons.inj htaken
        exact truthful_behind (x := [t]) (hs.rejected rfl h)
          fun more => hrs (taken ++ more)
  · rw [hrs] at h
    cases taken with
    | nil =>
        obtain ⟨rfl, -⟩ := List.cons.inj htaken
        exact hnumeral ht
    | cons t'' taken =>
        obtain ⟨rfl, rfl⟩ := List.cons.inj htaken
        exact (hs.numeral rfl ht h).behind (x := [t])
          fun more => hrs (taken ++ more)

/-- A reading that goes on as another one does, and does nothing at once
that is to be accounted for. -/
theorem congr_head {r s : Reading α} {t : Token}
    (hrs : ∀ ts, r (t :: ts) = s (t :: ts)) (h : AccountsOn s (t :: ts))
    (honce : AtOnce s (t :: ts) (Faces r []) (Grants r [])) :
    AccountsOn r (t :: ts) := by
  refine ⟨fun {taken rest f} htaken hr => ?_,
    fun {taken t' rest} htaken ht hr => ?_⟩
  · rw [hrs] at hr
    cases taken with
    | nil =>
        rw [List.nil_append] at htaken
        rw [htaken] at hr honce
        exact honce.rejected hr
    | cons t' taken =>
        obtain ⟨rfl, -⟩ := List.cons.inj htaken
        exact truthful_behind (x := []) (h.rejected htaken hr)
          fun more => hrs (taken ++ more)
  · rw [hrs] at hr
    cases taken with
    | nil => exact absurd hr (honce.numeral htaken ht)
    | cons t'' taken =>
        obtain ⟨rfl, -⟩ := List.cons.inj htaken
        exact (h.numeral htaken ht hr).behind (x := [])
          fun more => hrs (taken ++ more)

/-- What the second reading of a sequence does behind some tokens the whole
does behind all of them, if the first one has ended there whatever comes
next. Otherwise the second one has not taken any. -/
theorem behind_or_once {r : Reading α} {f : α → Reading β}
    {x y rest : List Token} {a : α} (hsteady : Steady r)
    (hturn : ∀ {taken rest a}, ts = taken ++ rest → r ts = .ok a rest →
      (∀ more, r (taken ++ more) = .ok a more)
        ∨ AtOnce (f a) rest (Faces (r >>= f) taken)
          (Grants (r >>= f) taken))
    (hts : ts = x ++ (y ++ rest)) (ha : r ts = .ok a (y ++ rest)) :
    (∀ more, (r >>= f) (x ++ (y ++ more)) = f a (y ++ more))
      ∨ y = [] ∧ AtOnce (f a) rest (Faces (r >>= f) x)
        (Grants (r >>= f) x) := by
  cases y with
  | nil =>
      rcases hturn hts ha with hall | honce
      · exact .inl fun more => bind_ok (hall more)
      · exact .inr ⟨rfl, honce⟩
  | cons t y =>
      rw [hts] at ha
      exact .inl fun more => bind_ok (hsteady.value ha rfl)

/-- In a sequence, if the first reading has ended whatever comes next, or
the second one does nothing at once that is to be accounted for. -/
theorem bind {r : Reading α} {f : α → Reading β} (hr : AccountsOn r ts)
    (hsteady : Steady r) (hsuffix : ∀ a ts, left (f a ts) <:+ ts)
    (hf : ∀ {a mid}, r ts = .ok a mid → AccountsOn (f a) mid)
    (hturn : ∀ {taken rest a}, ts = taken ++ rest → r ts = .ok a rest →
      (∀ more, r (taken ++ more) = .ok a more)
        ∨ AtOnce (f a) rest (Faces (r >>= f) taken)
          (Grants (r >>= f) taken)) :
    AccountsOn (r >>= f) ts := by
  have hmid := hsteady.suffix ts
  refine ⟨fun {taken rest e} hts h => ?_,
    fun {taken t rest} hts ht h => ?_⟩
  · rcases bind_eq_error_iff.1 h with h | ⟨a, mid, ha, h⟩
    · exact (hr.rejected hts h).imp (fun _ _ hfaces => hfaces.bind hsuffix)
        fun _ _ hgrants => hgrants.bind hsuffix
    · have hrest := hsuffix a mid
      rw [ha, hts] at hmid
      rw [h] at hrest
      obtain ⟨x, y, rfl, rfl⟩ := Plain.split_taken hmid hrest
      rw [List.append_assoc] at hts
      rcases behind_or_once hsteady hturn hts ha with hall | ⟨rfl, honce⟩
      · exact truthful_behind ((hf ha).rejected rfl h) hall
      · rw [List.append_nil]
        exact honce.rejected h
  · cases ha : r ts with
    | error e mid =>
        rw [bind_error ha] at h
        have hfaces := hr.numeral hts ht (by rw [ha]; exact h)
        exact hfaces.bind hsuffix
    | ok a mid =>
        rw [ha, hts] at hmid
        rw [bind_ok ha] at h
        rcases suffix_or_left hmid with hin | hin
        · have hfaces := hr.numeral hts ht (by rw [ha]; exact hin)
          exact hfaces.bind hsuffix
        · obtain ⟨x, y, rfl, rfl⟩ := Plain.split_taken hmid hin
          rw [List.append_assoc] at hts
          rcases behind_or_once hsteady hturn hts ha with hall | ⟨rfl, honce⟩
          · exact ((hf ha).numeral rfl ht h).behind hall
          · exact absurd h (honce.numeral rfl ht)

/-- A mark accounts for its stop if the reason for its absence does. -/
theorem mark {m : Mark} {reason : Reason}
    (h : nextWord ts ≠ some m.word →
      reason.Truthful (nextWord ts) (Faces (mark m reason) [])
        (Grants (mark m reason) [])) :
    AccountsOn (mark m reason) ts := by
  cases ts with
  | nil => exact .of_refused rfl (h fun hnext => by cases hnext)
  | cons t ts =>
      by_cases ht : t.value = m.word
      · exact .of_taken (word_ok ht reason) (.pure ()) (List.suffix_refl ts)
          fun hw => absurd ht (ne_mark hw m)
      · exact .of_refused (word_refuses ht reason ts)
          (h fun hnext => ht (Option.some.inj hnext))

/-- Something optional is never a numeral here, and its absence is no
error. -/
theorem accept {meaning : String → Option α}
    (hmeaning : ∀ w, Numeral.isNumeral w = true → meaning w = none) :
    AccountsOn (accept meaning) ts := by
  cases ts with
  | nil => exact .of_still rfl fun _ _ h => by cases h
  | cons t ts =>
      cases hw : meaning t.value with
      | some a =>
          have htaken (ts) :
              Reading.accept meaning (t :: ts) = .ok (some a) ts := by
            rw [accept_cons, hw]
          refine .of_taken htaken (.pure _) (List.suffix_refl ts) fun ht => ?_
          rw [hmeaning t.value ht] at hw
          cases hw
      | none =>
          have hstill : Reading.accept meaning (t :: ts)
              = .ok none (t :: ts) := by
            rw [accept_cons, hw]
          refine .of_still (by rw [hstill]; rfl) fun f rest h => ?_
          rw [hstill] at h
          cases h

end AccountsOn

namespace Accounts

variable {k l : Nat}

theorem mono {r : Reading α} (h : Accounts k r) (hl : l ≤ k) :
    Accounts l r where
  suffix := h.suffix
  on hts := h.on (Nat.lt_of_lt_of_le hts hl)

theorem zero {r : Reading α} (h : ∀ ts, left (r ts) <:+ ts) :
    Accounts 0 r where
  suffix := h
  on hts := absurd hts (Nat.not_lt_zero _)

theorem pure (a : α) : Accounts k (Pure.pure a) where
  suffix ts := List.suffix_refl ts
  on _ := .pure a

theorem tooLong (n : Nat) :
    Accounts k (throw (.tooLong n) : Reading α) where
  suffix ts := List.suffix_refl ts
  on _ := .of_still rfl fun _ _ h => by cases h

/-- In a sequence with a first reading that is settled. -/
theorem bind_settled {r : Reading α} {f : α → Reading β}
    (hr : Accounts k r) (hsteady : Steady r) (hsettled : Settled r)
    (hf : ∀ a, Accounts k (f a)) : Accounts k (r >>= f) where
  suffix ts :=
    (left_bind (fun a => (hf a).suffix) ts).trans (hsteady.suffix ts)
  on {ts} hts := by
    refine (hr.on hts).bind hsteady (fun a => (hf a).suffix)
      (fun {a mid} h => (hf a).on ?_) fun htaken h => .inl ?_
    · exact Nat.lt_of_le_of_lt (hsteady.suffix_of_ok h).length_le hts
    · rw [htaken] at h
      exact hsettled h

/-- The value alone is changed. -/
theorem map {r : Reading α} (hr : Accounts k r) (hsteady : Steady r)
    (g : α → β) : Accounts k (do return g (← r)) := by
  have hpure (a : α) (ts : List Token) :
      left ((Pure.pure (g a) : Reading β) ts) <:+ ts := List.suffix_refl ts
  exact ⟨fun ts => (left_bind hpure ts).trans (hsteady.suffix ts),
    fun hts => (hr.on hts).bind hsteady hpure (fun _ => .pure _)
      fun _ _ => .inr (.pure _ _ _ _)⟩

/-- A mark whose absence is a reason that asks for it. -/
theorem mark_bind {m : Mark} {reason : Reason} {f : Unit → Reading β}
    (hreason : ∀ {next faces} {grants : String → Prop}, grants m.word →
      reason.Truthful next faces grants)
    (hf : Accounts k (f ())) : Accounts k (mark m reason >>= f) := by
  have hplain : Plain (mark m reason) := .mark m reason
  have hmark : Accounts k (mark m reason) :=
    ⟨hplain.left_suffix, fun _ => .mark fun _ => hreason (.mark m reason)⟩
  exact hmark.bind_settled hplain.steady (settled_mark m reason) fun _ => hf

/-- Something optional, if its absence does nothing at once that has to be
accounted for. -/
theorem accept_bind {meaning : String → Option α}
    {f : Option α → Reading β}
    (hmeaning : ∀ w, Numeral.isNumeral w = true → meaning w = none)
    (hf : ∀ o, Accounts k (f o))
    (honce : ∀ rest, AtOnce (f none) rest
      (Faces (accept meaning >>= f) []) (Grants (accept meaning >>= f) [])) :
    Accounts k (accept meaning >>= f) := by
  have hplain : Plain (accept meaning) := .accept meaning
  have hsuffix : ∀ o ts, left (f o ts) <:+ ts := fun o => (hf o).suffix
  refine ⟨fun ts => (left_bind hsuffix ts).trans (hplain.left_suffix ts),
    fun {ts} hts => .bind (.accept hmeaning) hplain.steady hsuffix
      (fun {o mid} h => (hf o).on ?_) fun {taken rest o} htaken h => ?_⟩
  · exact Nat.lt_of_le_of_lt (hplain.suffix_of_ok h).length_le hts
  · cases taken with
    | nil =>
        cases o with
        | none => exact .inr (honce rest)
        | some a =>
            cases rest with
            | nil =>
                rw [htaken] at h
                cases h
            | cons t ts =>
                rw [htaken, List.nil_append, accept_cons] at h
                split at h
                · injection h with _ h
                  exact absurd h (cons_append_ne t [] ts).symm
                · cases h
    | cons t taken =>
        rw [htaken, List.cons_append, accept_cons] at h
        split at h
        · next a ha =>
          injection h with ho htaken
          rw [List.append_left_eq_self.1 htaken, ← ho]
          refine .inl fun more => ?_
          rw [List.singleton_append, accept_cons, ha]
        · injection h with _ h
          exact absurd h (cons_append_ne t taken rest)

/-- A reading that has to begin, and then reads on as the first word
decides or refuses it for a truthful reason. -/
theorem of_forms {r : Reading α} {rule : Rule} (hrule : rule ≠ .program)
    (hfaces : Faces r [] rule) (hnil : r [] = refuse .nothingLeft [])
    (hcons : ∀ t : Token,
      (∃ s : Reading α, Accounts k s
        ∧ (Numeral.isNumeral t.value = true → Faces r [] .expr)
        ∧ ∀ ts, r (t :: ts) = s ts)
      ∨ ∃ reason : Reason,
        (∀ ts, r (t :: ts) = refuse reason (t :: ts))
        ∧ reason.Truthful (some t.value) (Faces r []) (Grants r [])) :
    Accounts (k + 1) r where
  suffix ts := by
    cases ts with
    | nil =>
        rw [hnil]
        exact List.suffix_refl []
    | cons t ts =>
        rcases hcons t with ⟨s, hs, -, hrs⟩ | ⟨reason, hr, -⟩
        · rw [hrs]
          exact (hs.suffix ts).trans (List.suffix_cons t ts)
        · rw [hr]
          exact List.suffix_refl _
  on {ts} hts := by
    cases ts with
    | nil => exact .of_refused hnil ⟨rfl, rule, hrule, hfaces⟩
    | cons t ts =>
        rcases hcons t with ⟨s, hs, hnumeral, hrs⟩ | ⟨reason, hr, htrue⟩
        · have hon := hs.on (Nat.lt_of_succ_lt_succ hts)
          exact .of_taken hrs hon (hs.suffix ts) hnumeral
        · exact .of_refused (hr ts) htrue

end Accounts

end Reading

end RobotLang
