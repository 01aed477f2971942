/-
What every reading made of the steps has in common.

A plain reading is one put together from the steps that look at tokens.
By induction on how it is put together, every plain reading

- leaves a final part of the tokens that it is given, whether it ends with
  a value or with a refusal (`Plain.left_suffix`);
- reports too many digits only of a numeral among the tokens
  (`Plain.tooLong_mem`);
- looks at the words of the tokens that it takes and at the word of the
  next one, and at nothing else (`Plain.outcome_alike`): on any tokens with
  the same such words it ends alike.

The third rests on the first: in a sequence of two readings, what the
second one has taken is what the first one left and the whole did not.
-/
import RobotLang.Reading

namespace RobotLang

/-- Refusals for the same reason. -/
def Refusal.Alike : Refusal → Refusal → Prop
  | .rejected f, .rejected g => f.reason = g.reason
  | .tooLong m, .tooLong n => m = n
  | _, _ => False

namespace Reading

variable {α β : Type}

-- ============================================================ outcomes

theorem bind_eq_ok_iff {r : Reading α} {f : α → Reading β}
    {ts rest : List Token} {b : β} :
    (r >>= f) ts = .ok b rest
      ↔ ∃ a mid, r ts = .ok a mid ∧ f a mid = .ok b rest := by
  show EStateM.bind r f ts = _ ↔ _
  unfold EStateM.bind
  cases r ts with
  | ok a mid =>
      constructor
      · exact fun h => ⟨a, mid, rfl, h⟩
      · intro h
        obtain ⟨a', mid', heq, hf⟩ := h
        cases heq
        exact hf
  | error e mid => simp

theorem bind_eq_error_iff {r : Reading α} {f : α → Reading β}
    {ts rest : List Token} {e : Refusal} :
    (r >>= f) ts = .error e rest
      ↔ r ts = .error e rest
        ∨ ∃ a mid, r ts = .ok a mid ∧ f a mid = .error e rest := by
  show EStateM.bind r f ts = _ ↔ _
  unfold EStateM.bind
  cases r ts with
  | ok a mid =>
      constructor
      · exact fun h => .inr ⟨a, mid, rfl, h⟩
      · intro h
        rcases h with heq | ⟨a', mid', heq, hf⟩
        · cases heq
        · cases heq
          exact hf
  | error e mid => simp

-- ------------------------------------------------------ of each step

theorem accept_cons (meaning : String → Option α) (t : Token)
    (ts : List Token) :
    accept meaning (t :: ts)
      = match meaning t.value with
        | some a => .ok (some a) ts
        | none => .ok none (t :: ts) := rfl

theorem require_cons (meaning : String → Option α) (reason : Reason)
    (t : Token) (ts : List Token) :
    require meaning reason (t :: ts)
      = match meaning t.value with
        | some a => .ok a ts
        | none =>
          .error (.rejected (.before reason (t :: ts))) (t :: ts) := by
  show EStateM.bind (accept meaning) _ (t :: ts) = _
  unfold EStateM.bind
  rw [accept_cons]
  cases meaning t.value <;> rfl

theorem eq_of_passing {test : String → Bool} {w v : String}
    (h : passing test w = some v) : v = w ∧ test w = true := by
  unfold passing at h
  split at h
  · next hw => exact ⟨(Option.some.inj h).symm, hw⟩
  · cases h

theorem numeral_cons (t : Token) (ts : List Token) :
    numeral (t :: ts)
      = if Numeral.isNumeral t.value then
          if Numeral.digitLimit < (Numeral.digits t.value).length then
            .error (.tooLong (Numeral.digits t.value).length) ts
          else .ok (Numeral.value t.value) ts
        else .error (.rejected (.before .notExpression (t :: ts)))
          (t :: ts) := by
  show EStateM.bind (require (passing Numeral.isNumeral) .notExpression)
    _ (t :: ts) = _
  unfold EStateM.bind
  rw [require_cons, passing]
  by_cases hw : Numeral.isNumeral t.value = true
  · rw [if_pos hw, if_pos hw]
    by_cases hl : Numeral.digitLimit < (Numeral.digits t.value).length
    · simp only [if_pos hl]
      rfl
    · simp only [if_neg hl]
      rfl
  · rw [if_neg hw, if_neg hw]

/-- The word of the next token, if there is one. -/
def nextWord (ts : List Token) : Option String := ts.head?.map Token.value

theorem nextWord_append (toks rest : List Token) :
    nextWord (toks ++ rest)
      = (toks.map Token.value).head?.or (nextWord rest) := by
  cases toks <;> rfl

/-- Nothing optional is taken if the next word has no meaning. -/
theorem accept_eq_none_iff {meaning : String → Option α}
    {ts rest : List Token} :
    accept meaning ts = .ok none rest
      ↔ rest = ts ∧ ∀ w, nextWord ts = some w → meaning w = none := by
  cases ts with
  | nil =>
      constructor
      · intro h
        cases h
        exact ⟨rfl, fun _ h => by cases h⟩
      · intro h
        rw [h.1]
        rfl
  | cons t ts =>
      rw [accept_cons]
      constructor
      · intro h
        split at h
        · cases h
        · next hnone =>
          cases h
          refine ⟨rfl, fun w hw => ?_⟩
          rw [← Option.some.inj hw]
          exact hnone
      · intro h
        rw [h.2 t.value rfl, h.1]

/-- The tokens that a reading has not taken. -/
def left : EStateM.Result Refusal (List Token) α → List Token
  | .ok _ rest => rest
  | .error _ rest => rest

/-- Outcomes with the same value, or refused for the same reason. -/
def Alike : EStateM.Result Refusal (List Token) α →
    EStateM.Result Refusal (List Token) α → Prop
  | .ok a _, .ok b _ => a = b
  | .error e _, .error f _ => Refusal.Alike e f
  | _, _ => False

theorem eq_ok_of_alike {o : EStateM.Result Refusal (List Token) α}
    {a : α} {mid rest : List Token} (h : Alike (.ok a mid) o)
    (hleft : left o = rest) : o = .ok a rest := by
  cases o with
  | ok b rest' =>
      rw [show a = b from h, ← hleft]
      rfl
  | error e rest' => exact h.elim

theorem eq_error_of_alike {o : EStateM.Result Refusal (List Token) α}
    {e : Refusal} {mid rest : List Token}
    (h : Alike (.error e mid : EStateM.Result Refusal (List Token) α) o)
    (hleft : left o = rest) :
    ∃ e', Refusal.Alike e e' ∧ o = .error e' rest := by
  cases o with
  | ok b rest' => exact h.elim
  | error e' rest' =>
      refine ⟨e', h, ?_⟩
      rw [← hleft]
      rfl

-- ====================================================== plain readings

/-- The readings put together from the steps that look at tokens. -/
inductive Plain : {α : Type} → Reading α → Prop
  | pure {α : Type} (a : α) : Plain (Pure.pure a)
  | refuse {α : Type} (reason : Reason) : Plain (refuse reason : Reading α)
  | numeral : Plain numeral
  | sees (test : String → Bool) : Plain (sees test)
  | atEnd : Plain atEnd
  | peekWord {α : Type} {f : Option String → Reading α}
      (hf : ∀ w, Plain (f w)) :
      Plain (peek >>= fun t => f (t.map Token.value))
  | accept {α : Type} (meaning : String → Option α) :
      Plain (accept meaning)
  | bind {α β : Type} {r : Reading α} {f : α → Reading β}
      (hr : Plain r) (hf : ∀ a, Plain (f a)) : Plain (r >>= f)

namespace Plain

theorem ite {c : Prop} [Decidable c] {r s : Reading α} (hr : Plain r)
    (hs : Plain s) : Plain (if c then r else s) := by
  split
  · exact hr
  · exact hs

theorem begin : Plain begin :=
  .bind .atEnd fun _ => .ite (.refuse _) (.pure _)

theorem require (meaning : String → Option α) (reason : Reason) :
    Plain (require meaning reason) := by
  refine .bind (.accept meaning) fun o => ?_
  cases o with
  | some a => exact .pure a
  | none => exact .refuse reason

theorem word (w : String) (reason : Reason) : Plain (word w reason) :=
  .bind (.require _ _) fun _ => .pure _

theorem mark (m : Mark) (reason : Reason) : Plain (mark m reason) :=
  .word _ _

-- ======================================================= what is left

/-- A plain reading leaves a final part of its tokens. -/
theorem left_suffix {r : Reading α} (hr : Plain r) (ts : List Token) :
    left (r ts) <:+ ts := by
  induction hr generalizing ts with
  | pure a => exact List.suffix_refl ts
  | refuse reason => exact List.suffix_refl ts
  | sees test => exact List.suffix_refl ts
  | atEnd => exact List.suffix_refl ts
  | numeral =>
      cases ts with
      | nil => exact List.suffix_refl []
      | cons t ts =>
          rw [numeral_cons]
          split
          · split
            · exact List.suffix_cons t ts
            · exact List.suffix_cons t ts
          · exact List.suffix_refl _
  | accept meaning =>
      cases ts with
      | nil => exact List.suffix_refl []
      | cons t ts =>
          rw [accept_cons]
          split
          · exact List.suffix_cons t ts
          · exact List.suffix_refl _
  | peekWord hf ih => exact ih _ ts
  | @bind α β r f hr hf ihr ihf =>
      show left (EStateM.bind r f ts) <:+ ts
      unfold EStateM.bind
      have hmid := ihr ts
      cases h : r ts with
      | ok a mid =>
          rw [h] at hmid
          exact (ihf a mid).trans hmid
      | error e mid =>
          rw [h] at hmid
          exact hmid

theorem suffix_of_ok {r : Reading α} (hr : Plain r) {ts rest : List Token}
    {a : α} (h : r ts = .ok a rest) : rest <:+ ts := by
  have hsuf := hr.left_suffix ts
  rw [h] at hsuf
  exact hsuf

theorem suffix_of_error {r : Reading α} (hr : Plain r)
    {ts rest : List Token} {e : Refusal} (h : r ts = .error e rest) :
    rest <:+ ts := by
  have hsuf := hr.left_suffix ts
  rw [h] at hsuf
  exact hsuf

-- ==================================================== too many digits

/-- Too many digits are reported of the token that was taken last, which is
a numeral. -/
theorem tooLong_last {r : Reading α} (hr : Plain r) {ts rest : List Token}
    {n : Nat} (h : r ts = .error (.tooLong n) rest) :
    ∃ taken t, ts = taken ++ t :: rest
      ∧ Numeral.isNumeral t.value = true
      ∧ n = (Numeral.digits t.value).length ∧ Numeral.digitLimit < n := by
  induction hr generalizing ts rest with
  | pure a => cases h
  | refuse reason => cases h
  | sees test => cases h
  | atEnd => cases h
  | numeral =>
      cases ts with
      | nil => cases h
      | cons t ts =>
          rw [numeral_cons] at h
          split at h
          · next hw =>
            split at h
            · next hl =>
              cases h
              exact ⟨[], t, rfl, hw, rfl, hl⟩
            · cases h
          · cases h
  | accept meaning =>
      cases ts with
      | nil => cases h
      | cons t ts =>
          rw [accept_cons] at h
          split at h <;> cases h
  | peekWord hf ih => exact ih _ h
  | bind hr hf ihr ihf =>
      rcases bind_eq_error_iff.1 h with h | ⟨a, mid, ha, h⟩
      · exact ihr h
      · obtain ⟨taken, t, rfl, hlong⟩ := ihf a h
        obtain ⟨before, hbefore⟩ := hr.suffix_of_ok ha
        refine ⟨before ++ taken, t, ?_, hlong⟩
        rw [← hbefore, List.append_assoc]

/-- Too many digits are reported of a numeral among the tokens. -/
theorem tooLong_mem {r : Reading α} (hr : Plain r) {ts rest : List Token}
    {n : Nat} (h : r ts = .error (.tooLong n) rest) :
    ∃ t ∈ ts, Numeral.isNumeral t.value = true
      ∧ Numeral.digitLimit < (Numeral.digits t.value).length := by
  obtain ⟨taken, t, rfl, hw, rfl, hlong⟩ := hr.tooLong_last h
  exact ⟨t, List.mem_append_right taken (List.mem_cons_self ..), hw, hlong⟩

-- ==================================================== syntax errors

/-- A syntax error is about the tokens that are left. -/
theorem failure_eq {r : Reading α} (hr : Plain r) {ts rest : List Token}
    {f : Failure} (h : r ts = .error (.rejected f) rest) :
    f = .before f.reason rest := by
  induction hr generalizing ts with
  | pure a => cases h
  | refuse reason =>
      cases h
      rfl
  | sees test => cases h
  | atEnd => cases h
  | numeral =>
      cases ts with
      | nil =>
          cases h
          rfl
      | cons t ts =>
          rw [numeral_cons] at h
          split at h
          · split at h <;> cases h
          · cases h
            rfl
  | accept meaning =>
      cases ts with
      | nil => cases h
      | cons t ts =>
          rw [accept_cons] at h
          split at h <;> cases h
  | peekWord hf ih => exact ih _ h
  | bind hr hf ihr ihf =>
      rcases bind_eq_error_iff.1 h with h | ⟨a, mid, ha, h⟩
      · exact ihr h
      · exact ihf a h

-- ====================================================== one token ahead

/-- What was taken falls into what each of two readings took. -/
theorem split_taken {taken mid rest : List Token}
    (hmid : mid <:+ taken ++ rest) (hrest : rest <:+ mid) :
    ∃ x y, taken = x ++ y ∧ mid = y ++ rest := by
  obtain ⟨y, rfl⟩ := hrest
  obtain ⟨x, hx⟩ := hmid
  rw [← List.append_assoc] at hx
  exact ⟨x, y, (List.append_cancel_right hx).symm, rfl⟩

/-- A step that looks at the next word, and takes it or not, ends alike on
tokens with the same words. -/
theorem alike_of_step {r : Reading α}
    (hnil : Alike (r []) (r []) ∧ left (r []) = [])
    (hcons : ∀ t ts t' ts', t.value = t'.value →
      Alike (r (t :: ts)) (r (t' :: ts'))
        ∧ ((left (r (t :: ts)) = ts ∧ left (r (t' :: ts')) = ts')
          ∨ (left (r (t :: ts)) = t :: ts
            ∧ left (r (t' :: ts')) = t' :: ts')))
    {taken rest taken' rest' : List Token}
    (hv : taken.map Token.value = taken'.map Token.value)
    (hn : nextWord rest = nextWord rest')
    (h : left (r (taken ++ rest)) = rest) :
    Alike (r (taken ++ rest)) (r (taken' ++ rest'))
      ∧ left (r (taken' ++ rest')) = rest' := by
  cases taken with
  | nil =>
      rw [List.map_nil, eq_comm, List.map_eq_nil_iff] at hv
      subst hv
      cases rest with
      | nil =>
          cases rest' with
          | nil => exact hnil
          | cons t' ts' => cases hn
      | cons t ts =>
          cases rest' with
          | nil => cases hn
          | cons t' ts' =>
              obtain ⟨halike, ⟨hleft, -⟩ | ⟨-, hleft⟩⟩ :=
                hcons t ts t' ts' (Option.some.inj hn)
              · exact absurd (hleft.symm.trans h).symm
                  (List.cons_ne_self t ts)
              · exact ⟨halike, hleft⟩
  | cons t u =>
      obtain ⟨t', u', rfl, ht, hu⟩ := List.map_eq_cons_iff.1 hv.symm
      obtain ⟨halike, ⟨hleft, hleft'⟩ | ⟨hleft, -⟩⟩ :=
        hcons t (u ++ rest) t' (u' ++ rest') ht.symm
      · have hnil : u = [] := List.append_left_eq_self.1 (hleft.symm.trans h)
        rw [hnil, List.map_nil, List.map_eq_nil_iff] at hu
        refine ⟨halike, ?_⟩
        rw [List.cons_append, hleft', hu, List.nil_append]
      · have hlen := congrArg List.length (hleft.symm.trans h)
        rw [List.length_cons, List.length_append] at hlen
        omega

/-- A plain reading on tokens that begin with the same words as those that
it took, and go on with the same word, ends alike and takes as many. -/
theorem outcome_alike {r : Reading α} (hr : Plain r)
    {taken rest taken' rest' : List Token}
    (hv : taken.map Token.value = taken'.map Token.value)
    (hn : nextWord rest = nextWord rest')
    (h : left (r (taken ++ rest)) = rest) :
    Alike (r (taken ++ rest)) (r (taken' ++ rest'))
      ∧ left (r (taken' ++ rest')) = rest' := by
  induction hr generalizing taken rest taken' rest' with
  | pure b =>
      refine alike_of_step ?_ (fun _ _ _ _ _ => ?_) hv hn h
      · exact ⟨rfl, rfl⟩
      · exact ⟨rfl, .inr ⟨rfl, rfl⟩⟩
  | refuse reason =>
      refine alike_of_step ?_ (fun _ _ _ _ _ => ?_) hv hn h
      · exact ⟨rfl, rfl⟩
      · exact ⟨rfl, .inr ⟨rfl, rfl⟩⟩
  | sees test =>
      refine alike_of_step ?_ (fun _ _ _ _ ht => ?_) hv hn h
      · exact ⟨rfl, rfl⟩
      · exact ⟨congrArg test ht, .inr ⟨rfl, rfl⟩⟩
  | atEnd =>
      refine alike_of_step ?_ (fun _ _ _ _ _ => ?_) hv hn h
      · exact ⟨rfl, rfl⟩
      · exact ⟨rfl, .inr ⟨rfl, rfl⟩⟩
  | numeral =>
      refine alike_of_step ?_ (fun t ts t' ts' ht => ?_) hv hn h
      · exact ⟨rfl, rfl⟩
      · rw [numeral_cons, numeral_cons, ht]
        split
        · split
          · exact ⟨rfl, .inl ⟨rfl, rfl⟩⟩
          · exact ⟨rfl, .inl ⟨rfl, rfl⟩⟩
        · exact ⟨rfl, .inr ⟨rfl, rfl⟩⟩
  | accept meaning =>
      refine alike_of_step ?_ (fun t ts t' ts' ht => ?_) hv hn h
      · exact ⟨rfl, rfl⟩
      · rw [accept_cons, accept_cons, ht]
        split
        · exact ⟨rfl, .inl ⟨rfl, rfl⟩⟩
        · exact ⟨rfl, .inr ⟨rfl, rfl⟩⟩
  | @peekWord α f hf ih =>
      have hword : nextWord (taken ++ rest)
          = nextWord (taken' ++ rest') := by
        rw [nextWord_append, nextWord_append, hv, hn]
      show Alike (f (nextWord (taken ++ rest)) (taken ++ rest))
          (f (nextWord (taken' ++ rest')) (taken' ++ rest'))
        ∧ left (f (nextWord (taken' ++ rest')) (taken' ++ rest')) = rest'
      rw [← hword]
      exact ih _ hv hn h
  | @bind α β r f hr hf ihr ihf =>
      have hmid := hr.left_suffix (taken ++ rest)
      have hbind : ∀ ts, (r >>= f) ts = EStateM.bind r f ts := fun _ => rfl
      rw [hbind, EStateM.bind] at h
      rw [hbind, hbind, EStateM.bind, EStateM.bind]
      cases hra : r (taken ++ rest) with
      | ok a mid =>
          rw [hra] at h hmid
          have hrest : rest <:+ mid := by
            rw [← h]
            exact (hf a).left_suffix mid
          obtain ⟨x, y, rfl, rfl⟩ := split_taken hmid hrest
          rw [List.map_append] at hv
          obtain ⟨x', y', rfl, hx, hy⟩ := List.map_eq_append_iff.1 hv.symm
          rw [List.append_assoc] at hra
          have hleft : left (r (x ++ (y ++ rest))) = y ++ rest := by
            rw [hra]
            rfl
          have hnext : nextWord (y ++ rest) = nextWord (y' ++ rest') := by
            rw [nextWord_append, nextWord_append, hy, hn]
          obtain ⟨halike, hleft'⟩ := ihr hx.symm hnext hleft
          rw [hra] at halike
          rw [List.append_assoc, eq_ok_of_alike halike hleft']
          exact ihf a hy.symm hn h
      | error e mid =>
          rw [hra] at h
          have hleft : left (r (taken ++ rest)) = rest := by
            rw [hra]
            exact h
          obtain ⟨halike, hleft'⟩ := ihr hv hn hleft
          rw [hra] at halike
          obtain ⟨e', he', hre⟩ := eq_error_of_alike halike hleft'
          rw [hre]
          exact ⟨he', rfl⟩

end Plain

end Reading

end RobotLang
