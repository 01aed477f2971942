/-
Where too many digits are reported.

A rule whose phrases all begin with the same kind of word reads what the
widest rule for them reads, if the first word is of that kind, and
otherwise refuses it at once (`Rule.read_of_opening`). So what was shown
for the wide rules holds of every rule: a numeral is taken only where an
expression is faced (`Rule.faces_of_numeral`). And where one is faced a
numeral is taken, and if it has too many digits, refused behind it.

That an expression is faced behind some tokens is a matter of their words
alone: any expression may come there (`Rule.faces_expr_iff`).
-/
import RobotLang.Proofs.Reading.Begun

namespace RobotLang

open Reading

namespace Rule

variable {rule : Rule} {t : Token} {ts : List Token} {p : Pattern}

-- ============================================ by the first word of a rule

/-- The widest rule for a word reads a phrase that begins with it as the
rule for that word does. Relations are phrases of one rule only. -/
theorem read_of_opening (hp : rule.opening? = some p)
    (hrelation : rule ≠ .relation) (ht : p.fits t.value = true) :
    rule.read (t :: ts) = rule.widest.read (t :: ts) := by
  have he := Agree.expr (Nat.le_succ ts.length) (Nat.le_refl _)
  have hc := Agree.cond (Nat.le_succ ts.length) (Nat.le_refl _)
  have hi := Agree.inside (Nat.le_succ ts.length) (Nat.le_refl _)
  have hall := Nat.le_refl (t :: ts).length
  cases rule with
  | program | stmt | block | cond | expr => cases hp
  | relation => exact absurd rfl hrelation
  | action =>
      cases hp
      have hform := Agree.action (.expr _) he _ hall
      exact bind_congr_at (hform.trans (stmtOver_of_action ht).symm)
  | loop =>
      cases hp
      have hform := Agree.loop (.inside _) hi _ hall
      exact bind_congr_at (hform.trans (stmtOver_of_loop ht).symm)
  | whileDo =>
      cases hp
      have hform := Agree.whileDo (.cond _) hc (.inside _) hi _ hall
      exact bind_congr_at (hform.trans (stmtOver_of_while ht).symm)
  | choice =>
      cases hp
      have hform := Agree.choice (.cond _) hc (.inside _) hi _ hall
      exact bind_congr_at (hform.trans (stmtOver_of_if ht).symm)
  | connected =>
      cases hp
      have hform := Agree.connected (.cond _) hc _ hall
      exact bind_congr_at (hform.trans (condOver_of_connective ht).symm)
  | sensor =>
      cases hp
      exact bind_congr_at (exprOver_of_sensor ht).symm
  | operation =>
      cases hp
      have hform := Agree.operation (.expr _) he _ hall
      exact bind_congr_at (hform.trans (exprOver_of_operation ht).symm)

/-- A first word of another kind is refused at once. -/
theorem left_read_of_not_opening (hp : rule.opening? = some p)
    (ht : p.fits t.value = false) : left (rule.read (t :: ts)) = t :: ts := by
  have hrequire {α : Type} {meaning : String → Option α}
      (h : (meaning t.value).isSome = false) (reason : Reason) :
      require meaning reason (t :: ts)
        = .error (.rejected (.before reason (t :: ts))) (t :: ts) := by
    rw [require_cons, Option.not_isSome_iff_eq_none.1 (ne_true_of_eq_false h)]
  have hrefused {α : Type} {r : Reading α} {tree : α → Tree} {e : Refusal}
      (h : r (t :: ts) = .error e (t :: ts)) :
      left ((do return tree (← r) : Reading Tree) (t :: ts)) = t :: ts := by
    rw [bind_error h]
    rfl
  cases rule with
  | program | stmt | block | cond | expr => cases hp
  | relation =>
      cases hp
      exact hrefused ((begin_cons ..).trans (hrequire ht _))
  | action | connected | operation | sensor =>
      cases hp
      exact hrefused ((begin_cons ..).trans (bind_error (hrequire ht _)))
  | loop | whileDo | choice =>
      cases hp
      have hword := word_refuses (of_decide_eq_false ht)
      exact hrefused ((begin_cons ..).trans (bind_error (hword _ _)))

-- ========================================================== numerals

/-- A rule for one kind of word takes that word first. -/
theorem fits_of_left_ne (hp : rule.opening? = some p)
    (h : left (rule.read (t :: ts)) ≠ t :: ts) : p.fits t.value = true := by
  cases ht : p.fits t.value with
  | true => rfl
  | false => exact absurd (left_read_of_not_opening hp ht) h

/-- A rule for relations takes one word. -/
theorem left_read_relation (ht : Pattern.relation.fits t.value = true) :
    left (Rule.relation.read (t :: ts)) = ts := by
  obtain ⟨r, hr⟩ := Option.isSome_iff_exists.1 ht
  have hread : Reading.relation (t :: ts) = .ok r ts := by
    rw [Reading.relation, begin_cons, require_ok hr]
  show left ((Reading.relation >>= fun r => pure (Tree.relation r)) _) = ts
  rw [bind_ok hread]
  rfl

/-- Every rule takes a numeral only where an expression is faced. -/
theorem faces_of_numeral {taken : List Token} (rest : List Token)
    (ht : Numeral.isNumeral t.value = true)
    (h : left (rule.read (taken ++ t :: rest)) <:+ rest) :
    Faces rule.read taken .expr := by
  have hwide {rule : Rule} (hp : rule.opening? = none)
      (h : left (rule.read (taken ++ t :: rest)) <:+ rest) :
      Faces rule.read taken .expr := by
    have hon := (accounts_read hp _).on
      (Nat.lt_succ_self (taken ++ t :: rest).length)
    exact hon.numeral rfl ht h
  cases hp : rule.opening? with
  | none => exact hwide hp h
  | some p =>
      cases taken with
      | nil =>
          -- the first word is of another kind
          have hfits := fits_of_left_ne hp fun heq => by
            rw [List.nil_append, heq] at h
            exact not_suffix_tail t [] rest h
          rw [Pattern.fits_numeral ht] at hfits
          rw [of_decide_eq_true hfits] at hp
          cases rule <;> cases hp
      | cons t' taken =>
          have hfits := fits_of_left_ne hp fun heq => by
            rw [List.cons_append, heq] at h
            exact not_suffix_tail t (t' :: taken) rest h
          by_cases hrelation : rule = .relation
          · rw [hrelation] at hp h
            cases hp
            rw [List.cons_append, left_read_relation hfits] at h
            exact absurd h (not_suffix_tail t taken rest)
          · have hread (more : List Token) :
                rule.read (t' :: taken ++ more)
                  = rule.widest.read (t' :: taken ++ more) :=
              read_of_opening hp hrelation hfits
            have hwidest : rule.widest.opening? = none := by
              cases rule with
              | relation => exact absurd rfl hrelation
              | _ => rfl
            rw [hread] at h
            exact (hwide hwidest h).behind (x := []) hread

/-- A numeral of too many digits is refused behind it, where an expression
is faced and nowhere else. -/
theorem read_tooLong_iff {rest : List Token} {n : Nat} :
    rule.read ts = .error (.tooLong n) rest
      ↔ ∃ taken t, ts = taken ++ t :: rest
        ∧ Numeral.isNumeral t.value = true
        ∧ n = (Numeral.digits t.value).length ∧ Numeral.digitLimit < n
        ∧ Faces rule.read taken .expr := by
  constructor
  · intro h
    obtain ⟨taken, t, rfl, ht, hn, hlong⟩ :=
      (Plain.upTo _ rule).tooLong_last h
    refine ⟨taken, t, rfl, ht, hn, hlong, faces_of_numeral rest ht ?_⟩
    rw [h]
    exact List.suffix_refl rest
  · intro h
    obtain ⟨taken, t, rfl, ht, rfl, hlong, hfaces⟩ := h
    obtain ⟨β, tree, s, g, hread, -, hfaces⟩ := hfaces
    have hexpr : Rule.expr.read (t :: rest)
        = .error (.tooLong (Numeral.digits t.value).length) rest := by
      refine bind_error ((exprOver_of_number ht).trans (bind_error ?_))
      rw [numeral_cons, if_pos ht, if_pos hlong]
    rw [hread] at hexpr
    rcases bind_eq_error_iff.1 hexpr with hs | ⟨b, mid, -, hs⟩
    · rw [hfaces, bind_error hs]
    · cases hs

/-- An expression is faced where any expression may come. -/
theorem faces_expr_iff {taken : List Token} :
    Faces rule.read taken .expr
      ↔ ∀ e u, Phrase .expr .expr e u →
        rule.Begins (taken.map Token.value ++ u) := by
  constructor
  · exact fun h e u hu => begins_of_faces (by decide) h hu
  · intro h
    -- zero may come there, and is taken
    have hzero : Phrase .expr .expr (.number 0) ["0"] :=
      ⟨.number rfl, legible_singleton.2 fun _ => by decide⟩
    obtain ⟨t, more, hphrase⟩ := h _ _ hzero
    have hread : rule.read (taken ++ ⟨"0", .start⟩ :: Token.placed more)
        = .ok t [] := by
      refine read_of_phrase (List.append_ne_nil_of_right_ne_nil _
        (List.cons_ne_nil _ _)) ?_
      rw [List.map_append, List.map_cons, Token.map_value_placed]
      rw [List.append_assoc] at hphrase
      exact hphrase
    refine faces_of_numeral (t := ⟨"0", .start⟩) (Token.placed more) rfl ?_
    rw [hread]
    exact List.nil_suffix

end Rule

end RobotLang
