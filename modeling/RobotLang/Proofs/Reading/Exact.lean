/-
What is read is what the grammar derives.

A reading that is meant for enough tokens ends with a tree exactly if the
tokens that it takes have legible words that derive the tree, and what is
next can follow it. Read from left to right this says that the rules
follow the grammar, and that they go on as far as they can: behind a
choice without `else` no `else` is left, and behind a program nothing.
-/
import RobotLang.Proofs.Reading.Budget
import RobotLang.Proofs.Reading.Complete

namespace RobotLang

namespace Reading

-- =================================================== as far as it goes

/-- Behind a choice that was read without `else` there is none. -/
theorem nextWord_of_choice {condition : Reading Cond}
    {statements : Reading (List Stmt)} {ts rest : List Token} {c : Cond}
    {b : Block}
    (h : choice condition statements ts = .ok (.ifThen c b) rest) :
    nextWord rest ≠ some "else" := by
  obtain ⟨-, ts₁, -, h₁⟩ := bind_eq_ok_iff.1 h
  obtain ⟨-, ts₂, -, h₂⟩ := bind_eq_ok_iff.1 h₁
  obtain ⟨c', ts₃, -, h₃⟩ := bind_eq_ok_iff.1 h₂
  obtain ⟨b', ts₄, -, h₄⟩ := bind_eq_ok_iff.1 h₃
  obtain ⟨o, ts₅, ho, h₅⟩ := bind_eq_ok_iff.1 h₄
  cases o with
  | some w =>
      obtain ⟨b'', ts₆, -, h₆⟩ := bind_eq_ok_iff.1 h₅
      cases h₆
  | none =>
      obtain ⟨hts, hnone⟩ := accept_eq_none_iff.1 ho
      cases h₅
      rw [hts]
      exact fun hnext => absurd (hnone _ hnext) (by decide)

theorem nextWord_of_stmt {n : Nat} {ts rest : List Token} {c : Cond}
    {b : Block} (h : stmt n ts = .ok (.ifThen c b) rest) :
    nextWord rest ≠ some "else" := by
  cases n with
  | zero => cases h
  | succ n =>
      obtain ⟨taken, rfl, hderives, -⟩ := (Follows.stmt (n + 1)).ok h
      generalize hws : taken.map Token.value = ws at hderives
      cases hderives with
      | stmtAction hd | stmtLoop hd | stmtWhile hd => cases hd
      | stmtChoice hd =>
          obtain ⟨w, us, rfl, hw⟩ := hd.eq_cons rfl
          obtain ⟨t, taken, rfl, rfl, -⟩ := List.map_eq_cons_iff.1 hws
          rw [List.cons_append, stmt, stmtOver_of_if hw] at h
          exact nextWord_of_choice h

theorem toEnd_cons (n : Nat) (t : Token) (ts : List Token) :
    toEnd (n + 1) (t :: ts)
      = (do return (← stmt (n + 1)) :: (← toEnd n) : Reading (List Stmt))
        (t :: ts) := rfl

/-- Behind a program there is nothing. -/
theorem eq_nil_of_toEnd {n : Nat} {ts rest : List Token}
    {ss : List Stmt} (hn : ts.length ≤ n)
    (h : toEnd n ts = .ok ss rest) : rest = [] := by
  induction n generalizing ts rest ss with
  | zero =>
      cases h
      exact List.length_eq_zero_iff.1 (Nat.le_zero.1 hn)
  | succ n ih =>
      cases ts with
      | nil =>
          cases h
          rfl
      | cons t ts =>
          rw [toEnd_cons] at h
          obtain ⟨s, mid, hs, h⟩ := bind_eq_ok_iff.1 h
          obtain ⟨ss', mid', hss, h⟩ := bind_eq_ok_iff.1 h
          cases h
          have hlen := Takes.of_follows (.stmt _) (by decide) _ _ _ hs
          exact ih (by omega) hss

/-- A program is read up to the end. -/
theorem reads_toEnd {ws : List String} {ss : List Stmt}
    (h : Derives .program ws (.program ⟨ss⟩)) {n : Nat}
    (hws : LegibleUpTo n ws) : Reads (toEnd n) ws ss (· = none) := by
  induction ss generalizing ws n with
  | nil =>
      cases h
      intro toks rest htoks hnext
      obtain rfl := List.map_eq_nil_iff.1 htoks
      cases rest with
      | nil => cases n <;> rfl
      | cons t rest => cases hnext
  | cons s ss ih =>
      cases h with
      | more hs hss =>
          obtain ⟨w, us, rfl, -, hw⟩ := hs.stmt_eq_cons
          obtain ⟨n, rfl⟩ := Nat.exists_eq_add_one.2
            (Nat.lt_of_lt_of_le (Nat.succ_pos _) hws.1)
          have hv := hws.inner (List.suffix_append us _).isInfix
          have hs' := Reads.stmt_of_within (hs.reads hws.left)
          refine .atEnd_bind (.more hs' (ih hss hv) ?_)
          intro next hnext
          rw [hnext, Option.or_none]
          exact hss.head?_ne_else

end Reading

-- ================================================ exactly the grammar

open Reading

namespace Rule

/-- Only statements and choices are read as a choice without `else`. -/
theorem nextWord_of_upTo {rule : Rule} {n : Nat} {ts rest : List Token}
    {c : Cond} {b : Block}
    (h : rule.upTo n ts = .ok (.stmt (.ifThen c b)) rest) :
    nextWord rest ≠ some "else" := by
  obtain ⟨taken, -, hderives, -⟩ := (Follows.upTo n rule).ok h
  have hkind : Rule.stmt = rule.widest := hderives.rule_eq
  generalize taken.map Token.value = ws at hderives
  cases rule with
  | stmt =>
      obtain ⟨s, mid, hs, h⟩ := bind_eq_ok_iff.1 h
      cases h
      exact nextWord_of_stmt hs
  | choice =>
      obtain ⟨s, mid, hs, h⟩ := bind_eq_ok_iff.1 h
      cases h
      exact nextWord_of_choice hs
  | action | loop | whileDo => cases hderives
  | _ => cases hkind

/-- A phrase is read exactly if its words are legible and derive it and
what is next can follow it. -/
theorem upTo_ok_iff {rule : Rule} (hrule : rule ≠ .program) {n : Nat}
    {ts rest : List Token} {t : Tree} (hn : ts.length ≤ n) :
    rule.upTo n ts = .ok t rest
      ↔ ∃ taken, ts = taken ++ rest
        ∧ Phrase rule id t (taken.map Token.value)
        ∧ ∀ c b, t = .stmt (.ifThen c b) → nextWord rest ≠ some "else" := by
  constructor
  · intro h
    obtain ⟨taken, hts, hphrase⟩ := (Follows.upTo n rule).ok h
    refine ⟨taken, hts, hphrase, ?_⟩
    intro c b ht
    rw [ht] at h
    exact nextWord_of_upTo h
  · intro h
    obtain ⟨taken, rfl, ⟨hderives, hlegible⟩, hnext⟩ := h
    have hlen : (taken.map Token.value).length ≤ n + rule.own := by
      rw [List.length_map]
      rw [List.length_append] at hn
      omega
    have hreads := hderives.reads ⟨hlen, hlegible⟩
    have hwithin : rule.within n = rule.upTo n := by
      cases rule with
      | program => exact absurd rfl hrule
      | _ => rfl
    have hfollow : t.Precedes (nextWord rest) := by
      have hkind : t.rule = rule.widest := hderives.rule_eq
      cases t with
      | stmt s =>
          cases s with
          | ifThen c b => exact hnext c b rfl
          | _ => trivial
      | program p =>
          cases rule with
          | program => exact absurd rfl hrule
          | _ => cases hkind
      | _ => trivial
    rw [hwithin] at hreads
    exact hreads taken rest rfl hfollow

/-- A program is read exactly if there are tokens and their words are
legible and derive it, all of them. -/
theorem program_upTo_ok_iff {n : Nat} {ts rest : List Token} {t : Tree}
    (hn : ts.length ≤ n) :
    Rule.program.upTo n ts = .ok t rest
      ↔ ts ≠ [] ∧ rest = []
        ∧ Phrase .program id t (ts.map Token.value) := by
  constructor
  · intro h
    obtain ⟨taken, hts, hphrase⟩ := (Follows.upTo n .program).ok h
    obtain ⟨p, mid, hp, htree⟩ := bind_eq_ok_iff.1 h
    cases htree
    cases ts with
    | nil => cases hp
    | cons t ts =>
        rw [Reading.program, begin_cons] at hp
        obtain ⟨ss, mid, hss, hprogram⟩ := bind_eq_ok_iff.1 hp
        cases hprogram
        have hrest := eq_nil_of_toEnd hn hss
        rw [hrest, List.append_nil] at hts
        rw [← hts] at hphrase
        exact ⟨List.cons_ne_nil t ts, hrest, hphrase⟩
  · intro h
    obtain ⟨hne, rfl, hderives, hlegible⟩ := h
    have hkind : t.rule = .program := hderives.rule_eq
    cases t with
    | program p =>
        have hlen : (ts.map Token.value).length ≤ n := by
          rw [List.length_map]
          exact hn
        have hss := reads_toEnd hderives ⟨hlen, hlegible⟩ ts [] rfl rfl
        rw [List.append_nil] at hss
        cases ts with
        | nil => exact absurd rfl hne
        | cons t ts =>
            refine bind_eq_ok_iff.2 ⟨p, [], ?_, rfl⟩
            rw [Reading.program, begin_cons]
            exact bind_eq_ok_iff.2 ⟨p.statements, [], hss, rfl⟩
    | _ => cases hkind

end Rule

/-- The tokens of a program are exactly those whose words are legible and
derive it, if there are any. -/
theorem Program.ofTokens_eq_ok_iff {tokens : List Token} {p : Program} :
    Program.ofTokens tokens = .ok p
      ↔ tokens ≠ [] ∧ Phrase .program .program p (tokens.map Token.value) := by
  have hread : Program.ofTokens tokens = .ok p
      ↔ Rule.program.upTo tokens.length tokens
        = .ok (.program p) [] := by
    unfold Program.ofTokens
    constructor
    · intro h
      cases hres : Reading.program tokens.length tokens with
      | ok p' rest =>
          rw [hres] at h
          cases h
          have htree : Rule.program.upTo tokens.length tokens
              = .ok (.program p) rest := bind_eq_ok_iff.2 ⟨p, rest, hres, rfl⟩
          have hnil := ((Rule.program_upTo_ok_iff (Nat.le_refl _)).1 htree).2.1
          rw [htree, hnil]
      | error e rest =>
          rw [hres] at h
          cases h
    · intro h
      obtain ⟨p', rest, hres, htree⟩ := bind_eq_ok_iff.1 h
      cases htree
      rw [hres]
  rw [hread, Rule.program_upTo_ok_iff (Nat.le_refl _)]
  constructor
  · intro h
    obtain ⟨hne, -, hphrase⟩ := h
    exact ⟨hne, hphrase⟩
  · intro h
    exact ⟨h.1, rfl, h.2⟩

/-- Tokens are no program if and only if the rule for programs refuses
them. -/
theorem Program.ofTokens_eq_error_iff {tokens : List Token} {e : Refusal} :
    Program.ofTokens tokens = .error e
      ↔ ∃ rest, Rule.program.read tokens = .error e rest := by
  unfold Program.ofTokens
  constructor
  · intro h
    cases hres : Reading.program tokens.length tokens with
    | ok p rest =>
        rw [hres] at h
        cases h
    | error e' rest =>
        rw [hres] at h
        cases h
        exact ⟨rest, bind_eq_error_iff.2 (.inl hres)⟩
  · rintro ⟨rest, h⟩
    rcases bind_eq_error_iff.1 h with hres | ⟨p, mid, -, hpure⟩
    · rw [hres]
    · cases hpure

end RobotLang
