/-
A cursor under any requests.

Whatever is asked of a cursor, and in whatever order, its tokens stay the
same and its place is among them. What a single request does to the place
is told by its kind. Those that look do not move the cursor; those that take
one token move it by one if they are granted and otherwise not at all; a
rule moves it on by what its steps consume, also if it breaks off. So the
words consumed since the last reset are those in front of the cursor, by
induction on the requests (`Consumed.words`): the step is that a request
consumes the words from where the cursor stands to where it leaves it
(`Consumes.words`).

A reset puts the cursor where it began. Since nothing but its place ever
changed, what is asked after that is answered as it would be at the
beginning.
-/
import RobotLang.Proofs.Cursor
import RobotLang.Proofs.Reading.Consuming

namespace RobotLang

open Reading

-- ======================================================= kinds of request

namespace Request

/-- The requests that only look at what is ahead, or complain of it. -/
def looks : Request → Bool
  | .hasNext _ | .peek | .current | .upcoming _ | .fail _ => true
  | .next | .reset | .checkFor _ | .require _ _ | .read _ => false

/-- The requests for a single token. -/
def takesOne : Request → Bool
  | .next | .checkFor _ | .require _ _ => true
  | .hasNext _ | .peek | .current | .upcoming _ | .fail _ | .reset
  | .read _ => false

theorem ne_reset_of_looks {request : Request} (h : request.looks = true) :
    request ≠ .reset := by
  intro hreset
  rw [hreset] at h
  cases h

theorem ne_reset_of_takesOne {request : Request}
    (h : request.takesOne = true) : request ≠ .reset := by
  intro hreset
  rw [hreset] at h
  cases h

/-- The reading that fulfils a request. Those about the place itself have
none. -/
def reading? : Request → Option (Reading Reply)
  | .hasNext none => some do
    return .truth (!(← Reading.atEnd))
  | .hasNext (some w) => some do
    return .truth (← Reading.sees w.fits)
  | .peek => some do
    match ← Reading.peek with
    | none => return .nothing
    | some t => return .word t.value
  | .current => some do
    match ← Reading.peek with
    | none => return .nothing
    | some t => return .token t
  | .next => some do
    return .word (← Reading.next)
  | .checkFor w => some do
    let taken ← Reading.accept (Reading.passing w.fits)
    return .truth taken.isSome
  | .require w m => some do
    return .word (← Reading.require (Reading.passing w.fits) (.stated m))
  | .fail m => some (Reading.refuse (.stated m))
  | .read rule => some do
    return .tree (← rule.read)
  | .upcoming _ | .reset => none

/-- Every run of a request consumes some words. -/
theorem accountable {request : Request} {r : Reading Reply}
    (h : request.reading? = some r) : Accountable r := by
  have hpeek : Accountable Reading.peek := fun ts => ⟨[], .peek ts⟩
  cases request with
  | hasNext wanted =>
      cases wanted with
      | none =>
          cases h
          exact Accountable.bind (fun ts => ⟨[], .atEnd ts⟩) fun _ => .pure _
      | some w =>
          cases h
          exact Accountable.bind (fun ts => ⟨[], .sees w.fits ts⟩)
            fun _ => .pure _
  | peek | current =>
      cases h
      refine hpeek.bind fun t => ?_
      cases t <;> exact .pure _
  | next =>
      cases h
      exact Accountable.next.bind fun _ => .pure _
  | checkFor w =>
      cases h
      exact (Accountable.accept _).bind fun _ => .pure _
  | require w m =>
      cases h
      exact (Accountable.require _ _).bind fun _ => .pure _
  | fail m =>
      cases h
      exact .refuse _
  | read rule =>
      cases h
      exact (Accountable.read rule).bind fun _ => .pure _
  | upcoming n | reset => cases h

end Request

/-- Whether an answer says that what was asked for is there. -/
def granted : Except Refusal Reply → Bool
  | .ok (.truth b) => b
  | .ok _ => true
  | .error _ => false

-- =========================================================== one request

namespace Cursor

variable {c : Cursor} {request : Request} {ws vs : List String}

/-- The place of the cursor is among its tokens. -/
def Within (c : Cursor) : Prop := c.taken ≤ c.tokens.length

theorem ask_of_reading {r : Reading Reply} (c : Cursor)
    (h : request.reading? = some r) : c.ask request = c.perform r := by
  cases request with
  | hasNext wanted => cases wanted <;> cases h <;> rfl
  | peek | current | next | checkFor w | require w m | fail m | read rule =>
      cases h
      rfl
  | upcoming n | reset => cases h

theorem perform_eq {α : Type} (c : Cursor) (r : Reading α) :
    c.perform r = (outcome (r c.left), c.leaving (Reading.left (r c.left))) := by
  unfold perform
  cases r c.left <;> rfl

/-- The words that a request consumes at a cursor. -/
def Consumes (c : Cursor) (request : Request) (ws : List String) : Prop :=
  match request.reading? with
  | some r => Reading.Consumes r c.left ws (r c.left)
  | none => ws = []

theorem exists_consumes (c : Cursor) (request : Request) :
    ∃ ws, c.Consumes request ws := by
  unfold Consumes
  cases h : request.reading? with
  | none => exact ⟨[], rfl⟩
  | some r => exact request.accountable h c.left

/-- A request moves the cursor on by the words that it consumes, which are
the next ones. -/
theorem Consumes.ask_snd (hc : c.Within) (hreset : request ≠ .reset)
    (h : c.Consumes request ws) :
    (c.ask request).2 = ⟨c.tokens, c.taken + ws.length⟩
      ∧ ws <+: c.left.map Token.value := by
  unfold Consumes at h
  cases hreading : request.reading? with
  | none =>
      rw [hreading] at h
      rw [show ws = [] from h]
      refine ⟨?_, List.nil_prefix⟩
      cases request with
      | upcoming n => rfl
      | reset => exact absurd rfl hreset
      | hasNext wanted => cases wanted <;> cases hreading
      | peek | current | next | checkFor w | require w m | fail m
      | read rule => cases hreading
  | some r =>
      rw [hreading] at h
      have hwords := h.map_value
      have hlength := congrArg List.length hwords
      have hleft : c.left.length = c.tokens.length - c.taken :=
        List.length_drop
      rw [List.length_append, List.length_map, List.length_map, hleft]
        at hlength
      refine ⟨?_, hwords ▸ List.prefix_append _ _⟩
      have hc : c.taken ≤ c.tokens.length := hc
      have hplace : c.tokens.length - (Reading.left (r c.left)).length
          = c.taken + ws.length := by omega
      rw [ask_of_reading c hreading, perform_eq, ← hplace]
      rfl

theorem Within.ask (hc : c.Within) (request : Request) :
    (c.ask request).2.tokens = c.tokens ∧ (c.ask request).2.Within := by
  by_cases hreset : request = .reset
  · rw [hreset]
    exact ⟨rfl, Nat.zero_le _⟩
  · obtain ⟨ws, hws⟩ := c.exists_consumes request
    obtain ⟨hmoved, hprefix⟩ := hws.ask_snd hc hreset
    have hlength := hprefix.length_le
    have hleft : c.left.length = c.tokens.length - c.taken :=
      List.length_drop
    rw [List.length_map, hleft] at hlength
    rw [hmoved]
    refine ⟨rfl, ?_⟩
    show c.taken + ws.length ≤ c.tokens.length
    have hc : c.taken ≤ c.tokens.length := hc
    omega

/-- The words in front of the cursor are those that were there, and those
that the request consumes. -/
theorem Consumes.words (hc : c.Within) (hreset : request ≠ .reset)
    (h : c.Consumes request ws) :
    ((c.tokens.take (c.ask request).2.taken).map Token.value)
      = (c.tokens.take c.taken).map Token.value ++ ws := by
  obtain ⟨hmoved, more, hmore⟩ := h.ask_snd hc hreset
  have hnext : (c.left.take ws.length).map Token.value = ws := by
    rw [List.map_take, ← hmore, List.take_left]
  rw [hmoved]
  show (c.tokens.take (c.taken + ws.length)).map Token.value = _
  rw [List.take_add, List.map_append]
  exact congrArg _ hnext

-- --------------------------------------------------- of each kind

theorem consumes_of_looks (c : Cursor) (h : request.looks = true) :
    c.Consumes request [] := by
  cases request with
  | hasNext wanted =>
      cases wanted with
      | none => exact .bind (.atEnd c.left) (.pure _ c.left)
      | some w => exact .bind (.sees w.fits c.left) (.pure _ c.left)
  | peek | current =>
      show Reading.Consumes _ c.left [] _
      cases c.left with
      | nil => exact .bind (.peek []) (.pure _ [])
      | cons t ts => exact .bind (.peek (t :: ts)) (.pure _ (t :: ts))
  | upcoming n => rfl
  | fail m => exact .refuse _ c.left
  | next | reset | checkFor w | require w m | read rule => cases h

/-- The run of a request gives the words that it consumes and its answer. -/
theorem consumes_of_run {r : Reading Reply}
    {res : EStateM.Result Refusal (List Token) Reply} (c : Cursor)
    (request : Request) (h : request.reading? = some r)
    (hrun : Reading.Consumes r c.left ws res) :
    c.Consumes request ws ∧ (c.ask request).1 = outcome res := by
  have hres := hrun.result
  constructor
  · unfold Consumes
    rw [h]
    show Reading.Consumes r c.left ws (r c.left)
    rw [← hres]
    exact hrun
  · rw [ask_of_reading c h, perform_eq, ← hres]

/-- A request for a single token is granted and consumes the next one, or is
not and consumes nothing; and a word that it is answered with is the one
consumed. -/
theorem consumes_of_takesOne (c : Cursor) (h : request.takesOne = true) :
    (∃ w, granted (c.ask request).1 = true ∧ c.Consumes request [w]
        ∧ ∀ v, (c.ask request).1 = .ok (.word v) → v = w)
      ∨ granted (c.ask request).1 = false ∧ c.Consumes request [] := by
  cases request with
  | next =>
      cases hleft : c.left with
      | nil =>
          have hnext : Reading.Consumes Reading.next c.left []
              (.error (.rejected ⟨.endOfInput, [], none, none⟩) []) := by
            rw [hleft]
            exact .nextless
          obtain ⟨hws, hanswer⟩ :=
            c.consumes_of_run .next rfl (.breakOff _ hnext)
          rw [hanswer]
          exact .inr ⟨rfl, hws⟩
      | cons t ts =>
          have hnext : Reading.Consumes Reading.next c.left [t.value]
              (.ok t.value ts) := by
            rw [hleft]
            exact .next t ts
          obtain ⟨hws, hanswer⟩ :=
            c.consumes_of_run .next rfl (.bind hnext (.pure _ ts))
          rw [hanswer]
          refine .inl ⟨t.value, rfl, hws, fun v hv => ?_⟩
          cases hv
          rfl
  | checkFor w =>
      rcases accept_runs (Reading.passing w.fits) c.left with
        ⟨t, ts, a, -, -, haccept⟩ | haccept
      · obtain ⟨hws, hanswer⟩ :=
          c.consumes_of_run (.checkFor w) rfl (.bind haccept (.pure _ ts))
        rw [hanswer]
        exact .inl ⟨t.value, rfl, hws, fun v hv => by cases hv⟩
      · obtain ⟨hws, hanswer⟩ :=
          c.consumes_of_run (.checkFor w) rfl (.bind haccept (.pure _ c.left))
        rw [hanswer]
        exact .inr ⟨rfl, hws⟩
  | require w m =>
      rcases accept_runs (Reading.passing w.fits) c.left with
        ⟨t, ts, a, -, hpass, haccept⟩ | haccept
      · obtain ⟨hws, hanswer⟩ := c.consumes_of_run (.require w m) rfl
          (.bind (.bind haccept (.pure a ts)) (.pure _ ts))
        rw [hanswer]
        refine .inl ⟨t.value, rfl, hws, fun v hv => ?_⟩
        cases hv
        exact (eq_of_passing hpass).1
      · obtain ⟨hws, hanswer⟩ := c.consumes_of_run (.require w m) rfl
          (.breakOff _ (.bind haccept (.refuse _ c.left)))
        rw [hanswer]
        exact .inr ⟨rfl, hws⟩
  | hasNext wanted | peek | current | upcoming n | fail m | reset
  | read rule => cases h

/-- A request for a single token moves the cursor by one if it is granted
and not at all otherwise; the word that it is answered with is the one at
the cursor. -/
theorem ask_of_takesOne (hc : c.Within) (h : request.takesOne = true) :
    (c.ask request).2
        = (if granted (c.ask request).1 then ⟨c.tokens, c.taken + 1⟩ else c)
      ∧ ∀ v, (c.ask request).1 = .ok (.word v) →
        c.tokens[c.taken]?.map Token.value = some v := by
  have hreset := Request.ne_reset_of_takesOne h
  rcases c.consumes_of_takesOne h with ⟨w, hgranted, hws, hword⟩ | ⟨hnot, hws⟩
  · obtain ⟨hmoved, more, hmore⟩ := hws.ask_snd hc hreset
    rw [hgranted]
    refine ⟨hmoved, fun v hv => ?_⟩
    have hhead := congrArg List.head? hmore
    rw [List.head?_map, left, List.head?_drop] at hhead
    rw [hword v hv, ← hhead]
    rfl
  · obtain ⟨hmoved, -⟩ := hws.ask_snd hc hreset
    rw [hnot]
    refine ⟨hmoved, fun v hv => ?_⟩
    rw [hv] at hnot
    cases hnot

-- ========================================================== many requests

/-- Asks a cursor one thing after another, whatever it answers. -/
def askAll (c : Cursor) : List Request → List (Except Refusal Reply) × Cursor
  | [] => ([], c)
  | request :: more =>
    let rest := (c.ask request).2.askAll more
    ((c.ask request).1 :: rest.1, rest.2)

/-- The words that are consumed since the last reset, in order: those that
already are, and those that further requests consume. -/
inductive Consumed : Cursor → List Request → List String → List String → Prop
  | done (c : Cursor) (ws : List String) : Consumed c [] ws ws
  | reset {c : Cursor} {more : List Request} {ws vs : List String}
      (h : Consumed c.reset more [] vs) : Consumed c (.reset :: more) ws vs
  | ask {c : Cursor} {request : Request} {more : List Request}
      {ws us vs : List String} (hreset : request ≠ .reset)
      (hus : c.Consumes request us)
      (h : Consumed (c.ask request).2 more (ws ++ us) vs) :
      Consumed c (request :: more) ws vs

theorem askAll_append (c : Cursor) (history more : List Request) :
    c.askAll (history ++ more)
      = ((c.askAll history).1 ++ ((c.askAll history).2.askAll more).1,
        ((c.askAll history).2.askAll more).2) := by
  induction history generalizing c with
  | nil => rfl
  | cons request history ih =>
      rw [List.cons_append, askAll, ih]
      rfl

theorem askAll_reset (c : Cursor) (more : List Request) :
    c.askAll (.reset :: more)
      = (.ok .nothing :: (c.reset.askAll more).1, (c.reset.askAll more).2) :=
  rfl

theorem Within.askAll (hc : c.Within) (history : List Request) :
    (c.askAll history).2.tokens = c.tokens
      ∧ (c.askAll history).2.Within := by
  induction history generalizing c with
  | nil => exact ⟨rfl, hc⟩
  | cons request history ih =>
      obtain ⟨htokens, hwithin⟩ := hc.ask request
      obtain ⟨htokens', hwithin'⟩ := ih hwithin
      exact ⟨htokens'.trans htokens, hwithin'⟩

theorem exists_consumed (c : Cursor) (history : List Request)
    (ws : List String) : ∃ vs, Consumed c history ws vs := by
  induction history generalizing c ws with
  | nil => exact ⟨ws, .done c ws⟩
  | cons request history ih =>
      by_cases hreset : request = .reset
      · obtain ⟨vs, hvs⟩ := ih c.reset []
        rw [hreset]
        exact ⟨vs, .reset hvs⟩
      · obtain ⟨us, hus⟩ := c.exists_consumes request
        obtain ⟨vs, hvs⟩ := ih (c.ask request).2 (ws ++ us)
        exact ⟨vs, .ask hreset hus hvs⟩

/-- If the words consumed are those in front of the cursor, then they are so
after any requests. -/
theorem Consumed.words {history : List Request}
    (h : Consumed c history ws vs) (hc : c.Within)
    (hws : ws = (c.tokens.take c.taken).map Token.value) :
    vs = (c.tokens.take (c.askAll history).2.taken).map Token.value := by
  induction h with
  | done c ws => exact hws
  | reset h ih => exact ih (Nat.zero_le _) rfl
  | @ask c request more ws us vs hreset hus h ih =>
      obtain ⟨htokens, hwithin⟩ := hc.ask request
      rw [htokens] at ih
      refine ih hwithin ?_
      rw [hus.words hc hreset, hws]

/-- No token is lost or repeated by a cursor. After any requests, failed
ones included, the tokens are the same and the place is among them. Looking
ahead or complaining leaves the cursor where it is; taking one token moves
it by one exactly when it is granted, and answers with the word that stands
there. The words consumed since the last reset are those in front of the
cursor; and after a reset everything is answered as at the beginning. -/
theorem askAll_conserves (tokens : List Token) (history : List Request) :
    ∃ answers c, (ofTokens tokens).askAll history = (answers, c)
      ∧ c.tokens = tokens
      ∧ c.taken ≤ tokens.length
      ∧ (∀ request : Request, request.looks → (c.ask request).2 = c)
      ∧ (∀ request : Request, request.takesOne →
          (c.ask request).2
              = (if granted (c.ask request).1 then ⟨tokens, c.taken + 1⟩
                else c)
            ∧ ∀ w, (c.ask request).1 = .ok (.word w) →
              tokens[c.taken]?.map Token.value = some w)
      ∧ (∃ ws, Consumed (ofTokens tokens) history [] ws)
      ∧ (∀ ws, Consumed (ofTokens tokens) history [] ws →
          ws = (tokens.take c.taken).map Token.value)
      ∧ ∀ more, (ofTokens tokens).askAll (history ++ .reset :: more)
          = (answers ++ .ok .nothing :: ((ofTokens tokens).askAll more).1,
            ((ofTokens tokens).askAll more).2) := by
  have hfresh : (ofTokens tokens).Within := Nat.zero_le _
  obtain ⟨htokens, hwithin⟩ := hfresh.askAll history
  have htokens : ((ofTokens tokens).askAll history).2.tokens = tokens :=
    htokens
  refine ⟨_, _, rfl, htokens, ?_, fun request hlooks => ?_,
    fun request htakes => ?_, exists_consumed _ history [],
    fun ws hws => hws.words hfresh rfl, fun more => ?_⟩
  · have hle := hwithin
    unfold Within at hle
    rwa [htokens] at hle
  · have hreset := Request.ne_reset_of_looks hlooks
    exact ((consumes_of_looks _ hlooks).ask_snd hwithin hreset).1
  · have hone := ask_of_takesOne hwithin htakes
    rw [htokens] at hone
    exact hone
  · rw [askAll_append]
    have hback : ((ofTokens tokens).askAll history).2.reset
        = ofTokens tokens := congrArg (Cursor.mk · 0) htokens
    rw [askAll_reset, hback]

end Cursor

end RobotLang
