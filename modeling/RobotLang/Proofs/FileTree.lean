/-
What is in the files of a tree, path by path.

Storing something at a path changes the folders on the way there, so what
the shorter paths lead to is not the same as before. But what is in a file
does not depend on the folders above it. It is enough to say what a tree is
good for: which bytes there are at which path (`bytesAt`).

In these terms storing a file changes one path only, if no other file is in
the way (`Node.bytesAt_put_file`), and making folders changes none
(`FileTree.sameFiles_makeFolders`). That no file is in the way is what the
walks have found out. A walk keeps the trail that it has come, and where the
trail leads to is where its path leads to (`FileTree.Leads.find?_path`).
-/
import RobotLang.FileTree
import Mathlib.Data.List.Basic

namespace RobotLang

open Text

-- ================================================================= nodes

namespace Node

variable {n m new : Node} {p q : Path} {c : String} {bytes : Bytes}
  {inside : List (String × Node)}

/-- The content of a file. -/
def bytes? : Node → Option Bytes
  | file bytes => some bytes
  | folder _ => none

/-- The content of the file to which a path leads. -/
def bytesAt (n : Node) (p : Path) : Option Bytes := (n.find? p).bind bytes?

/-- No file is in the way to a path. -/
def Clear (n : Node) (p : Path) : Prop :=
  ∀ q, q <+: p → q ≠ p → n.bytesAt q = none

theorem bytesAt_folder_cons :
    (folder inside).bytesAt (c :: p)
      = (inside.lookup c).bind fun m => m.bytesAt p := by
  unfold bytesAt
  rw [find?, child?]
  cases inside.lookup c <;> rfl

theorem bytesAt_empty : empty.bytesAt p = none := by
  cases p <;> rfl

theorem find?_append (n : Node) (p q : Path) :
    n.find? (p ++ q) = (n.find? p).bind fun m => m.find? q := by
  induction p generalizing n with
  | nil => rfl
  | cons c p ih =>
      rw [List.cons_append, find?, find?]
      cases n.child? c with
      | none => rfl
      | some m => exact ih m

theorem bytesAt_append (n : Node) (p q : Path) :
    n.bytesAt (p ++ q) = (n.find? p).bind fun m => m.bytesAt q := by
  unfold bytesAt
  rw [find?_append, Option.bind_assoc]

-- ---------------------------------------------------------- in the way

theorem clear_of_find? (h : n.find? p = some m) : n.Clear p := by
  intro q hq hne
  obtain ⟨rest, rfl⟩ := hq
  cases rest with
  | nil => exact absurd (List.append_nil q).symm hne
  | cons c rest =>
      rw [find?_append] at h
      unfold bytesAt
      cases hfind : n.find? q with
      | none => rfl
      | some middle =>
          rw [hfind] at h
          cases middle with
          | file bytes => cases h
          | folder inside => rfl

/-- Nothing is in the way in a folder. -/
theorem clear_concat (h : n.find? p = some (folder inside)) (c : String) :
    n.Clear (p ++ [c]) := by
  intro q hq hne
  rcases List.prefix_concat_iff.1 hq with heq | hq
  · exact absurd heq hne
  · by_cases heq : q = p
    · unfold bytesAt
      rw [heq, h]
      rfl
    · exact clear_of_find? h q hq heq

theorem clear_empty : empty.Clear p := fun _ _ _ => bytesAt_empty

theorem not_clear_file : ¬ (file bytes).Clear (c :: p) := by
  intro h
  have hnil := h [] List.nil_prefix (List.cons_ne_nil c p).symm
  cases hnil

theorem Clear.below (h : (folder inside).Clear (c :: p)) :
    ((inside.lookup c).getD empty).Clear p := by
  cases hlookup : inside.lookup c with
  | none => exact clear_empty
  | some m =>
      intro q hq hne
      have hcons := h (c :: q) ((List.prefix_cons_inj c).2 hq)
        fun heq => hne (List.cons.inj heq).2
      rw [bytesAt_folder_cons, hlookup] at hcons
      exact hcons

-- -------------------------------------------------------------- storing

theorem bytesAt_below :
    ((inside.lookup c).getD empty).bytesAt p
      = (folder inside).bytesAt (c :: p) := by
  rw [bytesAt_folder_cons]
  cases inside.lookup c with
  | none => exact bytesAt_empty
  | some m => rfl

/-- What is not below a path stays when something is stored there. -/
theorem bytesAt_put_aside (h : ¬p <+: q) :
    (n.put p new).bytesAt q = n.bytesAt q := by
  induction p generalizing n q with
  | nil => exact absurd List.nil_prefix h
  | cons c p ih =>
      cases n with
      | file bytes => rfl
      | folder inside =>
          cases q with
          | nil => rfl
          | cons d q =>
              rw [put, bytesAt_folder_cons, Named.lookup_assign]
              by_cases hd : d = c
              · rw [if_pos hd, hd]
                rw [hd, List.prefix_cons_inj] at h
                show (Node.put _ p new).bytesAt q = _
                rw [ih h, bytesAt_below]
              · rw [if_neg hd, bytesAt_folder_cons]

/-- What is stored at a path is there if no file is in the way. -/
theorem bytesAt_put_append (h : n.Clear p) (q : Path) :
    (n.put p new).bytesAt (p ++ q) = new.bytesAt q := by
  induction p generalizing n with
  | nil => rfl
  | cons c p ih =>
      cases n with
      | file bytes => exact absurd h not_clear_file
      | folder inside =>
          rw [put, List.cons_append, bytesAt_folder_cons,
            Named.lookup_assign, if_pos rfl]
          exact ih h.below

/-- A file that is stored at a path is there, and nothing else changes, if
no file is in the way and nothing was below it. -/
theorem bytesAt_put_file (hclear : n.Clear p)
    (hleaf : ∀ d q, n.bytesAt (p ++ d :: q) = none) (q : Path) :
    (n.put p (file bytes)).bytesAt q
      = if q = p then some bytes else n.bytesAt q := by
  by_cases hprefix : p <+: q
  · obtain ⟨rest, rfl⟩ := hprefix
    rw [bytesAt_put_append hclear]
    cases rest with
    | nil =>
        rw [List.append_nil, if_pos rfl]
        rfl
    | cons d rest =>
        rw [if_neg (by simp), hleaf d rest]
        rfl
  · rw [bytesAt_put_aside hprefix, if_neg]
    intro hq
    exact hprefix (hq ▸ List.prefix_rfl)

/-- A new folder changes no file. -/
theorem bytesAt_put_empty (hclear : n.Clear p) (hnone : n.find? p = none)
    (q : Path) : (n.put p empty).bytesAt q = n.bytesAt q := by
  by_cases hprefix : p <+: q
  · obtain ⟨rest, rfl⟩ := hprefix
    rw [bytesAt_put_append hclear, bytesAt_empty, bytesAt_append, hnone]
    rfl
  · exact bytesAt_put_aside hprefix

end Node

namespace FileTree

variable {t t' t'' : FileTree} {trail trail' : Trail} {p q : Path}
  {c name : String} {cs : List String} {bytes : Bytes}

/-- The content of the file to which a path leads. -/
def bytesAt (t : FileTree) (p : Path) : Option Bytes := t.top.bytesAt p

/-- Bytes that are added to the end of a file come after those that are
there, and go to no other file. -/
theorem bytesAt_append (t : FileTree) (p : Path) (bytes : Bytes) (q : Path) :
    (t.append p bytes).bytesAt q
      = if q = p then (t.bytesAt p).map (· ++ bytes) else t.bytesAt q := by
  unfold append
  split
  · next old hfind =>
    have hfind : t.top.find? p = some (.file old) := hfind
    have hold : t.bytesAt p = some old := by
      unfold bytesAt Node.bytesAt
      rw [hfind]
      rfl
    rw [hold]
    refine Node.bytesAt_put_file (Node.clear_of_find? hfind) (fun d q => ?_) q
    rw [Node.bytesAt_append, hfind]
    rfl
  · next hno =>
    have hnone : t.bytesAt p = none := by
      unfold bytesAt Node.bytesAt
      cases hfind : t.top.find? p with
      | none => rfl
      | some n =>
          cases n with
          | file old => exact absurd hfind (hno old)
          | folder inside => rfl
    split
    · next hq => rw [hq, hnone]; rfl
    · rfl

theorem append_working (t : FileTree) (p : Path) (bytes : Bytes) :
    (t.append p bytes).working = t.working := by
  unfold append
  split <;> rfl

-- ================================================================= steps

theorem ok_of_bind {ε α β : Type} {x : Except ε α} {f : α → Except ε β}
    {b : β} (h : x >>= f = .ok b) : ∃ a, x = .ok a ∧ f a = .ok b := by
  cases x with
  | error e => cases h
  | ok a => exact ⟨a, rfl, h⟩

theorem ok_of_mapError {ε ε' α : Type} {x : Except ε α} {f : ε → ε'} {a : α}
    (h : x.mapError f = .ok a) : x = .ok a := by
  cases x with
  | error e => cases h
  | ok b =>
      cases h
      rfl

theorem get_bind {ε σ α : Type} (f : σ → EStateM ε σ α) (s : σ) :
    (get >>= f) s = f s s := rfl

-- ================================================================ trails

/-- A trail leads from the top through folders, one in the other. -/
inductive Leads (t : FileTree) : Trail → Prop
  | top : Leads t []
  | into {trail : Trail} {c : String} {n : Node} (h : Leads t trail)
      (hn : (t.reached trail).child? c = some n) : Leads t ((c, n) :: trail)

namespace Leads

theorem tail (h : t.Leads trail) : t.Leads trail.tail := by
  cases h with
  | top => exact .top
  | into h hn => exact h

/-- A trail leads to what its path leads to. -/
theorem find?_path (h : t.Leads trail) :
    t.top.find? trail.path = some (t.reached trail) := by
  induction h with
  | top => rfl
  | @into trail c n h hn ih =>
      show t.top.find? (List.map Prod.fst ((c, n) :: trail)).reverse = _
      rw [List.map_cons, List.reverse_cons, Node.find?_append]
      show (t.top.find? (Trail.path trail)).bind _ = _
      rw [ih]
      show (t.reached trail).find? [c] = some n
      rw [Node.find?, hn]
      rfl

end Leads

theorem leads_step (h : t.Leads trail) (hstep : t.step trail c = .ok trail') :
    t.Leads trail' := by
  unfold step at hstep
  cases hreached : t.reached trail with
  | file bytes =>
      rw [hreached] at hstep
      cases hstep
  | folder inside =>
      rw [hreached] at hstep
      dsimp only at hstep
      split at hstep
      · cases hstep
        exact h
      split at hstep
      · cases hstep
        exact h.tail
      split at hstep
      · cases hstep
      split at hstep
      · cases hstep
      · next n hlookup =>
        cases hstep
        refine .into h ?_
        rw [hreached]
        exact hlookup

theorem walk_cons (trail : Trail) (c : String) (cs : List String) :
    t.walk trail (c :: cs)
      = t.step trail c >>= fun trail => t.walk trail cs := List.foldlM_cons

theorem leads_walk (h : t.Leads trail) (hwalk : t.walk trail cs = .ok trail') :
    t.Leads trail' := by
  induction cs generalizing trail with
  | nil =>
      cases hwalk
      exact h
  | cons c cs ih =>
      rw [walk_cons] at hwalk
      obtain ⟨middle, hstep, hwalk⟩ := ok_of_bind hwalk
      exact ih (leads_step h hstep) hwalk

theorem leads_start (t : FileTree) (name : String) :
    t.Leads (t.start name) := by
  unfold start
  split
  · exact .top
  · split
    · next trail hwalk => exact leads_walk .top hwalk
    · exact .top

-- ======================================================= making folders

/-- The two trees have the same files, and names begin in the same
folder. -/
def SameFiles (t t' : FileTree) : Prop :=
  t'.working = t.working ∧ ∀ p, t'.bytesAt p = t.bytesAt p

theorem SameFiles.refl (t : FileTree) : t.SameFiles t := ⟨rfl, fun _ => rfl⟩

theorem SameFiles.trans (h : t.SameFiles t') (h' : t'.SameFiles t'') :
    t.SameFiles t'' :=
  ⟨h'.1.trans h.1, fun p => (h'.2 p).trans (h.2 p)⟩

theorem sameFiles_makeFolder (h : t.makeFolder name = .ok t') :
    t.SameFiles t' := by
  unfold makeFolder at h
  split at h
  · cases h
  obtain ⟨trail, hwalk, h⟩ := ok_of_bind h
  have hfind := (leads_walk (t.leads_start name) hwalk).find?_path
  cases hreached : t.reached trail with
  | file bytes =>
      rw [hreached] at h
      cases h
  | folder inside =>
      rw [hreached] at h hfind
      dsimp only at h
      split at h
      · cases h
      split at h
      · cases h
      split at h
      · cases h
      · next hnew =>
        cases h
        refine ⟨rfl, Node.bytesAt_put_empty (Node.clear_concat hfind _) ?_⟩
        rw [Node.find?_append, hfind]
        show (Node.folder inside).find? [_] = none
        rw [Node.find?, Node.child?, Option.not_isSome_iff_eq_none.1 hnew]

/-- The tree that is left by making folders. -/
def made {α : Type} : EStateM.Result FileFault FileTree α → FileTree
  | .ok _ t => t
  | .error _ t => t

/-- Whatever becomes of the making, the files are the same. -/
def KeepsFiles {α : Type} (making : EStateM FileFault FileTree α) : Prop :=
  ∀ t : FileTree, t.SameFiles (made (making t))

namespace KeepsFiles

variable {α β : Type} {x : EStateM FileFault FileTree α}
  {f : α → EStateM FileFault FileTree β}
  {handle : FileFault → EStateM FileFault FileTree α}

theorem pure (a : α) :
    KeepsFiles (Pure.pure a : EStateM FileFault FileTree α) := .refl

theorem throw (e : FileFault) :
    KeepsFiles (MonadExcept.throw e : EStateM FileFault FileTree α) := .refl

theorem bind (hx : KeepsFiles x) (hf : ∀ a, KeepsFiles (f a)) :
    KeepsFiles (x >>= f) := by
  intro t
  have ht := hx t
  show t.SameFiles (made (EStateM.bind x f t))
  unfold EStateM.bind
  cases hres : x t with
  | ok a t' =>
      rw [hres] at ht
      exact ht.trans (hf a t')
  | error e t' =>
      rw [hres] at ht
      exact ht

theorem tryCatch (hx : KeepsFiles x) (hhandle : ∀ e, KeepsFiles (handle e)) :
    KeepsFiles (tryCatchThe FileFault x handle) := by
  intro t
  have ht := hx t
  show t.SameFiles (made (EStateM.tryCatch x handle t))
  unfold EStateM.tryCatch
  dsimp only
  cases hres : x t with
  | ok a t' =>
      rw [hres] at ht
      exact ht
  | error e t' =>
      rw [hres] at ht
      exact ht.trans (hhandle e t')

theorem get : KeepsFiles (MonadState.get : EStateM FileFault FileTree _) :=
  .refl

theorem make (stage : String) : KeepsFiles (makeFolders.make stage) := by
  intro t
  unfold makeFolders.make
  split
  · exact .refl t
  · simp only [get_bind]
    cases hmade : t.makeFolder stage with
    | ok t' => exact sameFiles_makeFolder hmade
    | error d => exact .refl t

theorem way (stages : List String) : KeepsFiles (makeFolders.way stages) := by
  induction stages using makeFolders.way.induct with
  | case1 => exact .pure ()
  | case2 stage => exact .make stage
  | case3 stage before rest ih =>
      unfold makeFolders.way
      refine get.bind fun t => ?_
      split
      · exact .make stage
      refine (ih.tryCatch fun e => ?_).bind fun _ => ?_
      · split
        · exact .pure ()
        · exact .throw _
      · split
        · exact .make stage
        · exact .pure ()

end KeepsFiles

/-- Making folders changes no file, also if some of them cannot be made. -/
theorem sameFiles_makeFolders (t : FileTree) (name : String) :
    t.SameFiles (made (makeFolders name t)) :=
  KeepsFiles.way (PathName.stages name).reverse t

-- ========================================================= opening files

/-- A component that is the name of something, and neither stays in a folder
nor leads out of it. -/
def IsName (c : String) : Prop := PathName.stays c = false ∧ c ≠ ".."

/-- The working folder is given by names. -/
def Settled (t : FileTree) : Prop := ∀ c ∈ t.working, IsName c

theorem SameFiles.settled (h : t.SameFiles t') (ht : t.Settled) :
    t'.Settled := by
  unfold Settled
  rw [h.1]
  exact ht

theorem SameFiles.resolve (h : t.SameFiles t') (name : String) :
    t'.resolve name = t.resolve name := by
  unfold FileTree.resolve
  rw [h.1]

theorem path_step (hc : IsName c) (h : t.step trail c = .ok trail') :
    trail'.path = trail.path ++ [c] := by
  unfold step at h
  split at h
  · cases h
  · rw [hc.1, if_neg Bool.false_ne_true, if_neg hc.2] at h
    split at h
    · cases h
    split at h
    · cases h
    · cases h
      exact List.reverse_cons

/-- A walk by names leads along them. -/
theorem path_walk (hcs : ∀ c ∈ cs, IsName c)
    (h : t.walk trail cs = .ok trail') : trail'.path = trail.path ++ cs := by
  induction cs generalizing trail with
  | nil =>
      cases h
      exact (List.append_nil _).symm
  | cons c cs ih =>
      rw [walk_cons] at h
      obtain ⟨middle, hstep, hwalk⟩ := ok_of_bind h
      rw [ih (fun d hd => hcs d (List.mem_cons_of_mem c hd)) hwalk,
        path_step (hcs c List.mem_cons_self) hstep, List.append_assoc]
      rfl

theorem isName_follow {p : Path} (hp : ∀ d ∈ p, IsName d) (c : String) :
    ∀ d ∈ resolve.follow p c, IsName d := by
  intro d hd
  unfold resolve.follow at hd
  split at hd
  · exact hp d hd
  · next hstays =>
    split at hd
    · exact hp d (List.dropLast_subset p hd)
    · next hdots =>
      rcases List.mem_append.1 hd with hd | hd
      · exact hp d hd
      · rw [List.mem_singleton.1 hd]
        exact ⟨eq_false_of_ne_true hstays, hdots⟩

/-- A name is resolved to a path of names. -/
theorem isName_resolve (ht : t.Settled) (name : String) :
    ∀ c ∈ t.resolve name, IsName c := by
  unfold resolve
  refine List.foldlRecOn (motive := fun p => ∀ c ∈ p, IsName c) _ _ ?_
    fun p hp c _ => isName_follow hp c
  split
  · exact fun c hc => absurd hc List.not_mem_nil
  · exact ht

/-- A file is opened in a folder to which its path leads, and is stored there
if nothing is. -/
theorem openFile_cases (h : t.openFile name = .ok (p, t')) :
    p = t.resolve name
      ∧ (∃ trail inside, t.walk [] p.dropLast = .ok trail
        ∧ t.reached trail = .folder inside)
      ∧ ((∃ old, t.top.find? p = some (.file old)) ∧ t' = t
        ∨ t.top.find? p = none ∧ t' = t.put p (.file [])) := by
  unfold openFile at h
  dsimp only at h
  split at h
  · cases h
  have h := ok_of_mapError h
  split at h
  · cases h
  obtain ⟨trail, hwalk, h⟩ := ok_of_bind h
  cases hreached : t.reached trail with
  | file bytes =>
      rw [hreached] at h
      cases h
  | folder inside =>
      rw [hreached] at h
      dsimp only at h
      split at h
      · cases h
      cases hfind : t.find? (t.resolve name) with
      | none =>
          rw [hfind] at h
          cases h
          exact ⟨rfl, ⟨trail, inside, hwalk, hreached⟩, .inr ⟨hfind, rfl⟩⟩
      | some n =>
          rw [hfind] at h
          cases n with
          | folder inside => cases h
          | file old =>
              cases h
              exact ⟨rfl, ⟨trail, inside, hwalk, hreached⟩,
                .inl ⟨⟨old, hfind⟩, rfl⟩⟩

/-- No file is in the way to a file that is opened. -/
theorem clear_of_walk {trail : Trail} {inside : List (String × Node)}
    (hp : ∀ c ∈ p, IsName c) (hwalk : t.walk [] p.dropLast = .ok trail)
    (hreached : t.reached trail = .folder inside) : t.top.Clear p := by
  by_cases hnil : p = []
  · rw [hnil]
    intro q hq hne
    exact absurd (List.prefix_nil.1 hq) hne
  · have hpath := path_walk (fun c hc => hp c (List.dropLast_subset p hc)) hwalk
    have hfind := (leads_walk .top hwalk).find?_path
    rw [hpath, hreached] at hfind
    rw [← List.dropLast_concat_getLast hnil]
    exact Node.clear_concat hfind _

/-- A file that is opened is there, with what was in it or with nothing; and
the other files are the same. -/
theorem openFile_ok (ht : t.Settled) (h : t.openFile name = .ok (p, t')) :
    p = t.resolve name ∧ t'.working = t.working
      ∧ ∀ q, t'.bytesAt q
        = if q = p then some ((t.bytesAt p).getD []) else t.bytesAt q := by
  obtain ⟨hp, ⟨trail, inside, hwalk, hreached⟩, hstored⟩ := openFile_cases h
  rcases hstored with ⟨⟨old, hfind⟩, rfl⟩ | ⟨hfind, rfl⟩
  · refine ⟨hp, rfl, fun q => ?_⟩
    have hold : t'.bytesAt p = some old := by
      unfold bytesAt Node.bytesAt
      rw [hfind]
      rfl
    split
    · next hq => rw [hq, hold]; rfl
    · rfl
  · have hclear := clear_of_walk (hp ▸ isName_resolve ht name) hwalk hreached
    have hnone (rest : Path) : t.top.bytesAt (p ++ rest) = none := by
      rw [Node.bytesAt_append, hfind]
      rfl
    have hempty : t.bytesAt p = none := by
      have hat := hnone []
      rwa [List.append_nil] at hat
    rw [hempty]
    exact ⟨hp, rfl,
      Node.bytesAt_put_file hclear fun d rest => hnone (d :: rest)⟩

end FileTree

end RobotLang
