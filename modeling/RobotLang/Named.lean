/-
Named values: a list in which each name has one value, in the order in
which the names first came. A name that is given a new value keeps its
place.
-/
namespace RobotLang

/-- Values by their names. -/
abbrev Named (α : Type) := List (String × α)

namespace Named

variable {α : Type}

/-- The values with that of a name set. -/
def assign (name : String) (value : α) : Named α → Named α
  | [] => [(name, value)]
  | v :: vs =>
    if v.1 = name then (name, value) :: vs else v :: assign name value vs

theorem lookup_cons (name : String) (v : String × α) (vs : Named α) :
    List.lookup name (v :: vs)
      = if name = v.1 then some v.2 else List.lookup name vs := by
  obtain ⟨first, value⟩ := v
  by_cases h : name = first
  · simp [h]
  · simp [List.lookup_cons, h, beq_false_of_ne h]

/-- Setting the value of a name changes what is found under that name and
under no other. -/
theorem lookup_assign (name other : String) (value : α) (vs : Named α) :
    List.lookup other (assign name value vs)
      = if other = name then some value else List.lookup other vs := by
  induction vs with
  | nil => simp [assign, lookup_cons]
  | cons v vs ih =>
    rw [assign]
    split
    · next h => simp only [lookup_cons, h]; split <;> rfl
    · next h =>
      rw [lookup_cons, lookup_cons, ih]
      split <;> split <;> simp_all

end Named

end RobotLang
