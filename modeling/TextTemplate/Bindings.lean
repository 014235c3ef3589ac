/-!
# Bindings of names

A finite map from names to things, kept as a list in the order of the names. Names are ordered by
their characters, which is the order of their bytes in UTF-8. A name occurs once: a new binding
replaces the old one.

The view of a map is `Bindings.find?`; `find?_insert_self` and `find?_insert_of_ne` say what a new
binding does to it, `find?_erase_self` and `find?_erase_of_ne` what forgetting a name does.
-/

namespace TextTemplate

/-- Names with what they are bound to. -/
abbrev Bindings (α : Type) := List (String × α)

namespace Bindings

variable {α : Type}

/-- What a name is bound to. -/
def find? (name : String) : Bindings α → Option α
  | [] => none
  | (other, a) :: rest => if name = other then some a else find? name rest

/-- Whether a name is bound. -/
def contains (bindings : Bindings α) (name : String) : Bool :=
  (bindings.find? name).isSome

/-- Binds a name, in place of what it was bound to. -/
def insert (name : String) (a : α) : Bindings α → Bindings α
  | [] => [(name, a)]
  | (other, b) :: rest =>
    if name = other then (name, a) :: rest
    else if name < other then (name, a) :: (other, b) :: rest
    else (other, b) :: insert name a rest

/-- Forgets a name. -/
def erase (name : String) : Bindings α → Bindings α
  | [] => []
  | (other, b) :: rest =>
    if name = other then erase name rest else (other, b) :: erase name rest

/-- The bindings of a list of pairs, a later pair replacing an earlier one of the same name. -/
def ofPairs (pairs : List (String × α)) : Bindings α :=
  pairs.foldl (fun bindings (name, a) => insert name a bindings) []

/-- The names in order. -/
def names (bindings : Bindings α) : List String :=
  bindings.map Prod.fst

@[simp] theorem find?_nil (name : String) : find? name ([] : Bindings α) = none := rfl

theorem find?_cons (name other : String) (a : α) (rest : Bindings α) :
    find? name ((other, a) :: rest) = if name = other then some a else find? name rest := rfl

@[simp] theorem find?_insert_self (name : String) (a : α) (bindings : Bindings α) :
    find? name (insert name a bindings) = some a := by
  induction bindings with
  | nil => simp [insert, find?_cons]
  | cons entry rest ih =>
    obtain ⟨other, b⟩ := entry
    rw [insert]
    split
    · simp [find?_cons]
    · split
      · simp [find?_cons]
      · rename_i h _
        rw [find?_cons, if_neg h, ih]

theorem find?_insert_of_ne {name other : String} (h : other ≠ name) (a : α)
    (bindings : Bindings α) :
    find? other (insert name a bindings) = find? other bindings := by
  induction bindings with
  | nil => simp [insert, find?_cons, h]
  | cons entry rest ih =>
    obtain ⟨third, b⟩ := entry
    rw [insert]
    split
    · rename_i hsame
      subst hsame
      rw [find?_cons, find?_cons, if_neg h, if_neg h]
    · split
      · rw [find?_cons, if_neg h]
      · rw [find?_cons, find?_cons, ih]

@[simp] theorem find?_erase_self (name : String) (bindings : Bindings α) :
    find? name (erase name bindings) = none := by
  induction bindings with
  | nil => rfl
  | cons entry rest ih =>
    obtain ⟨other, b⟩ := entry
    rw [erase]
    split
    · exact ih
    · rename_i h
      rw [find?_cons, if_neg h, ih]

theorem find?_erase_of_ne {name other : String} (h : other ≠ name) (bindings : Bindings α) :
    find? other (erase name bindings) = find? other bindings := by
  induction bindings with
  | nil => rfl
  | cons entry rest ih =>
    obtain ⟨third, b⟩ := entry
    rw [erase]
    split
    · rename_i hsame
      subst hsame
      rw [ih, find?_cons, if_neg h]
    · rw [find?_cons, find?_cons, ih]

end Bindings

end TextTemplate
