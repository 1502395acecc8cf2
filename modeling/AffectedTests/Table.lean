/-!
# Tables

A table is a list of entries with one entry per key, in the order in which the keys were first entered.
Writing to a key that is present keeps its place.
-/

namespace AffectedTests

/-- Entries in the order in which their keys were first entered. -/
abbrev Table (κ α : Type) := List (κ × α)

namespace Table

variable {κ α : Type} [DecidableEq κ]

/-- The value at a key. -/
def get? (key : κ) : Table κ α → Option α
  | [] => none
  | (k, a) :: rest => if k = key then some a else get? key rest

/-- Writes a value at a key: in place when the key is present, at the end when it is new. -/
def put (key : κ) (value : α) : Table κ α → Table κ α
  | [] => [(key, value)]
  | (k, a) :: rest => if k = key then (k, value) :: rest else (k, a) :: put key value rest

/-- Removes a key. -/
def erase (key : κ) (t : Table κ α) : Table κ α :=
  t.filter fun entry => entry.1 ≠ key

def has (key : κ) (t : Table κ α) : Bool :=
  (get? key t).isSome

theorem get?_put (key key' : κ) (value : α) (t : Table κ α) :
    get? key' (put key value t) = if key = key' then some value else get? key' t := by
  induction t with
  | nil => simp [put, get?]
  | cons entry rest ih =>
    obtain ⟨k, a⟩ := entry
    simp only [put]
    by_cases hk : k = key
    · subst hk
      by_cases hk' : k = key' <;> simp [get?, hk']
    · by_cases hk' : k = key'
      · subst hk'
        have hne : ¬ key = k := fun h => hk h.symm
        simp [get?, hk, hne]
      · simp [get?, hk, hk', ih]

theorem get?_erase (key key' : κ) (t : Table κ α) :
    get? key' (erase key t) = if key = key' then none else get? key' t := by
  induction t with
  | nil => simp [erase, get?]
  | cons entry rest ih =>
    obtain ⟨k, a⟩ := entry
    have cons : erase key ((k, a) :: rest) =
        if k = key then erase key rest else (k, a) :: erase key rest := by
      by_cases hk : k = key <;> simp [erase, hk]
    rw [cons]
    by_cases hk : k = key
    · subst hk
      rw [if_pos rfl, ih]
      by_cases hk' : k = key' <;> simp [get?, hk']
    · by_cases hk' : k = key'
      · subst hk'
        have hne : ¬ key = k := fun h => hk h.symm
        simp [get?, hk, hne]
      · simp [get?, hk, hk', ih]

end Table

end AffectedTests
