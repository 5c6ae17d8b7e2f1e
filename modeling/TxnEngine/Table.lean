/-!
# Finite tables

A table holds at most one value per key, in the order in which the keys first came.

Main statements: `find?_insert_self`, `find?_insert_of_ne`, `find?_erase_self`,
`find?_erase_of_ne`, what a change does to every look-up.
-/

namespace TxnEngine

/-- Pairs of a key and its value, each key once. -/
abbrev Table (κ ν : Type) := List (κ × ν)

namespace Table

variable {κ ν : Type} [DecidableEq κ]

/-- The value at a key. -/
def find? : Table κ ν → κ → Option ν
  | [], _ => none
  | (k, v) :: rest, key => if k = key then some v else find? rest key

/-- Whether the key has a value. -/
def has (t : Table κ ν) (key : κ) : Bool :=
  (t.find? key).isSome

/-- Sets the value at a key; a new key goes to the end. -/
def insert : Table κ ν → κ → ν → Table κ ν
  | [], key, value => [(key, value)]
  | (k, v) :: rest, key, value =>
    if k = key then (k, value) :: rest else (k, v) :: insert rest key value

/-- Removes a key. -/
def erase : Table κ ν → κ → Table κ ν
  | [], _ => []
  | (k, v) :: rest, key => if k = key then erase rest key else (k, v) :: erase rest key

/-- The value at a key, or what stands for a missing one. -/
def findD (t : Table κ ν) (key : κ) (default : ν) : ν :=
  (t.find? key).getD default

theorem find?_insert_self (t : Table κ ν) (key : κ) (value : ν) :
    (t.insert key value).find? key = some value := by
  induction t with
  | nil => simp [insert, find?]
  | cons p rest ih =>
    obtain ⟨k, v⟩ := p
    by_cases h : k = key <;> simp [insert, find?, h, ih]

theorem find?_insert_of_ne (t : Table κ ν) {key other : κ} (value : ν) (h : key ≠ other) :
    (t.insert key value).find? other = t.find? other := by
  induction t with
  | nil => simp [insert, find?, h]
  | cons p rest ih =>
    obtain ⟨k, v⟩ := p
    by_cases hk : k = key
    · subst hk
      simp [insert, find?, h]
    · simp [insert, find?, hk, ih]

theorem find?_erase_self (t : Table κ ν) (key : κ) : (t.erase key).find? key = none := by
  induction t with
  | nil => rfl
  | cons p rest ih =>
    obtain ⟨k, v⟩ := p
    by_cases h : k = key <;> simp [erase, find?, h, ih]

theorem find?_erase_of_ne (t : Table κ ν) {key other : κ} (h : key ≠ other) :
    (t.erase key).find? other = t.find? other := by
  induction t with
  | nil => rfl
  | cons p rest ih =>
    obtain ⟨k, v⟩ := p
    by_cases hk : k = key
    · subst hk
      simp [erase, find?, h, ih]
    · simp [erase, find?, hk, ih]

end Table

end TxnEngine
