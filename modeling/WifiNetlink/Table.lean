/-!
# Tables

A table gives at most one value to a key. Its entries are kept in a list, the one made last first.
Main statements: what a key has after an entry is made or taken out.
-/

namespace WifiNetlink

/-- A table from keys to values, each key once. -/
abbrev Table (κ α : Type) := List (κ × α)

namespace Table

variable {κ α : Type} [DecidableEq κ]

/-- The value of a key. -/
def get? (t : Table κ α) (key : κ) : Option α := List.lookup key t

/-- Whether a key has a value. -/
def contains (t : Table κ α) (key : κ) : Bool := (t.get? key).isSome

/-- The table without an entry for a key. -/
def erase (t : Table κ α) (key : κ) : Table κ α := t.filter fun entry ↦ entry.1 != key

/-- The table with an entry for a key in place of the one it had. -/
def insert (t : Table κ α) (key : κ) (value : α) : Table κ α := (key, value) :: t.erase key

/-- The keys that have a value. -/
def keys (t : Table κ α) : List κ := t.map Prod.fst

@[simp] theorem get?_nil (key : κ) : get? ([] : Table κ α) key = none := rfl

theorem mem_of_get? {t : Table κ α} {key : κ} {value : α} (h : t.get? key = some value) :
    (key, value) ∈ t := by
  obtain ⟨before, after, rfl, -⟩ := List.lookup_eq_some_iff.mp h
  exact List.mem_append_right before List.mem_cons_self

theorem get?_filter (t : Table κ α) (p : κ → Bool) (key : κ) :
    get? (t.filter fun entry ↦ p entry.1) key = if p key then t.get? key else none := by
  induction t with
  | nil => simp [get?]
  | cons entry t ih =>
    obtain ⟨k, value⟩ := entry
    simp only [get?] at ih ⊢
    by_cases hk : p k = true
    · rw [List.filter_cons_of_pos (by simpa using hk)]
      by_cases h : key = k
      · simp [h, hk]
      · simp [List.lookup_cons, beq_false_of_ne h, ih]
    · rw [List.filter_cons_of_neg (by simpa using hk), ih]
      by_cases h : key = k
      · simp [h, hk]
      · simp [List.lookup_cons, beq_false_of_ne h]

theorem get?_erase (t : Table κ α) (key other : κ) :
    (t.erase other).get? key = if key = other then none else t.get? key := by
  rw [erase, get?_filter t (· != other)]
  by_cases h : key = other
  · simp [h]
  · simp [h]

theorem get?_insert (t : Table κ α) (key other : κ) (value : α) :
    (t.insert other value).get? key = if key = other then some value else t.get? key := by
  by_cases h : key = other
  · simp [get?, insert, h]
  · have he := get?_erase t key other
    simp only [get?, h, if_false] at he ⊢
    simp [insert, List.lookup_cons, beq_false_of_ne h, he]

theorem mem_keys_iff (t : Table κ α) (key : κ) : key ∈ t.keys ↔ t.contains key = true := by
  induction t with
  | nil => simp [keys, contains]
  | cons entry t ih =>
    obtain ⟨k, value⟩ := entry
    simp only [keys, contains, get?] at ih ⊢
    by_cases h : key = k
    · simp [h]
    · simp [List.lookup_cons, beq_false_of_ne h, h, ih]

end Table

end WifiNetlink
