/-!
# `Tickscript.Table`: finite tables in order of arrival

Variables, sensors and devices are all kept in a table from keys to entries. A table remembers the
order in which its keys first arrived, since the messages of devices are shown in that order.
Setting a key that is present keeps its place.

`get?_set` says what a look-up finds after a key was set; nothing else is needed to reason about
the contents of a table. `keys_set` says what becomes of the keys. `set_set_self` and `set_comm`
also keep the order of arrival, so they are about the table as a whole.
-/

set_option autoImplicit false

namespace Tickscript

/-- A table, as its entries in the order in which the keys arrived. -/
structure Table (κ α : Type) where
  entries : List (κ × α) := []
deriving DecidableEq, Repr

namespace Table

variable {κ α : Type} [DecidableEq κ]

/-- The entry at a key. -/
def get? (t : Table κ α) (key : κ) : Option α :=
  t.entries.lookup key

/-- Sets a key in a list of entries, at its place or at the end. -/
def setIn (key : κ) (entry : α) : List (κ × α) → List (κ × α)
  | [] => [(key, entry)]
  | (k, e) :: rest => if k = key then (key, entry) :: rest else (k, e) :: setIn key entry rest

/-- Sets a key. -/
def set (t : Table κ α) (key : κ) (entry : α) : Table κ α :=
  ⟨setIn key entry t.entries⟩

/-- The keys, in order of arrival. -/
def keys (t : Table κ α) : List κ :=
  t.entries.map (·.1)

/-- Looking up after setting finds the new entry at its key and the old entries elsewhere. -/
theorem get?_set (t : Table κ α) (key k : κ) (entry : α) :
    (t.set key entry).get? k = if k = key then some entry else t.get? k := by
  obtain ⟨entries⟩ := t
  simp only [set, get?]
  induction entries with
  | nil =>
    by_cases h : k = key
    · simp [setIn, h]
    · simp [setIn, List.lookup_cons, h, beq_eq_false_iff_ne.mpr h]
  | cons head rest ih =>
    obtain ⟨j, e⟩ := head
    by_cases hj : j = key
    · subst hj
      by_cases h : k = j
      · simp [setIn, h]
      · simp [setIn, List.lookup_cons, h, beq_eq_false_iff_ne.mpr h]
    · by_cases h : k = j
      · subst h
        simp [setIn, hj]
      · simp only [setIn, hj, if_false, List.lookup_cons, beq_eq_false_iff_ne.mpr h]
        exact ih

/-- Of two entries set at the same key, only the last counts. -/
theorem set_set_self (t : Table κ α) (key : κ) (first last : α) :
    (t.set key first).set key last = t.set key last := by
  obtain ⟨entries⟩ := t
  simp only [set, mk.injEq]
  induction entries with
  | nil => simp [setIn]
  | cons head rest ih =>
    obtain ⟨k, e⟩ := head
    by_cases hk : k = key
    · simp [setIn, hk]
    · simp [setIn, hk, ih]

/-- Setting a key that is present and setting another key can be exchanged. A key that is not
present would arrive, before or after the other one. -/
theorem set_comm {t : Table κ α} {key other : κ} (present : key ∈ t.keys) (hne : other ≠ key)
    (entry otherEntry : α) :
    (t.set other otherEntry).set key entry = (t.set key entry).set other otherEntry := by
  obtain ⟨entries⟩ := t
  simp only [set, mk.injEq]
  simp only [keys] at present
  induction entries with
  | nil => simp at present
  | cons head rest ih =>
    obtain ⟨k, e⟩ := head
    by_cases hk : k = key
    · subst hk
      simp [setIn, hne.symm]
    · by_cases ho : k = other
      · subst ho
        simp [setIn, hk]
      · have tail : key ∈ rest.map (·.1) := by simpa [Ne.symm hk] using present
        simp [setIn, hk, ho, ih tail]

/-- Setting a key adds it to the keys if it is not there, and changes none of the others. -/
theorem map_fst_setIn (key : κ) (entry : α) (entries : List (κ × α)) :
    (setIn key entry entries).map (·.1) =
      if key ∈ entries.map (·.1) then entries.map (·.1) else entries.map (·.1) ++ [key] := by
  induction entries with
  | nil => rfl
  | cons head rest ih =>
    obtain ⟨k, e⟩ := head
    by_cases hk : k = key
    · simp [setIn, hk]
    · simp only [setIn, hk, if_false, List.map_cons, List.mem_cons, Ne.symm hk, false_or, ih]
      split
      · rfl
      · rw [List.cons_append]

/-- Setting a key that is present keeps the keys as they are, and one that is not present arrives
last. -/
theorem keys_set (t : Table κ α) (key : κ) (entry : α) :
    (t.set key entry).keys = if key ∈ t.keys then t.keys else t.keys ++ [key] :=
  map_fst_setIn key entry t.entries

/-- Setting a key makes it present and loses none. -/
theorem mem_keys_set {t : Table κ α} {key k : κ} (entry : α) (h : k = key ∨ k ∈ t.keys) :
    k ∈ (t.set key entry).keys := by
  rw [keys_set]
  split
  · rename_i present
    rcases h with rfl | h
    · exact present
    · exact h
  · rcases h with rfl | h
    · exact List.mem_append_right _ List.mem_cons_self
    · exact List.mem_append_left _ h

/-- Setting a key brings no other key. -/
theorem mem_keys_of_mem_set {t : Table κ α} {key k : κ} {entry : α}
    (h : k ∈ (t.set key entry).keys) :
    k = key ∨ k ∈ t.keys := by
  rw [keys_set] at h
  split at h
  · exact Or.inr h
  · exact (List.mem_append.mp h).symm.imp_left List.mem_singleton.mp

end Table

end Tickscript
