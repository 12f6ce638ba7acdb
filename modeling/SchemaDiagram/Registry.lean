/-
# Registries

A registry is a map from names to values that remembers in which order the names were first
entered.  A new name goes to the end; a name that is present keeps its place and takes the new
value.

* `Registry.insert`, `Registry.ofList` : entering values;
* `Registry.get?`, `Registry.keys` : the two views;
* `Registry.map`, `Registry.filterMap` : new values, or some of them, in the same order.

Main statements: `Registry.get?_insert` and `Registry.keys_insert`.
-/

namespace SchemaDiagram

/-- A map from names to values, in order of first entry.  The names are strings unless another type
`κ` is given for them. -/
structure Registry (α : Type) (κ : Type := String) where
  entries : List (κ × α)
  nodup_keys : (entries.map Prod.fst).Nodup

namespace Registry

variable {α β κ : Type}

@[ext] theorem ext {r s : Registry α κ} (h : r.entries = s.entries) : r = s := by
  cases r; cases s; simp_all

/-- The registry without entries. -/
def empty : Registry α κ := ⟨[], by simp⟩

instance : EmptyCollection (Registry α κ) := ⟨empty⟩

instance [DecidableEq α] [DecidableEq κ] : DecidableEq (Registry α κ) := fun r s =>
  decidable_of_iff (r.entries = s.entries) ⟨ext, congrArg _⟩

/-- The names, in order of first entry. -/
def keys (r : Registry α κ) : List κ := r.entries.map Prod.fst

/-- The values, in the order of their names. -/
def values (r : Registry α κ) : List α := r.entries.map Prod.snd

/-- How many names are entered. -/
def size (r : Registry α κ) : Nat := r.entries.length

variable [DecidableEq κ]

/-- The value of a name. -/
def get? (r : Registry α κ) (key : κ) : Option α := r.entries.lookup key

/-- Whether a name is entered. -/
def contains (r : Registry α κ) (key : κ) : Bool := (r.get? key).isSome

/-! ## Entering values -/

/-- Replaces the value of a name in a list of entries, or adds an entry at its end. -/
def put (key : κ) (value : α) : List (κ × α) → List (κ × α)
  | [] => [(key, value)]
  | (k, v) :: rest => if k = key then (k, value) :: rest else (k, v) :: put key value rest

theorem map_fst_put (key : κ) (value : α) (entries : List (κ × α)) :
    (put key value entries).map Prod.fst =
      if key ∈ entries.map Prod.fst then entries.map Prod.fst
      else entries.map Prod.fst ++ [key] := by
  induction entries with
  | nil => simp [put]
  | cons e rest ih =>
    obtain ⟨k, v⟩ := e
    by_cases h : k = key
    · simp [put, h]
    · have h' : ¬ key = k := fun e => h e.symm
      by_cases hm : key ∈ rest.map Prod.fst
      · rw [if_pos hm] at ih
        simp only [put, if_neg h, List.map_cons, ih, List.mem_cons, hm, or_true, if_true]
      · rw [if_neg hm] at ih
        simp only [put, if_neg h, List.map_cons, ih, List.mem_cons, hm, or_false, h', if_false,
          List.cons_append]

/-- Gives a name a value. -/
def insert (r : Registry α κ) (key : κ) (value : α) : Registry α κ where
  entries := put key value r.entries
  nodup_keys := by
    rw [map_fst_put]
    split
    · exact r.nodup_keys
    · next h =>
      refine List.nodup_append.2 ⟨r.nodup_keys, by simp, ?_⟩
      intro a ha b hb
      rw [List.mem_singleton] at hb
      exact fun e => h (hb ▸ e ▸ ha)

/-- Enters values one after another. -/
def ofList (entries : List (κ × α)) : Registry α κ :=
  entries.foldl (fun r e => r.insert e.1 e.2) empty

theorem keys_insert (r : Registry α κ) (key : κ) (value : α) :
    (r.insert key value).keys = if key ∈ r.keys then r.keys else r.keys ++ [key] :=
  map_fst_put key value r.entries

theorem lookup_put (key : κ) (value : α) (entries : List (κ × α)) (other : κ) :
    (put key value entries).lookup other =
      if other = key then some value else entries.lookup other := by
  induction entries with
  | nil =>
    by_cases h : other = key
    · simp [put, h]
    · simp [put, List.lookup_cons, h, beq_eq_false_iff_ne.2 h]
  | cons e rest ih =>
    obtain ⟨k, v⟩ := e
    by_cases h : k = key
    · by_cases ho : other = key
      · simp [put, h, ho]
      · simp [put, List.lookup_cons, h, ho, beq_eq_false_iff_ne.2 ho]
    · by_cases ho : other = k
      · subst ho
        simp [put, h]
      · simp [put, List.lookup_cons, h, beq_eq_false_iff_ne.2 ho, ih]

/-- The name just entered has its value, and no other name's value has changed. -/
theorem get?_insert (r : Registry α κ) (key : κ) (value : α) (other : κ) :
    (r.insert key value).get? other = if other = key then some value else r.get? other :=
  lookup_put key value r.entries other

/-! ## New values -/

omit [DecidableEq κ]

/-- A new value for every name. -/
def map (r : Registry α κ) (f : κ → α → β) : Registry β κ where
  entries := r.entries.map fun e => (e.1, f e.1 e.2)
  nodup_keys := by
    have h := r.nodup_keys
    simpa [List.map_map, Function.comp_def] using h

/-- New values for some names; the others are left out. -/
def filterMap (r : Registry α κ) (f : κ → α → Option β) : Registry β κ where
  entries := r.entries.filterMap fun e => (f e.1 e.2).map fun v => (e.1, v)
  nodup_keys := by
    refine List.Nodup.sublist ?_ r.nodup_keys
    induction r.entries with
    | nil => simp
    | cons e rest ih =>
      simp only [List.filterMap_cons, List.map_cons]
      cases f e.1 e.2 with
      | none => exact ih.cons _
      | some v => exact ih.cons_cons _

end Registry

end SchemaDiagram
