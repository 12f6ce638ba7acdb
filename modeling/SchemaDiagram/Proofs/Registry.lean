/-
# Looking up and entering names

What the two views of a registry, `Registry.get?` and `Registry.keys`, say about one another, and
how they change when values are mapped, left out or entered one after another.

* `Registry.mem_entries_iff` : an entry is a name with its value;
* `Registry.ext_of_keys` : a registry is given by its names and their values;
* `Registry.perm_entries_iff` : and by its values alone, but for the order;
* `Registry.get?_map`, `Registry.get?_filterMap` : new values are found under the old names;
* `Registry.append`, `Registry.restrict` : two registries one after the other, and a part of one;
* `Registry.entries_ofList` : values entered under different names are kept as they are;
* `Registry.keys_ofList_append`, `Registry.get?_ofList_append` : what is entered later goes behind
  and counts;
* `Registry.keys_ofList`, `Registry.get?_ofList_eq_some_iff` : the names in the order in which they
  first appear, and the last value of each.
-/
import Mathlib.Data.List.Induction
import Mathlib.Data.List.Nodup
import Mathlib.Data.List.Perm.Subperm
import SchemaDiagram.Registry

namespace SchemaDiagram

namespace Registry

variable {α β κ : Type} [DecidableEq κ]

/-! ## Entries, names and values -/

/-- A name that no entry has is not found. -/
theorem lookup_eq_none_of_not_mem {entries : List (κ × α)} {key : κ}
    (h : key ∉ entries.map Prod.fst) : entries.lookup key = none := by
  rw [List.lookup_eq_none_iff]
  intro e he
  exact bne_iff_ne.2 fun heq => h (List.mem_map.2 ⟨e, he, heq.symm⟩)

/-- Among entries of different names, looking up a name finds its entry. -/
theorem lookup_eq_some_iff {entries : List (κ × α)} (hnd : (entries.map Prod.fst).Nodup)
    (key : κ) (value : α) : entries.lookup key = some value ↔ (key, value) ∈ entries := by
  induction entries with
  | nil => simp
  | cons e rest ih =>
    obtain ⟨k, v⟩ := e
    rw [List.map_cons, List.nodup_cons] at hnd
    obtain ⟨hk, hrest⟩ := hnd
    rw [List.lookup_cons, List.mem_cons, ← ih hrest]
    by_cases h : key = k
    · subst h
      -- the first entry has the name, so no later one has it
      have hnone : rest.lookup key ≠ some value := fun hv =>
        hk (List.mem_map.2 ⟨(key, value), (ih hrest).1 hv, rfl⟩)
      rw [beq_self_eq_true]
      constructor
      · intro hv
        exact Or.inl (by rw [Option.some.inj hv])
      · rintro (hv | hv)
        · rw [(Prod.mk.inj hv).2]
        · exact absurd hv hnone
    · rw [beq_eq_false_iff_ne.2 h]
      constructor
      · exact Or.inr
      · rintro (hv | hv)
        · exact absurd (Prod.mk.inj hv).1 h
        · exact hv

/-- The entries of a registry are its names with their values. -/
theorem mem_entries_iff (r : Registry α κ) (key : κ) (value : α) :
    (key, value) ∈ r.entries ↔ r.get? key = some value :=
  (lookup_eq_some_iff r.nodup_keys key value).symm

theorem mem_keys_iff (r : Registry α κ) (key : κ) :
    key ∈ r.keys ↔ ∃ value, r.get? key = some value := by
  rw [keys, List.mem_map]
  constructor
  · rintro ⟨⟨k, v⟩, he, rfl⟩
    exact ⟨v, (mem_entries_iff r k v).1 he⟩
  · rintro ⟨v, hv⟩
    exact ⟨(key, v), (mem_entries_iff r key v).2 hv, rfl⟩

theorem mem_values_iff (r : Registry α κ) (value : α) :
    value ∈ r.values ↔ ∃ key, r.get? key = some value := by
  rw [values, List.mem_map]
  constructor
  · rintro ⟨⟨k, v⟩, he, rfl⟩
    exact ⟨k, (mem_entries_iff r k v).1 he⟩
  · rintro ⟨k, hk⟩
    exact ⟨(k, value), (mem_entries_iff r k value).2 hk, rfl⟩

theorem get?_eq_none_iff (r : Registry α κ) (key : κ) : r.get? key = none ↔ key ∉ r.keys := by
  rw [mem_keys_iff, Option.eq_none_iff_forall_ne_some, not_exists]

theorem contains_eq_false_iff (r : Registry α κ) (key : κ) :
    r.contains key = false ↔ r.get? key = none := by
  rw [contains, Option.isSome_eq_false_iff, Option.isNone_iff_eq_none]

@[simp] theorem get?_empty (key : κ) : (empty : Registry α κ).get? key = none := rfl

/-! ## New values -/

/-- Looking up a name among mapped entries. -/
theorem lookup_map (entries : List (κ × α)) (f : κ → α → β) (key : κ) :
    (entries.map fun e => (e.1, f e.1 e.2)).lookup key = (entries.lookup key).map (f key) := by
  induction entries with
  | nil => rfl
  | cons e rest ih =>
    obtain ⟨k, v⟩ := e
    rw [List.map_cons, List.lookup_cons, List.lookup_cons]
    by_cases h : key = k
    · subst h
      rw [beq_self_eq_true]
      rfl
    · rw [beq_eq_false_iff_ne.2 h]
      exact ih

/-- A name has the new value that its old one gives. -/
theorem get?_map (r : Registry α κ) (f : κ → α → β) (key : κ) :
    (r.map f).get? key = (r.get? key).map (f key) :=
  lookup_map r.entries f key

/-- Looking up a name among the entries that are kept. -/
theorem lookup_filterMap {entries : List (κ × α)} (hnd : (entries.map Prod.fst).Nodup)
    (f : κ → α → Option β) (key : κ) :
    (entries.filterMap fun e => (f e.1 e.2).map fun v => (e.1, v)).lookup key =
      (entries.lookup key).bind (f key) := by
  induction entries with
  | nil => rfl
  | cons e rest ih =>
    obtain ⟨k, v⟩ := e
    rw [List.map_cons, List.nodup_cons] at hnd
    obtain ⟨hk, hrest⟩ := hnd
    rw [List.filterMap_cons, List.lookup_cons]
    by_cases h : key = k
    · subst h
      -- if the first entry is left out, no later one stands in for it
      have hnone : rest.lookup key = none := lookup_eq_none_of_not_mem hk
      rw [beq_self_eq_true]
      cases hf : f key v with
      | none =>
        simp only [Option.map_none, Option.bind_some, hf]
        rw [ih hrest, hnone]
        rfl
      | some u => simp only [Option.map_some, Option.bind_some, hf, List.lookup_cons_self]
    · rw [beq_eq_false_iff_ne.2 h]
      cases hf : f k v with
      | none =>
        simp only [Option.map_none]
        exact ih hrest
      | some u =>
        simp only [Option.map_some, List.lookup_cons, beq_eq_false_iff_ne.2 h]
        exact ih hrest

/-- A name that is kept has the new value that its old one gives. -/
theorem get?_filterMap (r : Registry α κ) (f : κ → α → Option β) (key : κ) :
    (r.filterMap f).get? key = (r.get? key).bind (f key) :=
  lookup_filterMap r.nodup_keys f key

omit [DecidableEq κ] in
theorem map_fst_filterMap {entries : List (κ × α)} {f : κ → α → Option β}
    (hf : ∀ e ∈ entries, (f e.1 e.2).isSome) :
    (entries.filterMap fun e => (f e.1 e.2).map fun v => (e.1, v)).map Prod.fst =
      entries.map Prod.fst := by
  induction entries with
  | nil => rfl
  | cons e rest ih =>
    obtain ⟨u, hu⟩ := Option.isSome_iff_exists.1 (hf e List.mem_cons_self)
    rw [List.filterMap_cons]
    simp only [hu, Option.map_some, List.map_cons]
    rw [ih fun e' he' => hf e' (List.mem_cons_of_mem _ he')]

/-- When no value is left out, the names stay as they are. -/
theorem keys_filterMap (r : Registry α κ) (f : κ → α → Option β)
    (hf : ∀ key value, r.get? key = some value → (f key value).isSome) :
    (r.filterMap f).keys = r.keys :=
  map_fst_filterMap fun e he => hf e.1 e.2 ((mem_entries_iff r e.1 e.2).1 he)

/-- A registry is its names with the values that they have. -/
theorem entries_eq_filterMap_keys (r : Registry α κ) :
    r.entries = r.keys.filterMap fun key => (r.get? key).map (key, ·) := by
  rw [keys, List.filterMap_map]
  symm
  rw [List.filterMap_congr (g := some) fun e he => ?_, List.filterMap_some]
  show (r.get? e.1).map (e.1, ·) = some e
  rw [(mem_entries_iff r e.1 e.2).1 he]
  rfl

/-- The values stand in the order of the names. -/
theorem values_eq_filterMap_keys (r : Registry α κ) : r.values = r.keys.filterMap r.get? := by
  rw [values, entries_eq_filterMap_keys, List.map_filterMap]
  refine List.filterMap_congr fun key _ => ?_
  rw [Option.map_map]
  exact Option.map_id'

/-- Registries with the same names in the same order and the same values are the same. -/
theorem ext_of_keys {r s : Registry α κ} (hkeys : r.keys = s.keys)
    (hget : ∀ key ∈ r.keys, r.get? key = s.get? key) : r = s := by
  refine ext ?_
  rw [entries_eq_filterMap_keys r, entries_eq_filterMap_keys s, ← hkeys]
  exact List.filterMap_congr fun key hkey => by rw [hget key hkey]

/-- Registries have the same entries, perhaps in another order, exactly when every name has the same
value in both. -/
theorem perm_entries_iff {r s : Registry α κ} :
    r.entries.Perm s.entries ↔ ∀ key, r.get? key = s.get? key := by
  constructor
  · intro h key
    refine Option.ext fun value => ?_
    rw [← mem_entries_iff, ← mem_entries_iff, h.mem_iff]
  · intro h
    refine (List.perm_ext_iff_of_nodup (List.Nodup.of_map Prod.fst r.nodup_keys)
      (List.Nodup.of_map Prod.fst s.nodup_keys)).2 ?_
    rintro ⟨key, value⟩
    rw [mem_entries_iff, mem_entries_iff, h key]

/-- The names of the values that are kept. -/
theorem keys_filterMap_eq_filter (r : Registry α κ) (f : κ → α → Option β) :
    (r.filterMap f).keys = r.keys.filter fun key => (r.filterMap f).contains key := by
  have hkept : ∀ e ∈ r.entries, (r.filterMap f).contains e.1 = (f e.1 e.2).isSome := by
    intro e he
    rw [contains, get?_filterMap, (mem_entries_iff r e.1 e.2).1 he]
    rfl
  rw [keys, keys, List.filter_map, Function.comp_def, List.filter_congr hkept]
  show (r.entries.filterMap fun e => (f e.1 e.2).map fun v => (e.1, v)).map Prod.fst = _
  induction r.entries with
  | nil => rfl
  | cons e rest ih =>
    rw [List.filterMap_cons, List.filter_cons]
    cases f e.1 e.2 with
    | none => exact ih
    | some v => exact congrArg (e.1 :: ·) ih

/-! ## Parts of a registry -/

/-- The entries of a registry followed by those of another one, which has other names. -/
def append (r s : Registry α κ) (disjoint : ∀ key ∈ s.keys, key ∉ r.keys) : Registry α κ where
  entries := r.entries ++ s.entries
  nodup_keys := by
    rw [List.map_append, List.nodup_append]
    refine ⟨r.nodup_keys, s.nodup_keys, ?_⟩
    rintro key hr _ hs rfl
    exact disjoint key hs hr

/-- The entries of a registry that have one of some names. -/
def restrict (r : Registry α κ) (keys : List κ) : Registry α κ :=
  r.filterMap fun key value => if key ∈ keys then some value else none

theorem get?_restrict (r : Registry α κ) (keys : List κ) (key : κ) :
    (r.restrict keys).get? key = if key ∈ keys then r.get? key else none := by
  rw [restrict, get?_filterMap]
  cases r.get? key with
  | none => simp
  | some value => simp

theorem keys_restrict (r : Registry α κ) (keys : List κ) :
    (r.restrict keys).keys = r.keys.filter (· ∈ keys) := by
  rw [restrict, keys_filterMap_eq_filter]
  refine List.filter_congr fun key hkey => ?_
  obtain ⟨value, hvalue⟩ := (mem_keys_iff r key).1 hkey
  rw [← restrict, contains, get?_restrict, hvalue]
  by_cases h : key ∈ keys
  · simp [h]
  · simp [h]

/-! ## Entering values one after another -/

/-- A new name goes to the end with its value. -/
theorem put_of_not_mem (key : κ) (value : α) (entries : List (κ × α))
    (h : key ∉ entries.map Prod.fst) : put key value entries = entries ++ [(key, value)] := by
  induction entries with
  | nil => rfl
  | cons e rest ih =>
    obtain ⟨k, v⟩ := e
    rw [List.map_cons, List.mem_cons, not_or] at h
    rw [put, if_neg fun hk => h.1 hk.symm, ih h.2]
    rfl

/-- Values entered under different new names follow the old entries. -/
theorem entries_foldl_insert (news : List (κ × α)) (r : Registry α κ)
    (hnd : (r.entries.map Prod.fst ++ news.map Prod.fst).Nodup) :
    (news.foldl (fun r e => r.insert e.1 e.2) r).entries = r.entries ++ news := by
  induction news generalizing r with
  | nil => rw [List.foldl_nil, List.append_nil]
  | cons e rest ih =>
    have he : e.1 ∉ r.entries.map Prod.fst := fun hmem =>
      (List.nodup_append.1 hnd).2.2 _ hmem _ List.mem_cons_self rfl
    have hput : (r.insert e.1 e.2).entries = r.entries ++ [e] :=
      put_of_not_mem e.1 e.2 r.entries he
    rw [List.foldl_cons, ih, hput, List.append_assoc, List.singleton_append]
    rw [hput, List.map_append, List.append_assoc]
    exact hnd

/-- Values entered under different names are the entries, in their order. -/
theorem entries_ofList {news : List (κ × α)} (hnd : (news.map Prod.fst).Nodup) :
    (ofList news).entries = news :=
  entries_foldl_insert news empty hnd

/-- The new names among those entered follow the old ones. -/
theorem keys_foldl_insert (news : List (κ × α)) (r : Registry α κ) :
    (news.foldl (fun r e => r.insert e.1 e.2) r).keys =
      r.keys ++ (ofList news).keys.filter fun key => key ∉ r.keys := by
  induction news generalizing r with
  | nil => exact (List.append_nil _).symm
  | cons e rest ih =>
    have hnews : (ofList (e :: rest)).keys =
        [e.1] ++ (ofList rest).keys.filter fun key => key ∉ [e.1] :=
      ih (empty.insert e.1 e.2)
    rw [List.foldl_cons, ih, hnews, keys_insert, List.filter_append, List.filter_filter]
    by_cases he : e.1 ∈ r.keys
    · have hold : [e.1].filter (fun key => key ∉ r.keys) = [] := by simp [he]
      rw [if_pos he, hold, List.nil_append]
      refine congrArg _ (List.filter_congr fun key _ => ?_)
      have hother : key ∉ r.keys → key ≠ e.1 := fun hkey heq => hkey (heq ▸ he)
      simpa using hother
    · have hnew : [e.1].filter (fun key => key ∉ r.keys) = [e.1] := by simp [he]
      rw [if_neg he, hnew, List.append_assoc]
      refine congrArg _ (congrArg _ (List.filter_congr fun key _ => ?_))
      simp

/-- A value that is entered counts, and the old one if none is. -/
theorem get?_foldl_insert_eq (news : List (κ × α)) (r : Registry α κ) (key : κ) :
    (news.foldl (fun r e => r.insert e.1 e.2) r).get? key =
      ((ofList news).get? key).or (r.get? key) := by
  induction news generalizing r with
  | nil => rfl
  | cons e rest ih =>
    have hnews : (ofList (e :: rest)).get? key =
        ((ofList rest).get? key).or ((empty.insert e.1 e.2).get? key) :=
      ih (empty.insert e.1 e.2)
    rw [List.foldl_cons, ih, hnews, Option.or_assoc, get?_insert, get?_insert]
    split <;> rfl

/-- What is entered later goes behind the names that are there. -/
theorem keys_ofList_append (olds news : List (κ × α)) :
    (ofList (olds ++ news)).keys =
      (ofList olds).keys ++ (ofList news).keys.filter fun key => key ∉ (ofList olds).keys := by
  rw [ofList, List.foldl_append]
  exact keys_foldl_insert news (ofList olds)

/-- What is entered later counts. -/
theorem get?_ofList_append (olds news : List (κ × α)) (key : κ) :
    (ofList (olds ++ news)).get? key =
      ((ofList news).get? key).or ((ofList olds).get? key) := by
  rw [ofList, List.foldl_append]
  exact get?_foldl_insert_eq news (ofList olds) key

/-- A value that is found was there before or was entered. -/
theorem get?_foldl_insert {news : List (κ × α)} {r : Registry α κ} {key : κ} {value : α}
    (h : (news.foldl (fun r e => r.insert e.1 e.2) r).get? key = some value) :
    r.get? key = some value ∨ (key, value) ∈ news := by
  induction news generalizing r with
  | nil => exact Or.inl h
  | cons e rest ih =>
    rcases ih h with hr | hr
    · rw [get?_insert] at hr
      split at hr
      · next hk => exact Or.inr (by rw [hk, ← Option.some.inj hr]; exact List.mem_cons_self)
      · exact Or.inl hr
    · exact Or.inr (List.mem_cons_of_mem _ hr)

/-- Every value of a registry was entered under its name. -/
theorem mem_of_get?_ofList {news : List (κ × α)} {key : κ} {value : α}
    (h : (ofList news).get? key = some value) : (key, value) ∈ news := by
  rcases get?_foldl_insert h with he | he
  · rw [get?_empty] at he
    exact absurd he (by simp)
  · exact he

theorem ofList_concat (news : List (κ × α)) (e : κ × α) :
    ofList (news ++ [e]) = (ofList news).insert e.1 e.2 := by
  rw [ofList, List.foldl_append]
  rfl

/-- **The names** of values entered one after another are the different ones, in the order in which
they first appear. -/
theorem keys_ofList (news : List (κ × α)) : (ofList news).keys = (news.map Prod.fst).eraseDups := by
  induction news using List.reverseRecOn with
  | nil => rfl
  | append_singleton news e ih =>
    rw [ofList_concat, keys_insert, ih, List.map_append, List.eraseDups_append, List.map_singleton]
    by_cases he : e.1 ∈ news.map Prod.fst
    · rw [if_pos (List.mem_eraseDups.2 he)]
      simp [List.removeAll, he]
    · rw [if_neg fun hmem => he (List.mem_eraseDups.1 hmem)]
      simp [List.removeAll, he, List.eraseDups_cons]

/-- **The value of a name** is the last one that is entered under it. -/
theorem get?_ofList_eq_some_iff {news : List (κ × α)} {key : κ} {value : α} :
    (ofList news).get? key = some value ↔
      ∃ before after, news = before ++ (key, value) :: after ∧ ∀ e ∈ after, e.1 ≠ key := by
  constructor
  · induction news using List.reverseRecOn with
    | nil => exact fun h => absurd h (by rw [ofList, List.foldl_nil, get?_empty]; simp)
    | append_singleton news e ih =>
      intro h
      rw [ofList_concat, get?_insert] at h
      split at h
      · next hkey =>
        obtain rfl := Option.some.inj h
        exact ⟨news, [], by rw [hkey], List.forall_mem_nil _⟩
      · next hkey =>
        obtain ⟨before, after, rfl, hafter⟩ := ih h
        refine ⟨before, after ++ [e], by simp, List.forall_mem_append.2 ⟨hafter, ?_⟩⟩
        simpa using fun heq => hkey heq.symm
  · rintro ⟨before, after, rfl, hafter⟩
    have hnone : (ofList after).get? key = none := by
      rw [Option.eq_none_iff_forall_ne_some]
      intro other hother
      exact hafter _ (mem_of_get?_ofList hother) rfl
    have hlast : (ofList ((key, value) :: after)).get? key = some value := by
      rw [← List.singleton_append, get?_ofList_append, hnone, Option.none_or]
      exact (get?_insert empty key value key).trans (if_pos rfl)
    rw [get?_ofList_append, hlast, Option.some_or]

/-- No more names are entered than there are entries. -/
theorem length_keys_ofList_le (news : List (κ × α)) : (ofList news).keys.length ≤ news.length := by
  rw [← List.length_map Prod.fst]
  refine ((ofList news).nodup_keys.subperm fun key hkey => ?_).length_le
  obtain ⟨value, hvalue⟩ := (mem_keys_iff _ key).1 hkey
  exact List.mem_map_of_mem (mem_of_get?_ofList hvalue)

end Registry

end SchemaDiagram
