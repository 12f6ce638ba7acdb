/-
# Which configurations are accepted

A file is accepted as a configuration exactly when all its names are known and all its values are
whole numbers in the range of their settings.  A setting then has the number that the file gives
it, and its default where the file gives none; in which order the file names them is of no account.

* `AcceptableValue`, `AcceptableSection`, `Config.Acceptable` : what may stand in a file;
* `Datum.setting?`, `Config.given?` : the number that a file gives a setting;
* `LawfulSettings` : settings that are changed one without the other;
* `exists_changeSection_iff`, `get_of_changeSection` : a section is read exactly when it is
  acceptable, and what its settings are then;
* `Config.exists_ofRegistry_iff`, `Config.sections_of_ofRegistry` : the same of a whole file;
* `Config.ofRegistry_congr` : files that give the same settings are read as the same.
-/
import Mathlib.Data.List.Nodup
import SchemaDiagram.Config.Settings
import SchemaDiagram.Proofs.Outcome
import SchemaDiagram.Proofs.Registry

namespace SchemaDiagram

/-! ## What may stand in a file -/

/-- The settings that divide or step. -/
def positiveSettings : List String := ["grid_size", "columns", "spiral_step_degrees"]

/-- A value that a setting may be given. -/
def AcceptableValue (setting : String) (value : Datum) : Prop :=
  ∃ n : Int, value = .int n ∧ 0 ≤ n ∧ (setting ∈ positiveSettings → 0 < n)

/-- A value that a section may have: a dictionary of its settings, each with a value that it may
be given. -/
def AcceptableSection (settings : List String) (value : Datum) : Prop :=
  ∃ entries, value = .dict entries ∧
    ∀ name v, (Registry.ofList entries).get? name = some v →
      ∃ setting ∈ settings, name = .ofString setting ∧ AcceptableValue setting v

/-- A file that may be given: its names are sections, and the sections are acceptable. -/
def Config.Acceptable (data : Registry Datum LooseText) : Prop :=
  ∀ name value, data.get? name = some value →
    ∃ part ∈ Config.default.sections, name = .ofString part.1 ∧
      AcceptableSection (part.2.map Prod.fst) value

/-- Entries that are all acceptable make an acceptable section. -/
theorem AcceptableSection.of_entries {settings : List String} {entries : List (LooseText × Datum)}
    (h : ∀ e ∈ entries, ∃ setting ∈ settings, e.1 = .ofString setting ∧
      AcceptableValue setting e.2) : AcceptableSection settings (.dict entries) :=
  ⟨entries, rfl, fun name v hv => h (name, v) (Registry.mem_of_get?_ofList hv)⟩

/-- Sections that are all acceptable make an acceptable file. -/
theorem Config.Acceptable.of_entries {entries : List (LooseText × Datum)}
    (h : ∀ e ∈ entries, ∃ part ∈ Config.default.sections, e.1 = .ofString part.1 ∧
      AcceptableSection (part.2.map Prod.fst) e.2) : Acceptable (.ofList entries) :=
  fun name value hvalue => h (name, value) (Registry.mem_of_get?_ofList hvalue)

/-! ## What a file gives -/

/-- The number that a value is. -/
def Datum.number? : Datum → Option Nat
  | .int n => some n.toNat
  | _ => none

/-- The number that a section gives a setting. -/
def Datum.setting? (value : Datum) (setting : String) : Option Nat :=
  match value with
  | .dict entries => ((Registry.ofList entries).get? setting).bind number?
  | _ => none

/-- The number that a file gives a setting of a section. -/
def Config.given? (data : Registry Datum LooseText) (sectionName setting : String) : Option Nat :=
  (data.get? sectionName).bind (·.setting? setting)

/-- Sections that give the same settings the same values, in any order. -/
def Datum.SameEntries (value other : Datum) : Prop :=
  value = other ∨ ∃ entries others, value = .dict entries ∧ other = .dict others ∧
    ∀ name, (Registry.ofList entries).get? name = (Registry.ofList others).get? name

/-- Files that give the same settings of the same sections the same values, in any order. -/
def SameSettings (data other : Registry Datum LooseText) : Prop :=
  ∀ name, Option.Rel Datum.SameEntries (data.get? name) (other.get? name)

/-! ## Names -/

/-- No name is unknown exactly when each name is that of something. -/
theorem unknownNames_eq_nil_iff {known : List String} {names : List LooseText} :
    unknownNames known names = [] ↔ ∀ name ∈ names, ∃ k ∈ known, name = .ofString k := by
  have hperm : (unknownNames known names).Perm
      (names.filter fun n => !(known.map LooseText.ofString).contains n) :=
    List.mergeSort_perm _ _
  have hnil : unknownNames known names = [] ↔
      names.filter (fun n => !(known.map LooseText.ofString).contains n) = [] :=
    ⟨fun h => (h ▸ hperm).symm.eq_nil, fun h => (h ▸ hperm).eq_nil⟩
  rw [hnil, List.filter_eq_nil_iff]
  refine forall₂_congr fun name _ => ?_
  rw [Bool.not_eq_true, Bool.not_eq_false', List.contains_iff_mem, List.mem_map]
  exact exists_congr fun k => and_congr_right fun _ => eq_comm

/-! ## Settings of a section -/

variable {σ : Type}

/-- Settings of different names that make up their section.  A positive number may be given to
any, zero to those that do not divide or step; and a change of one is no change of another. -/
structure LawfulSettings (settings : List (Setting σ)) : Prop where
  nodup : (settings.map Setting.name).Nodup
  accepts : ∀ s ∈ settings, ∀ current n,
    (∃ changed, s.set? current n = some changed) ↔ (s.name ∈ positiveSettings → 0 < n)
  changes : ∀ s ∈ settings, ∀ current n changed, s.set? current n = some changed →
    ∀ t ∈ settings, t.get changed = if t.name = s.name then n else t.get current
  determines : ∀ a b : σ, (∀ s ∈ settings, s.get a = s.get b) → a = b

theorem Bounds.settings_lawful : LawfulSettings Bounds.settings where
  nodup := by decide
  accepts := by simp [Bounds.settings, positiveSettings]
  changes := by simp +contextual [Bounds.settings]
  determines := fun a b h => by
    cases a
    cases b
    simpa [Bounds.settings] using h

theorem Metrics.settings_lawful : LawfulSettings Metrics.settings where
  nodup := by decide
  accepts := by simp [Metrics.settings, positiveSettings]
  changes := by simp +contextual [Metrics.settings]
  determines := fun a b h => by
    cases a
    cases b
    simpa [Metrics.settings] using h

theorem LayoutSettings.settings_lawful : LawfulSettings LayoutSettings.settings where
  nodup := by decide
  accepts := by simp [LayoutSettings.settings, positiveSettings]
  changes := by simp +contextual [LayoutSettings.settings]
  determines := fun a b h => by
    cases a
    cases b
    simpa [LayoutSettings.settings] using h

theorem RoutingSettings.settings_lawful : LawfulSettings RoutingSettings.settings where
  nodup := by decide
  accepts := by simp [RoutingSettings.settings, positiveSettings]
  changes := by simp +contextual [RoutingSettings.settings]
  determines := fun a b h => by
    cases a
    cases b
    simpa [RoutingSettings.settings] using h

variable {sectionName : String} {settings : List (Setting σ)}

/-- A setting is found under its name. -/
theorem LawfulSettings.find?_name (h : LawfulSettings settings) {t : Setting σ}
    (ht : t ∈ settings) :
    settings.find? (fun s => LooseText.ofString s.name = LooseText.ofString t.name) = some t := by
  cases hfind : settings.find?
      fun s => LooseText.ofString s.name = LooseText.ofString t.name with
  | none => exact absurd (decide_eq_true rfl) (List.find?_eq_none.1 hfind t ht)
  | some s =>
    have hs := List.find?_some hfind
    have hname : s.name = t.name := LooseText.ofString_injective (of_decide_eq_true hs)
    rw [List.inj_on_of_nodup_map h.nodup (List.mem_of_find?_eq_some hfind) ht hname]

/-- A setting is changed by a whole number that is not negative, if it takes the number. -/
theorem changeSetting_eq_ok_iff (h : LawfulSettings settings) {t : Setting σ} (ht : t ∈ settings)
    {current changed : σ} {value : Datum} :
    changeSetting sectionName settings current (.ofString t.name) value = .ok changed ↔
      ∃ n : Int, value = .int n ∧ 0 ≤ n ∧ t.set? current n.toNat = some changed := by
  cases value with
  | int n =>
    simp only [changeSetting, h.find?_name ht, Datum.int.injEq, exists_eq_left']
    by_cases hn : n < 0
    · rw [if_pos hn]
      exact iff_of_false (fun h => by cases h) fun h => absurd hn (Int.not_lt.2 h.1)
    · rw [if_neg hn, and_iff_right (Int.not_lt.1 hn)]
      cases t.set? current n.toNat with
      | none => exact iff_of_false (fun h => by cases h) fun h => by cases h
      | some s => rw [Except.ok.injEq, Option.some.injEq]
  | null | bool | real | text | moment | list | dict =>
    refine iff_of_false (fun h => by cases h) ?_
    rintro ⟨n, hn, -⟩
    cases hn

/-- A setting is changed exactly by the values that it may be given. -/
theorem exists_changeSetting_iff (h : LawfulSettings settings) {t : Setting σ} (ht : t ∈ settings)
    (current : σ) (value : Datum) :
    (∃ changed, changeSetting sectionName settings current (.ofString t.name) value
      = .ok changed) ↔ AcceptableValue t.name value := by
  simp only [changeSetting_eq_ok_iff h ht]
  rw [exists_comm]
  refine exists_congr fun n => ?_
  rw [exists_and_left, exists_and_left, h.accepts t ht, Int.lt_toNat]
  rfl

/-- Then it has the number, and the others have what they had. -/
theorem get_of_changeSetting (h : LawfulSettings settings) {t : Setting σ} (ht : t ∈ settings)
    {current changed : σ} {value : Datum}
    (hchanged : changeSetting sectionName settings current (.ofString t.name) value = .ok changed)
    {s : Setting σ} (hs : s ∈ settings) :
    s.get changed = if s.name = t.name then value.number?.getD (s.get current)
      else s.get current := by
  obtain ⟨n, rfl, -, hset⟩ := (changeSetting_eq_ok_iff h ht).1 hchanged
  exact h.changes t ht current _ changed hset s hs

/-! ## Sections -/

/-- Entries of known names are read exactly when each value may be given to its setting.  What
was read before is of no account, so the induction is on the entries alone. -/
theorem exists_foldlM_changeSetting_iff (h : LawfulSettings settings)
    {entries : List (LooseText × Datum)}
    (hknown : ∀ e ∈ entries, ∃ setting ∈ settings.map Setting.name, e.1 = .ofString setting)
    (current : σ) :
    (∃ read, entries.foldlM (fun s e => changeSetting sectionName settings s e.1 e.2) current
      = .ok read) ↔
      ∀ e ∈ entries, ∃ setting ∈ settings.map Setting.name,
        e.1 = .ofString setting ∧ AcceptableValue setting e.2 := by
  induction entries generalizing current with
  | nil => exact iff_of_true ⟨current, rfl⟩ fun e he => absurd he List.not_mem_nil
  | cons e rest ih =>
    obtain ⟨name, value⟩ := e
    obtain ⟨⟨setting, hsetting, rfl⟩, hrest⟩ := List.forall_mem_cons.1 hknown
    obtain ⟨t, ht, rfl⟩ := List.mem_map.1 hsetting
    have hhead : (∃ setting ∈ settings.map Setting.name,
        LooseText.ofString t.name = .ofString setting ∧ AcceptableValue setting value) ↔
        AcceptableValue t.name value := by
      constructor
      · rintro ⟨setting, -, hname, hvalue⟩
        rw [LooseText.ofString_injective hname]
        exact hvalue
      · intro hvalue
        exact ⟨t.name, hsetting, rfl, hvalue⟩
    rw [List.forall_mem_cons, hhead, ← exists_changeSetting_iff h ht current value]
    constructor
    · rintro ⟨read, hread⟩
      rw [List.foldlM_cons, bind_eq_ok] at hread
      obtain ⟨changed, hchanged, hread⟩ := hread
      exact ⟨⟨changed, hchanged⟩, (ih hrest changed).1 ⟨read, hread⟩⟩
    · rintro ⟨⟨changed, hchanged⟩, hvalues⟩
      obtain ⟨read, hread⟩ := (ih hrest changed).2 hvalues
      exact ⟨read, by rw [List.foldlM_cons]; exact bind_eq_ok.2 ⟨changed, hchanged, hread⟩⟩

/-- Each setting then has the number of its entry, or what it had if it has none. -/
theorem get_of_foldlM_changeSetting (h : LawfulSettings settings)
    {entries : List (LooseText × Datum)} (hnd : (entries.map Prod.fst).Nodup)
    (hknown : ∀ e ∈ entries, ∃ setting ∈ settings.map Setting.name, e.1 = .ofString setting)
    {current read : σ}
    (hread : entries.foldlM (fun s e => changeSetting sectionName settings s e.1 e.2) current
      = .ok read) {s : Setting σ} (hs : s ∈ settings) :
    s.get read =
      ((entries.lookup (LooseText.ofString s.name)).bind Datum.number?).getD (s.get current) := by
  induction entries generalizing current with
  | nil =>
    rw [List.foldlM_nil, pure_eq_ok] at hread
    rw [hread]
    rfl
  | cons e rest ih =>
    obtain ⟨name, value⟩ := e
    obtain ⟨⟨setting, hsetting, rfl⟩, hrest⟩ := List.forall_mem_cons.1 hknown
    obtain ⟨t, ht, rfl⟩ := List.mem_map.1 hsetting
    rw [List.map_cons, List.nodup_cons] at hnd
    rw [List.foldlM_cons, bind_eq_ok] at hread
    obtain ⟨changed, hchanged, hread⟩ := hread
    rw [ih hnd.2 hrest hread, get_of_changeSetting h ht hchanged hs]
    by_cases hname : s.name = t.name
    · -- no later entry has the name again
      rw [if_pos hname, hname, Registry.lookup_eq_none_of_not_mem hnd.1, List.lookup_cons_self]
      rfl
    · have hother : LooseText.ofString s.name ≠ LooseText.ofString t.name :=
        fun heq => hname (LooseText.ofString_injective heq)
      rw [if_neg hname, List.lookup_cons, beq_eq_false_iff_ne.2 hother]

/-- The names of a dictionary are known when it is read. -/
theorem changeSection_dict_eq_ok_iff {current read : σ} {entries : List (LooseText × Datum)} :
    changeSection sectionName settings current (.dict entries) = .ok read ↔
      (∀ e ∈ (Registry.ofList entries).entries,
        ∃ setting ∈ settings.map Setting.name, e.1 = .ofString setting) ∧
      (Registry.ofList entries).entries.foldlM
        (fun s e => changeSetting sectionName settings s e.1 e.2) current = .ok read := by
  have hknown : unknownNames (settings.map Setting.name) (Registry.ofList entries).keys = [] ↔ _ :=
    unknownNames_eq_nil_iff
  rw [Registry.keys, List.forall_mem_map] at hknown
  rw [changeSection, ← hknown, Registry.keys]
  cases unknownNames (settings.map Setting.name)
      ((Registry.ofList entries).entries.map Prod.fst) with
  | nil => rw [and_iff_right rfl]
  | cons name rest => exact iff_of_false (fun h => by cases h) fun h => by cases h.1

/-- **A section is read** exactly when it is acceptable. -/
theorem exists_changeSection_iff (h : LawfulSettings settings) (current : σ) (value : Datum) :
    (∃ read, changeSection sectionName settings current value = .ok read) ↔
      AcceptableSection (settings.map Setting.name) value := by
  cases value with
  | dict entries =>
    have hentries : (∀ name v, (Registry.ofList entries).get? name = some v →
        ∃ setting ∈ settings.map Setting.name, name = .ofString setting ∧
          AcceptableValue setting v) ↔
        ∀ e ∈ (Registry.ofList entries).entries, ∃ setting ∈ settings.map Setting.name,
          e.1 = .ofString setting ∧ AcceptableValue setting e.2 := by
      rw [Prod.forall]
      exact forall₂_congr fun name v => by rw [Registry.mem_entries_iff]
    simp only [AcceptableSection, Datum.dict.injEq, exists_eq_left', changeSection_dict_eq_ok_iff]
    rw [hentries, exists_and_left]
    constructor
    · rintro ⟨hknown, hread⟩
      exact (exists_foldlM_changeSetting_iff h hknown current).1 hread
    · intro hvalues
      have hknown : ∀ e ∈ (Registry.ofList entries).entries,
          ∃ setting ∈ settings.map Setting.name, e.1 = .ofString setting := fun e he => by
        obtain ⟨setting, hsetting, hname, -⟩ := hvalues e he
        exact ⟨setting, hsetting, hname⟩
      exact ⟨hknown, (exists_foldlM_changeSetting_iff h hknown current).2 hvalues⟩
  | null | bool | int | real | text | moment | list =>
    refine iff_of_false ?_ ?_
    · rintro ⟨read, hread⟩
      cases hread
    · rintro ⟨entries, hentries, -⟩
      cases hentries

/-- Its settings then have the numbers that it gives them. -/
theorem get_of_changeSection (h : LawfulSettings settings) {current read : σ} {value : Datum}
    (hread : changeSection sectionName settings current value = .ok read) {s : Setting σ}
    (hs : s ∈ settings) : s.get read = (value.setting? s.name).getD (s.get current) := by
  cases value with
  | dict entries =>
    obtain ⟨hknown, hread⟩ := changeSection_dict_eq_ok_iff.1 hread
    exact get_of_foldlM_changeSetting h (Registry.ofList entries).nodup_keys hknown hread hs
  | null | bool | int | real | text | moment | list => cases hread

/-! ## Files -/

variable {data other : Registry Datum LooseText}

/-- **A section of a file is read** exactly when it is missing or acceptable. -/
theorem exists_readSection_iff (h : LawfulSettings settings) (current : σ) :
    (∃ read, readSection data sectionName settings current = .ok read) ↔
      ∀ value, data.get? (LooseText.ofString sectionName) = some value →
        AcceptableSection (settings.map Setting.name) value := by
  rw [readSection]
  cases data.get? (LooseText.ofString sectionName) with
  | none => exact iff_of_true ⟨current, rfl⟩ fun value hvalue => by cases hvalue
  | some value => simp only [Option.some.injEq, forall_eq', exists_changeSection_iff h]

/-- Its settings then have the numbers that the file gives them. -/
theorem values_of_readSection (h : LawfulSettings settings) {current read : σ}
    (hread : readSection data sectionName settings current = .ok read) :
    Setting.values settings read = (Setting.values settings current).map fun s =>
      (s.1, (Config.given? data sectionName s.1).getD s.2) := by
  rw [Setting.values, Setting.values, List.map_map]
  refine List.map_congr_left fun s hs => congrArg (Prod.mk s.name) ?_
  rw [readSection] at hread
  show s.get read = (Config.given? data sectionName s.name).getD (s.get current)
  rw [Config.given?]
  cases hvalue : data.get? (LooseText.ofString sectionName) with
  | none =>
    rw [hvalue] at hread
    cases hread
    rfl
  | some value =>
    rw [hvalue] at hread
    exact get_of_changeSection h hread hs

theorem Setting.map_fst_values (settings : List (Setting σ)) (current : σ) :
    (Setting.values settings current).map Prod.fst = settings.map Setting.name := by
  rw [Setting.values, List.map_map]
  rfl

/-- The values of its settings make up a section. -/
theorem LawfulSettings.eq_of_values (h : LawfulSettings settings) {a b : σ}
    (hvalues : Setting.values settings a = Setting.values settings b) : a = b := by
  refine h.determines a b fun s hs => ?_
  exact (Prod.mk.inj (List.map_eq_map_iff.1 hvalues s hs)).2

namespace Config

/-- Configurations with the same values of all settings are the same. -/
theorem eq_of_sections {c c' : Config} (h : c.sections = c'.sections) : c = c' := by
  simp only [sections, List.cons.injEq, Prod.mk.injEq, true_and, and_true] at h
  obtain ⟨hbounds, hmetrics, hlayout, hrouting⟩ := h
  cases c
  cases c'
  rw [Config.mk.injEq]
  exact ⟨Bounds.settings_lawful.eq_of_values hbounds, Metrics.settings_lawful.eq_of_values hmetrics,
    LayoutSettings.settings_lawful.eq_of_values hlayout,
    RoutingSettings.settings_lawful.eq_of_values hrouting⟩

/-- A file is acceptable when its names are known and each section is missing or acceptable. -/
theorem acceptable_iff :
    Acceptable data ↔
      (∀ name ∈ data.keys, ∃ part ∈ default.sections, name = .ofString part.1) ∧
      ∀ part ∈ default.sections, ∀ value, data.get? (LooseText.ofString part.1) = some value →
        AcceptableSection (part.2.map Prod.fst) value := by
  have hnodup : (default.sections.map Prod.fst).Nodup := by decide
  constructor
  · intro h
    constructor
    · intro name hname
      obtain ⟨value, hvalue⟩ := (Registry.mem_keys_iff data name).1 hname
      obtain ⟨part, hpart, heq, -⟩ := h name value hvalue
      exact ⟨part, hpart, heq⟩
    · intro part hpart value hvalue
      obtain ⟨found, hfound, heq, hsection⟩ := h _ value hvalue
      have hname : part.1 = found.1 := LooseText.ofString_injective heq
      rw [List.inj_on_of_nodup_map hnodup hpart hfound hname]
      exact hsection
  · rintro ⟨hknown, hsections⟩ name value hvalue
    obtain ⟨part, hpart, rfl⟩ := hknown name ((Registry.mem_keys_iff data name).2 ⟨value, hvalue⟩)
    exact ⟨part, hpart, rfl, hsections part hpart value hvalue⟩

/-- A file is read section by section when its names are known. -/
theorem ofRegistry_eq_ok_iff {c : Config} :
    ofRegistry data = .ok c ↔
      (∀ name ∈ data.keys, ∃ part ∈ default.sections, name = .ofString part.1) ∧
      readSection data "bounds" Bounds.settings default.bounds = .ok c.bounds ∧
      readSection data "metrics" Metrics.settings default.metrics = .ok c.metrics ∧
      readSection data "layout" LayoutSettings.settings default.layout = .ok c.layout ∧
      readSection data "routing" RoutingSettings.settings default.routing = .ok c.routing := by
  have hknown : unknownNames (default.sections.map Prod.fst) data.keys = [] ↔ _ :=
    unknownNames_eq_nil_iff
  simp only [List.mem_map, exists_exists_and_eq_and] at hknown
  rw [ofRegistry, ← hknown]
  cases unknownNames (default.sections.map Prod.fst) data.keys with
  | cons name rest => exact iff_of_false (fun h => by cases h) fun h => by cases h.1
  | nil =>
    simp only [bind_eq_ok, pure_eq_ok, true_and]
    constructor
    · rintro ⟨bounds, hbounds, metrics, hmetrics, layout, hlayout, routing, hrouting, rfl⟩
      exact ⟨hbounds, hmetrics, hlayout, hrouting⟩
    · rintro ⟨hbounds, hmetrics, hlayout, hrouting⟩
      exact ⟨_, hbounds, _, hmetrics, _, hlayout, _, hrouting, rfl⟩

/-- **A file is accepted** exactly when it is acceptable. -/
theorem exists_ofRegistry_iff : (∃ c, ofRegistry data = .ok c) ↔ Acceptable data := by
  have hsections : (∀ part ∈ default.sections, ∀ value,
      data.get? (LooseText.ofString part.1) = some value →
        AcceptableSection (part.2.map Prod.fst) value) ↔
      (∃ b, readSection data "bounds" Bounds.settings default.bounds = .ok b) ∧
      (∃ m, readSection data "metrics" Metrics.settings default.metrics = .ok m) ∧
      (∃ l, readSection data "layout" LayoutSettings.settings default.layout = .ok l) ∧
      ∃ r, readSection data "routing" RoutingSettings.settings default.routing = .ok r := by
    rw [exists_readSection_iff Bounds.settings_lawful,
      exists_readSection_iff Metrics.settings_lawful,
      exists_readSection_iff LayoutSettings.settings_lawful,
      exists_readSection_iff RoutingSettings.settings_lawful]
    simp only [sections, List.forall_mem_cons, Setting.map_fst_values, List.not_mem_nil,
      false_implies, implies_true, and_true]
  rw [acceptable_iff, hsections]
  constructor
  · rintro ⟨c, hc⟩
    obtain ⟨hknown, hbounds, hmetrics, hlayout, hrouting⟩ := ofRegistry_eq_ok_iff.1 hc
    exact ⟨hknown, ⟨_, hbounds⟩, ⟨_, hmetrics⟩, ⟨_, hlayout⟩, ⟨_, hrouting⟩⟩
  · rintro ⟨hknown, ⟨bounds, hbounds⟩, ⟨metrics, hmetrics⟩, ⟨layout, hlayout⟩, routing, hrouting⟩
    exact ⟨⟨bounds, metrics, layout, routing⟩,
      ofRegistry_eq_ok_iff.2 ⟨hknown, hbounds, hmetrics, hlayout, hrouting⟩⟩

/-- **Each setting** has the number that the file gives it, or its default. -/
theorem sections_of_ofRegistry {c : Config} (h : ofRegistry data = .ok c) :
    c.sections = default.sections.map fun part =>
      (part.1, part.2.map fun s => (s.1, (given? data part.1 s.1).getD s.2)) := by
  obtain ⟨-, hbounds, hmetrics, hlayout, hrouting⟩ := ofRegistry_eq_ok_iff.1 h
  rw [sections, values_of_readSection Bounds.settings_lawful hbounds,
    values_of_readSection Metrics.settings_lawful hmetrics,
    values_of_readSection LayoutSettings.settings_lawful hlayout,
    values_of_readSection RoutingSettings.settings_lawful hrouting]
  rfl

end Config

/-! ## The order of names -/

namespace Datum.SameEntries

variable {value other : Datum}

/-- Entries of different names may stand in any order. -/
theorem of_perm {entries others : List (LooseText × Datum)}
    (hnd : (entries.map Prod.fst).Nodup) (h : entries.Perm others) :
    SameEntries (.dict entries) (.dict others) := by
  refine Or.inr ⟨entries, others, rfl, rfl, Registry.perm_entries_iff.1 ?_⟩
  rw [Registry.entries_ofList hnd, Registry.entries_ofList ((h.map Prod.fst).nodup_iff.1 hnd)]
  exact h

/-- A dictionary is acceptable in any order. -/
theorem acceptableSection (h : value.SameEntries other) {settings : List String}
    (hvalue : AcceptableSection settings value) : AcceptableSection settings other := by
  obtain rfl | ⟨entries, others, rfl, rfl, hsame⟩ := h
  · exact hvalue
  · obtain ⟨_, heq, hentries⟩ := hvalue
    cases heq
    refine ⟨others, rfl, fun name v hv => hentries name v ?_⟩
    rw [hsame]
    exact hv

theorem setting?_eq (h : value.SameEntries other) (setting : String) :
    value.setting? setting = other.setting? setting := by
  obtain rfl | ⟨entries, others, rfl, rfl, hsame⟩ := h
  · rfl
  · rw [setting?, setting?, hsame]

end Datum.SameEntries

namespace SameSettings

/-- A file is acceptable in any order. -/
theorem acceptable (h : SameSettings data other) (hdata : Config.Acceptable data) :
    Config.Acceptable other := by
  intro name value hvalue
  have hname := h name
  rw [hvalue] at hname
  cases hget : data.get? name with
  | none =>
    rw [hget] at hname
    cases hname
  | some old =>
    rw [hget] at hname
    obtain ⟨part, hpart, heq, hsection⟩ := hdata name old hget
    cases hname with
    | some hsame => exact ⟨part, hpart, heq, hsame.acceptableSection hsection⟩

theorem given?_eq (h : SameSettings data other) (sectionName setting : String) :
    Config.given? data sectionName setting = Config.given? other sectionName setting := by
  have hname := h (LooseText.ofString sectionName)
  rw [Config.given?, Config.given?]
  generalize data.get? (LooseText.ofString sectionName) = value,
    other.get? (LooseText.ofString sectionName) = value' at hname ⊢
  cases hname with
  | some hsame => exact hsame.setting?_eq setting
  | none => rfl

end SameSettings

/-- **The order** of sections and settings in a file is of no account. -/
theorem Config.ofRegistry_congr (h : SameSettings data other) {c : Config}
    (hc : ofRegistry data = .ok c) : ofRegistry other = .ok c := by
  obtain ⟨c', hc'⟩ := exists_ofRegistry_iff.2 (h.acceptable (exists_ofRegistry_iff.1 ⟨c, hc⟩))
  have hsections : c'.sections = c.sections := by
    rw [sections_of_ofRegistry hc', sections_of_ofRegistry hc]
    simp only [h.given?_eq]
  rw [hc', eq_of_sections hsections]

end SchemaDiagram
