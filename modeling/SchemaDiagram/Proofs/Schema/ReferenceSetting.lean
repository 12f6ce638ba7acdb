/-
# Settings that say a reference

A setting says a reference when it is the reference mark, the sign of a direction, and the names of
a table and a field with a point between them, with blanks around the sign and at the end.  These
settings are read as the reference that they say, and all others that have the mark are malformed.
A field takes the first reference that one of its settings says, and notes the malformed ones
before it.

* `Reference.SaidBy` : a setting says a reference;
* `Reference.ofSetting_eq_ok_iff` : a setting is read as a reference exactly when it says it;
* `FirstSaid` : the first reference that settings say, and the settings before it;
* `firstSaid_firstReference` : the search for it, with the faults of the malformed settings.

Main statement: `Field.ofLine?_reference` : the reference of a field line and the issues that its
settings give.
-/
import Mathlib.Data.List.Forall2
import SchemaDiagram.Proofs.Schema.ActionCases

namespace SchemaDiagram

open Text

/-- A setting says a reference: the mark, the sign of the direction, and the names of the table and
the field with a point between them, with blanks around the sign and at the end. -/
def Reference.SaidBy (r : Reference) (setting : List Char) : Prop :=
  IsName r.table ∧ IsName r.field ∧ ∃ lead gap trail : List Char,
    (∀ c ∈ lead, isBlank c = true) ∧ (∀ c ∈ gap, isBlank c = true) ∧
    (∀ c ∈ trail, isBlank c = true) ∧
    setting = referenceMark ++
      (lead ++ r.direction.sign :: (gap ++ (qualified r.table r.field ++ trail)))

/-! ## What the actions give -/

theorem Cursor.FollowedBy.atEnd_iff {text rest : List Char} {c : Cursor text}
    (h : c.FollowedBy rest) : c.atEnd = true ↔ rest = [] := by
  have hlen := h.length
  rw [atEnd, decide_eq_true_eq, ← List.length_eq_zero_iff]
  omega

namespace Scan

variable {text rest : List Char} {c : Cursor text}

/-- A qualified name that is read stands there. -/
theorem readQualifiedName_cases (hc : c.FollowedBy rest) :
    (∃ table field after c', rest = qualified table field ++ after ∧ IsName table ∧
      IsName field ∧ readQualifiedName c = .ok (table, field) c' ∧ c'.FollowedBy after) ∨
    ∃ fault c', readQualifiedName c = .error fault c' := by
  have hname : ∀ s : List Char, ∀ c ∈ s.takeWhile isNameChar, isNameChar c = true :=
    fun s c hc => List.mem_takeWhile_imp hc
  rcases readName_cases hc with ⟨-, htable⟩ | ⟨hne, c₁, htable, hc₁, -⟩
  · exact Or.inr ⟨_, _, bind_of_error htable⟩
  rcases expect_cases '.' hc₁ with ⟨behind, c₂, hpoint, hexpect, hc₂, -⟩ | ⟨-, hexpect⟩
  · rcases readName_cases hc₂ with ⟨-, hfield⟩ | ⟨hne', c₃, hfield, hc₃, -⟩
    · exact Or.inr ⟨_, _, (bind_of_ok htable).trans
        ((bind_of_ok hexpect).trans (bind_of_error hfield))⟩
    · refine Or.inl ⟨_, _, _, c₃, ?_, isName_ofList hne (hname rest),
        isName_ofList hne' (hname behind), ?_, hc₃⟩
      · rw [qualified, String.toList_ofList, String.toList_ofList, List.append_assoc,
          List.cons_append, List.takeWhile_append_dropWhile, ← hpoint,
          List.takeWhile_append_dropWhile]
      · exact (bind_of_ok htable).trans ((bind_of_ok hexpect).trans (bind_of_ok hfield))
  · exact Or.inr ⟨_, _, (bind_of_ok htable).trans (bind_of_error hexpect)⟩

end Scan

section

open Scan

variable {text rest setting : List Char} {c : Cursor text}

/-- A direction that is read stands there with its sign. -/
theorem scanDirection_cases (setting : List Char) (hc : c.FollowedBy rest) :
    (∃ d after c', rest = Direction.sign d :: after ∧ scanDirection setting c = .ok d c' ∧
      c'.FollowedBy after) ∨
    ∃ fault c', scanDirection setting c = .error fault c' := by
  rcases accept_cases '>' hc with ⟨after, c', hrest, haccept, hc', -⟩ | ⟨-, haccept⟩
  · exact Or.inl ⟨.toTarget, after, c', hrest, bind_of_ok haccept, hc'⟩
  rcases accept_cases '<' hc with ⟨after, c', hrest, haccept', hc', -⟩ | ⟨-, haccept'⟩
  · exact Or.inl ⟨.fromTarget, after, c', hrest, (bind_of_ok haccept).trans (bind_of_ok haccept'),
      hc'⟩
  · exact Or.inr ⟨_, _, (bind_of_ok haccept).trans (bind_of_ok haccept')⟩

/-- A reference that is read stands there, and nothing but blanks around its parts. -/
theorem exists_of_scanReference {r : Reference} {c' : Cursor text} (hc : c.FollowedBy rest)
    (h : scanReference setting c = .ok r c') :
    IsName r.table ∧ IsName r.field ∧ ∃ lead gap trail : List Char,
      (∀ c ∈ lead, isBlank c = true) ∧ (∀ c ∈ gap, isBlank c = true) ∧
      (∀ c ∈ trail, isBlank c = true) ∧
      rest = lead ++ r.direction.sign :: (gap ++ (qualified r.table r.field ++ trail)) := by
  have hblank : ∀ s : List Char, ∀ c ∈ s.takeWhile isBlank, isBlank c = true :=
    fun s c hc => List.mem_takeWhile_imp hc
  obtain ⟨c₁, hlead, hc₁, -⟩ := skipBlanks_ok hc
  rw [scanReference, bind_of_ok hlead] at h
  rcases scanDirection_cases setting hc₁ with ⟨d, behind, c₂, hsign, hread, hc₂⟩ |
    ⟨fault, c₂, hread⟩
  · obtain ⟨c₃, hgap, hc₃, -⟩ := skipBlanks_ok hc₂
    rw [bind_of_ok hread, bind_of_ok hgap] at h
    rcases readQualifiedName_cases hc₃ with ⟨table, field, after, c₄, hnames, htable, hfield,
      hread', hc₄⟩ | ⟨fault, c₄, hread'⟩
    · obtain ⟨c₅, htrail, hc₅, -⟩ := skipBlanks_ok hc₄
      rw [bind_of_ok hread'] at h
      dsimp only at h
      rw [bind_of_ok htrail] at h
      have h : (if c₅.atEnd = true then pure ⟨d, table, field⟩
          else throw (.textAfterReference setting) : Scan text Reference) c₅ = .ok r c' := h
      by_cases hend : c₅.atEnd = true
      · -- only blanks stand behind the names
        have hafter : after.takeWhile isBlank = after := by
          have hall := List.takeWhile_append_dropWhile (p := isBlank) (l := after)
          rwa [hc₅.atEnd_iff.1 hend, List.append_nil] at hall
        rw [if_pos hend] at h
        injection h with hr _
        subst hr
        refine ⟨htable, hfield, rest.takeWhile isBlank, behind.takeWhile isBlank, after,
          hblank rest, hblank behind, hafter ▸ hblank after, ?_⟩
        show rest = rest.takeWhile isBlank ++
          d.sign :: (behind.takeWhile isBlank ++ (qualified table field ++ after))
        rw [← hnames, List.takeWhile_append_dropWhile, ← hsign, List.takeWhile_append_dropWhile]
      · rw [if_neg hend] at h
        cases h
    · rw [bind_of_error hread'] at h
      cases h
  · rw [bind_of_error hread] at h
    cases h

end

/-! ## Settings -/

variable {setting : List Char} {r : Reference}

/-- A setting that says a reference is read as it. -/
theorem Reference.SaidBy.ofSetting_eq (h : r.SaidBy setting) :
    Reference.ofSetting setting = .ok r := by
  obtain ⟨htable, hfield, lead, gap, trail, hlead, hgap, htrail, rfl⟩ := h
  obtain ⟨_, c, hread, rfl⟩ := (scanReference_reads _ htable hfield hlead hgap htrail).startAt
  rw [Reference.ofSetting, List.drop_left, hread]

/-- **A setting with the reference mark** is read as a reference exactly when it says it. -/
theorem Reference.ofSetting_eq_ok_iff (hmark : referenceMark <+: setting) :
    Reference.ofSetting setting = .ok r ↔ r.SaidBy setting := by
  constructor
  · intro h
    obtain ⟨rest, rfl⟩ := hmark
    rw [Reference.ofSetting, List.drop_left] at h
    split at h
    · next read c hread =>
      cases h
      obtain ⟨htable, hfield, lead, gap, trail, hlead, hgap, htrail, rfl⟩ :=
        exists_of_scanReference (Cursor.startAt_followedBy rest) hread
      exact ⟨htable, hfield, lead, gap, trail, hlead, hgap, htrail, rfl⟩
    · cases h
  · exact Reference.SaidBy.ofSetting_eq

theorem Reference.SaidBy.mark (h : r.SaidBy setting) : referenceMark <+: setting := by
  obtain ⟨-, -, lead, gap, trail, -, -, -, rfl⟩ := h
  exact List.prefix_append _ _

/-- A setting says one reference only. -/
theorem Reference.SaidBy.iff_eq (h : r.SaidBy setting) (r' : Reference) :
    r'.SaidBy setting ↔ r' = r := by
  constructor
  · intro h'
    exact Except.ok.inj (h'.ofSetting_eq.symm.trans h.ofSetting_eq)
  · rintro rfl
    exact h

/-- The first reference that settings say, if one of them says one, and the settings before it. -/
inductive FirstSaid : List (List Char) → Option Reference → List (List Char) → Prop
  | said {earlier later : List (List Char)} {setting : List Char} {r : Reference}
    (hr : ∀ r' : Reference, r'.SaidBy setting ↔ r' = r)
    (hearlier : ∀ s ∈ earlier, ∀ r' : Reference, ¬ r'.SaidBy s) :
    FirstSaid (earlier ++ setting :: later) (some r) earlier
  | unsaid {settings : List (List Char)} (h : ∀ s ∈ settings, ∀ r' : Reference, ¬ r'.SaidBy s) :
    FirstSaid settings none settings

/-- A setting before the others that says no reference. -/
theorem FirstSaid.cons {settings earlier : List (List Char)} {found : Option Reference}
    (h : FirstSaid settings found earlier) (hsetting : ∀ r : Reference, ¬ r.SaidBy setting) :
    FirstSaid (setting :: settings) found (setting :: earlier) := by
  cases h with
  | said hr hearlier => exact .said hr (List.forall_mem_cons.2 ⟨hsetting, hearlier⟩)
  | unsaid h => exact .unsaid (List.forall_mem_cons.2 ⟨hsetting, h⟩)

/-- **The search for a reference** ends at the first setting that says one, and every malformed
setting before it has its fault. -/
theorem firstSaid_firstReference (settings : List (List Char)) :
    ∃ earlier, FirstSaid settings (firstReference settings).1 earlier ∧
      List.Forall₂ (fun setting fault => Reference.ofSetting setting = .error fault)
        (earlier.filter fun setting => referenceMark.isPrefixOf setting)
        (firstReference settings).2 := by
  induction settings with
  | nil => exact ⟨[], .unsaid (by simp), .nil⟩
  | cons setting rest ih =>
    obtain ⟨earlier, hfirst, hfaults⟩ := ih
    rw [firstReference]
    by_cases hmark : referenceMark.isPrefixOf setting = true
    · rw [if_pos hmark]
      have hiff := fun r : Reference =>
        Reference.ofSetting_eq_ok_iff (r := r) (List.isPrefixOf_iff_prefix.1 hmark)
      cases hread : Reference.ofSetting setting with
      | ok r =>
        have hsaid : FirstSaid ([] ++ setting :: rest) (some r) [] :=
          .said ((hiff r).1 hread).iff_eq (by simp)
        exact ⟨[], hsaid, .nil⟩
      | error fault =>
        have hno : ∀ r : Reference, ¬ r.SaidBy setting := by
          intro r hr
          rw [← hiff r, hread] at hr
          cases hr
        refine ⟨setting :: earlier, hfirst.cons hno, ?_⟩
        rw [List.filter_cons_of_pos hmark]
        exact .cons hread hfaults
    · rw [if_neg hmark]
      have hno : ∀ r : Reference, ¬ r.SaidBy setting := fun r hr =>
        hmark (List.isPrefixOf_iff_prefix.2 hr.mark)
      refine ⟨setting :: earlier, hfirst.cons hno, ?_⟩
      rwa [List.filter_cons_of_neg hmark]

/-! ## Field lines -/

/-- **The reference of a field line** is the first one that its settings say, and each malformed
setting before it gives an issue on the line of the field, in order; the settings behind it give
none. -/
theorem Field.ofLine?_reference (line : Nat) {text : List Char} (h : words text ≠ []) :
    ∃ f issues earlier, Field.ofLine? line text = some (f, issues) ∧
      FirstSaid (bracketSettings (unwords ((words text).drop 2))) f.reference earlier ∧
      List.Forall₂ (fun setting issue => issue.line = line ∧
          ∃ fault, issue.cause = .field f.name fault ∧ Reference.ofSetting setting = .error fault)
        (earlier.filter fun setting => referenceMark.isPrefixOf setting) issues := by
  obtain ⟨name, rest, hwords⟩ := List.exists_cons_of_ne_nil h
  obtain ⟨earlier, hfirst, hfaults⟩ :=
    firstSaid_firstReference (bracketSettings (unwords ((words text).drop 2)))
  rw [hwords] at hfirst hfaults ⊢
  have hline : Field.ofLine? line text = some (Field.ofWords line name rest) := by
    rw [Field.ofLine?, hwords]
  refine ⟨_, _, earlier, hline, hfirst, ?_⟩
  exact List.forall₂_map_right_iff.2
    (hfaults.imp fun setting fault hfault => ⟨rfl, fault, rfl, hfault⟩)

/-- A field line with two malformed references before the one that counts, and one behind it. -/
def crookedField : List Char :=
  " up  int [ref: a.b, key] x[ref: > a.b c,ref:<a.b ] [ref: <> a.b] [not null".toList

theorem Field.ofLine?_reference_crooked :
    words crookedField ≠ [] ∧ ∃ f issues earlier, Field.ofLine? 4 crookedField = some (f, issues) ∧
      FirstSaid (bracketSettings (unwords ((words crookedField).drop 2))) f.reference earlier ∧
      List.Forall₂ (fun setting issue => issue.line = 4 ∧
          ∃ fault, issue.cause = .field f.name fault ∧ Reference.ofSetting setting = .error fault)
        (earlier.filter fun setting => referenceMark.isPrefixOf setting) issues := by
  have hwords : words crookedField ≠ [] := by decide +kernel
  exact ⟨hwords, Field.ofLine?_reference 4 hwords⟩

example : (Field.ofLine? 4 crookedField).map (fun read => (read.1.reference, read.2)) =
    some (some ⟨.fromTarget, "a", "b"⟩,
      [⟨4, .field "up" (.unsupportedDirection "ref: a.b".toList)⟩,
        ⟨4, .field "up" (.textAfterReference "ref: > a.b c".toList)⟩]) := by
  decide +kernel

end SchemaDiagram
