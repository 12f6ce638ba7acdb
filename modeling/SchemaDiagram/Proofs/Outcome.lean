/-
# Computations that succeed

A computation that can fail is taken apart by what it gives when it succeeds: a sequence succeeds
when its parts do, and a fold succeeds when each of its steps does.

* `bind_eq_ok`, `map_eq_ok`, `lift_eq_ok` : a sequence, a value that is changed, and a step whose
  faults are wrapped;
* `exists_of_isOk`, `exists_of_toOption_any`, `exists_of_map_some` : a computation that is found to
  succeed;
* `mapM_eq_ok`, `exists_mapM_iff`, `forall₂_of_mapM`, `exists_of_mem_mapM`, `map_eq_of_mapM` : steps
  that all succeed;
* `foldlM_invariant` : what every successful step keeps holds after a successful fold;
* `Succeeds` : that a computation has a value with a property, closed under sequencing.
-/
import Mathlib.Data.List.Forall2
import SchemaDiagram.Canvas.Fault

namespace SchemaDiagram

variable {ε α β : Type}

/-- A sequence succeeds when its first part does and the second one does with the value. -/
theorem bind_eq_ok {x : Except ε α} {f : α → Except ε β} {b : β} :
    x >>= f = .ok b ↔ ∃ a, x = .ok a ∧ f a = .ok b := by
  cases x with
  | error fault =>
    constructor
    · intro h
      exact nomatch h
    · rintro ⟨a, h, -⟩
      exact nomatch h
  | ok a =>
    constructor
    · intro h
      exact ⟨a, rfl, h⟩
    · rintro ⟨a', h, hf⟩
      cases h
      exact hf

/-- A computation that succeeds has a value. -/
theorem exists_of_isOk {x : Except ε α} (h : x.isOk = true) : ∃ a, x = .ok a := by
  cases x with
  | error fault => exact nomatch h
  | ok a => exact ⟨a, rfl⟩

/-- A computation of which a test says that it succeeds has a value that passes the test. -/
theorem exists_of_toOption_any {x : Except ε α} {p : α → Bool} (h : x.toOption.any p = true) :
    ∃ a, x = .ok a ∧ p a = true := by
  cases x with
  | error fault => exact nomatch h
  | ok a => exact ⟨a, rfl, h⟩

theorem pure_eq_ok {a b : α} : (pure a : Except ε α) = .ok b ↔ a = b := by
  show Except.ok a = .ok b ↔ a = b
  rw [Except.ok.injEq]

/-- What is made of a value is there exactly when the value is. -/
theorem exists_bind_pure_iff {x : Except ε α} {f : α → β} :
    (∃ b, (x >>= fun a => pure (f a)) = .ok b) ↔ ∃ a, x = .ok a := by
  constructor
  · rintro ⟨b, h⟩
    obtain ⟨a, ha, -⟩ := bind_eq_ok.1 h
    exact ⟨a, ha⟩
  · rintro ⟨a, ha⟩
    exact ⟨f a, bind_eq_ok.2 ⟨a, ha, rfl⟩⟩

/-- What is made of a value is there when the value is. -/
theorem map_eq_ok {x : Except ε α} {f : α → β} {b : β} :
    f <$> x = .ok b ↔ ∃ a, x = .ok a ∧ f a = b := by
  rw [map_eq_pure_bind, bind_eq_ok]
  simp only [pure_eq_ok]

/-- What is made of a value that may be missing is there only when the value is. -/
theorem exists_of_map_some {x : Except ε (Option α)} {f : α → β} {b : β}
    (h : x.map (Option.map f) = .ok (some b)) : ∃ a, x = .ok (some a) ∧ f a = b := by
  obtain ⟨found, hfound, hmap⟩ := map_eq_ok.1 h
  obtain ⟨a, rfl, hb⟩ := Option.map_eq_some_iff.1 hmap
  exact ⟨a, hfound, hb⟩

/-- An arithmetic step of a drawing succeeds when the arithmetic does. -/
theorem lift_eq_ok {x : Except ArithmeticFault α} {a : α} :
    (liftM x : Except DrawingFault α) = .ok a ↔ x = .ok a := by
  cases x with
  | error fault =>
    constructor
    · intro h
      exact nomatch h
    · intro h
      exact nomatch h
  | ok b =>
    show Except.ok b = .ok a ↔ _
    rw [Except.ok.injEq, Except.ok.injEq]

/-- Steps that all succeed give the list of their values. -/
theorem mapM_eq_ok {f : α → Except ε β} {g : α → β} {l : List α} (h : ∀ a ∈ l, f a = .ok (g a)) :
    l.mapM f = .ok (l.map g) := by
  induction l with
  | nil => rfl
  | cons a rest ih =>
    rw [List.mapM_cons, h a List.mem_cons_self, ih fun b hb => h b (List.mem_cons_of_mem a hb)]
    rfl

/-- Where the steps for all elements succeed, each value is that of its element. -/
theorem forall₂_of_mapM {f : α → Except ε β} {l : List α} {values : List β}
    (h : l.mapM f = .ok values) : List.Forall₂ (fun a b => f a = .ok b) l values := by
  induction l generalizing values with
  | nil =>
    rw [List.mapM_nil, pure_eq_ok] at h
    rw [← h]
    exact .nil
  | cons a rest ih =>
    rw [List.mapM_cons, bind_eq_ok] at h
    obtain ⟨b, hb, h⟩ := h
    obtain ⟨others, hothers, h⟩ := bind_eq_ok.1 h
    rw [← pure_eq_ok.1 h]
    exact .cons hb (ih hothers)

/-- All values of a list have an outcome exactly when each of them has one. -/
theorem exists_mapM_iff {f : α → Except ε β} {l : List α} :
    (∃ values, l.mapM f = .ok values) ↔ ∀ a ∈ l, ∃ b, f a = .ok b := by
  induction l with
  | nil => exact iff_of_true ⟨[], rfl⟩ fun _ h => absurd h List.not_mem_nil
  | cons a rest ih =>
    rw [List.forall_mem_cons, ← ih]
    constructor
    · rintro ⟨values, h⟩
      rw [List.mapM_cons] at h
      obtain ⟨b, hb, h⟩ := bind_eq_ok.1 h
      obtain ⟨others, hothers, -⟩ := bind_eq_ok.1 h
      exact ⟨⟨b, hb⟩, others, hothers⟩
    · rintro ⟨⟨b, hb⟩, others, hothers⟩
      refine ⟨b :: others, ?_⟩
      rw [List.mapM_cons]
      exact bind_eq_ok.2 ⟨b, hb, bind_eq_ok.2 ⟨others, hothers, rfl⟩⟩

/-- Where the steps for all elements succeed, every value is that of an element. -/
theorem exists_of_mem_mapM {f : α → Except ε β} {l : List α} {values : List β}
    (h : l.mapM f = .ok values) {b : β} (hb : b ∈ values) : ∃ a ∈ l, f a = .ok b := by
  obtain ⟨hlength, heach⟩ := List.forall₂_iff_get.1 (forall₂_of_mapM h)
  obtain ⟨i, hi, rfl⟩ := List.getElem_of_mem hb
  exact ⟨_, List.getElem_mem (hlength ▸ hi), heach i (hlength ▸ hi) hi⟩

/-- What each value shares with its element, the lists share. -/
theorem map_eq_of_mapM {γ : Type} {f : α → Except ε β} {g : α → γ} {g' : β → γ} {l : List α}
    {values : List β} (hshared : ∀ a b, f a = .ok b → g' b = g a) (h : l.mapM f = .ok values) :
    values.map g' = l.map g := by
  have heach := forall₂_of_mapM h
  clear h
  induction heach with
  | nil => rfl
  | cons hvalue _ ih => rw [List.map_cons, List.map_cons, hshared _ _ hvalue, ih]

/-- What every successful step of a fold keeps, about the elements that were passed, holds of all
elements after the fold. -/
theorem foldlM_invariant {step : β → α → Except ε β} {l : List α} (I : List α → β → Prop)
    (hstep : ∀ before a after b b', l = before ++ a :: after → I before b →
      step b a = .ok b' → I (before ++ [a]) b')
    {start finish : β} (hstart : I [] start) (h : l.foldlM step start = .ok finish) :
    I l finish := by
  suffices hgen : ∀ (after before : List α) (b : β), l = before ++ after → I before b →
      after.foldlM step b = .ok finish → I l finish from hgen l [] start rfl hstart h
  intro after
  induction after with
  | nil =>
    intro before b hl hb hfold
    rw [List.append_nil] at hl
    rw [List.foldlM_nil, pure_eq_ok] at hfold
    rw [hl, ← hfold]
    exact hb
  | cons a rest ih =>
    intro before b hl hb hfold
    rw [List.foldlM_cons, bind_eq_ok] at hfold
    obtain ⟨b', hb', hrest⟩ := hfold
    refine ih (before ++ [a]) b' ?_ (hstep before a rest b b' hl hb hb') hrest
    rw [hl, List.append_assoc, List.singleton_append]

/-! ## Computations that do succeed -/

/-- That a computation succeeds with a value that has a property. -/
def Succeeds (x : Except ε α) (P : α → Prop) : Prop := ∃ a, x = .ok a ∧ P a

namespace Succeeds

variable {x : Except ε α} {f : α → Except ε β} {P P' : α → Prop} {Q : β → Prop}

theorem ok {a : α} (h : P a) : Succeeds (.ok a : Except ε α) P := ⟨a, rfl, h⟩

theorem mono (hx : Succeeds x P) (h : ∀ a, P a → P' a) : Succeeds x P' := by
  obtain ⟨a, ha, hP⟩ := hx
  exact ⟨a, ha, h a hP⟩

theorem bind (hx : Succeeds x P) (hf : ∀ a, P a → Succeeds (f a) Q) : Succeeds (x >>= f) Q := by
  obtain ⟨a, ha, hP⟩ := hx
  obtain ⟨b, hb, hQ⟩ := hf a hP
  exact ⟨b, bind_eq_ok.2 ⟨a, ha, hb⟩, hQ⟩

theorem lift {x : Except ArithmeticFault α} (hx : Succeeds x P) :
    Succeeds (liftM x : Except DrawingFault α) P := by
  obtain ⟨a, ha, hP⟩ := hx
  exact ⟨a, lift_eq_ok.2 ha, hP⟩

/-- Steps that all succeed. -/
theorem mapM {l : List α} (h : ∀ a ∈ l, Succeeds (f a) Q) :
    Succeeds (l.mapM f) fun values => ∀ b ∈ values, Q b := by
  induction l with
  | nil => exact ok fun b hb => absurd hb List.not_mem_nil
  | cons a rest ih =>
    rw [List.mapM_cons]
    refine (h a List.mem_cons_self).bind fun b hb => ?_
    refine (ih fun a' ha' => h a' (List.mem_cons_of_mem a ha')).bind fun values hvalues => ?_
    exact ok (List.forall_mem_cons.2 ⟨hb, hvalues⟩)

/-- A fold of which every step succeeds and keeps an invariant. -/
theorem foldlM {step : β → α → Except ε β} {l : List α} {start : β}
    (hstep : ∀ b, Q b → ∀ a ∈ l, Succeeds (step b a) Q) (hstart : Q start) :
    Succeeds (l.foldlM step start) Q := by
  induction l generalizing start with
  | nil => exact ok hstart
  | cons a rest ih =>
    rw [List.foldlM_cons]
    refine (hstep start hstart a List.mem_cons_self).bind fun b hb => ?_
    exact ih (fun b' hb' a' ha' => hstep b' hb' a' (List.mem_cons_of_mem a ha')) hb

end Succeeds

end SchemaDiagram
