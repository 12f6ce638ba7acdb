/-
# Line ends with carriage returns

A text may end its lines with a carriage return and a newline.  Offsets in it are later by the
carriage returns before them.  A carriage return is a blank, so a name ends where it ended, and
blanks end where they ended.

* `Text.withReturns` : a text with a carriage return before each newline;
* `Text.exists_of_withReturns_eq_append` : where such a text can be cut;
* `Text.dropWhile_withReturns`, `Text.takeWhile_withReturns` : what stands in front of it;
* `Text.returnedOffset` : the offset in such a text of an offset in the text.
-/
import Mathlib.Data.List.Induction
import Mathlib.Data.List.TakeWhile
import SchemaDiagram.Proofs.Text.Lines

namespace SchemaDiagram

namespace Text

/-- A text with a carriage return before each newline. -/
def withReturns (text : List Char) : List Char :=
  text.flatMap fun c => if c = '\n' then ['\r', '\n'] else [c]

variable {s r text : List Char} {c : Char} {j k : Nat}

theorem withReturns_append (s r : List Char) :
    withReturns (s ++ r) = withReturns s ++ withReturns r := List.flatMap_append

theorem withReturns_cons_newline (s : List Char) :
    withReturns ('\n' :: s) = '\r' :: '\n' :: withReturns s := rfl

theorem withReturns_cons (hc : c ≠ '\n') (s : List Char) :
    withReturns (c :: s) = c :: withReturns s := by
  rw [withReturns, List.flatMap_cons, if_neg hc]
  rfl

/-- Without newlines nothing is put in. -/
theorem withReturns_eq_self (h : '\n' ∉ s) : withReturns s = s := by
  induction s with
  | nil => rfl
  | cons c s ih =>
    obtain ⟨hc, hs⟩ := not_or.1 (mt List.mem_cons.2 h)
    rw [withReturns_cons (Ne.symm hc), ih hs]

/-- Only carriage returns are put in. -/
theorem mem_withReturns_iff (hc : c ≠ '\r') : c ∈ withReturns s ↔ c ∈ s := by
  induction s with
  | nil => exact Iff.rfl
  | cons x s ih =>
    by_cases hx : x = '\n'
    · subst hx
      rw [withReturns_cons_newline, List.mem_cons, List.mem_cons, List.mem_cons, ih,
        or_iff_right hc]
    · rw [withReturns_cons hx, List.mem_cons, List.mem_cons, ih]

/-- The newlines stay. -/
theorem count_newline_withReturns (s : List Char) :
    (withReturns s).count '\n' = s.count '\n' := by
  induction s with
  | nil => rfl
  | cons x s ih =>
    by_cases hx : x = '\n'
    · subst hx
      rw [withReturns_cons_newline, List.count_cons_of_ne (by decide), List.count_cons_self,
        List.count_cons_self, ih]
    · rw [withReturns_cons hx, List.count_cons, List.count_cons, ih]

/-! ## Cutting -/

/-- A cut that is not between a carriage return and its newline is one of the text itself. -/
theorem exists_of_withReturns_eq_append {front back : List Char}
    (h : withReturns text = front ++ back) (hback : back.head? ≠ some '\n') :
    ∃ s r, text = s ++ r ∧ withReturns s = front ∧ withReturns r = back := by
  induction text generalizing front with
  | nil =>
    obtain ⟨rfl, rfl⟩ := List.append_eq_nil_iff.1 h.symm
    exact ⟨[], [], rfl, rfl, rfl⟩
  | cons c text ih =>
    cases front with
    | nil => exact ⟨[], c :: text, rfl, rfl, h⟩
    | cons x front =>
      by_cases hc : c = '\n'
      · subst hc
        rw [withReturns_cons_newline, List.cons_append] at h
        obtain ⟨rfl, hbehind⟩ := List.cons.inj h
        cases front with
        | nil =>
          rw [← List.nil_append back, ← hbehind] at hback
          exact absurd rfl hback
        | cons y front =>
          rw [List.cons_append] at hbehind
          obtain ⟨rfl, htail⟩ := List.cons.inj hbehind
          obtain ⟨s, r, rfl, hs, hr⟩ := ih htail
          refine ⟨'\n' :: s, r, rfl, ?_, hr⟩
          rw [withReturns_cons_newline, hs]
      · rw [withReturns_cons hc, List.cons_append] at h
        obtain ⟨rfl, htail⟩ := List.cons.inj h
        obtain ⟨s, r, rfl, hs, hr⟩ := ih htail
        refine ⟨c :: s, r, rfl, ?_, hr⟩
        rw [withReturns_cons hc, hs]

/-- A front without line ends is the front of the text itself. -/
theorem exists_of_withReturns_eq_plain {front back : List Char}
    (h : withReturns text = front ++ back) (hnewline : '\n' ∉ front) (hreturn : '\r' ∉ front) :
    ∃ r, text = front ++ r ∧ withReturns r = back := by
  induction front generalizing text with
  | nil => exact ⟨text, rfl, h⟩
  | cons x front ih =>
    have hnewline' := (not_or.1 (mt List.mem_cons.2 hnewline)).2
    obtain ⟨hx, hreturn'⟩ := not_or.1 (mt List.mem_cons.2 hreturn)
    cases text with
    | nil => cases h
    | cons c text =>
      by_cases hc : c = '\n'
      · subst hc
        rw [withReturns_cons_newline, List.cons_append] at h
        exact absurd (List.cons.inj h).1 hx
      · rw [withReturns_cons hc, List.cons_append] at h
        obtain ⟨rfl, htail⟩ := List.cons.inj h
        obtain ⟨r, rfl, hr⟩ := ih htail hnewline' hreturn'
        exact ⟨r, rfl, hr⟩

/-! ## Fronts -/

section

variable {p : Char → Bool}

/-- What has both characters of a line end, or none of them, stops where it did. -/
theorem dropWhile_withReturns (h : p '\r' = p '\n') (s : List Char) :
    (withReturns s).dropWhile p = withReturns (s.dropWhile p) := by
  induction s with
  | nil => rfl
  | cons c s ih =>
    by_cases hc : c = '\n'
    · subst hc
      cases hp : p '\n' with
      | true =>
        rw [withReturns_cons_newline, List.dropWhile_cons_of_pos (h.trans hp),
          List.dropWhile_cons_of_pos hp, List.dropWhile_cons_of_pos hp, ih]
      | false =>
        have hno : ¬ p '\n' = true := by simp [hp]
        rw [List.dropWhile_cons_of_neg hno, withReturns_cons_newline,
          List.dropWhile_cons_of_neg (by rwa [h])]
    · cases hp : p c with
      | true =>
        rw [withReturns_cons hc, List.dropWhile_cons_of_pos hp, List.dropWhile_cons_of_pos hp, ih]
      | false =>
        have hno : ¬ p c = true := by simp [hp]
        rw [List.dropWhile_cons_of_neg hno, withReturns_cons hc, List.dropWhile_cons_of_neg hno]

/-- What has none of the characters of a line end is in front as it was. -/
theorem takeWhile_withReturns (hnewline : p '\n' = false) (hreturn : p '\r' = false)
    (s : List Char) : (withReturns s).takeWhile p = s.takeWhile p := by
  induction s with
  | nil => rfl
  | cons c s ih =>
    by_cases hc : c = '\n'
    · subst hc
      rw [withReturns_cons_newline, List.takeWhile_cons_of_neg (by simp [hreturn]),
        List.takeWhile_cons_of_neg (by simp [hnewline])]
    · rw [withReturns_cons hc, List.takeWhile_cons, List.takeWhile_cons, ih]

end

/-- A text that does not start with a newline starts as it did. -/
theorem head?_withReturns (h : s.head? ≠ some '\n') : (withReturns s).head? = s.head? := by
  cases s with
  | nil => rfl
  | cons c s => rw [withReturns_cons (fun hc => h (hc ▸ rfl)), List.head?_cons, List.head?_cons]

/-- What has both characters of a line end, or none of them, stands in front where it did. -/
theorem forall_mem_head?_withReturns {p : Char → Bool} (h : p '\r' = p '\n') (s : List Char) :
    (∀ c ∈ (withReturns s).head?, p c = false) ↔ ∀ c ∈ s.head?, p c = false := by
  cases s with
  | nil => exact Iff.rfl
  | cons c s =>
    by_cases hc : c = '\n'
    · subst hc
      simp [withReturns_cons_newline, h]
    · rw [withReturns_cons hc, List.head?_cons, List.head?_cons]

theorem getLast?_withReturns (s : List Char) : (withReturns s).getLast? = s.getLast? := by
  rcases List.eq_nil_or_concat s with rfl | ⟨s, c, rfl⟩
  · rfl
  · rw [List.concat_eq_append, withReturns_append, List.getLast?_append, List.getLast?_append]
    by_cases hc : c = '\n'
    · subst hc
      rfl
    · rw [withReturns_cons hc]
      rfl

/-- The last line begins where it did. -/
theorem takeWhile_reverse_withReturns (s : List Char) :
    (withReturns s).reverse.takeWhile (· ≠ '\n') = s.reverse.takeWhile (· ≠ '\n') := by
  induction s using List.reverseRecOn with
  | nil => rfl
  | append_singleton s c ih =>
    rw [withReturns_append, List.reverse_append, List.reverse_append]
    by_cases hc : c = '\n'
    · subst hc
      rfl
    · rw [withReturns_cons hc]
      show ((c :: (withReturns s).reverse).takeWhile _) = (c :: s.reverse).takeWhile _
      rw [List.takeWhile_cons, List.takeWhile_cons, ih]

/-! ## Offsets -/

/-- The offset that an offset of a text has once carriage returns are put in. -/
def returnedOffset (text : List Char) (k : Nat) : Nat := (withReturns (text.take k)).length

theorem returnedOffset_zero (text : List Char) : returnedOffset text 0 = 0 := rfl

theorem returnedOffset_append (s r : List Char) :
    returnedOffset (s ++ r) s.length = (withReturns s).length := by
  rw [returnedOffset, List.take_left]

theorem take_returnedOffset (text : List Char) (k : Nat) :
    (withReturns text).take (returnedOffset text k) = withReturns (text.take k) := by
  have hsplit := withReturns_append (text.take k) (text.drop k)
  rw [List.take_append_drop] at hsplit
  rw [returnedOffset, hsplit, List.take_left]

theorem drop_returnedOffset (text : List Char) (k : Nat) :
    (withReturns text).drop (returnedOffset text k) = withReturns (text.drop k) := by
  have hsplit := withReturns_append (text.take k) (text.drop k)
  rw [List.take_append_drop] at hsplit
  rw [returnedOffset, hsplit, List.drop_left]

/-- Later offsets stay later. -/
theorem returnedOffset_lt (hjk : j < k) (hk : k ≤ text.length) :
    returnedOffset text j < returnedOffset text k := by
  have hsplit : text.take k = text.take j ++ (text.take k).drop j := by
    have htake : (text.take k).take j = text.take j := by
      rw [List.take_take, Nat.min_eq_left (by omega)]
    rw [← htake, List.take_append_drop]
  have hne : (text.take k).drop j ≠ [] := by
    intro hnil
    have hlen := congrArg List.length hnil
    rw [List.length_drop, List.length_take, Nat.min_eq_left hk, List.length_nil] at hlen
    omega
  obtain ⟨c, rest, hcons⟩ := List.exists_cons_of_ne_nil hne
  rw [returnedOffset, returnedOffset, hsplit, withReturns_append, List.length_append, hcons]
  have hpos : 0 < (withReturns (c :: rest)).length := by
    by_cases hc : c = '\n'
    · subst hc
      exact Nat.succ_pos _
    · rw [withReturns_cons hc]
      exact Nat.succ_pos _
  omega

theorem returnedOffset_le_iff (hj : j ≤ text.length) (hk : k ≤ text.length) :
    returnedOffset text j ≤ returnedOffset text k ↔ j ≤ k := by
  constructor
  · exact fun hle => Nat.le_of_not_lt fun hlt => absurd (returnedOffset_lt hlt hj) (by omega)
  · intro hle
    rcases Nat.eq_or_lt_of_le hle with rfl | hlt
    · exact Nat.le_refl _
    · exact Nat.le_of_lt (returnedOffset_lt hlt hk)

/-- Behind a part without newlines the offset is later by its length. -/
theorem returnedOffset_add {part : List Char} (hpart : part <+: text.drop k)
    (hnewline : '\n' ∉ part) :
    returnedOffset text (k + part.length) = returnedOffset text k + part.length := by
  obtain ⟨rest, hrest⟩ := hpart
  rw [returnedOffset, List.take_add, ← hrest, List.take_left, withReturns_append,
    withReturns_eq_self hnewline, List.length_append]
  rfl

end Text

end SchemaDiagram
