/-
# Texts in JSON

A text is written in ASCII, with one or two code units for every other character, and read from
its code units.

* `Text.hexNumber?_hexDigits` : the digits of a code unit;
* `JsonToken.units?_escapeChar` : the code units of a character;
* `LooseText.charsOfUnits_unitsOf` : the characters of these code units;
* `JsonToken.units?_flatMap_escapeChar` : a whole text.
-/
import Mathlib.Data.Nat.Notation
import Mathlib.Tactic.Common
import SchemaDiagram.Json.Token
import SchemaDiagram.Json.Writer

namespace SchemaDiagram

/-! ## Hexadecimal digits -/

namespace Text

theorem hexValue?_digitChar {n : ℕ} (h : n < 16) : hexValue? (Nat.digitChar n) = some n := by
  decide +revert

theorem hexNumber?_concat (cs : List Char) (c : Char) :
    hexNumber? (cs ++ [c]) =
      (hexNumber? cs).bind fun n => (hexValue? c).map (16 * n + ·) := by
  rw [hexNumber?, List.foldlM_append]
  simp only [List.foldlM_cons, List.foldlM_nil, bind_pure]
  rfl

/-- The hexadecimal digits of a number denote it. -/
theorem hexNumber?_toDigits (n : ℕ) : hexNumber? (Nat.toDigits 16 n) = some n := by
  induction n using Nat.strongRecOn with
  | ind n ih =>
    rcases Nat.lt_or_ge n 16 with hlt | hge
    · rw [Nat.toDigits_of_lt_base hlt, hexNumber?, List.foldlM_cons, hexValue?_digitChar hlt]
      simp
    · rw [Nat.toDigits_of_base_le (by decide) hge, hexNumber?_concat, ih (n / 16) (by omega),
        Option.bind_some, hexValue?_digitChar (Nat.mod_lt n (by decide)), Option.map_some,
        Nat.div_add_mod]

/-- Zeros in front of hexadecimal digits do not count. -/
theorem hexNumber?_replicate_append (k : ℕ) (cs : List Char) :
    hexNumber? (List.replicate k '0' ++ cs) = hexNumber? cs := by
  induction k with
  | zero => rfl
  | succ k ih => exact ih

theorem hexNumber?_hexDigits (width n : ℕ) : hexNumber? (hexDigits width n) = some n := by
  rw [hexDigits, hexNumber?_replicate_append, hexNumber?_toDigits]

/-- Four hexadecimal digits are enough for a code unit. -/
theorem length_hexDigits {n : ℕ} (h : n < 0x10000) : (hexDigits 4 n).length = 4 := by
  have hle : (Nat.toDigits 16 n).length ≤ 4 :=
    (Nat.length_toDigits_le_iff (by decide) (by decide)).2 h
  rw [hexDigits, List.length_append, List.length_replicate]
  omega

end Text

/-! ## Code units -/

/-- The code units of a character: its code point, or the halves of a pair. -/
def unitsOf (c : Char) : List ℕ :=
  if c.toNat < 0x10000 then [c.toNat]
  else [0xD800 + (c.toNat - 0x10000) / 0x400, 0xDC00 + (c.toNat - 0x10000) % 0x400]

theorem toNat_lt_limit (c : Char) : c.toNat < 0x110000 := by
  rcases c.valid with h | ⟨-, h⟩
  · exact Nat.lt_trans h (by decide)
  · exact h

namespace JsonToken

open Json

variable {rest : List Char}

/-- An escaped code unit is read as that code unit. -/
theorem units?_unitEscape {n : ℕ} (h : n < 0x10000) :
    units? (unitEscape n ++ rest) = consUnit (some n) (units? rest) := by
  have hlength := Text.length_hexDigits h
  have hvalue := Text.hexNumber?_hexDigits 4 n
  rw [unitEscape]
  match Text.hexDigits 4 n, hlength, hvalue with
  | [a, b, c, d], _, hvalue =>
    show units? ('\\' :: 'u' :: a :: b :: c :: d :: rest) = _
    rw [units?, hvalue]

/-- An escape of one letter is read as the code unit that it stands for. -/
theorem units?_shortEscape {c : Char} {n : ℕ} (hc : c ≠ 'u') (h : shortEscape? c = some n) :
    units? ('\\' :: c :: rest) = consUnit (some n) (units? rest) := by
  rw [units?, h]
  intro _ _ _ _ _ hu
  exact absurd hu hc

/-- A character that is not escaped is read as its code point. -/
theorem units?_plain {c : Char} (hquote : c ≠ '\x22') (hbackslash : c ≠ '\\')
    (h : 0x20 ≤ c.toNat) : units? (c :: rest) = consUnit (some c.toNat) (units? rest) := by
  rw [units?, if_neg (Nat.not_lt.2 h)]
  · exact hquote
  · intro _ _ _ _ _ hb
    exact absurd hb hbackslash
  · intro _ _ hb
    exact absurd hb hbackslash

theorem consUnit_some (unit : ℕ) (tail : Option (List ℕ × List Char)) :
    consUnit (some unit) tail = tail.map fun t => (unit :: t.1, t.2) := by
  cases tail with
  | none => rfl
  | some t => rfl

/-- A character is escaped by a letter, or it stands for itself, or it is escaped as its code
point, or as the halves of a pair. -/
theorem escapeChar_cases (c : Char) :
    c.toNat < 0x10000 ∧ ((∃ letter, letter ≠ 'u' ∧ shortEscape? letter = some c.toNat ∧
        escapeChar c = ['\\', letter]) ∨
      (c ≠ '\x22' ∧ c ≠ '\\' ∧ 0x20 ≤ c.toNat ∧ escapeChar c = [c]) ∨
      escapeChar c = unitEscape c.toNat) ∨
    0x10000 ≤ c.toNat ∧ escapeChar c =
      unitEscape (0xD800 + (c.toNat - 0x10000) / 0x400) ++
        unitEscape (0xDC00 + (c.toNat - 0x10000) % 0x400) := by
  rw [escapeChar]
  dsimp only
  by_cases hquote : c = '\\' ∨ c = '\x22'
  · rw [if_pos hquote]
    rcases hquote with rfl | rfl
    · exact Or.inl ⟨by decide, Or.inl ⟨_, by decide, rfl, rfl⟩⟩
    · exact Or.inl ⟨by decide, Or.inl ⟨_, by decide, rfl, rfl⟩⟩
  rw [if_neg hquote]
  by_cases hnewline : c = '\n'
  · subst hnewline
    exact Or.inl ⟨by decide, Or.inl ⟨'n', by decide, rfl, rfl⟩⟩
  rw [if_neg hnewline]
  by_cases hreturn : c = '\r'
  · subst hreturn
    exact Or.inl ⟨by decide, Or.inl ⟨'r', by decide, rfl, rfl⟩⟩
  rw [if_neg hreturn]
  by_cases htab : c = '\t'
  · subst htab
    exact Or.inl ⟨by decide, Or.inl ⟨'t', by decide, rfl, rfl⟩⟩
  rw [if_neg htab]
  by_cases hback : c.toNat = 0x08
  · rw [if_pos hback]
    exact Or.inl ⟨by omega, Or.inl ⟨'b', by decide, congrArg some hback.symm, rfl⟩⟩
  rw [if_neg hback]
  by_cases hfeed : c.toNat = 0x0C
  · rw [if_pos hfeed]
    exact Or.inl ⟨by omega, Or.inl ⟨'f', by decide, congrArg some hfeed.symm, rfl⟩⟩
  rw [if_neg hfeed]
  by_cases hplain : 0x20 ≤ c.toNat ∧ c.toNat < 0x7F
  · rw [if_pos hplain]
    rw [not_or] at hquote
    exact Or.inl ⟨by omega, Or.inr (Or.inl ⟨hquote.2, hquote.1, hplain.1, rfl⟩)⟩
  rw [if_neg hplain]
  by_cases hsmall : c.toNat < 0x10000
  · rw [if_pos hsmall]
    exact Or.inl ⟨hsmall, Or.inr (Or.inr rfl)⟩
  · rw [if_neg hsmall]
    exact Or.inr ⟨Nat.le_of_not_lt hsmall, rfl⟩

/-- A character is read as its code units, however it is escaped. -/
theorem units?_escapeChar (c : Char) :
    units? (escapeChar c ++ rest) = (units? rest).map fun t => (unitsOf c ++ t.1, t.2) := by
  rcases escapeChar_cases c with ⟨hsmall, hescape⟩ | ⟨hlarge, hescape⟩
  · have hone : units? (escapeChar c ++ rest) = consUnit (some c.toNat) (units? rest) := by
      rcases hescape with ⟨letter, hletter, hn, hescape⟩ |
        ⟨hquote, hbackslash, hn, hescape⟩ | hescape
      · rw [hescape]
        exact units?_shortEscape hletter hn
      · rw [hescape]
        exact units?_plain hquote hbackslash hn
      · rw [hescape]
        exact units?_unitEscape hsmall
    rw [hone, consUnit_some, unitsOf, if_pos hsmall]
    rfl
  · have hlimit := toNat_lt_limit c
    rw [hescape, List.append_assoc, units?_unitEscape (by omega), units?_unitEscape (by omega),
      consUnit_some, consUnit_some, Option.map_map, unitsOf, if_neg (Nat.not_lt.2 hlarge)]
    rfl

/-- A text is read up to its closing quote as the code units of its characters. -/
theorem units?_flatMap_escapeChar (cs : List Char) :
    units? (cs.flatMap escapeChar ++ '\x22' :: rest) = some (cs.flatMap unitsOf, rest) := by
  induction cs with
  | nil => rw [List.flatMap_nil, List.nil_append, units?, List.flatMap_nil]
  | cons c cs ih =>
    rw [List.flatMap_cons, List.append_assoc, units?_escapeChar, ih, List.flatMap_cons]
    rfl

end JsonToken

/-! ## Characters -/

namespace LooseText

/-- A code unit that begins no pair stands for itself. -/
theorem charsOfUnits_cons {u : ℕ} (h : ¬(0xD800 ≤ u ∧ u < 0xDC00)) (units : List ℕ) :
    charsOfUnits (u :: units) = .ofNat u :: charsOfUnits units := by
  cases units with
  | nil => rfl
  | cons v units =>
    have hpair : isPair u v = false := by
      rw [isPair]
      by_cases hlow : 0xD800 ≤ u
      · have hhigh : ¬u < 0xDC00 := fun hhigh => h ⟨hlow, hhigh⟩
        simp [hhigh]
      · simp [hlow]
    rw [charsOfUnits, hpair, if_neg Bool.false_ne_true]

/-- The code units of a character stand for it. -/
theorem charsOfUnits_unitsOf (c : Char) (units : List ℕ) :
    charsOfUnits (unitsOf c ++ units) = .char c :: charsOfUnits units := by
  rw [unitsOf]
  split
  · -- no character is a half of a pair, so its code unit is taken alone
    have hhalf : ¬(0xD800 ≤ c.toNat ∧ c.toNat < 0xE000) := by
      rcases c.valid with h | ⟨h, -⟩
      · exact fun hc => absurd h (Nat.not_lt.2 hc.1)
      · exact fun hc => absurd hc.2 (Nat.not_lt.2 h)
    have hone : LooseChar.ofNat c.toNat = .char c := by
      rw [LooseChar.ofNat, dif_neg hhalf, Char.ofNat_toNat]
    rw [List.singleton_append, charsOfUnits_cons (fun hc => hhalf ⟨hc.1, by omega⟩), hone]
  · next hlarge =>
    have hlimit := toNat_lt_limit c
    have hpair : isPair (0xD800 + (c.toNat - 0x10000) / 0x400)
        (0xDC00 + (c.toNat - 0x10000) % 0x400) = true := by
      rw [isPair]
      simp
      omega
    have hchar : pairChar (0xD800 + (c.toNat - 0x10000) / 0x400)
        (0xDC00 + (c.toNat - 0x10000) % 0x400) = c := by
      have hplace : 0x10000 + (0xD800 + (c.toNat - 0x10000) / 0x400 - 0xD800) * 0x400 +
          (0xDC00 + (c.toNat - 0x10000) % 0x400 - 0xDC00) = c.toNat := by omega
      rw [pairChar, hplace, Char.ofNat_toNat]
    rw [List.cons_append, List.cons_append, List.nil_append, charsOfUnits, if_pos hpair, hchar]

/-- **A text** is what its code units stand for. -/
theorem ofUnits_flatMap_unitsOf (s : String) : ofUnits (s.toList.flatMap unitsOf) = ofString s := by
  have h : ∀ cs : List Char, charsOfUnits (cs.flatMap unitsOf) = cs.map .char := by
    intro cs
    induction cs with
    | nil => rfl
    | cons c cs ih => rw [List.flatMap_cons, charsOfUnits_unitsOf, ih, List.map_cons]
  rw [ofUnits, ofString, h]

end LooseText

end SchemaDiagram
