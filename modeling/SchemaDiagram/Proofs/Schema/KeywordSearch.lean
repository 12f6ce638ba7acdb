/-
# The first keyword from a cursor on

The search for a keyword goes from occurrence to occurrence, and passes over those that are part of
a longer name.  An occurrence that is passed over does not overlap one that stands alone, not even
of a keyword that overlaps itself, so nothing is missed.

* `Cursor.isLeast_keywordFrom?` : what is found is the least offset;
* `Cursor.findKeyword_first` : the search ends, with the first standalone keyword or at the end of
  the text.
-/
import Mathlib.Order.Bounds.Defs
import SchemaDiagram.Proofs.Schema.Seam
import SchemaDiagram.Proofs.Schema.Totality

namespace SchemaDiagram

open Text

namespace Cursor

variable {text keyword : List Char} {start found : Nat}

/-- What a search finds is the least offset from its start on at which the keyword stands. -/
theorem isLeast_keywordFrom? (hkeyword : keyword ≠ [])
    (hname : ∀ x ∈ keyword, isNameChar x = true) :
    keywordFrom? keyword text start = some found ↔
      IsLeast {k | start ≤ k ∧ StandsAt keyword text k} found := by
  rw [keywordFrom?_eq_some_iff hkeyword hname]
  constructor
  · rintro ⟨hle, hstands, hleast⟩
    refine ⟨⟨hle, hstands⟩, ?_⟩
    rintro k ⟨hk, hk'⟩
    exact Nat.le_of_not_lt fun hlt => hleast k hk hlt hk'
  · rintro ⟨⟨hle, hstands⟩, hleast⟩
    exact ⟨hle, hstands, fun k hk hlt hk' => Nat.not_le_of_lt hlt (hleast ⟨hk, hk'⟩)⟩

/-- **The search for a keyword** from a cursor on comes to its end, as each of its rounds that goes
on moves the cursor on.  It finds the least offset, not before the cursor, at which the keyword
stands with no name character before or behind it, and moves just behind the keyword there.  Where
the keyword stands nowhere it finds nothing and moves to the end of the text. -/
theorem findKeyword_first (hkeyword : keyword ≠ []) (hname : ∀ x ∈ keyword, isNameChar x = true)
    (c : Cursor text) :
    Reading.MovesOn (@keywordRound text keyword) ∧
      ∃ found c', (keywordRound keyword).loop () c = some (.ok found, c') ∧
        c.findKeyword keyword = (found, c') ∧ c'.counter = c.counter ∧
        match found with
        | some start =>
          IsLeast {k | c.pos ≤ k ∧ StandsAt keyword text k} start ∧
            c'.pos = start + keyword.length
        | none => (∀ k, c.pos ≤ k → ¬ StandsAt keyword text k) ∧ c'.pos = text.length := by
  refine ⟨(keywordRound_keeps text hkeyword).movesOn, ?_⟩
  obtain ⟨found, c', hloop, hfind⟩ := keywordLoop_gives hkeyword c
  refine ⟨found, c', hloop, hfind.symm, ?_⟩
  unfold findKeyword at hfind
  cases hsearch : keywordFrom? keyword text c.pos with
  | none =>
    rw [hsearch] at hfind
    obtain ⟨rfl, rfl⟩ := Prod.mk.inj hfind
    exact ⟨rfl, (keywordFrom?_eq_none_iff hkeyword hname).1 hsearch, rfl⟩
  | some start =>
    rw [hsearch] at hfind
    obtain ⟨rfl, rfl⟩ := Prod.mk.inj hfind
    exact ⟨rfl, (isLeast_keywordFrom? hkeyword hname).1 hsearch, rfl⟩

/-- A keyword that overlaps itself, searched for from inside one of its occurrences: the name before
the cursor, a longer name and one that goes on are passed over. -/
theorem findKeyword_first_overlapping :
    "aa".toList ≠ [] ∧ (∀ x ∈ "aa".toList, isNameChar x = true) ∧
      (startAt "aaaa aaa aa_ aa.aa".toList 2).findKeyword "aa".toList =
        (some 13, ⟨15, ⟨0, 1⟩⟩) ∧
      IsLeast {k | 2 ≤ k ∧ StandsAt "aa".toList "aaaa aaa aa_ aa.aa".toList k} 13 := by
  have hkeyword : "aa".toList ≠ [] := by decide
  have hname : ∀ x ∈ "aa".toList, isNameChar x = true := by decide +kernel
  have hfind : (startAt "aaaa aaa aa_ aa.aa".toList 2).findKeyword "aa".toList =
      (some 13, ⟨15, ⟨0, 1⟩⟩) := by decide +kernel
  obtain ⟨-, found, c', -, hfound, -, hfirst⟩ :=
    findKeyword_first hkeyword hname (startAt "aaaa aaa aa_ aa.aa".toList 2)
  rw [hfind] at hfound
  obtain ⟨rfl, rfl⟩ := Prod.mk.inj hfound
  exact ⟨hkeyword, hname, hfind, hfirst.1⟩

end Cursor

end SchemaDiagram
