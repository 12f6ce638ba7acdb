/-
# Cutting written JSON into tokens

What is written for a text or a scalar is one token; a number is so where the text that follows
ends it.

* `JsonToken.Scans` : that a text is cut into some tokens in front of certain texts;
* `JsonToken.Scans.append` : texts one after the other;
* `JsonToken.Scans.text`, `JsonToken.Scans.int`, `JsonToken.Scans.real` : texts and scalars.
-/
import SchemaDiagram.Proofs.Json.Number
import SchemaDiagram.Proofs.Json.Text
import SchemaDiagram.Proofs.Number.Nearest

namespace SchemaDiagram

namespace JsonToken

/-! ## Tokens -/

/-- A space is passed over. -/
theorem ofText_space {c : Char} (h : isSpace c = true) (rest : List Char) :
    ofText (c :: rest) = ofText rest := by
  rw [ofText, if_pos h]

/-- A token is put in front of those after it. -/
theorem ofText_token {c : Char} {rest rest' : List Char} {t : JsonToken}
    (hspace : isSpace c = false) (h : read? c rest = some (t, rest')) :
    ofText (c :: rest) = t :: ofText rest' := by
  rw [ofText, if_neg (by simp [hspace])]
  split
  · next hnone =>
    rw [h] at hnone
    cases hnone
  · next u rest'' hsome =>
    rw [h, Option.some.injEq, Prod.mk.injEq] at hsome
    rw [hsome.1, hsome.2]

/-- Whether a text is cut into some tokens where certain texts follow. -/
def Scans (follows : List Char → Prop) (text : List Char) (tokens : List JsonToken) : Prop :=
  ∀ rest, follows rest → ofText (text ++ rest) = tokens ++ ofText rest

namespace Scans

variable {follows follows' : List Char → Prop}

theorem nil : Scans follows [] [] := fun _ _ => rfl

/-- Texts one after the other are cut into the tokens of both. -/
theorem append {text other : List Char} {tokens others : List JsonToken}
    (h : Scans follows text tokens) (hother : Scans follows' other others)
    (hfollows : ∀ rest, follows' rest → follows (other ++ rest)) :
    Scans follows' (text ++ other) (tokens ++ others) := by
  intro rest hrest
  rw [List.append_assoc, h _ (hfollows rest hrest), hother rest hrest, List.append_assoc]

/-- Spaces are cut into no tokens. -/
theorem spaces {text : List Char} (h : ∀ c ∈ text, isSpace c = true) : Scans follows text [] := by
  induction text with
  | nil => exact nil
  | cons c text ih =>
    rw [List.forall_mem_cons] at h
    intro rest hrest
    rw [List.cons_append, ofText_space h.1]
    exact ih h.2 rest hrest

/-- A text that is read as a token is cut into that token. -/
theorem of_read? {c : Char} {text : List Char} {t : JsonToken} (hspace : isSpace c = false)
    (h : ∀ rest, follows rest → read? c (text ++ rest) = some (t, rest)) :
    Scans follows (c :: text) [t] := by
  intro rest hrest
  rw [List.cons_append, ofText_token hspace (h rest hrest), List.singleton_append]

/-- A text in quotes is cut into its token. -/
theorem text (s : String) :
    Scans follows (Json.quoted (.ofString s)).toList [.text (.ofString s)] := by
  have hquoted : (Json.quoted (.ofString s)).toList =
      '\x22' :: (s.toList.flatMap Json.escapeChar ++ ['\x22']) := by
    rw [Json.quoted, String.toList_ofList, LooseText.ofString, List.flatMap_map]
    rfl
  rw [hquoted]
  refine of_read? rfl fun rest _ => ?_
  rw [read?, List.append_assoc, List.singleton_append, units?_flatMap_escapeChar, Option.map_some]
  dsimp only
  rw [LooseText.ofUnits_flatMap_unitsOf]

end Scans

/-! ## Scalars -/

/-- A character that is neither a space nor a mark begins a scalar. -/
def StartsScalar (c : Char) : Prop :=
  isSpace c = false ∧ c ∉ ['[', ']', '\x7b', '\x7d', ',', ':', '\x22']

instance (c : Char) : Decidable (StartsScalar c) := inferInstanceAs (Decidable (_ ∧ _))

/-- Digits differ from all that are no digits. -/
theorem ne_of_isDigit {c d : Char} (hc : c.isDigit = true) (hd : d.isDigit = false) : c ≠ d := by
  rintro rfl
  rw [hc] at hd
  exact nomatch hd

theorem startsScalar_of_isDigit {c : Char} (hc : c.isDigit = true) : StartsScalar c := by
  have hne : ∀ d : Char, d.isDigit = false → c ≠ d := fun _ => ne_of_isDigit hc
  constructor
  · simp [isSpace, hne ' ' rfl, hne '\t' rfl, hne '\n' rfl, hne '\r' rfl]
  · simp [hne '[' rfl, hne ']' rfl, hne '\x7b' rfl, hne '\x7d' rfl, hne ',' rfl, hne ':' rfl,
      hne '\x22' rfl]

theorem read?_scalar {c : Char} (hc : StartsScalar c) (rest : List Char) :
    read? c rest = scalar? (c :: rest) := by
  obtain ⟨-, hmark⟩ := hc
  rw [read?]
  all_goals
    rintro rfl
    exact hmark (by decide)

/-- What is read as a scalar is cut into its token. -/
theorem Scans.scalar {c : Char} {text : List Char} {t : JsonToken} (hc : StartsScalar c)
    (h : ∀ rest, EndsNumber rest → scalar? (c :: text ++ rest) = some (t, rest)) :
    Scans EndsNumber (c :: text) [t] := by
  refine of_read? hc.1 fun rest hrest => ?_
  rw [read?_scalar hc]
  exact h rest hrest

/-- A word that stands for a scalar is cut into its token. -/
theorem Scans.word {w : List Char × Datum} (hw : w ∈ words) :
    Scans EndsNumber w.1 [.scalar w.2] := by
  simp only [words, List.mem_cons, List.not_mem_nil, or_false] at hw
  rcases hw with rfl | rfl | rfl | rfl | rfl | rfl
  all_goals exact scalar (by decide) fun _ _ => rfl

/-- A number is no word, whatever its sign. -/
theorem find?_words {c : Char} (hc : c.isDigit = true) (negative : Bool) (rest : List Char) :
    words.find? (fun w => w.1.isPrefixOf ((if negative then ['-'] else []) ++ c :: rest)) =
      none := by
  have hne : ∀ d : Char, d.isDigit = false → d ≠ c := fun _ hd => (ne_of_isDigit hc hd).symm
  cases negative with
  | false =>
    simp [words, List.isPrefixOf, hne 'n' rfl, hne 't' rfl, hne 'f' rfl, hne 'N' rfl, hne 'I' rfl,
      hne '-' rfl]
  | true => simp [words, List.isPrefixOf, hne 'I' rfl]

/-- A number is read behind its sign. -/
theorem scalar?_number {c : Char} (hc : c.isDigit = true) (negative : Bool) (rest : List Char) :
    scalar? ((if negative then ['-'] else []) ++ c :: rest) = number? negative (c :: rest) := by
  unfold scalar?
  rw [find?_words hc]
  cases negative with
  | true => rfl
  | false =>
    dsimp only
    split
    · next tail htail =>
      exact absurd (List.cons.inj htail).1 (ne_of_isDigit hc rfl)
    · rfl

/-- The digits of a whole number stand for it, if they are not too many. -/
theorem ofWhole_toDigits {n : ℤ} (hn : digitCount n ≤ digitLimit) :
    ofWhole (decide (n < 0)) (Nat.toDigits 10 n.natAbs) = .scalar (.int n) := by
  have hlength : (Nat.toDigits 10 n.natAbs).length ≤ digitLimit := hn
  have hvalue : (if decide (n < 0) then -(n.natAbs : ℤ) else n.natAbs) = n := by
    by_cases hneg : n < 0
    · simp only [hneg, decide_true, if_true]
      omega
    · simp only [hneg, decide_false, Bool.false_eq_true, if_false]
      omega
  rw [ofWhole, if_pos hlength, Decimal.ofDigits_toDigits]
  dsimp only
  rw [hvalue]

namespace Scans

/-- What a number is read from behind its sign is cut into its token. -/
theorem number {digits : List Char} {t : JsonToken} {negative : Bool}
    (hdigit : ∀ c ∈ digits.head?, c.isDigit = true) (hne : digits ≠ [])
    (h : ∀ rest, EndsNumber rest → number? negative (digits ++ rest) = some (t, rest)) :
    Scans EndsNumber ((if negative then ['-'] else []) ++ digits) [t] := by
  obtain ⟨c, text, rfl⟩ := List.exists_cons_of_ne_nil hne
  have hc : c.isDigit = true := hdigit c rfl
  have hread : ∀ rest, EndsNumber rest →
      scalar? ((if negative then ['-'] else []) ++ c :: text ++ rest) = some (t, rest) := by
    intro rest hrest
    rw [List.append_assoc, List.cons_append, scalar?_number hc]
    exact h rest hrest
  cases negative with
  | true => exact scalar (by decide) hread
  | false => exact scalar (startsScalar_of_isDigit hc) hread

/-- A whole number of not too many digits is cut into its token. -/
theorem int {n : ℤ} (hn : digitCount n ≤ digitLimit) :
    Scans EndsNumber (wholeText n).toList [.scalar (.int n)] := by
  have htext : (wholeText n).toList =
      (if decide (n < 0) then ['-'] else []) ++ Nat.toDigits 10 n.natAbs := by
    rw [wholeText, String.toList_ofList]
    by_cases hneg : n < 0
    · simp [hneg]
    · simp [hneg]
  have hleads : Decimal.Leads (Nat.toDigits 10 n.natAbs) := by
    by_cases hzero : n.natAbs = 0
    · rw [hzero]
      exact Or.inl rfl
    · exact Or.inr ⟨Nat.toDigits_ne_nil, Decimal.head?_toDigits_ne hzero⟩
  rw [htext]
  refine number (fun c hc => ?_) Nat.toDigits_ne_nil fun rest hrest => ?_
  · exact Decimal.isDigit_of_mem_toDigits c (List.mem_of_mem_head? hc)
  · rw [number?_digits Decimal.isDigit_of_mem_toDigits hleads hrest, ofWhole_toDigits hn]

/-- **A double** is cut into its token. -/
theorem real (x : Binary64) : Scans EndsNumber (Json.realText x).toList [.scalar (.real x)] := by
  cases x with
  | nan => exact word (w := ("NaN".toList, .real .nan)) (by simp [words])
  | infinite negative =>
    cases negative with
    | true => exact word (w := ("-Infinity".toList, .real (.infinite true))) (by simp [words])
    | false => exact word (w := ("Infinity".toList, .real (.infinite false))) (by simp [words])
  | finite negative place =>
    obtain ⟨d, hd⟩ : ∃ d, d = { Binary64.shortest place with negative := negative } := ⟨_, rfl⟩
    have hdouble : d.toBinary64 = .finite negative place := by
      rw [hd, Binary64.toBinary64_shortest]
    have htext : (Json.realText (.finite negative place)).toList =
        (if negative then ['-'] else []) ++ (d.numeral Binary64.fullLayout).text := by
      rw [hd]
      exact Decimal.toList_write
    have hregular := Decimal.regular_numeral (f := Binary64.fullLayout) (d := d)
    have hreal := Decimal.isReal_numeral (f := Binary64.fullLayout) (d := d) rfl
    rw [htext]
    refine number (fun c hc => ?_) ?_ fun rest hrest => ?_
    · rw [Decimal.Numeral.text, List.head?_append_of_ne_nil _ hregular.leads.ne_nil] at hc
      exact hregular.whole c (List.mem_of_mem_head? hc)
    · exact List.append_ne_nil_of_left_ne_nil hregular.leads.ne_nil _
    · rw [number?_text hregular hreal hrest, ← hdouble]
      have hsign : negative = d.negative := by rw [hd]
      rw [Decimal.toBinary64_congr hsign (Decimal.magnitude_numeral negative)]

end Scans

end JsonToken

end SchemaDiagram
