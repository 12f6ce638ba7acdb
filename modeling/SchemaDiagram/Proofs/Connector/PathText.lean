/-
# The text of a path

The text of a path is read back word by word: the same commands in the same order, each coordinate
rounded to six significant digits.  So the path that is drawn is the path of the connector exactly
when all its coordinates are short, while the markers are always drawn at their own places.

* `readCommands?`, `readPath?` : reads the text of a path;
* `PathCommand.Matches` : commands of one kind with related coordinates;
* `exists_readPath` : what the text of a path is read as;
* `routeBetween_pathText` : the path of a connector, and its ends, read back;
* `not_all_pathText` : a path that is drawn elsewhere.
-/
import SchemaDiagram.Proofs.Connector.Reversal
import SchemaDiagram.Proofs.Number.Brevity
import SchemaDiagram.Proofs.Page.Attachment

namespace SchemaDiagram

/-! ## Reading -/

/-- Reads the commands that words say: each a letter and its coordinates. -/
def readCommands? : List (List Char) → Option (List (PathCommand Binary64))
  | [] => some []
  | ['M'] :: x :: y :: rest => do
    let p : Point Binary64 := ⟨← Binary64.ofText? x, ← Binary64.ofText? y⟩
    return .moveTo p :: (← readCommands? rest)
  | ['L'] :: x :: y :: rest => do
    let p : Point Binary64 := ⟨← Binary64.ofText? x, ← Binary64.ofText? y⟩
    return .lineTo p :: (← readCommands? rest)
  | ['Q'] :: controlX :: controlY :: x :: y :: rest => do
    let control : Point Binary64 := ⟨← Binary64.ofText? controlX, ← Binary64.ofText? controlY⟩
    let p : Point Binary64 := ⟨← Binary64.ofText? x, ← Binary64.ofText? y⟩
    return .quadTo control p :: (← readCommands? rest)
  | _ => none

/-- Reads the text of a path, of which the words are separated by single spaces. -/
def readPath? (text : String) : Option (List (PathCommand Binary64)) :=
  readCommands? (text.toList.splitOn ' ')

/-! ## Commands -/

/-- What the text of a coordinate is read as: its double with six significant digits. -/
def Quantity.Rounds (x : Quantity) (read : Binary64) : Prop :=
  ∃ y, x.toBinary64 = .ok y ∧ read = y.readBack (Binary64.rounded 6)

/-- What is read is the number that a coordinate is. -/
def Quantity.Keeps (x : Quantity) (read : Binary64) : Prop := (Quantity.real read).SameNumber x

/-- Commands of the same kind, of which the coordinates are related in order. -/
structure PathCommand.Matches (R : Quantity → Binary64 → Prop) (command : PathCommand Quantity)
    (read : PathCommand Binary64) : Prop where
  letter : read.letter = command.letter
  coordinates : List.Forall₂ R command.coordinates read.coordinates

section

variable {x : Quantity} {text : String}

/-- The text of a coordinate is a word that is read as the rounded coordinate. -/
theorem Quantity.exists_of_briefText (h : x.briefText = .ok text) :
    ∃ read, Binary64.ofText? text.toList = some read ∧ x.Rounds read ∧ ' ' ∉ text.toList := by
  obtain ⟨y, hy, h⟩ := bind_eq_ok.1 h
  rw [← pure_eq_ok.1 h]
  exact ⟨_, Binary64.ofText?_writeWith _ _ y, ⟨y, hy, rfl⟩, Binary64.blank_not_mem_writeWith _ _ y⟩

/-- A coordinate has a text exactly when it can be converted to a double. -/
theorem Quantity.exists_briefText_iff :
    (∃ text, x.briefText = .ok text) ↔ ∃ y, x.toBinary64 = .ok y :=
  exists_bind_pure_iff

end

section

variable {command : PathCommand Quantity} {words : List String}

/-- The words of a command have no spaces, and there is a first one. -/
theorem PathCommand.words_spec (h : command.words = .ok words) :
    words ≠ [] ∧ ∀ w ∈ words, ' ' ∉ w.toList := by
  obtain ⟨texts, htexts, h⟩ := bind_eq_ok.1 h
  rw [← pure_eq_ok.1 h]
  refine ⟨List.cons_ne_nil _ _, List.forall_mem_cons.2 ⟨?_, fun w hw => ?_⟩⟩
  · rw [String.toList_singleton, List.mem_singleton]
    cases command <;> simp [letter]
  · obtain ⟨x, -, hx⟩ := exists_of_mem_mapM htexts hw
    obtain ⟨-, -, -, hblank⟩ := Quantity.exists_of_briefText hx
    exact hblank

/-- The words of a command are read as this command, with its coordinates rounded. -/
theorem PathCommand.exists_read (h : command.words = .ok words) :
    ∃ read, command.Matches Quantity.Rounds read ∧ ∀ rest,
      readCommands? (words.map String.toList ++ rest) =
        (readCommands? rest).map fun others => read :: others := by
  obtain ⟨texts, htexts, h⟩ := bind_eq_ok.1 h
  rw [← pure_eq_ok.1 h, List.map_cons, String.toList_singleton]
  have heach := forall₂_of_mapM htexts
  cases command with
  | moveTo p =>
    rcases heach with _ | ⟨hx, _ | ⟨hy, _ | _⟩⟩
    obtain ⟨x, hreadX, hroundsX, -⟩ := Quantity.exists_of_briefText hx
    obtain ⟨y, hreadY, hroundsY, -⟩ := Quantity.exists_of_briefText hy
    refine ⟨.moveTo ⟨x, y⟩, ⟨rfl, .cons hroundsX (.cons hroundsY .nil)⟩, fun rest => ?_⟩
    show (do
      let p : Point Binary64 := ⟨← Binary64.ofText? _, ← Binary64.ofText? _⟩
      return PathCommand.moveTo p :: (← readCommands? rest)) = _
    rw [hreadX, hreadY]
    cases readCommands? rest <;> rfl
  | lineTo p =>
    rcases heach with _ | ⟨hx, _ | ⟨hy, _ | _⟩⟩
    obtain ⟨x, hreadX, hroundsX, -⟩ := Quantity.exists_of_briefText hx
    obtain ⟨y, hreadY, hroundsY, -⟩ := Quantity.exists_of_briefText hy
    refine ⟨.lineTo ⟨x, y⟩, ⟨rfl, .cons hroundsX (.cons hroundsY .nil)⟩, fun rest => ?_⟩
    show (do
      let p : Point Binary64 := ⟨← Binary64.ofText? _, ← Binary64.ofText? _⟩
      return PathCommand.lineTo p :: (← readCommands? rest)) = _
    rw [hreadX, hreadY]
    cases readCommands? rest <;> rfl
  | quadTo control p =>
    rcases heach with _ | ⟨hcontrolX, _ | ⟨hcontrolY, _ | ⟨hx, _ | ⟨hy, _ | _⟩⟩⟩⟩
    obtain ⟨controlX, hreadControlX, hroundsControlX, -⟩ := Quantity.exists_of_briefText hcontrolX
    obtain ⟨controlY, hreadControlY, hroundsControlY, -⟩ := Quantity.exists_of_briefText hcontrolY
    obtain ⟨x, hreadX, hroundsX, -⟩ := Quantity.exists_of_briefText hx
    obtain ⟨y, hreadY, hroundsY, -⟩ := Quantity.exists_of_briefText hy
    refine ⟨.quadTo ⟨controlX, controlY⟩ ⟨x, y⟩, ⟨rfl, .cons hroundsControlX
      (.cons hroundsControlY (.cons hroundsX (.cons hroundsY .nil)))⟩, fun rest => ?_⟩
    show (do
      let control : Point Binary64 := ⟨← Binary64.ofText? _, ← Binary64.ofText? _⟩
      let p : Point Binary64 := ⟨← Binary64.ofText? _, ← Binary64.ofText? _⟩
      return PathCommand.quadTo control p :: (← readCommands? rest)) = _
    rw [hreadControlX, hreadControlY, hreadX, hreadY]
    cases readCommands? rest <;> rfl

/-- The words of commands are read as these commands, with their coordinates rounded. -/
theorem exists_readCommands {commands : List (PathCommand Quantity)} {wordLists : List (List String)}
    (h : commands.mapM PathCommand.words = .ok wordLists) :
    ∃ read, readCommands? (wordLists.flatten.map String.toList) = some read ∧
      List.Forall₂ (PathCommand.Matches Quantity.Rounds) commands read := by
  have heach := forall₂_of_mapM h
  clear h
  induction heach with
  | nil => exact ⟨[], rfl, .nil⟩
  | cons hwords _ ih =>
    obtain ⟨others, hothers, hmatch⟩ := ih
    obtain ⟨read, hread, hrest⟩ := PathCommand.exists_read hwords
    refine ⟨read :: others, ?_, .cons hread hmatch⟩
    rw [List.flatten_cons, List.map_append, hrest, hothers]
    rfl

/-- **The text of a path** is read as its commands, with their coordinates rounded. -/
theorem exists_readPath {commands : List (PathCommand Quantity)} {text : String}
    (hcommands : commands ≠ []) (h : pathText commands = .ok text) :
    ∃ read, readPath? text = some read ∧
      List.Forall₂ (PathCommand.Matches Quantity.Rounds) commands read := by
  obtain ⟨wordLists, hwords, h⟩ := bind_eq_ok.1 h
  obtain ⟨read, hread, hmatch⟩ := exists_readCommands hwords
  refine ⟨read, ?_, hmatch⟩
  have hspec : ∀ words ∈ wordLists, words ≠ [] ∧ ∀ w ∈ words, ' ' ∉ w.toList := by
    intro words hmem
    obtain ⟨command, -, hcommand⟩ := exists_of_mem_mapM hwords hmem
    exact PathCommand.words_spec hcommand
  have hblank : ∀ w ∈ wordLists.flatten.map String.toList, ' ' ∉ w := by
    intro w hw
    obtain ⟨word, hword, rfl⟩ := List.mem_map.1 hw
    obtain ⟨words, hmem, hword⟩ := List.mem_flatten.1 hword
    exact (hspec words hmem).2 word hword
  have hne : wordLists.flatten.map String.toList ≠ [] := by
    obtain ⟨words, hmem⟩ : ∃ words, words ∈ wordLists := by
      refine List.exists_mem_of_ne_nil _ fun hnil => hcommands ?_
      have hlength := (forall₂_of_mapM hwords).length_eq
      rw [hnil] at hlength
      exact List.length_eq_zero_iff.1 hlength
    obtain ⟨w, hw⟩ := List.exists_mem_of_ne_nil _ (hspec words hmem).1
    exact List.ne_nil_of_mem (List.mem_map_of_mem (List.mem_flatten.2 ⟨words, hmem, hw⟩))
  rw [readPath?, ← pure_eq_ok.1 h, String.toList_intercalate]
  show readCommands? (([' '].intercalate (wordLists.flatten.map String.toList)).splitOn ' ') = _
  rw [List.splitOn_intercalate ' ' hblank hne, hread]

end

/-! ## Numbers that are kept -/

/-- Where one relation decides another one by its left side, so does it for lists. -/
theorem forall₂_iff_of_forall₂ {α β : Type} {R S : α → β → Prop} {P : α → Prop} {l : List α}
    {l' : List β} (hdecides : ∀ a b, R a b → (S a b ↔ P a)) (h : List.Forall₂ R l l') :
    List.Forall₂ S l l' ↔ ∀ a ∈ l, P a := by
  induction h with
  | nil => simp
  | cons hab _ ih => rw [List.forall₂_cons, List.forall_mem_cons, hdecides _ _ hab, ih]

/-- The first elements of related lists are related. -/
theorem exists_head?_of_forall₂ {α β : Type} {R : α → β → Prop} {l : List α} {l' : List β} {a : α}
    (h : List.Forall₂ R l l') (ha : l.head? = some a) : ∃ b, l'.head? = some b ∧ R a b := by
  cases h with
  | nil => exact nomatch ha
  | cons hab _ =>
    cases ha
    exact ⟨_, rfl, hab⟩

/-- The last elements of related lists are related. -/
theorem exists_getLast?_of_forall₂ {α β : Type} {R : α → β → Prop} {l : List α} {l' : List β}
    {a : α} (h : List.Forall₂ R l l') (ha : l.getLast? = some a) :
    ∃ b, l'.getLast? = some b ∧ R a b := by
  rw [← List.head?_reverse] at ha
  obtain ⟨b, hb, hab⟩ := exists_head?_of_forall₂ (List.forall₂_reverse_iff.2 h) ha
  exact ⟨b, by rwa [← List.head?_reverse], hab⟩

/-- A rounded coordinate is the number that it was exactly when this number is short. -/
theorem Quantity.Rounds.keeps_iff {x : Quantity} {read : Binary64} (h : x.Rounds read) :
    x.Keeps read ↔ x.Short 6 := by
  obtain ⟨y, hy, rfl⟩ := h
  exact Quantity.sameNumber_readBack_iff (by norm_num) (by norm_num) hy

namespace PathCommand

variable {R : Quantity → Binary64 → Prop} {p : Point Quantity} {command : PathCommand Quantity}
  {read : PathCommand Binary64}

/-- The coordinates of a command that is read are kept exactly when all of them are short. -/
theorem Matches.keeps_iff (h : command.Matches Quantity.Rounds read) :
    command.Matches Quantity.Keeps read ↔ ∀ x ∈ command.coordinates, x.Short 6 := by
  have hdecides := forall₂_iff_of_forall₂
    (fun x y (hrounds : Quantity.Rounds x y) => hrounds.keeps_iff) h.coordinates
  exact ⟨fun hkeeps => hdecides.1 hkeeps.coordinates, fun hshort => ⟨h.letter, hdecides.2 hshort⟩⟩

theorem Matches.exists_moveTo (h : (moveTo p).Matches R read) :
    ∃ q, read = .moveTo q ∧ R p.x q.x ∧ R p.y q.y := by
  obtain ⟨hletter, hcoordinates⟩ := h
  cases read with
  | moveTo q =>
    rcases hcoordinates with _ | ⟨hx, _ | ⟨hy, _⟩⟩
    exact ⟨q, rfl, hx, hy⟩
  | lineTo q => exact absurd hletter (by simp [PathCommand.letter])
  | quadTo control q => exact absurd hletter (by simp [PathCommand.letter])

theorem Matches.exists_lineTo (h : (lineTo p).Matches R read) :
    ∃ q, read = .lineTo q ∧ R p.x q.x ∧ R p.y q.y := by
  obtain ⟨hletter, hcoordinates⟩ := h
  cases read with
  | moveTo q => exact absurd hletter (by simp [PathCommand.letter])
  | lineTo q =>
    rcases hcoordinates with _ | ⟨hx, _ | ⟨hy, _⟩⟩
    exact ⟨q, rfl, hx, hy⟩
  | quadTo control q => exact absurd hletter (by simp [PathCommand.letter])

end PathCommand

/-! ## Connectors -/

/-- The coordinates of the path of a connector. -/
def Connector.coordinates (k : Connector Quantity) : List Quantity :=
  k.commands.flatMap PathCommand.coordinates

/-- What is read is the point where something stands. -/
def Point.Keeps (p : Point Quantity) (read : Point Binary64) : Prop :=
  p.x.Keeps read.x ∧ p.y.Keeps read.y

/-- Both coordinates of a point are short. -/
def Point.Short (n : ℕ) (p : Point Quantity) : Prop := p.x.Short n ∧ p.y.Short n

section

variable {m : Metrics} {s : RoutingSettings} {r : Relationship} {source target : Table Quantity}
  {k : Connector Quantity}

/-- The path of a connector has a text exactly when all its coordinates can be converted to
doubles. -/
theorem Connector.exists_pathText_iff :
    (∃ text, k.pathText = .ok text) ↔ ∀ x ∈ k.coordinates, ∃ y, x.toBinary64 = .ok y := by
  have hwords : ∀ command : PathCommand Quantity, (∃ words, command.words = .ok words) ↔
      ∀ x ∈ command.coordinates, ∃ y, x.toBinary64 = .ok y := fun command =>
    calc (∃ words, command.words = .ok words)
        ↔ ∃ texts, command.coordinates.mapM Quantity.briefText = .ok texts := exists_bind_pure_iff
      _ ↔ ∀ x ∈ command.coordinates, ∃ text, x.briefText = .ok text := exists_mapM_iff
      _ ↔ ∀ x ∈ command.coordinates, ∃ y, x.toBinary64 = .ok y :=
        forall₂_congr fun _ _ => Quantity.exists_briefText_iff
  calc (∃ text, k.pathText = .ok text)
      ↔ ∃ wordLists, k.commands.mapM PathCommand.words = .ok wordLists := exists_bind_pure_iff
    _ ↔ ∀ command ∈ k.commands, ∃ words, command.words = .ok words := exists_mapM_iff
    _ ↔ ∀ command ∈ k.commands, ∀ x ∈ command.coordinates, ∃ y, x.toBinary64 = .ok y :=
      forall₂_congr fun command _ => hwords command
    _ ↔ ∀ x ∈ k.coordinates, ∃ y, x.toBinary64 = .ok y := List.forall_mem_flatMap.symm

/-- **What the text of a connector's path says.**  The path has a text exactly when no coordinate is
too great for a double.  The text is read as the same commands in the same order, with all
coordinates rounded to six digits, and these are the same numbers exactly when they were short.  In
particular the line is drawn from marker to marker exactly when the places of the markers are
short. -/
theorem routeBetween_pathText (h : routeBetween m s r source target = .ok (some k)) :
    ((∃ text, k.pathText = .ok text) ↔ ∀ x ∈ k.coordinates, ∃ y, x.toBinary64 = .ok y) ∧
    ∀ text, k.pathText = .ok text → ∃ read, readPath? text = some read ∧
      List.Forall₂ (PathCommand.Matches Quantity.Rounds) k.commands read ∧
      (List.Forall₂ (PathCommand.Matches Quantity.Keeps) k.commands read ↔
        ∀ x ∈ k.coordinates, x.Short 6) ∧
      (∃ p, read.head? = some (.moveTo p) ∧ (k.start.anchor.Keeps p ↔ k.start.anchor.Short 6)) ∧
      ∃ q, read.getLast? = some (.lineTo q) ∧
        (k.finish.anchor.Keeps q ↔ k.finish.anchor.Short 6) := by
  refine ⟨Connector.exists_pathText_iff, fun text htext => ?_⟩
  obtain ⟨-, hruns, -, -⟩ :=
    routeBetween_attached (c := { Config.default with metrics := m, routing := s }) h
  have hcommands : k.commands ≠ [] := fun hnil => by
    have hfirst := hruns.first_command
    rw [hnil] at hfirst
    exact nomatch hfirst
  obtain ⟨read, hread, hrounds⟩ := exists_readPath hcommands htext
  refine ⟨read, hread, hrounds, ?_, ?_, ?_⟩
  · rw [Connector.coordinates, List.forall_mem_flatMap]
    exact forall₂_iff_of_forall₂
      (fun command b (hmatch : command.Matches Quantity.Rounds b) => hmatch.keeps_iff) hrounds
  · obtain ⟨first, hfirst, hmatch⟩ := exists_head?_of_forall₂ hrounds hruns.first_command
    obtain ⟨p, rfl, hx, hy⟩ := hmatch.exists_moveTo
    exact ⟨p, hfirst, and_congr hx.keeps_iff hy.keeps_iff⟩
  · obtain ⟨last, hlast, hmatch⟩ := exists_getLast?_of_forall₂ hrounds hruns.last_command
    obtain ⟨q, rfl, hx, hy⟩ := hmatch.exists_lineTo
    exact ⟨q, hlast, and_congr hx.keeps_iff hy.keeps_iff⟩

/-- The connector between two tables, one above the other, that stand at some coordinate. -/
def stackedConnector (x : ℤ) : Except ArithmeticFault (Option (Connector Quantity)) :=
  routeBetween Config.default.metrics Config.default.routing ⟨"a", "id", "b", "a_id", .oneToMany⟩
    (fieldTable "a" "id" ⟨.whole x, .whole 60⟩) (fieldTable "b" "a_id" ⟨.whole x, .whole 300⟩)

/-- Whole coordinates below a million are kept. -/
theorem routeBetween_pathText_stacked :
    ∃ k text read p q, stackedConnector 60 = .ok (some k) ∧ k.pathText = .ok text ∧
      readPath? text = some read ∧
      List.Forall₂ (PathCommand.Matches Quantity.Keeps) k.commands read ∧
      read.head? = some (.moveTo p) ∧ k.start.anchor.Keeps p ∧
      read.getLast? = some (.lineTo q) ∧ k.finish.anchor.Keeps q := by
  have hdrawn : (stackedConnector 60).map (Option.map fun k => (k.coordinates, k.start.anchor,
      k.finish.anchor)) = .ok (some ([263, 105, 290, 105, 295, 105, 295, 110, 295, 340, 295, 345, 290,
        345, 263, 345].map Quantity.whole, ⟨.whole 263, .whole 105⟩, ⟨.whole 263, .whole 345⟩)) := by
    decide +kernel
  have hshort : ∀ a : ℤ, |a| < 10 ^ 6 → (Quantity.whole a).Short 6 := fun a ha =>
    Quantity.short_whole (by norm_num) ha
  obtain ⟨k, hk, hk'⟩ := exists_of_map_some hdrawn
  obtain ⟨hcoordinates, hanchors⟩ := Prod.mk.inj hk'
  obtain ⟨hstart, hfinish⟩ := Prod.mk.inj hanchors
  have hall : ∀ x ∈ k.coordinates, ∃ a : ℤ, x = .whole a ∧ |a| < 10 ^ 6 := by
    rw [hcoordinates]
    intro x hx
    obtain ⟨a, ha, rfl⟩ := List.mem_map.1 hx
    refine ⟨a, rfl, ?_⟩
    revert a
    decide
  obtain ⟨hwritten, hread⟩ := routeBetween_pathText hk
  obtain ⟨text, htext⟩ := hwritten.2 fun x hx => by
    obtain ⟨a, rfl, ha⟩ := hall x hx
    obtain ⟨place, hplace, -⟩ :=
      Binary64.ofInt_held (Binary64.holds_of_lt (ha.trans (by norm_num)))
    exact ⟨_, hplace⟩
  obtain ⟨read, hread, -, hkeeps, ⟨p, hp, hpkeeps⟩, q, hq, hqkeeps⟩ := hread text htext
  refine ⟨k, text, read, p, q, hk, htext, hread, hkeeps.2 fun x hx => ?_, hp, hpkeeps.2 ?_, hq,
    hqkeeps.2 ?_⟩
  · obtain ⟨a, rfl, ha⟩ := hall x hx
    exact hshort a ha
  · rw [hstart]
    exact ⟨hshort 263 (by norm_num), hshort 105 (by norm_num)⟩
  · rw [hfinish]
    exact ⟨hshort 263 (by norm_num), hshort 345 (by norm_num)⟩

/-- Both coordinates of a table's position are numbers. -/
def Table.StandsSomewhere (t : Table Quantity) : Prop :=
  ∃ p v w, t.position = some p ∧ p.x.value? = some v ∧ p.y.value? = some w

/-- The text of the path between two tables that stand at a million. -/
def farPathText : String :=
  "M 1.0002e+06 105 L 1.00023e+06 105 Q 1.00024e+06 105 1.00024e+06 110 " ++
    "L 1.00024e+06 340 Q 1.00024e+06 345 1.00023e+06 345 L 1.0002e+06 345"

/-- Beyond a million, a path is not drawn where its connector runs: at `1000203` the line begins at
`1000200`, beside its marker. -/
theorem not_all_pathText :
    ¬ ∀ (m : Metrics) (s : RoutingSettings) (r : Relationship) (source target : Table Quantity)
      (k : Connector Quantity) (text : String), source.StandsSomewhere → target.StandsSomewhere →
      routeBetween m s r source target = .ok (some k) → k.pathText = .ok text →
      ∃ read, readPath? text = some read ∧
        List.Forall₂ (PathCommand.Matches Quantity.Keeps) k.commands read := by
  intro hall
  have hdrawn : (stackedConnector 1000000).map
      (Option.map fun k => (k.commands.head?, k.pathText)) =
        .ok (some (some (.moveTo ⟨.whole 1000203, .whole 105⟩), .ok farPathText)) := by
    decide +kernel
  obtain ⟨k, hk, hk'⟩ := exists_of_map_some hdrawn
  obtain ⟨hhead, htext⟩ := Prod.mk.inj hk'
  obtain ⟨read, hread, hkeeps⟩ := hall _ _ _ _ _ k _ ⟨_, 1000000, 60, rfl, rfl, rfl⟩
    ⟨_, 1000000, 300, rfl, rfl, rfl⟩ hk htext
  obtain ⟨first, hfirst, hmatch⟩ := exists_head?_of_forall₂ hkeeps hhead
  obtain ⟨p, rfl, hx, -⟩ := hmatch.exists_moveTo
  -- what the text begins with
  have hother : (readPath? farPathText).bind (fun read => read.head?) =
      some (.moveTo ⟨.ofRat 1000200, .ofRat 105⟩) := by
    decide +kernel
  rw [hread, Option.bind_some, hfirst, Option.some.injEq, PathCommand.moveTo.injEq] at hother
  rw [hother] at hx
  have hapart : ¬ (Quantity.real (.ofRat 1000200)).SameNumber (.whole 1000203) := by
    decide +kernel
  exact hapart hx

end

end SchemaDiagram
