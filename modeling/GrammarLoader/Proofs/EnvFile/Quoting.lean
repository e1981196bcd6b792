import GrammarLoader.Proofs.EnvFile.Literal
import GrammarLoader.Settings

/-!
# Quoted assignments in an environment file

A text in single quotes, each backslash and each quote in it behind a backslash, is read as that
text: no quote of its own closes it, and no line end, sign or blank in it ends the statement. So a
file with one such line for each field is read as just these assignments. A line ends at its line
feed, or with the file.
-/

namespace GrammarLoader

namespace EnvFile

/-- One character between single quotes. -/
def quotedChar (c : Char) : List Char := if c == '\\' || c == '\x27' then ['\\', c] else [c]

/-- A text between single quotes. -/
def singleQuoted (text : List Char) : List Char := '\x27' :: text.flatMap quotedChar ++ ['\x27']

theorem quotedChar_cases (c : Char) : quotedChar c = ['\\', c] ∧ singleEscape? c = some c ∨
    quotedChar c = [c] ∧ c ≠ '\\' ∧ c ≠ '\x27' := by
  unfold quotedChar
  by_cases hslash : c = '\\'
  · subst hslash
    exact .inl ⟨rfl, rfl⟩
  · by_cases hquote : c = '\x27'
    · subst hquote
      exact .inl ⟨rfl, rfl⟩
    · exact .inr ⟨by simp [hslash, hquote], hslash, hquote⟩

theorem quotedInside_flatMap (text rest : List Char) :
    quotedInside '\x27' (text.flatMap quotedChar ++ '\x27' :: rest) =
      some (text.flatMap quotedChar, rest) := by
  induction text with
  | nil => rfl
  | cons c text ih =>
    rw [List.flatMap_cons, List.append_assoc]
    obtain ⟨hquoted, -⟩ | ⟨hquoted, hslash, hquote⟩ := quotedChar_cases c
    · -- the backslash in front keeps the character from closing the text
      rw [hquoted, List.cons_append, List.singleton_append, quotedInside, ih]
      rfl
    · rw [hquoted, List.singleton_append, quotedInside, ih]
      · simp [hquote]
      · exact fun _ _ h _ => hslash h

theorem unescape_flatMap (text : List Char) :
    unescape singleEscape? (text.flatMap quotedChar) = text := by
  induction text with
  | nil => rfl
  | cons c text ih =>
    rw [List.flatMap_cons]
    obtain ⟨hquoted, hescape⟩ | ⟨hquoted, hslash, -⟩ := quotedChar_cases c
    · rw [hquoted, List.cons_append, List.singleton_append, unescape, hescape, ih]
    · rw [hquoted, List.singleton_append, unescape, ih]
      exact fun _ _ h _ => hslash h

theorem value?_singleQuoted (text rest : List Char) :
    value? (singleQuoted text ++ rest) = some (text, rest) := by
  rw [singleQuoted, List.append_assoc, List.cons_append, List.singleton_append, value?,
    quotedInside_flatMap, Option.map_some, unescape_flatMap]

/-- The line that gives a field a text, but for its end. -/
def assignment (f : Field) (text : List Char) : List Char :=
  f.name.toList ++ '=' :: singleQuoted text

theorem assigned_singleQuoted (text rest : List Char) :
    assigned ('=' :: (singleQuoted text ++ rest)) = .ok (some text, rest) := by
  have hskip : skipInner (singleQuoted text ++ rest) = singleQuoted text ++ rest := rfl
  rw [assigned, hskip, value?_singleQuoted]
  simp

theorem name?_field (f : Field) (rest : List Char) :
    name? (f.name.toList ++ '=' :: rest) = some (some f.name.toList, '=' :: rest) := by
  cases f <;> rfl

/-- What follows a statement: nothing, or the end of its line and the text behind it. -/
inductive EndsLine : List Char → List Char → Prop
  | atEnd : EndsLine [] []
  | atLine (after : List Char) : EndsLine ('\n' :: after) after

theorem statement_assignment (f : Field) (text : List Char) {rest after : List Char}
    (h : EndsLine rest after) :
    statement (assignment f text ++ rest) = .ok (some (f.name.toList, some text), after) := by
  have hexport : skipExport (f.name.toList ++ '=' :: (singleQuoted text ++ rest)) =
      f.name.toList ++ '=' :: (singleQuoted text ++ rest) := by
    cases f <;> rfl
  have hskip : skipInner ('=' :: (singleQuoted text ++ rest)) =
      '=' :: (singleQuoted text ++ rest) :=
    rfl
  have hend : lineEnd? (skipComment rest) = some after := by
    cases h with
    | atEnd => rfl
    | atLine => rfl
  rw [assignment, List.append_assoc, List.cons_append, statement, hexport, name?_field]
  simp only [hskip, assigned_singleQuoted, hend]
  rfl

/-- A text with one line for each of some assignments. The last line may lack its end. -/
inductive Assigns : List (Field × String) → List Char → Prop
  | nil : Assigns [] []
  | last (f : Field) (text : String) : Assigns [(f, text)] (assignment f text.toList)
  | line (f : Field) (text : String) {rest : List (Field × String)} {after : List Char}
    (h : Assigns rest after) :
    Assigns ((f, text) :: rest) (assignment f text.toList ++ '\n' :: after)

namespace Assigns

variable {pairs : List (Field × String)} {cs : List Char}

/-- The first statement of a text is that of its first line. -/
theorem statementsFrom_assignment (f : Field) (text : List Char) {rest after : List Char}
    (h : EndsLine rest after) (fuel : Nat) :
    statementsFrom (fuel + 1) (assignment f text ++ rest) =
      (f.name.toList, some text) :: statementsFrom fuel after := by
  have hstart : ∃ c tail, (assignment f text ++ rest).dropWhile Text.isBlank = c :: tail ∧
      assignment f text ++ rest = c :: tail := by
    cases f <;> exact ⟨_, _, rfl, rfl⟩
  obtain ⟨c, tail, hdrop, hcons⟩ := hstart
  rw [statementsFrom, hdrop]
  dsimp only
  rw [← hcons, statement_assignment f text h]

/-- Its statements are the assignments. -/
theorem statementsFrom_eq (h : Assigns pairs cs) {fuel : Nat} (hfuel : cs.length ≤ fuel) :
    statementsFrom fuel cs = pairs.map fun p => (p.1.name.toList, some p.2.toList) := by
  have hlength (f : Field) (text : List Char) : 0 < (assignment f text).length := by
    rw [assignment, List.length_append, List.length_cons]
    omega
  have hempty (fuel : Nat) : statementsFrom fuel [] = [] := by cases fuel <;> rfl
  induction h generalizing fuel with
  | nil => exact hempty fuel
  | last f text =>
    obtain ⟨fuel, rfl⟩ := Nat.exists_eq_add_one.mpr (Nat.lt_of_lt_of_le (hlength f _) hfuel)
    have hread := statementsFrom_assignment f text.toList .atEnd fuel
    rw [List.append_nil, hempty] at hread
    exact hread
  | @line f text rest after _ ih =>
    rw [List.length_append, List.length_cons] at hfuel
    obtain ⟨fuel, rfl⟩ := Nat.exists_eq_add_one.mpr
      (show 0 < fuel by have := hlength f text.toList; omega)
    rw [statementsFrom_assignment f text.toList (.atLine after) fuel, ih (by omega)]
    rfl

theorem not_mem (h : Assigns pairs cs) (hpairs : ∀ p ∈ pairs, '\r' ∉ p.2.toList) : '\r' ∉ cs := by
  have hassignment {f : Field} {text : String} (ht : '\r' ∉ text.toList) :
      '\r' ∉ assignment f text.toList := by
    have hname : '\r' ∉ f.name.toList := by cases f <;> decide
    have hchar (c : Char) (hc : c ∈ text.toList) : '\r' ∉ quotedChar c := by
      intro hmem
      obtain ⟨hquoted, -⟩ | ⟨hquoted, -⟩ := quotedChar_cases c <;> rw [hquoted] at hmem <;>
        simp only [List.mem_cons, List.not_mem_nil, or_false] at hmem
      · obtain hslash | hself := hmem
        · cases hslash
        · exact ht (hself ▸ hc)
      · exact ht (hmem ▸ hc)
    simp only [assignment, singleQuoted, List.mem_append, List.mem_cons, List.mem_flatMap,
      List.not_mem_nil, or_false, not_or, not_exists, not_and]
    exact ⟨hname, by decide, ⟨by decide, hchar⟩, by decide⟩
  induction h with
  | nil => exact List.not_mem_nil
  | last f text => exact hassignment (hpairs _ List.mem_cons_self)
  | line f text _ ih =>
    obtain ⟨hfirst, hrest⟩ := List.forall_mem_cons.mp hpairs
    rw [List.mem_append, List.mem_cons, not_or, not_or]
    exact ⟨hassignment hfirst, by decide, ih hrest⟩

end Assigns

theorem unixLines_of_not_mem {cs : List Char} (h : '\r' ∉ cs) : unixLines cs = cs := by
  induction cs with
  | nil => rfl
  | cons c rest ih =>
    rw [List.mem_cons, not_or] at h
    rw [unixLines, ih h.2]
    · exact fun _ hc _ => h.1 hc.symm
    · exact fun hc => h.1 hc.symm

theorem statements_of_assigns {pairs : List (Field × String)} {text : String}
    (h : Assigns pairs text.toList) (hpairs : ∀ p ∈ pairs, '\r' ∉ p.2.toList) :
    statements text = pairs.map fun p => (p.1.name.toList, some p.2.toList) := by
  have hmark : withoutMark text.toList = text.toList := by
    generalize text.toList = cs at h
    cases h with
    | nil => rfl
    | last f text => cases f <;> rfl
    | line f text h => cases f <;> rfl
  simp only [statements]
  rw [hmark, unixLines_of_not_mem (h.not_mem hpairs)]
  exact h.statementsFrom_eq (Nat.le_refl _)

/-- A text in which no reference opens stays as it is. -/
theorem substitute_of_no_reference {find : List Char → Option (List Char)} {cs : List Char}
    (h : ¬ ['$', '\x7b'] <:+: cs) : substitute find cs = cs :=
  substitute_of_isLiteral (isLiteral_of_not_opens h)

/-- A file with a line for each assignment defines just these. -/
theorem read_of_assigns {pairs : List (Field × String)} {text : String}
    (environment : List (String × String)) (h : Assigns pairs text.toList)
    (hreturn : ∀ p ∈ pairs, '\r' ∉ p.2.toList)
    (hreference : ∀ p ∈ pairs, ¬ ['$', '\x7b'] <:+: p.2.toList) :
    read environment text =
      (Assoc.ofPairs (pairs.map fun p => (p.1.name, p.2))).map fun p => (p.1, some p.2) := by
  have hdefine (earlier : Variables) : ∀ pairs : List (Field × String),
      (∀ p ∈ pairs, ¬ ['$', '\x7b'] <:+: p.2.toList) →
      (pairs.map fun p => (p.1.name.toList, some p.2.toList)).foldl (define environment) earlier =
        Assoc.insertAll earlier (pairs.map fun p => (p.1.name, some p.2)) := by
    intro pairs
    induction pairs generalizing earlier with
    | nil => exact fun _ => rfl
    | cons p rest ih =>
      intro hpairs
      obtain ⟨hp, hrest⟩ := List.forall_mem_cons.mp hpairs
      have hfirst : define environment earlier (p.1.name.toList, some p.2.toList) =
          Assoc.insert p.1.name (some p.2) earlier := by
        simp [define, substitute_of_no_reference hp, String.ofList_toList]
      rw [List.map_cons, List.foldl_cons, hfirst, ih _ hrest]
      rfl
  have hmap := Assoc.insertAll_map some [] (pairs.map fun p => (p.1.name, p.2))
  rw [List.map_map] at hmap
  rw [read, statements_of_assigns h hreturn, hdefine [] pairs hreference]
  exact hmap

end EnvFile

end GrammarLoader
