import GrammarLoader.Proofs.Json.Number
import Mathlib.Data.Bool.AllAny
import Mathlib.Data.List.Forall2
import Mathlib.Data.Nat.Init

/-!
# Reading what was written

The text of a value is read as that value, wherever it stands: whatever follows, as long as that
does not go on with a number, and with any depth that the length of the text asks for. From the
texts of its items a list has its own, and an object from its keys and theirs. So every value that a
JSON text can hold comes back from the text that is written for it.
-/

namespace GrammarLoader

namespace Json

section Values

/-! ## Values by their texts -/

/-- A text that is read as a value wherever it stands. -/
structure Writes (text : List Char) (v : Value) : Prop where
  /-- The text starts with a character that ends no list or object. -/
  starts : ∃ c cs, text = c :: cs ∧ isSpace c = false ∧ c ≠ ']' ∧ c ≠ '\x7d'
  reads : ∀ {fuel : Nat} {rest : List Char}, 2 * text.length ≤ fuel → EndsNumber rest →
    valueAt fuel (text ++ rest) = some (v, rest)

namespace Writes

variable {text : List Char} {v : Value}

theorem skipSpace_append (h : Writes text v) (rest : List Char) :
    skipSpace (text ++ rest) = text ++ rest := by
  obtain ⟨c, cs, rfl, hc, -⟩ := h.starts
  simp [skipSpace, hc]

/-- A text that stands alone, but for the blanks behind it. -/
theorem parse_append (h : Writes text v) {blanks : List Char} (hb : ∀ c ∈ blanks, isSpace c) :
    parse (text ++ blanks) = some v := by
  have hends : EndsNumber blanks := by
    intro c hc
    have hspace := hb c (List.mem_of_mem_head? hc)
    unfold isSpace at hspace
    simp only [Bool.or_eq_true, beq_iff_eq] at hspace
    rcases hspace with ((rfl | rfl) | rfl) | rfl <;> exact ⟨rfl, by decide, by decide, by decide⟩
  have hread : valueAt (2 * (text ++ blanks).length + 2) (text ++ blanks) = some (v, blanks) :=
    h.reads (by rw [List.length_append]; omega) hends
  have hskip : skipSpace (blanks ++ []) = [] := List.dropWhile_append_of_pos hb
  rw [List.append_nil] at hskip
  rw [parse, h.skipSpace_append, hread]
  simp [hskip]

end Writes

theorem writes_spelled (keep : Char → Bool) (s : String) : Writes (spelled keep s) (.str s) where
  starts := ⟨'"', _, rfl, rfl, by decide, by decide⟩
  reads := by
    intro fuel rest hfuel _
    obtain ⟨tail, htail, hread⟩ := spelled_append keep s rest
    cases fuel with
    | zero => simp [spelled] at hfuel
    | succ fuel =>
      rw [htail, valueAt, hread]
      rfl

theorem writes_stringText (s : String) : Writes (stringText s) (.str s) := by
  rw [← spelled_none]
  exact writes_spelled _ s

/-- What starts neither a string nor a list nor an object is a word or a number. -/
theorem valueAt_eq_scalar {c : Char} (hc : c ∉ ['"', '[', '\x7b']) (fuel : Nat) (cs : List Char) :
    valueAt (fuel + 1) (c :: cs) = scalar (c :: cs) := by
  simp only [List.mem_cons, List.not_mem_nil, or_false, not_or] at hc
  obtain ⟨hq, hl, ho⟩ := hc
  rw [valueAt]
  · rintro r heq
    cases heq
    exact hq rfl
  · rintro r heq
    cases heq
    exact hl rfl
  · rintro r heq
    cases heq
    exact ho rfl

theorem writes_of_scalar {c : Char} {cs : List Char} {v : Value}
    (hc : c ∉ ['"', '[', '\x7b', ']', '\x7d']) (hspace : isSpace c = false)
    (h : ∀ rest, EndsNumber rest → scalar (c :: cs ++ rest) = some (v, rest)) :
    Writes (c :: cs) v where
  starts := ⟨c, cs, rfl, hspace, by simp_all, by simp_all⟩
  reads := by
    intro fuel rest hfuel hr
    cases fuel with
    | zero => simp at hfuel
    | succ fuel =>
      rw [← h rest hr]
      exact valueAt_eq_scalar (by simp_all) fuel (cs ++ rest)

theorem writes_null : Writes "null".toList .null :=
  writes_of_scalar (by decide) rfl fun _ _ => rfl

theorem writes_bool (b : Bool) : Writes (text (.bool b)) (.bool b) := by
  cases b <;> exact writes_of_scalar (by decide) rfl fun _ _ => rfl

/-- No word starts with a digit, nor with a minus sign and a digit. -/
theorem scalar_of_isDigit {d : Char} (hd : d.isDigit) (cs : List Char) :
    scalar (d :: cs) = number (d :: cs) ∧ scalar ('-' :: d :: cs) = number ('-' :: d :: cs) := by
  have hne {c : Char} (hc : c.isDigit = false) : c ≠ d := by
    rintro rfl
    rw [hc] at hd
    cases hd
  have hplain : words.find? (fun w => w.1.toList.isPrefixOf (d :: cs)) = none := by
    rw [List.find?_eq_none]
    simp [words, hne]
  have hnegative : words.find? (fun w => w.1.toList.isPrefixOf ('-' :: d :: cs)) = none := by
    rw [List.find?_eq_none]
    simp [words, hne]
  constructor
  · rw [scalar, hplain]
  · rw [scalar, hnegative]

theorem writes_of_isNumeral {text : List Char} {v : Value} (h : IsNumeral text v) :
    Writes text v := by
  obtain ⟨d, ds, hdigit, rfl | rfl⟩ := h.starts
  · refine writes_of_scalar ?_ ?_ fun rest hr => ?_
    · intro hmem
      simp only [List.mem_cons, List.not_mem_nil, or_false] at hmem
      rcases hmem with rfl | rfl | rfl | rfl | rfl <;> cases hdigit
    · unfold isSpace
      simp only [Bool.or_eq_false_iff, beq_eq_false_iff_ne]
      refine ⟨⟨⟨?_, ?_⟩, ?_⟩, ?_⟩ <;> rintro rfl <;> cases hdigit
    · rw [← h.reads hr]
      exact (scalar_of_isDigit hdigit _).1
  · refine writes_of_scalar (by decide) rfl fun rest hr => ?_
    rw [← h.reads hr]
    exact (scalar_of_isDigit hdigit _).2

theorem writes_int (n : Integer) : Writes (text (.int n)) (.int n) :=
  writes_of_isNumeral (isNumeral_integer n)

theorem writes_real (x : Double) : Writes (text (.real x)) (.real x) := by
  cases x with
  | finite negative place => exact writes_of_isNumeral (isNumeral_finite negative place)
  | infinite negative => cases negative <;> exact writes_of_scalar (by decide) rfl fun _ _ => rfl
  | undefined => exact writes_of_scalar (by decide) rfl fun _ _ => rfl

end Values

section Collections

/-! ## Lists and objects -/

theorem joined_singleton (part : List Char) : joined [part] = part := by
  simp [joined, List.intercalate]

theorem joined_cons_cons (first second : List Char) (rest : List (List Char)) :
    joined (first :: second :: rest) = first ++ ',' :: ' ' :: joined (second :: rest) := by
  simp [joined, List.intercalate]

/-- Joined parts start with the first one. -/
theorem joined_cons (first : List Char) (rest : List (List Char)) :
    ∃ tail, joined (first :: rest) = first ++ tail := by
  cases rest with
  | nil => exact ⟨[], by rw [joined_singleton, List.append_nil]⟩
  | cons second rest => exact ⟨_, joined_cons_cons first second rest⟩

theorem endsNumber_delimiter {c : Char} (hc : c ∈ [',', ']', '\x7d']) (rest : List Char) :
    EndsNumber (c :: rest) := by
  simp only [List.mem_cons, List.not_mem_nil, or_false] at hc
  apply endsNumber_cons
  rcases hc with rfl | rfl | rfl <;> exact ⟨rfl, by decide, by decide, by decide⟩

variable {texts : List (List Char)} {items : List Value} {entries : List (String × Value)}

/-- No blank stands before a list of texts. -/
theorem Writes.skipSpace_joined {text : List Char} {v : Value} (h : Writes text v)
    (texts : List (List Char)) (rest : List Char) :
    skipSpace (joined (text :: texts) ++ rest) = joined (text :: texts) ++ rest := by
  obtain ⟨tail, htail⟩ := joined_cons text texts
  rw [htail, List.append_assoc]
  exact h.skipSpace_append _

/-- An item takes a step and leaves what follows it for another one. -/
theorem itemsAt_of_writes {text : List Char} {v : Value} (h : Writes text v) {fuel : Nat}
    (hfuel : 2 * text.length ≤ fuel) {c : Char} (hc : c ∈ [',', ']', '\x7d'])
    (rest : List Char) :
    itemsAt (fuel + 1) (text ++ c :: rest) = match c with
      | ']' => some ([v], rest)
      | ',' => (itemsAt fuel (skipSpace rest)).map fun p => (v :: p.1, p.2)
      | _ => none := by
  rw [itemsAt, h.reads hfuel (endsNumber_delimiter hc rest)]
  simp only [Option.bind_eq_bind, Option.bind_some]
  simp only [List.mem_cons, List.not_mem_nil, or_false] at hc
  rcases hc with rfl | rfl | rfl
  · show ((itemsAt fuel (skipSpace rest)).bind fun p => some (v :: p.1, p.2)) = _
    cases itemsAt fuel (skipSpace rest) <;> rfl
  · rfl
  · rfl

theorem itemsAt_joined (h : List.Forall₂ Writes texts items) (hne : items ≠ []) {fuel : Nat}
    {rest : List Char} (hfuel : 2 * (joined texts).length < fuel) :
    itemsAt fuel (joined texts ++ ']' :: rest) = some (items, rest) := by
  induction h generalizing fuel with
  | nil => exact absurd rfl hne
  | @cons first v texts items hfirst hrest ih =>
    obtain ⟨fuel, rfl⟩ : ∃ n, fuel = n + 1 := ⟨fuel - 1, by omega⟩
    cases hrest with
    | nil =>
      rw [joined_singleton] at hfuel ⊢
      exact itemsAt_of_writes hfirst (by omega) (by decide) rest
    | @cons second v' texts items hsecond hrest =>
      rw [joined_cons_cons] at hfuel ⊢
      simp only [List.length_append, List.length_cons] at hfuel
      have hmore : itemsAt fuel (joined (second :: texts) ++ ']' :: rest) =
          some (v' :: items, rest) := ih (by simp) (by omega)
      have hskip : skipSpace (' ' :: (joined (second :: texts) ++ ']' :: rest)) =
          joined (second :: texts) ++ ']' :: rest := hsecond.skipSpace_joined texts _
      rw [List.append_assoc, List.cons_append, List.cons_append,
        itemsAt_of_writes hfirst (by omega) (by decide)]
      simp [hskip, hmore]

theorem writes_list (h : List.Forall₂ Writes texts items) :
    Writes ('[' :: joined texts ++ [']']) (.list items) where
  starts := ⟨'[', _, rfl, rfl, by decide, by decide⟩
  reads := by
    intro fuel rest hfuel _
    simp only [List.length_append, List.length_cons, List.length_nil] at hfuel
    obtain ⟨fuel, rfl⟩ : ∃ n, fuel = n + 1 := ⟨fuel - 1, by omega⟩
    rw [List.append_assoc, List.cons_append, List.singleton_append, valueAt]
    cases h with
    | nil => rfl
    | @cons first v texts items hfirst hrest =>
      have hitems : itemsAt fuel (joined (first :: texts) ++ ']' :: rest) =
          some (v :: items, rest) :=
        itemsAt_joined (.cons hfirst hrest) (by simp) (by omega)
      obtain ⟨tail, htail⟩ := joined_cons first texts
      -- the first item is not taken for the end of the list
      obtain ⟨c, cs, rfl, -, hc, -⟩ := id hfirst.starts
      rw [hfirst.skipSpace_joined texts]
      rw [htail] at hitems ⊢
      simp only [List.cons_append, List.append_assoc] at hitems ⊢
      simp [hc, hitems]

/-- The text of an entry: its key, a colon and the text of its value. -/
def WritesEntry (text : List Char) (entry : String × Value) : Prop :=
  ∃ body, text = stringText entry.1 ++ ':' :: ' ' :: body ∧ Writes body entry.2

/-- An entry takes a step and leaves what follows it for another one. -/
theorem entriesAt_of_writesEntry {text : List Char} {entry : String × Value}
    (h : WritesEntry text entry) {fuel : Nat} (hfuel : 2 * text.length < fuel + 1) {c : Char}
    (hc : c ∈ [',', ']', '\x7d']) (rest : List Char) :
    entriesAt (fuel + 1) (text ++ c :: rest) = match c with
      | '\x7d' => some ([entry], rest)
      | ',' => (entriesAt fuel (skipSpace rest)).map fun p => (entry :: p.1, p.2)
      | _ => none := by
  obtain ⟨key, v⟩ := entry
  obtain ⟨body, rfl, hbody⟩ := h
  simp only [List.length_append, List.length_cons] at hfuel
  have hread : valueAt fuel (body ++ c :: rest) = some (v, c :: rest) :=
    hbody.reads (by omega) (endsNumber_delimiter hc rest)
  obtain ⟨tail, htail, hkey⟩ := spelled_append (fun _ => false) key
    (':' :: ' ' :: (body ++ c :: rest))
  rw [spelled_none] at htail
  have hcolon : skipSpace (':' :: ' ' :: (body ++ c :: rest)) = ':' :: ' ' :: (body ++ c :: rest) :=
    rfl
  have hblank : skipSpace (' ' :: (body ++ c :: rest)) = body ++ c :: rest :=
    hbody.skipSpace_append _
  rw [List.append_assoc, List.cons_append, List.cons_append, htail, entriesAt, hkey]
  simp only [Option.bind_eq_bind, Option.bind_some, hcolon, hblank, hread]
  simp only [List.mem_cons, List.not_mem_nil, or_false] at hc
  rcases hc with rfl | rfl | rfl
  · show ((entriesAt fuel (skipSpace rest)).bind fun p => some ((key, v) :: p.1, p.2)) = _
    cases entriesAt fuel (skipSpace rest) <;> rfl
  · rfl
  · rfl

theorem entriesAt_joined (h : List.Forall₂ WritesEntry texts entries) (hne : entries ≠ [])
    {fuel : Nat} {rest : List Char} (hfuel : 2 * (joined texts).length < fuel) :
    entriesAt fuel (joined texts ++ '\x7d' :: rest) = some (entries, rest) := by
  induction h generalizing fuel with
  | nil => exact absurd rfl hne
  | @cons first entry texts entries hfirst hrest ih =>
    obtain ⟨fuel, rfl⟩ : ∃ n, fuel = n + 1 := ⟨fuel - 1, by omega⟩
    cases hrest with
    | nil =>
      rw [joined_singleton] at hfuel ⊢
      exact entriesAt_of_writesEntry hfirst (by omega) (by decide) rest
    | @cons second entry' texts entries hsecond hrest =>
      rw [joined_cons_cons] at hfuel ⊢
      simp only [List.length_append, List.length_cons] at hfuel
      have hmore : entriesAt fuel (joined (second :: texts) ++ '\x7d' :: rest) =
          some (entry' :: entries, rest) := ih (by simp) (by omega)
      have hskip : skipSpace (' ' :: (joined (second :: texts) ++ '\x7d' :: rest)) =
          joined (second :: texts) ++ '\x7d' :: rest := by
        obtain ⟨tail, htail⟩ := joined_cons second texts
        obtain ⟨body, rfl, -⟩ := hsecond
        rw [htail]
        rfl
      rw [List.append_assoc, List.cons_append, List.cons_append,
        entriesAt_of_writesEntry hfirst (by omega) (by decide)]
      simp [hskip, hmore]

theorem writes_object (h : List.Forall₂ WritesEntry texts entries)
    (hkeys : (entries.map Prod.fst).Nodup) :
    Writes ('\x7b' :: joined texts ++ ['\x7d']) (.object entries) where
  starts := ⟨'\x7b', _, rfl, rfl, by decide, by decide⟩
  reads := by
    intro fuel rest hfuel _
    simp only [List.length_append, List.length_cons, List.length_nil] at hfuel
    obtain ⟨fuel, rfl⟩ : ∃ n, fuel = n + 1 := ⟨fuel - 1, by omega⟩
    rw [List.append_assoc, List.cons_append, List.singleton_append, valueAt]
    cases h with
    | nil => rfl
    | @cons first entry texts entries hfirst hrest =>
      have hentries : entriesAt fuel (joined (first :: texts) ++ '\x7d' :: rest) =
          some (entry :: entries, rest) :=
        entriesAt_joined (.cons hfirst hrest) (by simp) (by omega)
      obtain ⟨tail, htail⟩ := joined_cons first texts
      obtain ⟨body, rfl, -⟩ := hfirst
      -- a key starts with a quote, which is not taken for the end of the object
      obtain ⟨inner, hinner⟩ : ∃ inner, stringText entry.1 ++ ':' :: ' ' :: body ++ tail ++
          '\x7d' :: rest = '"' :: inner := ⟨_, rfl⟩
      have hskip : skipSpace ('"' :: inner) = '"' :: inner := rfl
      rw [htail, hinner] at hentries ⊢
      rw [hskip]
      simp [hentries, Assoc.ofPairs_of_nodup hkeys]

end Collections

end Json

section Plain

/-! ## What a JSON text can hold -/

/-- A value whose objects have different keys. -/
inductive Value.IsJson : Value → Prop
  | null : IsJson .null
  | bool (b : Bool) : IsJson (.bool b)
  | int (n : Integer) : IsJson (.int n)
  | real (x : Double) : IsJson (.real x)
  | str (s : String) : IsJson (.str s)
  | list {items : List Value} (h : ∀ v ∈ items, v.IsJson) : IsJson (.list items)
  | object {entries : List (String × Value)} (hk : (entries.map Prod.fst).Nodup)
    (h : ∀ e ∈ entries, e.2.IsJson) : IsJson (.object entries)

namespace Json

theorem itemTexts_eq_map (items : List Value) : itemTexts items = items.map text := by
  induction items with
  | nil => rfl
  | cons v rest ih => rw [itemTexts, ih, List.map_cons]

theorem entryTexts_eq_map (entries : List (String × Value)) :
    entryTexts entries = entries.map fun e => stringText e.1 ++ ':' :: ' ' :: text e.2 := by
  induction entries with
  | nil => rfl
  | cons e rest ih => rw [entryTexts, ih, List.map_cons]

theorem forall₂_map_left {α β : Type} {R : β → α → Prop} {f : α → β} {xs : List α}
    (h : ∀ x ∈ xs, R (f x) x) : List.Forall₂ R (xs.map f) xs := by
  induction xs with
  | nil => exact .nil
  | cons x rest ih =>
    obtain ⟨hx, hrest⟩ := List.forall_mem_cons.mp h
    exact .cons hx (ih hrest)

/-- The text that is written for a value is read as that value. -/
theorem writes_text {v : Value} (h : v.IsJson) : Writes (text v) v := by
  induction h with
  | null => exact writes_null
  | bool b => exact writes_bool b
  | int n => exact writes_int n
  | real x => exact writes_real x
  | str s => exact writes_stringText s
  | list _ ih =>
    rw [text, itemTexts_eq_map]
    exact writes_list (forall₂_map_left ih)
  | object hk _ ih =>
    rw [text, entryTexts_eq_map]
    exact writes_object (forall₂_map_left fun e he => ⟨_, rfl, ih e he⟩) hk

theorem isShown_of_mem_joined {parts : List (List Char)}
    (h : ∀ part ∈ parts, ∀ c ∈ part, IsShown c) : ∀ c ∈ joined parts, IsShown c := by
  induction parts with
  | nil => nofun
  | cons first rest ih =>
    obtain ⟨hfirst, hrest⟩ := List.forall_mem_cons.mp h
    cases rest with
    | nil =>
      rw [joined_singleton]
      exact hfirst
    | cons second rest =>
      rw [joined_cons_cons]
      simp only [List.forall_mem_append, List.forall_mem_cons]
      exact ⟨hfirst, by decide, by decide, ih hrest⟩

/-- It is a line of printable ASCII. -/
theorem isShown_of_mem_text {v : Value} (h : v.IsJson) : ∀ c ∈ text v, IsShown c := by
  have hbetween {opening closing : Char} {parts : List (List Char)}
      (ho : IsShown opening) (hc : IsShown closing) (hp : ∀ part ∈ parts, ∀ c ∈ part, IsShown c) :
      ∀ c ∈ opening :: joined parts ++ [closing], IsShown c := by
    simp only [List.cons_append, List.forall_mem_append, List.forall_mem_cons]
    exact ⟨ho, isShown_of_mem_joined hp, hc, nofun⟩
  induction h with
  | null => exact List.all_iff_forall_prop.mp (by decide)
  | bool b => cases b <;> exact List.all_iff_forall_prop.mp (by decide)
  | int n => exact (isNumeral_integer n).isShown
  | real x =>
    cases x with
    | finite negative place => exact (isNumeral_finite negative place).isShown
    | infinite negative => cases negative <;> exact List.all_iff_forall_prop.mp (by decide)
    | undefined => exact List.all_iff_forall_prop.mp (by decide)
  | str s => exact fun c hc => isShown_of_mem_stringText hc
  | list _ ih =>
    rw [text, itemTexts_eq_map]
    refine hbetween (by decide) (by decide) ?_
    exact List.forall_mem_map.mpr ih
  | object _ _ ih =>
    rw [text, entryTexts_eq_map]
    refine hbetween (by decide) (by decide) ?_
    refine List.forall_mem_map.mpr fun e he => ?_
    simp only [List.forall_mem_append, List.forall_mem_cons]
    exact ⟨fun c hc => isShown_of_mem_stringText hc, by decide, by decide,
      ih e he⟩

/-- What is written is read back. -/
theorem read_write {v : Value} (h : v.IsJson) : read (write v) = some v := by
  have hparse : parse (text v ++ []) = some v := (writes_text h).parse_append nofun
  rw [List.append_nil] at hparse
  rw [read, write, String.toList_ofList, hparse]

end Json

end Plain

end GrammarLoader
