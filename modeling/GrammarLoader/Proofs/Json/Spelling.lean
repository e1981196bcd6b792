import GrammarLoader.Json.Reader
import GrammarLoader.Json.Writer

/-!
# Strings in JSON

A character can be spelled in several ways inside a string: by itself, by a short escape, or by the
escapes of its UTF-16 units. A string is read back from any mixture of spellings. The reader first
makes units of the spellings and joins them into characters afterwards, so a spelling is looked at
by the units that it yields, and these by the character that they stand for.
-/

namespace GrammarLoader.Json

section Units

/-! ## Spellings and their units -/

/-- The text yields the units, whatever follows it in its string. -/
def Yields (text : List Char) (units : List Nat) : Prop :=
  ∀ rest, stringUnits (text ++ rest) = (stringUnits rest).map fun p => (units ++ p.1, p.2)

theorem yields_nil : Yields [] [] := by
  intro rest
  cases h : stringUnits rest <;> simp [h]

theorem Yields.append {s t : List Char} {us vs : List Nat} (h : Yields s us) (h' : Yields t vs) :
    Yields (s ++ t) (us ++ vs) := by
  intro rest
  rw [List.append_assoc, h, h']
  cases stringUnits rest <;> simp

theorem yields_flatMap {α : Type} {spell : α → List Char} {units : α → List Nat} {xs : List α}
    (h : ∀ x ∈ xs, Yields (spell x) (units x)) : Yields (xs.flatMap spell) (xs.flatMap units) := by
  induction xs with
  | nil => exact yields_nil
  | cons x rest ih =>
    obtain ⟨hx, hrest⟩ := List.forall_mem_cons.mp h
    exact hx.append (ih hrest)

/-- A character that is neither special nor a control character may stand for itself. -/
theorem yields_self {c : Char} (hq : c ≠ '"') (hb : c ≠ '\\') (hc : 32 ≤ c.toNat) :
    Yields [c] [c.toNat] := by
  intro rest
  have hlow : ¬ c.toNat < 32 := by omega
  rw [List.singleton_append, stringUnits]
  · cases stringUnits rest <;> simp [hlow]
  · exact hq
  · rintro a b d e r rfl
    exact absurd rfl hb
  · rintro d r rfl
    exact absurd rfl hb

theorem yields_shortEscape {letter c : Char} (h : shortEscape? letter = some c) :
    Yields ['\\', letter] [c.toNat] := by
  intro rest
  have hu : letter ≠ 'u' := by
    rintro rfl
    cases h
  rw [List.cons_append, List.singleton_append, stringUnits]
  · rw [h]
    cases stringUnits rest <;> rfl
  · rintro a b d e r rfl
    exact absurd rfl hu

theorem digitsIn_sixteen_four {n : Nat} (h : n < 0x10000) :
    Text.digitsIn 16 4 n = [(n / 4096).digitChar, (n / 256 % 16).digitChar,
      (n / 16 % 16).digitChar, (n % 16).digitChar] := by
  have hstep {m : Nat} (hm : 16 ≤ m) : Nat.toDigits 16 m =
      Nat.toDigits 16 (m / 16) ++ [(m % 16).digitChar] := Nat.toDigits_of_base_le (by decide) hm
  have hlast {m : Nat} (hm : m < 16) : Nat.toDigits 16 m = [m.digitChar] :=
    Nat.toDigits_of_lt_base hm
  unfold Text.digitsIn Text.zeroPadded
  -- the padding fills up what the number itself leaves out
  rcases Nat.lt_or_ge n 16 with h₁ | h₁
  · rw [hlast h₁, Nat.div_eq_of_lt (by omega : n < 4096), Nat.div_eq_of_lt (by omega : n < 256),
      Nat.div_eq_of_lt h₁, Nat.mod_eq_of_lt h₁]
    rfl
  rcases Nat.lt_or_ge n 256 with h₂ | h₂
  · rw [hstep h₁, hlast (by omega), Nat.div_eq_of_lt (by omega : n < 4096), Nat.div_eq_of_lt h₂,
      Nat.mod_eq_of_lt (by omega : n / 16 < 16)]
    rfl
  have hdiv : n / 16 / 16 = n / 256 := Nat.div_div_eq_div_mul n 16 16
  rcases Nat.lt_or_ge n 4096 with h₃ | h₃
  · rw [hstep h₁, hstep (by omega), hdiv, hlast (by omega), Nat.div_eq_of_lt h₃,
      Nat.mod_eq_of_lt (by omega : n / 256 < 16)]
    rfl
  · rw [hstep h₁, hstep (by omega), hdiv, hstep (by omega), hlast (by omega),
      Nat.div_div_eq_div_mul]
    rfl

theorem hexValue_digitChar : ∀ d < 16, hexValue? d.digitChar = some d := by decide

theorem yields_unitEscape {n : Nat} (h : n < 0x10000) : Yields (unitEscape n) [n] := by
  intro rest
  have hunit : unit? (n / 4096).digitChar (n / 256 % 16).digitChar (n / 16 % 16).digitChar
      (n % 16).digitChar = some n := by
    unfold unit?
    rw [hexValue_digitChar _ (by omega), hexValue_digitChar _ (by omega),
      hexValue_digitChar _ (by omega), hexValue_digitChar _ (by omega)]
    refine congrArg some ?_
    omega
  rw [unitEscape, digitsIn_sixteen_four h]
  simp only [List.cons_append, List.nil_append]
  rw [stringUnits, hunit]
  cases stringUnits rest <;> rfl

/-- The code points of characters leave out the surrogates. -/
theorem toNat_cases (c : Char) : c.toNat < 0xd800 ∨ 0xe000 ≤ c.toNat ∧ c.toNat < 0x110000 := by
  have hvalid : c.toNat < 0xd800 ∨ 0xdfff < c.toNat ∧ c.toNat < 0x110000 := c.valid
  omega

theorem utf16_cases (c : Char) : c.toNat < 0x10000 ∧ utf16 c = [c.toNat] ∨
    0x10000 ≤ c.toNat ∧ utf16 c = [0xd800 + (c.toNat - 0x10000) / 0x400,
      0xdc00 + (c.toNat - 0x10000) % 0x400] := by
  unfold utf16
  by_cases hc : c.toNat < 0x10000
  · exact .inl ⟨hc, if_pos hc⟩
  · exact .inr ⟨by omega, if_neg hc⟩

theorem lt_of_mem_utf16 {c : Char} {n : Nat} (h : n ∈ utf16 c) : n < 0x10000 := by
  have hvalid := toNat_cases c
  obtain ⟨hc, hu⟩ | ⟨hc, hu⟩ := utf16_cases c <;> rw [hu] at h <;>
    simp only [List.mem_cons, List.not_mem_nil, or_false] at h <;> omega

/-- The escapes of a character's units yield the units. -/
theorem yields_utf16 (c : Char) : Yields ((utf16 c).flatMap unitEscape) (utf16 c) := by
  have hunits : Yields ((utf16 c).flatMap unitEscape) ((utf16 c).flatMap fun n => [n]) :=
    yields_flatMap fun n hn => yields_unitEscape (lt_of_mem_utf16 hn)
  simpa using hunits

theorem lt_of_shortEscape {letter c : Char} (h : shortEscape? letter = some c) :
    c.toNat < 127 := by
  unfold shortEscape? at h
  split at h <;> cases h <;> decide

/-- The three ways of writing a character. -/
theorem escapedChar_cases (c : Char) :
    (∃ letter, escapedChar c = ['\\', letter] ∧ shortEscape? letter = some c) ∨
      (escapedChar c = [c] ∧ c ≠ '"' ∧ c ≠ '\\' ∧ 32 ≤ c.toNat ∧ c.toNat < 127) ∨
      escapedChar c = (utf16 c).flatMap unitEscape := by
  by_cases hshort : c ∈ ['"', '\\', '\n', '\r', '\t', '\x08', '\x0c']
  · simp only [List.mem_cons, List.not_mem_nil, or_false] at hshort
    rcases hshort with rfl | rfl | rfl | rfl | rfl | rfl | rfl <;> exact .inl ⟨_, rfl, rfl⟩
  · simp only [List.mem_cons, List.not_mem_nil, or_false, not_or] at hshort
    obtain ⟨hq, hb, hn, hr, ht, hbs, hff⟩ := hshort
    by_cases hshown : 32 ≤ c.toNat ∧ c.toNat < 127
    · refine .inr (.inl ⟨?_, hq, hb, hshown⟩)
      simp [escapedChar, hq, hb, hn, hr, ht, hbs, hff, hshown]
    · refine .inr (.inr ?_)
      simp only [escapedChar, beq_iff_eq, hq, hb, hn, hr, ht, hbs, hff, Bool.or_eq_true, or_self,
        Bool.and_eq_true, decide_eq_true_eq, hshown, if_false]

theorem yields_escapedChar (c : Char) : Yields (escapedChar c) (utf16 c) := by
  obtain ⟨letter, hc, hl⟩ | ⟨hc, hq, hb, hlow, hhigh⟩ | hc := escapedChar_cases c
  · have hlt := lt_of_shortEscape hl
    rw [hc, utf16, if_pos (by omega)]
    exact yields_shortEscape hl
  · rw [hc, utf16, if_pos (by omega)]
    exact yields_self hq hb hlow
  · rw [hc]
    exact yields_utf16 c

end Units

section Joining

/-! ## Units and the characters they stand for -/

/-- The units stand for the character: its code point, or its UTF-16 units. -/
def StandsFor (units : List Nat) (c : Char) : Prop := units = [c.toNat] ∨ units = utf16 c

theorem charOf_toNat (c : Char) : charOf c.toNat = c := by
  have hvalid := toNat_cases c
  have hhigh : isHighSurrogate c.toNat = false := by simp [isHighSurrogate]; omega
  have hlow : isLowSurrogate c.toNat = false := by simp [isLowSurrogate]; omega
  simp [charOf, hhigh, hlow, Char.ofNat_toNat]

/-- A code point is never taken for half of a pair, whatever stands behind it. -/
theorem joinSurrogates_toNat (c : Char) (rest : List Nat) :
    joinSurrogates (c.toNat :: rest) = c :: joinSurrogates rest := by
  have hvalid := toNat_cases c
  have hhigh : isHighSurrogate c.toNat = false := by simp [isHighSurrogate]; omega
  cases rest with
  | nil => simp [joinSurrogates, charOf_toNat]
  | cons n rest => simp [joinSurrogates, hhigh, charOf_toNat]

theorem joinSurrogates_utf16 (c : Char) (rest : List Nat) :
    joinSurrogates (utf16 c ++ rest) = c :: joinSurrogates rest := by
  have hvalid := toNat_cases c
  obtain ⟨-, hu⟩ | ⟨hc, hu⟩ := utf16_cases c
  · rw [hu]
    exact joinSurrogates_toNat c rest
  · rw [hu]
    have hhigh : isHighSurrogate (0xd800 + (c.toNat - 0x10000) / 0x400) = true := by
      simp [isHighSurrogate]; omega
    have hlow : isLowSurrogate (0xdc00 + (c.toNat - 0x10000) % 0x400) = true := by
      simp [isLowSurrogate]; omega
    have hpoint : 0x10000 + (0xd800 + (c.toNat - 0x10000) / 0x400 - 0xd800) * 0x400 +
        (0xdc00 + (c.toNat - 0x10000) % 0x400 - 0xdc00) = c.toNat := by omega
    simp only [List.cons_append, List.nil_append, joinSurrogates, hhigh, hlow, Bool.and_self,
      if_true, hpoint, Char.ofNat_toNat]

theorem joinSurrogates_flatMap {units : Char → List Nat} {cs : List Char}
    (h : ∀ c ∈ cs, StandsFor (units c) c) : joinSurrogates (cs.flatMap units) = cs := by
  induction cs with
  | nil => rfl
  | cons c rest ih =>
    obtain ⟨hc, hrest⟩ := List.forall_mem_cons.mp h
    rw [List.flatMap_cons]
    obtain hc | hc := hc
    · rw [hc, List.singleton_append, joinSurrogates_toNat, ih hrest]
    · rw [hc, joinSurrogates_utf16, ih hrest]

end Joining

/-! ## Strings -/

/-- A character as a string may hold it: of those beyond the printable part of ASCII some are kept
as they are, and the others are escaped. -/
def spelledChar (keep : Char → Bool) (c : Char) : List Char :=
  if 127 ≤ c.toNat && keep c then [c] else escapedChar c

/-- A string with its quotes, some of its characters kept. -/
def spelled (keep : Char → Bool) (s : String) : List Char :=
  '"' :: s.toList.flatMap (spelledChar keep) ++ ['"']

theorem spelled_none (s : String) : spelled (fun _ => false) s = stringText s := by
  have hchar : spelledChar (fun _ => false) = escapedChar := by
    funext c
    simp [spelledChar]
  rw [spelled, hchar, stringText]

/-- The units that a spelling yields. -/
def spelledUnits (keep : Char → Bool) (c : Char) : List Nat :=
  if 127 ≤ c.toNat && keep c then [c.toNat] else utf16 c

theorem standsFor_spelledUnits (keep : Char → Bool) (c : Char) :
    StandsFor (spelledUnits keep c) c := by
  unfold spelledUnits
  split
  · exact .inl rfl
  · exact .inr rfl

theorem yields_spelledChar (keep : Char → Bool) (c : Char) :
    Yields (spelledChar keep c) (spelledUnits keep c) := by
  unfold spelledChar spelledUnits
  split
  · rename_i h
    have hc : 127 ≤ c.toNat := by simp_all
    refine yields_self ?_ ?_ (by omega) <;>
      · rintro rfl
        exact absurd hc (by decide)
  · exact yields_escapedChar c

/-- A string is read back from its spelling, whichever characters are kept. -/
theorem stringAfterQuote_spelled (keep : Char → Bool) (s : String) (rest : List Char) :
    stringAfterQuote (s.toList.flatMap (spelledChar keep) ++ '"' :: rest) = some (s, rest) := by
  have hyields : Yields (s.toList.flatMap (spelledChar keep))
      (s.toList.flatMap (spelledUnits keep)) :=
    yields_flatMap fun c _ => yields_spelledChar keep c
  have hjoin : joinSurrogates (s.toList.flatMap (spelledUnits keep)) = s.toList :=
    joinSurrogates_flatMap fun c _ => standsFor_spelledUnits keep c
  rw [stringAfterQuote, hyields]
  simp [stringUnits, hjoin]

/-- A string is read back where it stands. -/
theorem spelled_append (keep : Char → Bool) (s : String) (rest : List Char) :
    ∃ tail, spelled keep s ++ rest = '"' :: tail ∧ stringAfterQuote tail = some (s, rest) :=
  ⟨_, by rw [spelled, List.append_assoc]; rfl, stringAfterQuote_spelled keep s rest⟩

section Shown

/-! ## What a written string shows -/

/-- A printable character of ASCII. -/
def IsShown (c : Char) : Prop := 32 ≤ c.toNat ∧ c.toNat < 127

instance (c : Char) : Decidable (IsShown c) := inferInstanceAs (Decidable (_ ∧ _))

theorem isShown_digitChar : ∀ d < 16, IsShown d.digitChar := by decide

theorem isShown_of_mem_unitEscape {n : Nat} (hn : n < 0x10000) {c : Char}
    (h : c ∈ unitEscape n) : IsShown c := by
  rw [unitEscape, digitsIn_sixteen_four hn] at h
  simp only [List.mem_cons, List.not_mem_nil, or_false] at h
  rcases h with rfl | rfl | rfl | rfl | rfl | rfl
  · decide
  · decide
  all_goals exact isShown_digitChar _ (by omega)

theorem isShown_of_shortEscape {letter c : Char} (h : shortEscape? letter = some c) :
    IsShown letter := by
  unfold shortEscape? at h
  split at h <;> first | cases h; done | decide

theorem isShown_of_mem_escapedChar {c d : Char} (h : d ∈ escapedChar c) : IsShown d := by
  obtain ⟨letter, hc, hl⟩ | ⟨hc, -, -, hshown⟩ | hc := escapedChar_cases c <;> rw [hc] at h
  · simp only [List.mem_cons, List.not_mem_nil, or_false] at h
    obtain rfl | rfl := h
    · decide
    · exact isShown_of_shortEscape hl
  · obtain rfl := List.mem_singleton.mp h
    exact hshown
  · obtain ⟨n, hn, hd⟩ := List.mem_flatMap.mp h
    exact isShown_of_mem_unitEscape (lt_of_mem_utf16 hn) hd

/-- A string is written with its quotes, in printable ASCII. -/
theorem isShown_of_mem_stringText {s : String} {c : Char} (h : c ∈ stringText s) : IsShown c := by
  have hquote : IsShown '"' := by decide
  unfold stringText at h
  simp only [List.cons_append, List.mem_cons, List.mem_append, List.mem_flatMap,
    List.not_mem_nil, or_false] at h
  obtain rfl | ⟨d, -, hd⟩ | rfl := h
  · exact hquote
  · exact isShown_of_mem_escapedChar hd
  · exact hquote

end Shown

end GrammarLoader.Json
