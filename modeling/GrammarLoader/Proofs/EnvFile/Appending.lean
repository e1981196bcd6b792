import GrammarLoader.EnvFile
import Mathlib.Data.List.Basic
import Mathlib.Data.List.TakeWhile

/-!
# Lines added to an environment file

A line that is added behind a text is read as if it stood alone, and the text before it as if the
line were not there. Only a quote that the text opens and does not close can change that: it closes
where the added line has the next one. So the statements of both are those of the text followed by
those of the line, provided that the line has no quote which the text leaves open.
-/

namespace GrammarLoader.EnvFile

/-! ## Reading as a list of places -/

/-- The characters of a file that are read: without a mark in front, and with every line end as a
line feed. -/
def content (text : String) : List Char := unixLines (withoutMark text.toList)

/-- Where reading goes on behind the statement at the start of a text, or behind the line on which
it fails. -/
def behind (cs : List Char) : List Char :=
  match statement cs with
  | .ok (_, rest) => rest
  | .error place => nextLine place

/-- The statement at the start of a text, none for a comment or if it fails. -/
def stated? (cs : List Char) : Option Statement :=
  match statement cs with
  | .ok (s, _) => s
  | .error _ => none

/-- The places in a text at which statements are read. Each takes at least one character. -/
def placesFrom : Nat → List Char → List (List Char)
  | 0, _ => []
  | fuel + 1, cs =>
    match cs.dropWhile Text.isBlank with
    | [] => []
    | start => start :: placesFrom fuel (behind start)

/-- The places in a text at which statements are read. -/
def places (cs : List Char) : List (List Char) := placesFrom cs.length cs

/-- The statements in a text. -/
def stated (cs : List Char) : List Statement := (places cs).filterMap stated?

theorem statementsFrom_eq_filterMap (fuel : Nat) (cs : List Char) :
    statementsFrom fuel cs = (placesFrom fuel cs).filterMap stated? := by
  induction fuel generalizing cs with
  | zero => rfl
  | succ fuel ih =>
    rw [statementsFrom, placesFrom]
    cases cs.dropWhile Text.isBlank with
    | nil => rfl
    | cons c start =>
      simp only [List.filterMap_cons, stated?, behind]
      cases statement (c :: start) with
      | error place => exact ih _
      | ok p =>
        obtain ⟨s, rest⟩ := p
        cases s with
        | none => exact ih rest
        | some s => exact congrArg (s :: ·) (ih rest)

theorem statements_eq_stated (text : String) : statements text = stated (content text) :=
  statementsFrom_eq_filterMap _ _

/-! ## Every statement takes a character -/

theorem skipInner_suffix (cs : List Char) : skipInner cs <:+ cs := List.dropWhile_suffix _

theorem skipExport_suffix (cs : List Char) : skipExport cs <:+ cs := by
  unfold skipExport
  split
  · rename_i c rest _ hdrop
    split
    · have hrest : c :: rest <:+ cs := hdrop ▸ List.drop_suffix 6 cs
      exact (skipInner_suffix rest).trans ((List.suffix_cons c rest).trans hrest)
    · exact List.suffix_rfl
  · exact List.suffix_rfl

theorem nextLine_suffix (cs : List Char) : nextLine cs <:+ cs :=
  (List.drop_suffix 1 _).trans (List.dropWhile_suffix _)

theorem length_nextLine_lt {cs : List Char} (h : cs ≠ []) : (nextLine cs).length < cs.length := by
  have hle := (List.dropWhile_suffix (· != '\n') (l := cs)).length_le
  have hpos := List.length_pos_iff.mpr h
  rw [nextLine, List.length_drop]
  omega

/-- What follows a name. Without a name there is a comment. -/
theorem name?_cases {cs rest : List Char} {name : Option (List Char)}
    (h : name? cs = some (name, rest)) :
    rest <:+ cs ∧ (rest.length < cs.length ∨ rest = cs ∧ ∃ comment, cs = '#' :: comment) := by
  unfold name? at h
  split at h
  · cases h
    exact ⟨List.suffix_rfl, .inr ⟨rfl, _, rfl⟩⟩
  · rename_i inside
    split at h
    · rename_i c name quote after htake hdrop
      cases h
      have hsuffix : quote :: rest <:+ inside := hdrop ▸ List.dropWhile_suffix _
      have hafter := (List.suffix_cons quote rest).trans hsuffix
      refine ⟨hafter.trans (List.suffix_cons _ inside), .inl ?_⟩
      exact Nat.lt_succ_of_le hafter.length_le
    · cases h
  · split at h
    · cases h
    · rename_i htake
      cases h
      refine ⟨List.dropWhile_suffix _, .inl ?_⟩
      have hpos : 0 < (cs.takeWhile isNameChar).length := List.length_pos_iff.mpr htake
      have hparts : cs.takeWhile isNameChar ++ cs.dropWhile isNameChar = cs :=
        List.takeWhile_append_dropWhile
      have hlength := congrArg List.length hparts
      rw [List.length_append] at hlength
      omega

theorem quotedInside_eq_some {quote : Char} {cs inside rest : List Char}
    (h : quotedInside quote cs = some (inside, rest)) : cs = inside ++ quote :: rest := by
  fun_induction quotedInside quote cs generalizing inside with
  | case1 => cases h
  | case2 c cs ih =>
    obtain ⟨p, hp, heq⟩ := Option.map_eq_some_iff.mp h
    cases heq
    rw [ih hp]
    rfl
  | case3 c cs _ hquote =>
    cases h
    rw [beq_iff_eq.mp hquote]
    rfl
  | case4 c cs _ _ ih =>
    obtain ⟨p, hp, heq⟩ := Option.map_eq_some_iff.mp h
    cases heq
    rw [ih hp]
    rfl

/-- The quotes that a value may stand in. -/
def IsQuote (c : Char) : Prop := c = '\x27' ∨ c = '\x22'

instance (c : Char) : Decidable (IsQuote c) := inferInstanceAs (Decidable (_ ∨ _))

theorem IsQuote.ne {quote c : Char} (h : IsQuote quote) (hc : ¬ IsQuote c) : quote ≠ c :=
  fun e => hc (e ▸ h)

theorem value?_quoted {quote : Char} (h : IsQuote quote) :
    ∃ escape? ∈ [singleEscape?, doubleEscape?], ∀ cs, value? (quote :: cs) =
      (quotedInside quote cs).map fun p => (unescape escape? p.1, p.2) := by
  obtain rfl | rfl := h
  · exact ⟨singleEscape?, by simp, fun _ => rfl⟩
  · exact ⟨doubleEscape?, by simp, fun _ => rfl⟩

theorem value?_bare {cs : List Char} (h : ∀ c ∈ cs.head?, ¬ IsQuote c) :
    value? cs = some (trimEnd (beforeComment (cs.takeWhile (· != '\n'))),
      cs.dropWhile (· != '\n')) := by
  unfold value?
  split
  · exact absurd (.inl rfl) (h _ rfl)
  · exact absurd (.inr rfl) (h _ rfl)
  · rfl

theorem quoted_or_bare (cs : List Char) :
    (∃ quote rest, IsQuote quote ∧ cs = quote :: rest) ∨ ∀ c ∈ cs.head?, ¬ IsQuote c := by
  cases cs with
  | nil => exact .inr nofun
  | cons c rest =>
    by_cases h : IsQuote c
    · exact .inl ⟨c, rest, h, rfl⟩
    · exact .inr fun d hd => Option.some.inj hd ▸ h

theorem value?_suffix {cs v rest : List Char} (h : value? cs = some (v, rest)) : rest <:+ cs := by
  obtain ⟨quote, inside, hquote, rfl⟩ | hbare := quoted_or_bare cs
  · obtain ⟨escape?, -, hvalue⟩ := value?_quoted hquote
    rw [hvalue, Option.map_eq_some_iff] at h
    obtain ⟨p, hp, heq⟩ := h
    cases heq
    rw [quotedInside_eq_some hp]
    exact ⟨quote :: (p.1 ++ [quote]), by simp⟩
  · rw [value?_bare hbare] at h
    cases h
    exact List.dropWhile_suffix _

theorem assigned_suffix (cs : List Char) :
    (∀ v rest, assigned cs = .ok (v, rest) → rest <:+ cs) ∧
      ∀ place, assigned cs = .error place → place <:+ cs := by
  unfold assigned
  split
  · rename_i rest
    have hstart : skipInner rest <:+ '=' :: rest :=
      (skipInner_suffix rest).trans (List.suffix_cons '=' rest)
    dsimp only
    split
    · refine ⟨fun v after h => ?_, nofun⟩
      cases h
      exact hstart
    · cases hv : value? (skipInner rest) with
      | none =>
        refine ⟨nofun, fun place h => ?_⟩
        cases h
        exact hstart
      | some p =>
        refine ⟨fun v after h => ?_, nofun⟩
        cases h
        exact (value?_suffix hv).trans hstart
  · refine ⟨fun v rest h => ?_, nofun⟩
    cases h
    exact List.suffix_rfl

/-- A statement fails at its value only where a quote opens. -/
theorem quoted_of_assigned_error {cs place : List Char} (h : assigned cs = .error place) :
    ∃ quote rest, IsQuote quote ∧ place = quote :: rest := by
  have hvalue : value? place = none := by
    unfold assigned at h
    split at h
    · dsimp only at h
      split at h
      · cases h
      · split at h
        · cases h
        · rename_i hnone
          cases h
          exact hnone
    · cases h
  obtain hquoted | hbare := quoted_or_bare place
  · exact hquoted
  · cases hvalue.symm.trans (value?_bare hbare)

theorem skipComment_suffix (cs : List Char) : skipComment cs <:+ cs := by
  unfold skipComment
  split
  · rename_i rest hskip
    have hrest : '#' :: rest <:+ cs := hskip ▸ skipInner_suffix cs
    exact (List.dropWhile_suffix _).trans ((List.suffix_cons '#' rest).trans hrest)
  · exact List.suffix_rfl

theorem lineEnd?_suffix {cs rest : List Char} (h : lineEnd? cs = some rest) : rest <:+ cs := by
  unfold lineEnd? at h
  split at h
  · cases h
    exact List.nil_suffix
  · rename_i hskip
    cases h
    exact (List.suffix_cons '\n' rest).trans (hskip ▸ skipInner_suffix cs)
  · cases h

/-- What reading a statement comes to, stage by stage: name, value and end of the line. -/
inductive Reads (cs : List Char) : Except (List Char) (Option Statement × List Char) → Prop
  | unnamed (hname : name? (skipExport cs) = none) : Reads cs (.error (skipExport cs))
  | unclosed {name : Option (List Char)} {after place : List Char}
    (hname : name? (skipExport cs) = some (name, after))
    (hvalue : assigned (skipInner after) = .error place) : Reads cs (.error place)
  | unended {name value : Option (List Char)} {after rest : List Char}
    (hname : name? (skipExport cs) = some (name, after))
    (hvalue : assigned (skipInner after) = .ok (value, rest))
    (hend : lineEnd? (skipComment rest) = none) : Reads cs (.error (skipComment rest))
  | read {name value : Option (List Char)} {after rest next : List Char}
    (hname : name? (skipExport cs) = some (name, after))
    (hvalue : assigned (skipInner after) = .ok (value, rest))
    (hend : lineEnd? (skipComment rest) = some next) : Reads cs (.ok (name.map (·, value), next))

theorem Reads.statement_eq {cs : List Char}
    {outcome : Except (List Char) (Option Statement × List Char)} (h : Reads cs outcome) :
    statement cs = outcome := by
  cases h with
  | unnamed hname => simp only [statement, hname]
  | unclosed hname hvalue => simp only [statement, hname, hvalue]
  | unended hname hvalue hend => simp only [statement, hname, hvalue, hend]
  | read hname hvalue hend => simp only [statement, hname, hvalue, hend]

theorem reads_statement (cs : List Char) : Reads cs (statement cs) := by
  cases hname : name? (skipExport cs) with
  | none =>
    have h := Reads.unnamed hname
    exact h.statement_eq ▸ h
  | some p =>
    cases hvalue : assigned (skipInner p.2) with
    | error place =>
      have h := Reads.unclosed hname hvalue
      exact h.statement_eq ▸ h
    | ok q =>
      cases hend : lineEnd? (skipComment q.2) with
      | none =>
        have h := Reads.unended hname hvalue hend
        exact h.statement_eq ▸ h
      | some next =>
        have h := Reads.read hname hvalue hend
        exact h.statement_eq ▸ h

theorem length_skipComment_lt (comment : List Char) :
    (skipComment ('#' :: comment)).length < ('#' :: comment).length :=
  Nat.lt_succ_of_le (List.dropWhile_suffix (· != '\n') (l := comment)).length_le

theorem Reads.assigned_suffix {cs after rest : List Char} {name value : Option (List Char)}
    (hname : name? (skipExport cs) = some (name, after))
    (hvalue : assigned (skipInner after) = .ok (value, rest)) : rest <:+ after ∧ after <:+ cs :=
  ⟨((EnvFile.assigned_suffix _).1 _ _ hvalue).trans (skipInner_suffix after),
    (name?_cases hname).1.trans (skipExport_suffix cs)⟩

/-- A place at which a statement fails is in the text. -/
theorem Reads.place_suffix {cs place : List Char} (h : Reads cs (.error place)) : place <:+ cs := by
  cases h with
  | unnamed => exact skipExport_suffix cs
  | @unclosed _ after _ hname hvalue =>
    exact ((EnvFile.assigned_suffix _).2 _ hvalue).trans
      ((skipInner_suffix after).trans ((name?_cases hname).1.trans (skipExport_suffix cs)))
  | unended hname hvalue =>
    obtain ⟨hrest, hafter⟩ := assigned_suffix hname hvalue
    exact (skipComment_suffix _).trans (hrest.trans hafter)

/-- What follows a statement is in the text, and shorter. -/
theorem Reads.next_suffix {cs next : List Char} {s : Option Statement}
    (h : Reads cs (.ok (s, next))) : next <:+ cs ∧ next.length < cs.length := by
  cases h with
  | @read name value after rest _ hname hvalue hend =>
    obtain ⟨hrest, hafter⟩ := assigned_suffix hname hvalue
    have hnext := lineEnd?_suffix hend
    refine ⟨hnext.trans ((skipComment_suffix rest).trans (hrest.trans hafter)), ?_⟩
    have hnext := hnext.length_le
    have hexported := (skipExport_suffix cs).length_le
    obtain ⟨-, hshorter | ⟨rfl, comment, hcomment⟩⟩ := name?_cases hname
    · have hskipped := ((skipComment_suffix rest).trans hrest).length_le
      omega
    · -- a comment is skipped behind the statement that is not there
      rw [hcomment] at hvalue hexported
      obtain rfl : '#' :: comment = rest := by cases hvalue; rfl
      have hskipped := length_skipComment_lt comment
      omega

theorem behind_suffix (cs : List Char) : behind cs <:+ cs := by
  have hreads := reads_statement cs
  unfold behind
  cases houtcome : statement cs with
  | error place =>
    rw [houtcome] at hreads
    exact (nextLine_suffix place).trans hreads.place_suffix
  | ok p =>
    rw [houtcome] at hreads
    exact hreads.next_suffix.1

/-- A statement that is read, or is dropped, takes at least one character of a text. -/
theorem length_behind_lt {cs : List Char} (h : cs ≠ []) : (behind cs).length < cs.length := by
  have hreads := reads_statement cs
  unfold behind
  cases houtcome : statement cs with
  | error place =>
    rw [houtcome] at hreads
    by_cases hnil : place = []
    · subst hnil
      exact List.length_pos_iff.mpr h
    · exact Nat.lt_of_lt_of_le (length_nextLine_lt hnil) hreads.place_suffix.length_le
  | ok p =>
    rw [houtcome] at hreads
    exact hreads.next_suffix.2

theorem placesFrom_nil (fuel : Nat) : placesFrom fuel [] = [] := by cases fuel <;> rfl

/-- Turns beyond the length of a text change nothing. -/
theorem placesFrom_eq {fuel fuel' : Nat} {cs : List Char} (h : cs.length ≤ fuel)
    (h' : cs.length ≤ fuel') : placesFrom fuel cs = placesFrom fuel' cs := by
  induction fuel generalizing cs fuel' with
  | zero =>
    obtain rfl := List.length_eq_zero_iff.mp (Nat.le_zero.mp h)
    rw [placesFrom_nil, placesFrom_nil]
  | succ fuel ih =>
    cases fuel' with
    | zero =>
      obtain rfl := List.length_eq_zero_iff.mp (Nat.le_zero.mp h')
      rw [placesFrom_nil, placesFrom_nil]
    | succ fuel' =>
      have hstart := (List.dropWhile_suffix Text.isBlank (l := cs)).length_le
      rw [placesFrom, placesFrom]
      cases hdrop : cs.dropWhile Text.isBlank with
      | nil => rfl
      | cons c start =>
        have hbehind := length_behind_lt (List.cons_ne_nil c start)
        rw [hdrop] at hstart
        exact congrArg (_ :: ·) (ih (by omega) (by omega))

theorem places_of_blank {cs : List Char} (h : cs.dropWhile Text.isBlank = []) : places cs = [] := by
  cases cs with
  | nil => rfl
  | cons c rest =>
    show placesFrom (rest.length + 1) (c :: rest) = []
    rw [placesFrom, h]

/-- Reading starts behind the blanks and goes on behind the first statement. -/
theorem places_of_start {cs start : List Char} (h : cs.dropWhile Text.isBlank = start)
    (hne : start ≠ []) : places cs = start :: places (behind start) := by
  have hstart := (List.dropWhile_suffix Text.isBlank (l := cs)).length_le
  have hpos := List.length_pos_iff.mpr hne
  have hbehind := length_behind_lt hne
  rw [h] at hstart
  obtain ⟨fuel, hfuel⟩ := Nat.exists_eq_add_one.mpr (Nat.lt_of_lt_of_le hpos hstart)
  obtain ⟨c, rest, rfl⟩ := List.exists_cons_of_ne_nil hne
  rw [places, hfuel, placesFrom, h]
  exact congrArg (_ :: ·) (placesFrom_eq (by omega) (Nat.le_refl _))

theorem places_congr {cs ds : List Char}
    (h : cs.dropWhile Text.isBlank = ds.dropWhile Text.isBlank) : places cs = places ds := by
  cases hstart : ds.dropWhile Text.isBlank with
  | nil => rw [places_of_blank (h.trans hstart), places_of_blank hstart]
  | cons c start =>
    have hne := List.cons_ne_nil c start
    rw [places_of_start (h.trans hstart) hne, places_of_start hstart hne]

theorem places_suffix {cs start : List Char} (h : start ∈ places cs) : start <:+ cs := by
  generalize hlength : cs.length = n
  induction n using Nat.strong_induction_on generalizing cs with
  | _ n ih =>
    have hsuffix := List.dropWhile_suffix Text.isBlank (l := cs)
    by_cases hne : cs.dropWhile Text.isBlank = []
    · rw [places_of_blank hne] at h
      cases h
    · rw [places_of_start rfl hne, List.mem_cons] at h
      obtain rfl | h := h
      · exact hsuffix
      · have hlt := Nat.lt_of_lt_of_le (length_behind_lt hne) hsuffix.length_le
        exact (ih _ (hlength ▸ hlt) h rfl).trans ((behind_suffix _).trans hsuffix)

/-! ## A text with lines behind it -/

section More

variable (more : List Char)

theorem dropWhile_append_stop {p : Char → Bool} {c : Char} (hc : p c = false) (cs : List Char) :
    (cs ++ c :: more).dropWhile p = cs.dropWhile p ++ c :: more := by
  induction cs with
  | nil => exact List.dropWhile_cons_of_neg (by simp [hc])
  | cons d cs ih =>
    rw [List.cons_append, List.dropWhile_cons, List.dropWhile_cons, ih]
    split <;> rfl

theorem takeWhile_append_stop {p : Char → Bool} {c : Char} (hc : p c = false) (cs : List Char) :
    (cs ++ c :: more).takeWhile p = cs.takeWhile p := by
  induction cs with
  | nil => exact List.takeWhile_cons_of_neg (by simp [hc])
  | cons d cs ih =>
    rw [List.cons_append, List.takeWhile_cons, List.takeWhile_cons, ih]

theorem skipInner_append (cs : List Char) :
    skipInner (cs ++ '\n' :: more) = skipInner cs ++ '\n' :: more :=
  dropWhile_append_stop more rfl cs

theorem prefix_append_line {word cs : List Char} (hword : '\n' ∉ word) :
    word <+: cs ++ '\n' :: more ↔ word <+: cs := by
  refine ⟨fun h => ?_, fun h => h.trans (List.prefix_append ..)⟩
  obtain hin | ⟨tail, rfl⟩ :=
    List.prefix_or_prefix_of_prefix h (List.prefix_append cs ('\n' :: more))
  · exact hin
  · cases tail with
    | nil => simp
    | cons c tail =>
      obtain ⟨rfl, -⟩ := List.cons_prefix_cons.mp ((List.prefix_append_right_inj cs).mp h)
      exact absurd (by simp) hword

theorem skipExport_append (cs : List Char) :
    skipExport (cs ++ '\n' :: more) = skipExport cs ++ '\n' :: more := by
  by_cases hword : "export".toList <+: cs
  · have hlong : "export".toList.isPrefixOf (cs ++ '\n' :: more) :=
      List.isPrefixOf_iff_prefix.mpr (hword.trans (List.prefix_append ..))
    have hshort := List.isPrefixOf_iff_prefix.mpr hword
    have hdrop : (cs ++ '\n' :: more).drop "export".toList.length = _ :=
      List.drop_append_of_le_length hword.length_le
    unfold skipExport
    rw [hlong, hshort, show 6 = "export".toList.length from rfl, hdrop]
    cases cs.drop "export".toList.length with
    | nil => rfl
    | cons c rest =>
      dsimp only [List.cons_append]
      split
      · exact skipInner_append more rest
      · rfl
  · have hlong : ¬ "export".toList <+: cs ++ '\n' :: more := by
      rwa [prefix_append_line more (by decide)]
    rw [← List.isPrefixOf_iff_prefix, Bool.not_eq_true] at hword hlong
    unfold skipExport
    rw [hword, hlong]

theorem name?_of_notMem {rest : List Char} (h : '\x27' ∉ rest) : name? ('\x27' :: rest) = none := by
  have hdrop : rest.dropWhile (· != '\x27') = [] :=
    List.dropWhile_eq_nil_iff.mpr fun c hc => bne_iff_ne.mpr (ne_of_mem_of_not_mem hc h)
  rw [name?, hdrop]
  simp

theorem name?_append {cs : List Char}
    (hopen : ∀ rest, cs = '\x27' :: rest → '\x27' ∉ rest → '\x27' ∉ more) :
    name? (cs ++ '\n' :: more) = (name? cs).map fun p => (p.1, p.2 ++ '\n' :: more) := by
  cases cs with
  | nil => rfl
  | cons c rest =>
    by_cases hcomment : c = '#'
    · subst hcomment
      rfl
    by_cases hquote : c = '\x27'
    · subst hquote
      rw [List.cons_append]
      by_cases hclosed : '\x27' ∈ rest
      · -- the name ends at the first quote of the text itself
        obtain ⟨inside, after, rfl, -⟩ := List.append_of_mem hclosed
        rw [name?, name?, List.append_assoc, List.cons_append, takeWhile_append_stop _ rfl,
          takeWhile_append_stop _ rfl, dropWhile_append_stop _ rfl, dropWhile_append_stop _ rfl]
        cases inside.takeWhile (· != '\x27') <;> cases inside.dropWhile (· != '\x27') <;> simp
      · have hall : '\x27' ∉ rest ++ '\n' :: more := by
          simpa [hclosed] using hopen rest rfl hclosed
        rw [name?_of_notMem hclosed, name?_of_notMem hall]
        rfl
    · have hbare (rest : List Char) : name? (c :: rest) =
          match (c :: rest).takeWhile isNameChar with
          | [] => none
          | name => some (some name, (c :: rest).dropWhile isNameChar) := by
        unfold name?
        split
        · rename_i h
          exact absurd (List.cons.inj h).1 hcomment
        · rename_i h
          exact absurd (List.cons.inj h).1 hquote
        · rfl
      have htake : (c :: (rest ++ '\n' :: more)).takeWhile isNameChar = _ :=
        takeWhile_append_stop more rfl (c :: rest)
      have hdrop : (c :: (rest ++ '\n' :: more)).dropWhile isNameChar = _ :=
        dropWhile_append_stop more rfl (c :: rest)
      rw [List.cons_append, hbare, hbare, htake, hdrop]
      cases (c :: rest).takeWhile isNameChar <;> rfl

theorem quotedInside_cons {quote c : Char} (hc : c ≠ '\\') (cs : List Char) :
    quotedInside quote (c :: cs) = if c == quote then some ([], cs)
      else (quotedInside quote cs).map fun p => (c :: p.1, p.2) := by
  rw [quotedInside]
  exact fun _ _ h => absurd h hc

theorem quotedInside_append {quote : Char} (hquote : quote ≠ '\\') {cs inside rest : List Char}
    (h : quotedInside quote cs = some (inside, rest)) :
    quotedInside quote (cs ++ more) = some (inside, rest ++ more) := by
  fun_induction quotedInside quote cs generalizing inside with
  | case1 => cases h
  | case2 c cs ih =>
    obtain ⟨p, hp, heq⟩ := Option.map_eq_some_iff.mp h
    cases heq
    rw [List.cons_append, List.cons_append, quotedInside, ih hp]
    rfl
  | case3 c cs _ hend =>
    obtain rfl := beq_iff_eq.mp hend
    cases h
    rw [List.cons_append, quotedInside_cons hquote, if_pos hend]
  | case4 c cs hpair hend ih =>
    obtain ⟨p, hp, heq⟩ := Option.map_eq_some_iff.mp h
    cases heq
    -- a backslash at the end of the text would leave it without a closing quote
    have hc : c ≠ '\\' := by
      rintro rfl
      cases cs with
      | nil => cases hp
      | cons d cs => exact hpair d cs rfl rfl
    rw [List.cons_append, quotedInside_cons hc, if_neg hend, ih hp]
    rfl

theorem quotedInside_of_notMem {quote : Char} {cs : List Char} (h : quote ∉ cs) :
    quotedInside quote cs = none := by
  rw [Option.eq_none_iff_forall_ne_some]
  intro p hp
  exact h (quotedInside_eq_some hp ▸ by simp)

/-- A quoted text without an end is not ended by lines that do not hold its quote. -/
theorem quotedInside_append_of_notMem {quote : Char} {cs : List Char}
    (h : quotedInside quote cs = none) (hmore : quote ∉ more) :
    quotedInside quote (cs ++ more) = none := by
  fun_induction quotedInside quote cs with
  | case1 => exact quotedInside_of_notMem hmore
  | case2 c cs ih =>
    rw [List.cons_append, List.cons_append, quotedInside, ih (Option.map_eq_none_iff.mp h)]
    rfl
  | case3 => cases h
  | case4 c cs hpair hend ih =>
    by_cases hc : c = '\\'
    · -- a backslash at the end of the text takes the first character of the lines
      subst hc
      cases cs with
      | nil =>
        have hne : quote ≠ '\\' := fun e => hend (beq_iff_eq.mpr e.symm)
        exact quotedInside_of_notMem (by simp [hne, hmore])
      | cons d cs => exact absurd rfl (hpair d cs rfl)
    · rw [List.cons_append, quotedInside_cons hc, if_neg hend, ih (Option.map_eq_none_iff.mp h)]
      rfl

theorem value?_append {cs v rest : List Char} (h : value? cs = some (v, rest)) :
    value? (cs ++ '\n' :: more) = some (v, rest ++ '\n' :: more) := by
  obtain ⟨quote, inside, hquote, rfl⟩ | hbare := quoted_or_bare cs
  · obtain ⟨escape?, -, hvalue⟩ := value?_quoted hquote
    rw [hvalue, Option.map_eq_some_iff] at h
    obtain ⟨p, hp, heq⟩ := h
    cases heq
    rw [List.cons_append, hvalue, quotedInside_append _ (hquote.ne (by decide)) hp]
    rfl
  · have hlonger : ∀ c ∈ (cs ++ '\n' :: more).head?, ¬ IsQuote c := by
      cases cs with
      | nil => exact fun c hc => Option.some.inj hc ▸ by decide
      | cons d rest => exact hbare
    rw [value?_bare hbare] at h
    cases h
    rw [value?_bare hlonger, takeWhile_append_stop _ rfl, dropWhile_append_stop _ rfl]

theorem value?_append_of_notMem {cs : List Char} (h : value? cs = none)
    (hmore : ∀ quote ∈ cs.head?, quote ∉ more) : value? (cs ++ '\n' :: more) = none := by
  obtain ⟨quote, inside, hquote, rfl⟩ | hbare := quoted_or_bare cs
  · obtain ⟨escape?, -, hvalue⟩ := value?_quoted hquote
    rw [hvalue, Option.map_eq_none_iff] at h
    have hline : quote ∉ '\n' :: more :=
      List.not_mem_cons_of_ne_of_not_mem (hquote.ne (by decide)) (hmore quote rfl)
    rw [List.cons_append, hvalue, quotedInside_append_of_notMem _ h hline]
    rfl
  · rw [value?_bare hbare] at h
    cases h

theorem assigned_append {cs : List Char}
    (hopen : ∀ place, assigned cs = .error place → ∀ quote ∈ place.head?, quote ∉ more) :
    assigned (cs ++ '\n' :: more) = match assigned cs with
      | .ok (v, rest) => .ok (v, rest ++ '\n' :: more)
      | .error place => .error (place ++ '\n' :: more) := by
  have hother {cs : List Char} (h : cs.head? ≠ some '=') : assigned cs = .ok (none, cs) := by
    unfold assigned
    split
    · exact absurd rfl h
    · rfl
  by_cases heq : cs.head? = some '='
  · obtain ⟨rest, rfl⟩ := List.head?_eq_some_iff.mp heq
    have hcomment : ((skipInner rest ++ '\n' :: more).head? == some '#') =
        ((skipInner rest).head? == some '#') := by
      cases skipInner rest <;> rfl
    have hblanks : (skipInner rest ++ '\n' :: more).length < (rest ++ '\n' :: more).length ↔
        (skipInner rest).length < rest.length := by
      simp only [List.length_append]
      omega
    rw [assigned] at hopen
    rw [List.cons_append, assigned, assigned]
    simp only [skipInner_append, hcomment, hblanks]
    split
    · rfl
    · rename_i hvalue
      rw [if_neg hvalue] at hopen
      cases hv : value? (skipInner rest) with
      | none =>
        rw [hv] at hopen
        rw [value?_append_of_notMem more hv (hopen _ rfl)]
      | some p => rw [value?_append more hv]
  · have hlonger : (cs ++ '\n' :: more).head? ≠ some '=' := by
      cases cs with
      | nil => exact nofun
      | cons c rest => exact heq
    rw [hother heq, hother hlonger]

theorem skipComment_append (cs : List Char) :
    skipComment (cs ++ '\n' :: more) = skipComment cs ++ '\n' :: more := by
  unfold skipComment
  rw [skipInner_append]
  cases hskip : skipInner cs with
  | nil => rfl
  | cons c rest =>
    by_cases hcomment : c = '#'
    · subst hcomment
      exact dropWhile_append_stop more rfl rest
    · simp [hcomment]

/-- Where reading goes on with lines behind a text: where it did without them, or at the lines if
that was at the end. -/
inductive GoesOn : List Char → List Char → Prop
  | within (rest : List Char) : GoesOn rest (rest ++ '\n' :: more)
  | atLines : GoesOn [] more

theorem goesOn_nextLine (cs : List Char) :
    GoesOn more (nextLine cs) (nextLine (cs ++ '\n' :: more)) := by
  rw [nextLine, nextLine, dropWhile_append_stop _ rfl]
  cases cs.dropWhile (· != '\n') with
  | nil => exact .atLines
  | cons c rest => exact .within rest

theorem lineEnd?_append_of_none {cs : List Char} (h : lineEnd? cs = none) :
    lineEnd? (cs ++ '\n' :: more) = none := by
  unfold lineEnd? at h ⊢
  rw [skipInner_append]
  cases hskip : skipInner cs with
  | nil => simp [hskip] at h
  | cons c rest =>
    have hc : c ≠ '\n' := by
      rintro rfl
      simp [hskip] at h
    simp [hc]

theorem lineEnd?_append_of_some {cs next : List Char} (h : lineEnd? cs = some next) :
    ∃ next', lineEnd? (cs ++ '\n' :: more) = some next' ∧ GoesOn more next next' := by
  unfold lineEnd? at h ⊢
  rw [skipInner_append]
  split at h
  · cases h
    exact ⟨more, by simp [*], .atLines⟩
  · cases h
    exact ⟨_, by simp [*], .within next⟩
  · cases h

/-- The quote with which the statement at the start of a text opens its name or its value, if
nothing in the text closes it. -/
def openQuote? (cs : List Char) : Option Char :=
  let start := skipExport cs
  if start.head? = some '\x27' ∧ '\x27' ∉ start.tail then some '\x27'
  else match name? start with
    | none => none
    | some (_, after) =>
      match assigned (skipInner after) with
      | .ok _ => none
      | .error place => place.head?

section Statement

variable {more} {cs : List Char} (hopen : ∀ quote ∈ openQuote? cs, quote ∉ more)
include hopen

theorem name?_skipExport_append : name? (skipExport (cs ++ '\n' :: more)) =
    (name? (skipExport cs)).map fun p => (p.1, p.2 ++ '\n' :: more) := by
  rw [skipExport_append]
  refine name?_append more fun rest hstart hrest => hopen _ ?_
  rw [openQuote?, hstart]
  exact if_pos ⟨rfl, hrest⟩

theorem assigned_skipInner_append {name : Option (List Char)} {after : List Char}
    (hname : name? (skipExport cs) = some (name, after)) :
    assigned (skipInner (after ++ '\n' :: more)) = match assigned (skipInner after) with
      | .ok (v, rest) => .ok (v, rest ++ '\n' :: more)
      | .error place => .error (place ++ '\n' :: more) := by
  have hclosed : ¬ ((skipExport cs).head? = some '\x27' ∧ '\x27' ∉ (skipExport cs).tail) := by
    rintro ⟨hhead, htail⟩
    obtain ⟨rest, hstart⟩ := List.head?_eq_some_iff.mp hhead
    have hnone : name? (skipExport cs) = none := by
      rw [hstart] at htail ⊢
      exact name?_of_notMem htail
    cases hnone.symm.trans hname
  rw [skipInner_append]
  refine assigned_append more fun place hplace quote hquote => hopen quote ?_
  simp only [openQuote?]
  rw [if_neg hclosed, hname]
  simp only [hplace]
  exact hquote

theorem reads_append_error {place : List Char} (h : Reads cs (.error place)) :
    Reads (cs ++ '\n' :: more) (.error (place ++ '\n' :: more)) := by
  have hname := name?_skipExport_append hopen
  cases h with
  | unnamed hnone =>
    rw [hnone] at hname
    exact skipExport_append more cs ▸ .unnamed hname
  | unclosed hsome hvalue =>
    have hassigned := assigned_skipInner_append hopen hsome
    rw [hsome] at hname
    rw [hvalue] at hassigned
    exact .unclosed hname hassigned
  | unended hsome hvalue hend =>
    have hassigned := assigned_skipInner_append hopen hsome
    rw [hsome] at hname
    rw [hvalue] at hassigned
    rw [← skipComment_append]
    refine .unended hname hassigned ?_
    rw [skipComment_append]
    exact lineEnd?_append_of_none more hend

theorem reads_append_ok {s : Option Statement} {next : List Char} (h : Reads cs (.ok (s, next))) :
    ∃ next', Reads (cs ++ '\n' :: more) (.ok (s, next')) ∧ GoesOn more next next' := by
  have hname := name?_skipExport_append hopen
  cases h with
  | read hsome hvalue hend =>
    have hassigned := assigned_skipInner_append hopen hsome
    obtain ⟨next', hnext, hgoes⟩ := lineEnd?_append_of_some more hend
    rw [hsome] at hname
    rw [hvalue] at hassigned
    rw [← skipComment_append] at hnext
    exact ⟨next', .read hname hassigned hnext, hgoes⟩

/-- The statement at the start of a text is the same with lines behind the text, and reading goes
on behind it as it did. -/
theorem statement_append : stated? (cs ++ '\n' :: more) = stated? cs ∧
    GoesOn more (behind cs) (behind (cs ++ '\n' :: more)) := by
  have hreads := reads_statement cs
  unfold stated? behind
  cases houtcome : statement cs with
  | error place =>
    rw [houtcome] at hreads
    rw [(reads_append_error hopen hreads).statement_eq]
    exact ⟨rfl, goesOn_nextLine more place⟩
  | ok p =>
    rw [houtcome] at hreads
    obtain ⟨next', hlonger, hgoes⟩ := reads_append_ok hopen hreads
    rw [hlonger.statement_eq]
    exact ⟨rfl, hgoes⟩

end Statement

/-- The lines have none of the quotes that a text leaves open. -/
def Apart (cs : List Char) : Prop := ∀ start ∈ places cs, ∀ quote ∈ openQuote? start, quote ∉ more

theorem isQuote_of_openQuote? {cs : List Char} {quote : Char} (h : quote ∈ openQuote? cs) :
    IsQuote quote := by
  simp only [openQuote?] at h
  split at h
  · cases h
    exact .inl rfl
  · split at h
    · cases h
    · split at h
      · cases h
      · rename_i place hplace
        obtain ⟨opened, rest, hopened, rfl⟩ := quoted_of_assigned_error hplace
        cases h
        exact hopened

variable {more}

/-- Lines without quotes are apart from every text. -/
theorem apart_of_unquoted (hsingle : '\x27' ∉ more) (hdouble : '\x22' ∉ more) (cs : List Char) :
    Apart more cs := by
  intro start _ quote hquote
  obtain rfl | rfl := isQuote_of_openQuote? hquote
  · exact hsingle
  · exact hdouble

/-- The places of a text are in it where they were with lines behind it, and those of the lines
follow. -/
theorem places_append {cs : List Char} (h : Apart more cs) :
    places (cs ++ '\n' :: more) = (places cs).map (· ++ '\n' :: more) ++ places more := by
  generalize hlength : cs.length = n
  induction n using Nat.strong_induction_on generalizing cs with
  | _ n ih =>
    have hdrop : (cs ++ '\n' :: more).dropWhile Text.isBlank = _ := List.dropWhile_append
    have hle := (List.dropWhile_suffix Text.isBlank (l := cs)).length_le
    generalize hstart : cs.dropWhile Text.isBlank = start at hdrop hle
    by_cases hne : start = []
    · subst hne
      rw [places_of_blank hstart]
      exact places_congr hdrop
    · rw [if_neg (by simp [hne])] at hdrop
      have hplaces := places_of_start hstart hne
      have hlt := length_behind_lt hne
      rw [Apart, hplaces, List.forall_mem_cons] at h
      obtain ⟨hopen, hrest⟩ := h
      have hgoes := (statement_append hopen).2
      have hshorter := ih _ (by omega) hrest rfl
      rw [hplaces, places_of_start hdrop (by simp), List.map_cons]
      refine congrArg (_ :: ·) ?_
      generalize behind start = rest, behind (start ++ '\n' :: more) = rest' at *
      cases hgoes with
      | within => exact hshorter
      | atLines => rfl

/-- Lines without the quotes that a text leaves open add their own statements to those of the
text. -/
theorem stated_append {cs : List Char} (h : Apart more cs) :
    stated (cs ++ '\n' :: more) = stated cs ++ stated more := by
  rw [stated, places_append h, List.filterMap_append, List.filterMap_map]
  congr 1
  exact List.filterMap_congr fun start hstart => (statement_append (h start hstart)).1

end More

/-- The new text is the old one with lines added, which start on a line of their own. The quotes
that the old text leaves open are not in them. -/
inductive AddsLines (added : List Char) : (old new : List Char) → Prop
  | first : AddsLines added [] added
  | behind {cs old : List Char} (hold : old = cs ∨ old = cs ++ ['\n']) (h : Apart added cs) :
    AddsLines added old (cs ++ '\n' :: added)

/-- Added lines add their own statements. -/
theorem AddsLines.stated_eq {added old new : List Char} (h : AddsLines added old new) :
    stated new = stated old ++ stated added := by
  cases h with
  | first => rfl
  | @behind cs _ hold hapart =>
    have hline : stated (cs ++ ['\n']) = stated cs := by
      rw [stated_append fun _ _ _ _ => List.not_mem_nil]
      exact List.append_nil _
    rw [stated_append hapart]
    obtain rfl | rfl := hold
    · rfl
    · rw [hline]

end GrammarLoader.EnvFile
