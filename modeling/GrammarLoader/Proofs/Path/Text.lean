import GrammarLoader.Path

/-!
# Paths and their texts

A text is cut at its slashes, so that no name holds one. The other way round a path from the root
whose names hold none, and stand for something of their own, is read back from its text. Of two
paths with the same start the one that goes on has the longer text.
-/

namespace GrammarLoader

/-! ## Cutting a text -/

theorem splitAt_append {sep : Char} {piece : List Char} (h : sep ∉ piece) (rest : List Char) :
    splitAt sep (piece ++ sep :: rest) = piece :: splitAt sep rest := by
  induction piece with
  | nil => simp [splitAt]
  | cons c piece ih =>
    rw [List.mem_cons, not_or] at h
    obtain ⟨hc, hpiece⟩ := h
    have hne : (c == sep) = false := by simpa using fun heq => hc heq.symm
    rw [List.cons_append, splitAt, hne, ih hpiece]
    rfl

theorem splitAt_of_notMem {sep : Char} {piece : List Char} (h : sep ∉ piece) :
    splitAt sep piece = [piece] := by
  induction piece with
  | nil => rfl
  | cons c piece ih =>
    rw [List.mem_cons, not_or] at h
    obtain ⟨hc, hpiece⟩ := h
    have hne : (c == sep) = false := by simpa using fun heq => hc heq.symm
    rw [splitAt, hne, ih hpiece]
    rfl

/-- What is put together from texts that do not hold the separator is cut into them again. -/
theorem splitAt_intercalate {sep : Char} {texts : List (List Char)} (hne : texts ≠ [])
    (h : ∀ text ∈ texts, sep ∉ text) : splitAt sep ([sep].intercalate texts) = texts := by
  induction texts with
  | nil => exact absurd rfl hne
  | cons text rest ih =>
    obtain ⟨htext, hrest⟩ := List.forall_mem_cons.mp h
    cases rest with
    | nil =>
      rw [List.intercalate_singleton]
      exact splitAt_of_notMem htext
    | cons next rest =>
      rw [List.intercalate_cons_cons, List.append_assoc, List.singleton_append,
        splitAt_append htext, ih (by simp) hrest]

/-- The separator is in none of the pieces. -/
theorem notMem_of_mem_splitAt {sep : Char} {text piece : List Char}
    (h : piece ∈ splitAt sep text) : sep ∉ piece := by
  induction text generalizing piece with
  | nil =>
    rw [splitAt, List.mem_singleton] at h
    rw [h]
    exact List.not_mem_nil
  | cons c text ih =>
    rw [splitAt] at h
    split at h
    · obtain rfl | h := List.mem_cons.mp h
      · exact List.not_mem_nil
      · exact ih h
    · rename_i hc
      have hne : sep ≠ c := fun heq => hc (by simp [heq])
      split at h
      · rw [List.mem_singleton.mp h]
        simpa using hne
      · rename_i first more hs
        rw [hs] at ih
        obtain rfl | h := List.mem_cons.mp h
        · simpa [hne] using ih List.mem_cons_self
        · exact ih (List.mem_cons_of_mem _ h)

theorem slash_notMem_of_mem_pieces {text piece : String} (h : piece ∈ pieces text) :
    '/' ∉ piece.toList := by
  obtain ⟨cs, hcs, rfl⟩ := List.mem_map.mp h
  rw [String.toList_ofList]
  exact notMem_of_mem_splitAt hcs

/-! ## Reading a path back -/

/-- A piece that stands for something of its own: neither for where it is met nor for what is
above. -/
structure IsName (piece : String) : Prop where
  notIdle : isIdle piece = false
  notUp : piece ≠ ".."

instance (piece : String) : Decidable (IsName piece) :=
  decidable_of_iff (isIdle piece = false ∧ piece ≠ "..")
    ⟨fun h => ⟨h.1, h.2⟩, fun h => ⟨h.notIdle, h.notUp⟩⟩

theorem IsName.ne_empty {piece : String} (h : IsName piece) : piece ≠ "" := by
  rintro rfl
  cases h.notIdle

theorem IsName.ne_dot {piece : String} (h : IsName piece) : piece ≠ "." := by
  rintro rfl
  cases h.notIdle

namespace Path

theorem slash_notMem_of_mem_ofString {text name : String} (h : name ∈ (ofString text).names) :
    '/' ∉ name.toList :=
  slash_notMem_of_mem_pieces (List.mem_filter.mp h).1

/-- With names in which there is no slash the path from the root is read back. -/
theorem ofString_toString_root {names : List String}
    (h : ∀ name ∈ names, IsName name ∧ '/' ∉ name.toList) :
    ofString (Path.toString ⟨.root, names⟩) = ⟨.root, names⟩ := by
  cases names with
  | nil => rfl
  | cons name rest =>
    have hchars : (Path.toString ⟨.root, name :: rest⟩).toList =
        '/' :: ['/'].intercalate ((name :: rest).map String.toList) := by
      have htext : Path.toString ⟨.root, name :: rest⟩ = "/" ++ "/".intercalate (name :: rest) :=
        rfl
      rw [htext, String.toList_append, String.toList_intercalate]
      rfl
    have hslash : ∀ cs ∈ (name :: rest).map String.toList, '/' ∉ cs :=
      List.forall_mem_map.mpr fun n hn => (h n hn).2
    have hpieces : pieces (Path.toString ⟨.root, name :: rest⟩) = "" :: name :: rest := by
      have hcut := splitAt_append (List.not_mem_nil (a := '/'))
        (['/'].intercalate ((name :: rest).map String.toList))
      rw [List.nil_append, splitAt_intercalate (by simp) hslash] at hcut
      rw [pieces, hchars, hcut, List.map_cons, List.map_map]
      simp [Function.comp_def]
    have hstart : startOf (Path.toString ⟨.root, name :: rest⟩).toList = .root := by
      obtain ⟨hname, hslash⟩ := h name List.mem_cons_self
      rw [hchars, List.map_cons]
      cases hcs : name.toList with
      | nil => exact absurd (String.toList_eq_nil_iff.mp hcs) hname.ne_empty
      | cons c cs =>
        rw [hcs, List.mem_cons, not_or] at hslash
        have hc : c ≠ '/' := fun heq => hslash.1 heq.symm
        cases rest with
        | nil =>
          rw [List.map_nil, List.intercalate_singleton]
          simp [startOf, hc]
        | cons next rest =>
          rw [List.map_cons, List.intercalate_cons_cons, List.append_assoc, List.cons_append]
          simp [startOf, hc]
    have hnames : ("" :: name :: rest).filter (!isIdle ·) = name :: rest := by
      rw [List.filter_cons_of_neg (by decide), List.filter_eq_self]
      intro n hn
      rw [(h n hn).1.notIdle]
      rfl
    rw [ofString, hpieces, hstart, hnames]

/-! ## The length of a text -/

/-- The number of bytes in the text of a path, behind the slashes in front. -/
theorem utf8ByteSize_toString {start : Start} {names : List String} (h : names ≠ []) :
    (Path.toString ⟨start, names⟩).utf8ByteSize =
      (slashes start).utf8ByteSize + ("/".intercalate names).utf8ByteSize := by
  have htext : Path.toString ⟨start, names⟩ = slashes start ++ "/".intercalate names := by
    simp [Path.toString, h]
  rw [htext, String.utf8ByteSize_append]

theorem utf8ByteSize_intercalate_append (first second : List String) :
    ("/".intercalate first).utf8ByteSize ≤ ("/".intercalate (first ++ second)).utf8ByteSize ∧
      ("/".intercalate second).utf8ByteSize ≤
        ("/".intercalate (first ++ second)).utf8ByteSize := by
  by_cases hfirst : first = []
  · simp [hfirst]
  · by_cases hsecond : second = []
    · simp [hsecond]
    · rw [String.intercalate_append_of_ne_nil hfirst hsecond, String.utf8ByteSize_append,
        String.utf8ByteSize_append]
      omega

/-- A part of a path, seen from the same place or from the working directory, has no longer text. -/
theorem utf8ByteSize_toString_le {start start' : Start} {before names behind : List String}
    (hne : names ≠ []) (hs : start' = start ∨ start' = .here) :
    (Path.toString ⟨start', names⟩).utf8ByteSize ≤
      (Path.toString ⟨start, before ++ names ++ behind⟩).utf8ByteSize := by
  have hbefore := (utf8ByteSize_intercalate_append before names).2
  have hbehind := (utf8ByteSize_intercalate_append (before ++ names) behind).1
  rw [utf8ByteSize_toString hne, utf8ByteSize_toString (by simp [hne])]
  have hslashes : (slashes start').utf8ByteSize ≤ (slashes start).utf8ByteSize := by
    obtain rfl | rfl := hs
    · exact Nat.le_refl _
    · exact Nat.zero_le _
  omega

end Path

end GrammarLoader
