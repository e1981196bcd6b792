import GrammarLoader.Proofs.EnvFile.Appending

/-!
# Environment files without references

A file in whose values no reference stands says the same in every environment. It is enough that
the characters that open a reference do not stand next to each other in its text: neither a line
end, nor an escape, nor a comment that is cut off brings them together.
-/

namespace GrammarLoader.EnvFile

/-- No reference stands in the text. -/
def IsLiteral (cs : List Char) : Prop :=
  ∀ rest, '$' :: '\x7b' :: rest <:+ cs → reference? rest = none

/-- No reference stands in a value of the file. -/
def HasLiteralValues (text : String) : Prop :=
  ∀ s ∈ statements text, ∀ value ∈ s.2, IsLiteral value

/-- A text without references stays as it is. -/
theorem substitute_of_isLiteral {find : List Char → Option (List Char)} {cs : List Char}
    (h : IsLiteral cs) : substitute find cs = cs := by
  have hfuel (fuel : Nat) : substituteFrom find fuel cs = cs := by
    induction fuel generalizing cs with
    | zero => rfl
    | succ fuel ih =>
      cases cs with
      | nil => rfl
      | cons c rest =>
        have hrest : IsLiteral rest := fun after hafter =>
          h after (hafter.trans (List.suffix_cons c rest))
        by_cases hopening : ∃ after, c :: rest = '$' :: '\x7b' :: after
        · obtain ⟨after, heq⟩ := hopening
          cases heq
          rw [substituteFrom, h after List.suffix_rfl]
          exact congrArg ('$' :: ·) (ih hrest)
        · rw [substituteFrom, ih hrest]
          rintro after rfl rfl
          exact hopening ⟨after, rfl⟩
  exact hfuel cs.length

/-- A file without references defines the same variables in every environment. -/
theorem read_congr {text : String} (h : HasLiteralValues text)
    (environment environment' : List (String × String)) :
    read environment text = read environment' text := by
  have hdefine (environment : List (String × String)) {ss : List Statement}
      (hss : ∀ s ∈ ss, ∀ value ∈ s.2, IsLiteral value) (earlier : Variables) :
      ss.foldl (define environment) earlier = ss.foldl (fun earlier s =>
        Assoc.insert (String.ofList s.1) (s.2.map String.ofList) earlier) earlier := by
    induction ss generalizing earlier with
    | nil => rfl
    | cons s ss ih =>
      obtain ⟨hs, hrest⟩ := List.forall_mem_cons.mp hss
      have hvalue (find : List Char → Option (List Char)) :
          (s.2.map fun cs => String.ofList (substitute find cs)) = s.2.map String.ofList :=
        Option.map_congr fun value hv => by rw [substitute_of_isLiteral (hs value hv)]
      rw [List.foldl_cons, List.foldl_cons, ih hrest]
      congr 2
      rw [define, hvalue]
  rw [read, read, hdefine environment h, hdefine environment' h]

/-! ## The characters of a text -/

/-- The characters that open a reference stand next to each other in the text. -/
def Opens (cs : List Char) : Prop := ['$', '\x7b'] <:+: cs

theorem opens_cons {c : Char} {cs : List Char} :
    Opens (c :: cs) ↔ c = '$' ∧ cs.head? = some '\x7b' ∨ Opens cs := by
  have hhead : ['\x7b'] <+: cs ↔ cs.head? = some '\x7b' := by
    rw [List.prefix_iff_eq_take, List.head?_eq_some_iff]
    cases cs <;> simp [eq_comm]
  rw [Opens, List.infix_cons_iff, List.cons_prefix_cons, hhead, eq_comm, Opens]

theorem Opens.of_part {cs ds : List Char} (h : Opens cs) (hin : cs <:+: ds) : Opens ds :=
  h.trans hin

theorem isLiteral_of_not_opens {cs : List Char} (h : ¬ Opens cs) : IsLiteral cs :=
  fun rest hrest => absurd (Opens.of_part ⟨[], rest, rfl⟩ hrest.isInfix) h

theorem opens_of_unixLines {cs : List Char} (h : Opens (unixLines cs)) : Opens cs := by
  have hhead (cs : List Char) (h : (unixLines cs).head? = some '\x7b') :
      cs.head? = some '\x7b' := by
    fun_induction unixLines cs with
    | case1 => cases h
    | case2 => cases h
    | case3 => exact h
    | case4 => cases h
  fun_induction unixLines cs with
  | case1 rest ih =>
    obtain ⟨hc, -⟩ | h := opens_cons.mp h
    · cases hc
    · exact opens_cons.mpr (.inr (opens_cons.mpr (.inr (ih h))))
  | case2 rest _ ih =>
    obtain ⟨hc, -⟩ | h := opens_cons.mp h
    · cases hc
    · exact opens_cons.mpr (.inr (ih h))
  | case3 c rest _ _ ih =>
    exact opens_cons.mpr ((opens_cons.mp h).imp (And.imp_right (hhead rest)) ih)
  | case4 => exact h

theorem opens_of_unescape {escape? : Char → Option Char}
    (hescape : ∀ c x, escape? c = some x → x ≠ '$' ∧ x ≠ '\x7b') {cs : List Char}
    (h : Opens (unescape escape? cs)) : Opens cs := by
  have hhead (cs : List Char) (h : (unescape escape? cs).head? = some '\x7b') :
      cs.head? = some '\x7b' := by
    fun_induction unescape escape? cs with
    | case1 c rest x hx => exact absurd (Option.some.inj h) (hescape c x hx).2
    | case2 => cases h
    | case3 => exact h
    | case4 => cases h
  fun_induction unescape escape? cs with
  | case1 c rest x hx ih =>
    obtain ⟨hc, -⟩ | h := opens_cons.mp h
    · exact absurd hc (hescape c x hx).1
    · exact opens_cons.mpr (.inr (opens_cons.mpr (.inr (ih h))))
  | case2 c rest hx ih =>
    obtain ⟨hc, -⟩ | h := opens_cons.mp h
    · cases hc
    · have hrest := (opens_cons.mp h).imp (And.imp_right (hhead rest)) ih
      exact opens_cons.mpr (.inr (opens_cons.mpr hrest))
  | case3 c rest _ ih =>
    exact opens_cons.mpr ((opens_cons.mp h).imp (And.imp_right (hhead rest)) ih)
  | case4 => exact h

theorem opens_of_value {cs v rest : List Char} (h : value? cs = some (v, rest)) (hv : Opens v) :
    Opens cs := by
  obtain ⟨quote, inside, hquote, rfl⟩ | hbare := quoted_or_bare cs
  · obtain ⟨escape?, hmem, hvalue⟩ := value?_quoted hquote
    have hescape : ∀ c x, escape? c = some x → x ≠ '$' ∧ x ≠ '\x7b' := by
      simp only [List.mem_cons, List.not_mem_nil, or_false] at hmem
      intro c x hx
      obtain rfl | rfl := hmem
      · unfold singleEscape? at hx
        split at hx <;> cases hx <;> decide
      · unfold doubleEscape? at hx
        split at hx <;> cases hx <;> decide
    rw [hvalue, Option.map_eq_some_iff] at h
    obtain ⟨p, hp, heq⟩ := h
    cases heq
    have hinside := opens_of_unescape hescape hv
    rw [quotedInside_eq_some hp]
    exact hinside.of_part ⟨[quote], quote :: p.2, by simp⟩
  · rw [value?_bare hbare] at h
    cases h
    have hcomment (cs : List Char) : beforeComment cs <+: cs := by
      fun_induction beforeComment cs with
      | case1 => exact List.prefix_rfl
      | case2 => exact List.nil_prefix
      | case3 c rest _ ih => exact List.prefix_cons_inj c |>.mpr ih
    have htrim (cs : List Char) : trimEnd cs <+: cs := by
      rw [← List.reverse_suffix, trimEnd, List.reverse_reverse]
      exact List.dropWhile_suffix _
    exact hv.of_part ((htrim _).trans ((hcomment _).trans (List.takeWhile_prefix _))).isInfix

theorem opens_of_assigned {cs v rest : List Char} (h : assigned cs = .ok (some v, rest))
    (hv : Opens v) : Opens cs := by
  unfold assigned at h
  split at h
  · rename_i inside
    dsimp only at h
    split at h
    · cases h
      exact absurd hv.length_le (by decide)
    · split at h
      · rename_i hvalue
        cases h
        exact (opens_of_value hvalue hv).of_part
          ((skipInner_suffix inside).trans (List.suffix_cons _ inside)).isInfix
      · cases h
  · cases h

theorem opens_of_stated {cs name value : List Char} (h : stated? cs = some (name, some value))
    (hv : Opens value) : Opens cs := by
  have hreads := reads_statement cs
  unfold stated? at h
  cases houtcome : statement cs with
  | error place =>
    rw [houtcome] at h
    cases h
  | ok p =>
    rw [houtcome] at h hreads
    cases hreads with
    | @read name' value' after rest _ hname hvalue hend =>
      cases name' with
      | none => cases h
      | some name' =>
        cases h
        have hafter := (opens_of_assigned hvalue hv).of_part (skipInner_suffix after).isInfix
        exact hafter.of_part
          ((name?_cases hname).1.trans (skipExport_suffix cs)).isInfix

/-- The text of a file in which no reference opens has values without references. -/
theorem hasLiteralValues_of_not_opens {text : String} (h : ¬ Opens text.toList) :
    HasLiteralValues text := by
  have hmark (cs : List Char) : withoutMark cs <:+ cs := by
    fun_cases withoutMark cs with
    | case1 rest => exact List.suffix_cons _ rest
    | case2 => exact List.suffix_rfl
  intro s hs value hvalue
  rw [statements_eq_stated, stated, List.mem_filterMap] at hs
  obtain ⟨start, hstart, hs⟩ := hs
  refine isLiteral_of_not_opens fun hopens => h ?_
  have hstated : stated? start = some (s.1, some value) := by rw [hs, ← Option.mem_def.mp hvalue]
  have hcontent : Opens (content text) :=
    (opens_of_stated hstated hopens).of_part (places_suffix hstart).isInfix
  exact (opens_of_unixLines hcontent).of_part (hmark _).isInfix

end GrammarLoader.EnvFile
