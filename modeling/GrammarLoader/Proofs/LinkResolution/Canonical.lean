import GrammarLoader.Proofs.LinkResolution.Leads

/-!
# Resolved paths

Where no link leads back to itself, a path resolves to the place that its names lead to. If the
system reaches something there, by the path from the root, the path goes through no link: a link on
it would have been seen on the way. Above the working directory this needs that resolution, which
goes by steps up, could look at the place too. A path from the root without links resolves to
itself.
-/

namespace GrammarLoader

namespace FileTree

variable {t : FileTree} {cwd : Location}

/-- A path that the system reaches is short enough, and a walk comes to its end. -/
theorem locate_eq_ok_iff {followLast : Bool} {p : Path} {there : Location} :
    t.locate followLast cwd p = .ok there ↔ p.toString.utf8ByteSize ≤ maxPathBytes ∧
      t.walkWith followLast (t.walk followLast (maxLinks - 1)) (if p.isAbsolute then [] else cwd)
        p.names = .ok there := by
  have hwalk : t.walk followLast maxLinks =
      t.walkWith followLast (t.walk followLast (maxLinks - 1)) := rfl
  unfold locate
  rw [hwalk]
  split
  · rename_i hsize
    simp [Nat.not_le.mpr hsize]
  · rename_i hsize
    simp [Nat.le_of_not_lt hsize]

theorem linkTarget_of_isLink {p : Path} {there : Location}
    (h : t.locate false cwd p = .ok there) (hl : t.IsLink there) :
    ∃ target, t.linkTarget? cwd p = some target := by
  obtain ⟨target, hn⟩ := hl
  unfold linkTarget?
  rw [h]
  simp only [Except.map]
  rw [hn]
  exact ⟨target, rfl⟩

/-- A path from the root that meets no link is not one. -/
theorem linkTarget_of_straight {names : List String} (hnames : ∀ name ∈ names, IsName name)
    (hl : ∀ before, before <+: names → ¬ t.IsLink before) :
    t.linkTarget? cwd ⟨.root, names⟩ = none := by
  unfold linkTarget?
  cases h : t.locate false cwd ⟨.root, names⟩ with
  | error e => rfl
  | ok there =>
    obtain ⟨-, hwalk⟩ := locate_eq_ok_iff.mp h
    have hthere : there = names := by
      rw [← List.append_nil names] at hwalk
      have hend := walkWith_append hnames (fun before hb _ => hl before hb) hwalk
      exact (Except.ok.inj hend).symm
    simp only [Except.map]
    split
    · rename_i target hn
      exact absurd ⟨target, by rw [← hthere]; exact Except.ok.inj hn⟩ (hl names List.prefix_rfl)
    · rfl

end FileTree

namespace Path

theorem foldUps_of_names {names : List String} (h : ∀ name ∈ names, IsName name)
    (passed : List String) : foldUps passed names = passed ++ names := by
  induction names generalizing passed with
  | nil => simp [foldUps]
  | cons name rest ih =>
    obtain ⟨hname, hrest⟩ := List.forall_mem_cons.mp h
    rw [foldUps]
    simp only [beq_iff_eq, hname.notUp, if_false]
    rw [ih hrest, List.append_assoc]
    rfl

theorem foldUps_ups (ups : Nat) (passed names : List String) :
    foldUps passed (List.replicate ups ".." ++ names) =
      foldUps (List.dropLast^[ups] passed) names := by
  induction ups generalizing passed with
  | zero => rfl
  | succ ups ih =>
    rw [List.replicate_succ, List.cons_append, foldUps, Function.iterate_succ_apply, ← ih]
    rfl

/-- What resolution comes to, if it comes to a path. -/
theorem of_resolve_eq_ok {t : FileTree} {cwd : Location} {p q : Path}
    (h : p.resolve t cwd = .ok q) : ∃ outcome seen,
      LinkResolution.steps t cwd LinkResolution.maxDepth []
        (if p.isAbsolute then Place.root else Place.here) p.names = .ok (outcome, seen) ∧
      q = outcome.path.absolute cwd ∧ q.hasNul = false := by
  unfold resolve at h
  dsimp only at h
  cases hs : LinkResolution.steps t cwd LinkResolution.maxDepth []
      (if p.isAbsolute then Place.root else Place.here) p.names with
  | error e =>
    rw [hs] at h
    cases h
  | ok reached =>
    obtain ⟨outcome, seen⟩ := reached
    simp only [hs, bind, Except.bind] at h
    split at h
    · cases h
    · rename_i hnul
      split at h
      · cases h
      · cases h
        exact ⟨outcome, seen, rfl, rfl, by simpa using hnul⟩

end Path

namespace Place

/-- The place in the tree below which the names of a place are. -/
def base (place : Place) (cwd : Location) : Location :=
  if place.absolute then [] else List.dropLast^[place.ups] cwd

theorem base_prefix (place : Place) (cwd : Location) : place.base cwd <+: cwd := by
  unfold base
  split
  · exact List.nil_prefix
  · exact FileTree.iterate_dropLast_prefix place.ups cwd

/-- A place is not above the working directory, or the system reaches it by the steps up that it is
spelled with. -/
def IsVisible (place : Place) (t : FileTree) (cwd : Location) : Prop :=
  place.ups = 0 ∨ ∃ there, t.locate false cwd place.toPath = .ok there

instance (place : Place) (t : FileTree) (cwd : Location) : Decidable (place.IsVisible t cwd) :=
  decidable_of_iff (place.ups = 0 ∨ (t.locate false cwd place.toPath).toBool) (by
    unfold IsVisible
    cases t.locate false cwd place.toPath <;> simp [Except.toBool])

end Place

namespace LinkResolution

variable {t : FileTree} {cwd : Location} {place : Place}

theorem IsClear.absolute_toPath (h : IsClear t cwd place) :
    place.toPath.absolute cwd = ⟨.root, place.base cwd ++ place.names⟩ := by
  have hnames : ∀ name ∈ place.names, IsName name := fun name hn => (h.names name hn).1
  unfold Place.toPath Path.absolute Place.base
  cases ha : place.absolute with
  | true => simp [h.ups ha, Path.foldUps_of_names hnames]
  | false => simp [Path.foldUps_ups, Path.foldUps_of_names hnames]

/-- Those who look at a clear place see the links on the way to it, where the system reaches the
place at all. -/
theorem IsClear.locate_of_walk (h : IsClear t cwd place) (hv : place.IsVisible t cwd)
    (hsize : (Path.toString ⟨.root, place.base cwd ++ place.names⟩).utf8ByteSize ≤
      FileTree.maxPathBytes)
    {before there : List String} (hb : before <+: place.names) (hne : before ≠ [])
    (hwalk : ∀ follow, t.walkWith false follow (place.base cwd) before = .ok there) :
    t.locate false cwd (Place.toPath { place with names := before }) = .ok there := by
  obtain ⟨absolute, ups, names⟩ := place
  obtain ⟨behind, rfl⟩ := hb
  rw [FileTree.locate_eq_ok_iff]
  -- without steps up the first names are spelled no longer than the path from the root
  have hshort : ∀ start, start = .root ∨ start = .here →
      (Path.toString ⟨start, before⟩).utf8ByteSize ≤ FileTree.maxPathBytes := by
    intro start hstart
    rw [← List.append_assoc] at hsize
    exact Nat.le_trans (Path.utf8ByteSize_toString_le hne hstart) hsize
  cases absolute with
  | true =>
    obtain rfl : ups = 0 := h.ups rfl
    exact ⟨hshort .root (.inl rfl), hwalk _⟩
  | false =>
    obtain rfl | ⟨there', hthere⟩ := hv
    · exact ⟨hshort .here (.inr rfl), hwalk _⟩
    · obtain ⟨hlong, hups⟩ := FileTree.locate_eq_ok_iff.mp hthere
      change t.walkWith false _ cwd (List.replicate ups ".." ++ (before ++ behind)) = _ at hups
      change (Path.toString ⟨.here, List.replicate ups ".." ++ (before ++ behind)⟩).utf8ByteSize ≤ _
        at hlong
      rw [← List.append_assoc] at hlong
      refine ⟨Nat.le_trans ?_ hlong, ?_⟩
      · have hspelled : List.replicate ups ".." ++ before ≠ [] := by simp [hne]
        exact @Path.utf8ByteSize_toString_le .here .here [] _ behind hspelled (.inl rfl)
      · exact (FileTree.walkWith_ups hups false _ before).trans (hwalk _)

/-- A clear place that the system reaches from the root is where its names are, without a link on
the way. -/
theorem IsClear.straight (hcwd : t.IsCanonical cwd) (h : IsClear t cwd place)
    (hv : place.IsVisible t cwd) {there : Location}
    (hthere : t.locate true cwd ⟨.root, place.base cwd ++ place.names⟩ = .ok there) :
    there = place.base cwd ++ place.names ∧
      ∀ before, before <+: place.base cwd ++ place.names → ¬ t.IsLink before := by
  have hbase : t.IsCanonical (place.base cwd) := hcwd.of_prefix (place.base_prefix cwd)
  obtain ⟨hsize, hwalk⟩ := FileTree.locate_eq_ok_iff.mp hthere
  have hbehind : t.walkWith true _ ([] ++ place.base cwd) place.names = .ok there :=
    FileTree.walkWith_append (fun name hn => (hbase.names name hn).1)
      (fun _ hb _ => hbase.not_isLink hb) hwalk
  obtain ⟨hend, hstraight⟩ | ⟨before, hb, hne, hlink, hbefore⟩ :=
    FileTree.straight_or_link (fun name hn => (h.names name hn).1) hbehind
  · refine ⟨hend, fun before hb => ?_⟩
    obtain hb' | ⟨behind, rfl⟩ := List.prefix_or_prefix_of_prefix hb (List.prefix_append _ _)
    · exact hbase.not_isLink hb'
    · obtain rfl | hne := Classical.em (behind = [])
      · exact hbase.not_isLink (by simp)
      · exact hstraight behind ((List.prefix_append_right_inj _).mp hb) hne
  · -- a first link would have been seen when the place was reached
    obtain ⟨target, hl⟩ :=
      FileTree.linkTarget_of_isLink (h.locate_of_walk hv hsize hb hne hbefore) hlink
    rw [h.links before hb hne] at hl
    cases hl

/-- A path resolves to where its names lead, spelled from the root. -/
theorem clear_of_resolve {p q : Path} (ha : Acyclic t cwd)
    (hs : ∀ name ∈ p.names, '/' ∉ name.toList) (h : p.resolve t cwd = .ok q) :
    ∃ place seen,
      steps t cwd maxDepth [] (if p.isAbsolute then Place.root else Place.here) p.names =
        .ok (.reached place, seen) ∧
      IsClear t cwd place ∧ q = ⟨.root, place.base cwd ++ place.names⟩ ∧ q.hasNul = false := by
  obtain ⟨outcome, seen, hsteps, rfl, hnul⟩ := Path.of_resolve_eq_ok h
  obtain ⟨place, rfl, hlead⟩ := leads_of_steps ha hsteps
  have horigin : IsClear t cwd (if p.isAbsolute then Place.root else Place.here) := by
    split
    · exact isClear_root
    · exact isClear_here
  have hclear : IsClear t cwd place := hlead.isClear hs horigin
  exact ⟨place, seen, hsteps, hclear, hclear.absolute_toPath, hnul⟩

/-- Names without links lead where they say, and nothing is remembered. -/
theorem stepsWith_of_straight
    {descend : Seen → Place → List String → Except PathError (Outcome × Seen)} {seen : Seen}
    {passed rest : List String} (hnames : ∀ name ∈ passed ++ rest, IsName name)
    (hnul : (Path.mk .root (passed ++ rest)).hasNul = false)
    (hl : ∀ before, before <+: passed ++ rest → ¬ t.IsLink before) :
    stepsWith t cwd descend seen ⟨true, 0, passed⟩ rest =
      .ok (.reached ⟨true, 0, passed ++ rest⟩, seen) := by
  induction rest generalizing passed with
  | nil =>
    rw [List.append_nil]
    rfl
  | cons piece rest ih =>
    have hsplit : passed ++ piece :: rest = passed ++ [piece] ++ rest := by simp
    have hpiece : IsName piece := hnames piece (by simp)
    have hpath : (Place.child ⟨true, 0, passed⟩ piece).toPath = ⟨.root, passed ++ [piece]⟩ := rfl
    rw [hsplit] at hnames hnul hl ⊢
    have hpieceNul : (Path.mk .root (passed ++ [piece])).hasNul = false := by
      unfold Path.hasNul at hnul ⊢
      rw [List.any_append, Bool.or_eq_false_iff] at hnul
      exact hnul.1
    have hpieceLink : t.linkTarget? cwd ⟨.root, passed ++ [piece]⟩ = none :=
      FileTree.linkTarget_of_straight
        (fun name hn => hnames name (List.mem_append_left _ hn))
        fun before hb => hl before (hb.trans (List.prefix_append _ _))
    rw [stepsWith_name hpiece (hpath ▸ hpieceNul), hpath, hpieceLink]
    exact ih hnames hnul hl

/-- A path from the root without links resolves to itself, where the system reaches it. -/
theorem resolve_of_straight {names : List String} (hnames : ∀ name ∈ names, IsName name)
    (hnul : (Path.mk .root names).hasNul = false)
    (hl : ∀ before, before <+: names → ¬ t.IsLink before) {n : Option Node}
    (hstatus : t.status cwd ⟨.root, names⟩ = .ok n) :
    (Path.mk .root names).resolve t cwd = .ok ⟨.root, names⟩ := by
  have hsteps : steps t cwd maxDepth [] .root names = .ok (.reached ⟨true, 0, names⟩, []) :=
    @stepsWith_of_straight t cwd _ _ [] names hnames hnul hl
  have hpath : Path.absolute cwd (Place.toPath ⟨true, 0, names⟩) = ⟨.root, names⟩ := by
    show Path.mk .root (Path.foldUps [] names) = _
    rw [Path.foldUps_of_names hnames, List.nil_append]
  unfold Path.resolve
  simp only [show (Path.mk .root names).isAbsolute = true from rfl, if_true, hsteps, bind,
    Except.bind, Outcome.path, hpath, hnul, hstatus]
  rfl

end LinkResolution

end GrammarLoader
