import GrammarLoader.Proofs.LinkResolution.Canonical
import GrammarLoader.Proofs.Loader.Attempt
import GrammarLoader.Proofs.Search.Order

/-!
# Pinning the library

The path that is found for a library that the settings name can take its place in the settings.
Where no link leads back to itself it goes through no link, it is spelled in full from the root, and
it is found again wherever the process works and whatever homes there are. Resolution takes what it
cannot look at for no link, though, and from above the working directory it may be blind.
-/

namespace GrammarLoader

namespace Path

/-- Homes bring in no slashes. -/
theorem slash_notMem_of_expandHome {homes : Homes} {text : String} {p : Path}
    (h : (ofString text).expandHome homes = .ok p) : ∀ name ∈ p.names, '/' ∉ name.toList := by
  intro name hn
  unfold expandHome at h
  split at h
  · rename_i first rest _ hnames
    split at h
    · split at h
      · cases h
      · split at h
        · cases h
        · cases h
          obtain hn | hn := List.mem_append.mp hn
          · exact slash_notMem_of_mem_ofString hn
          · exact slash_notMem_of_mem_ofString (hnames ▸ List.mem_cons_of_mem _ hn)
    · cases h
      exact slash_notMem_of_mem_ofString hn
  · cases h
    exact slash_notMem_of_mem_ofString hn

theorem expandHome_of_root (homes : Homes) (names : List String) :
    (Path.mk .root names).expandHome homes = .ok ⟨.root, names⟩ := rfl

end Path

/-- A text spells a regular file in full: from the root, by names only, and through no link. -/
structure FileTree.Spells (t : FileTree) (text : String) (names : List String) : Prop where
  text : text = "/" ++ "/".intercalate names
  proper : ∀ name ∈ names, IsName name ∧ '/' ∉ name.toList
  links : ∀ before, before <+: names → ¬ t.IsLink before
  file : t.node? names = some .file

theorem FileTree.Spells.eq_toString {t : FileTree} {text : String} {names : List String}
    (h : t.Spells text names) : text = Path.toString ⟨.root, names⟩ := h.text

theorem FileTree.Spells.ofString {t : FileTree} {text : String} {names : List String}
    (h : t.Spells text names) : Path.ofString text = ⟨.root, names⟩ := by
  rw [h.eq_toString, Path.ofString_toString_root h.proper]

namespace Loader

/-- The path of a library that is loaded at this moment is one that was searched for. -/
theorem locate_of_libraryPath {w : World} {p : Process} {path : String} (hl : p.loaded = none)
    (h : (libraryPath w p).answer = .ok path) : (Search.locate w p).answer = .ok path := by
  have hattempt := loadAnew_attempt w p
  cases ha : (loadAnew w p).answer with
  | error f =>
    have hload : (load w p).answer = .error f := by rw [load_of_error hl ha]
    have hpath : (libraryPath w p).answer = .error f := by
      unfold libraryPath
      rw [Action.bind_of_error hload]
    rw [hpath] at h
    cases h
  | ok l =>
    have hload : (load w p).answer = .ok l := by rw [load_of_ok hl ha]
    have hpath : (libraryPath w p).answer = .ok l.path := by
      unfold libraryPath
      rw [Action.bind_of_ok hload]
      rfl
    rw [hpath] at h
    cases h
    generalize loadAnew w p = outcome at ha hattempt
    cases hattempt with
    | loaded hlocate _ _ =>
      cases ha
      exact hlocate
    | _ => cases ha

end Loader

namespace Search

/-- The place that resolution comes to for a configured text, if it comes to one. -/
def configuredPlace? (w : World) (text : String) : Option Place :=
  match (Path.ofString text).expandHome w.homes with
  | .error _ => none
  | .ok p =>
    match LinkResolution.steps w.files w.directory LinkResolution.maxDepth []
        (if p.isAbsolute then Place.root else Place.here) p.names with
    | .ok (.reached place, _) => some place
    | _ => none

section Pinning

variable {w : World} {text : String}

/-- A configured text becomes the path of the place that resolution comes to. -/
theorem clear_of_configuredPath (ha : LinkResolution.Acyclic w.files w.directory) {p : Path}
    (h : configuredPath w text = .ok p) :
    ∃ place, configuredPlace? w text = some place ∧
      LinkResolution.IsClear w.files w.directory place ∧
      p = ⟨.root, place.base w.directory ++ place.names⟩ := by
  unfold configuredPath at h
  unfold configuredPlace?
  cases he : (Path.ofString text).expandHome w.homes with
  | error e =>
    rw [he] at h
    cases h
  | ok expanded =>
    rw [he] at h
    obtain ⟨place, seen, hsteps, hclear, rfl, -⟩ :=
      LinkResolution.clear_of_resolve ha (Path.slash_notMem_of_expandHome he) h
    exact ⟨place, by simp only [hsteps], hclear, rfl⟩

/-- What is found for a text is spelled in full, where resolution could look at what it came to. -/
theorem spells_of_isFile (hcwd : w.files.IsCanonical w.directory)
    (ha : LinkResolution.Acyclic w.files w.directory)
    (hv : ∀ place, configuredPlace? w text = some place → place.IsVisible w.files w.directory)
    {p : Path} (hp : configuredPath w text = .ok p) (hf : LeadsToFile w p) :
    ∃ names, p = ⟨.root, names⟩ ∧ w.files.Spells p.toString names := by
  obtain ⟨place, hplace, hclear, rfl⟩ := clear_of_configuredPath ha hp
  obtain ⟨-, hstatus⟩ := hf
  unfold FileTree.status at hstatus
  cases hthere : w.files.locate true w.directory
      ⟨.root, place.base w.directory ++ place.names⟩ with
  | error e =>
    rw [hthere] at hstatus
    cases hstatus
  | ok there =>
    rw [hthere] at hstatus
    obtain ⟨hend, hlinks⟩ := hclear.straight hcwd (hv place hplace) hthere
    have hbase := hcwd.of_prefix (place.base_prefix w.directory)
    refine ⟨place.base w.directory ++ place.names, rfl, rfl, ?_, hlinks, ?_⟩
    · intro name hn
      obtain hn | hn := List.mem_append.mp hn
      · exact hbase.names name hn
      · exact hclear.names name hn
    · rw [← hend]
      exact Except.ok.inj hstatus

/-- A text that spells a file in full is found as it is. -/
theorem locate_of_spells {names : List String} {w' : World} (hfiles : w'.files = w.files)
    (hs : w'.settings.library = .str text) (hspells : w.files.Spells text names)
    (hf : LeadsToFile w ⟨.root, names⟩) (q : Process) : (locate w' q).answer = .ok text := by
  have hfile : LeadsToFile w' ⟨.root, names⟩ := by
    unfold LeadsToFile at hf ⊢
    rw [hfiles]
    -- from the root, the working directory does not matter
    exact hf
  have hpath : configuredPath w' text = .ok ⟨.root, names⟩ := by
    unfold configuredPath
    rw [hspells.ofString, Path.expandHome_of_root]
    show (Path.mk .root names).resolve w'.files w'.directory = _
    obtain ⟨hnul, hstatus⟩ := hfile
    exact LinkResolution.resolve_of_straight (fun name hn => (hspells.proper name hn).1) hnul
      (hfiles ▸ hspells.links) hstatus
  have hn : text ≠ "" := by
    rw [hspells.text]
    simp
  rw [locate_of_named_file hs hn hpath (isFile_eq_true_iff.mpr hfile), hspells.eq_toString]

/-- What is found for a library that the settings name, or told by a process that had none loaded,
can be pinned.

No link is to lead back to itself, as far as links can be looked at; and if resolution ends above
the working directory, the system is to look at what it came to by those steps up. Then the path is
spelled in full from the root, through no link, it is that of a regular file, and with the path in
their place the settings find it again, from any working directory and with any homes. -/
theorem pinned_of_found {w : World} {q : Process} {text found : String}
    (hcwd : w.files.IsCanonical w.directory)
    (ha : LinkResolution.Acyclic w.files w.directory)
    (hs : w.settings.library = .str text) (hn : text ≠ "")
    (hv : ∀ place, configuredPlace? w text = some place → place.IsVisible w.files w.directory)
    (h : (locate w q).answer = .ok found ∨
      q.loaded = none ∧ (Loader.libraryPath w q).answer = .ok found) :
    (∃ names, w.files.Spells found names) ∧
      ∀ (w' : World) (q' : Process), w'.files = w.files → w'.settings.library = .str found →
        (locate w' q').answer = .ok found := by
  have hlocate : (locate w q).answer = .ok found :=
    h.elim id fun hpath => Loader.locate_of_libraryPath hpath.1 hpath.2
  rw [locate_named hs hn] at hlocate
  cases hp : configuredPath w text with
  | error e =>
    rw [hp] at hlocate
    cases hlocate
  | ok p =>
    rw [hp] at hlocate
    cases hf : isFile w p with
    | error a =>
      simp only [hf] at hlocate
      cases hlocate
    | ok file =>
      cases file with
      | false =>
        simp only [hf] at hlocate
        cases hlocate
      | true =>
        simp only [hf] at hlocate
        cases hlocate
        have hfile : LeadsToFile w p := isFile_eq_true_iff.mp hf
        obtain ⟨names, rfl, hspells⟩ := spells_of_isFile hcwd ha hv hp hfile
        exact ⟨⟨names, hspells⟩, fun w' q' hfiles hs' =>
          locate_of_spells hfiles hs' hspells hfile q'⟩

end Pinning

/-- The library stands behind two links, and is named from a directory beside it. -/
def chainedLinks : World :=
  { World.holding ⟨[(["lib"], .directory), (["lib", "kpl.so"], .file), (["next"], .link "lib"),
      (["cur"], .link "./next"), (["srv"], .directory), (["srv", "app"], .directory)]⟩ with
    settings := { library := .str "../../cur/kpl.so" }
    directory := ["srv", "app"] }

theorem pinned_of_found_chained :
    chainedLinks.files.IsCanonical chainedLinks.directory ∧
      LinkResolution.Acyclic chainedLinks.files chainedLinks.directory ∧
      (∀ place, configuredPlace? chainedLinks "../../cur/kpl.so" = some place →
        place.IsVisible chainedLinks.files chainedLinks.directory) ∧
      (locate chainedLinks {}).answer = .ok "/lib/kpl.so" ∧
      ∀ (w' : World) (q' : Process), w'.files = chainedLinks.files →
        w'.settings.library = .str "/lib/kpl.so" → (locate w' q').answer = .ok "/lib/kpl.so" := by
  have hcwd : chainedLinks.files.IsCanonical chainedLinks.directory := by decide +kernel
  have ha : LinkResolution.Acyclic chainedLinks.files chainedLinks.directory :=
    LinkResolution.acyclic_of_names
      (fun name => if name = "cur" then 2 else if name = "next" then 1 else 0) (by decide +kernel) _
  have hv : ∀ place, configuredPlace? chainedLinks "../../cur/kpl.so" = some place →
      place.IsVisible chainedLinks.files chainedLinks.directory := by
    have hplace : configuredPlace? chainedLinks "../../cur/kpl.so" =
        some ⟨false, 2, ["lib", "kpl.so"]⟩ := by decide +kernel
    intro place h
    rw [hplace] at h
    cases h
    decide +kernel
  have hfound : (locate chainedLinks {}).answer = .ok "/lib/kpl.so" := by
    have hp : configuredPath chainedLinks "../../cur/kpl.so" = .ok ⟨.root, ["lib", "kpl.so"]⟩ := by
      decide +kernel
    rw [locate_of_named_file rfl (by decide) hp (by decide +kernel)]
    exact congrArg Except.ok (by decide +kernel)
  exact ⟨hcwd, ha, hv, hfound, (pinned_of_found hcwd ha rfl (by decide) hv (.inl hfound)).2⟩

/-- The process works below a directory in which nothing may be looked up any more, and a link
beside that directory is named by steps up. -/
def blindSteps : World :=
  { World.holding ⟨[(["a"], .locked), (["a", "b"], .directory), (["f"], .link "g"),
      (["g"], .file)]⟩ with
    settings := { library := .str "../../f" }
    directory := ["a", "b"] }

/-- That no link leads back to itself is not enough: what is found may go through a link. -/
theorem found_through_link : ¬ ∀ (w : World) (q : Process) (text found : String),
    w.files.IsCanonical w.directory → (∀ cwd, LinkResolution.Acyclic w.files cwd) →
      w.settings.library = .str text → text ≠ "" → (locate w q).answer = .ok found →
      ∃ names, w.files.Spells found names := by
  intro hclaim
  have hcwd : blindSteps.files.IsCanonical blindSteps.directory := by decide +kernel
  have ha := LinkResolution.acyclic_of_names (t := blindSteps.files)
    (fun name => if name = "f" then 1 else 0) (by decide +kernel)
  have hfound : (locate blindSteps {}).answer = .ok "/f" := by
    have hp : configuredPath blindSteps "../../f" = .ok ⟨.root, ["f"]⟩ := by decide +kernel
    rw [locate_of_named_file rfl (by decide) hp (by decide +kernel)]
    exact congrArg Except.ok (by decide +kernel)
  obtain ⟨names, hspells⟩ := hclaim blindSteps {} "../../f" "/f" hcwd ha rfl (by decide) hfound
  have hnames : (⟨.root, ["f"]⟩ : Path) = ⟨.root, names⟩ := by
    rw [← hspells.ofString]
    decide +kernel
  cases hnames
  exact hspells.links ["f"] List.prefix_rfl ⟨"g", by decide +kernel⟩

end Search

end GrammarLoader
