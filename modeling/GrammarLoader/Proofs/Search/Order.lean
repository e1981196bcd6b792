import GrammarLoader.Proofs.Search.Breaking

/-!
# The order of the search

A library that the settings name is the only one looked at. If they name none, the candidates are
looked at in their order: the search ends at the first one that is a file or cannot be checked, and
after the last one the system is asked. All of it waits for the whole search path to become
directories, so an entry at its end, which nothing would be looked for in, can still break the
search off.
-/

namespace GrammarLoader

/-- A world with a tree of files, in which the settings say nothing. -/
def World.holding (files : FileTree) : World where
  packageDirectory := ⟨.root, ["pkg"]⟩
  files
  engine := Except.ok
  now := ⟨2024, 1, 1, 0, 0, 0, 0⟩

/-- The world with other texts in the search path. -/
def World.searching (w : World) (texts : List String) : World :=
  { w with settings := { w.settings with searchPath := .list (texts.map .str) } }

namespace Search

/-- Texts and the directories that they stand for. -/
def StandFor (w : World) : List String → List Path → Prop :=
  List.Forall₂ fun text directory => configuredPath w text = .ok directory

/-- The candidates in the package's own directory and in further ones. -/
def candidatesIn (w : World) (directories : List Path) : List Path :=
  (w.packageDirectory :: directories).flatMap (namesIn w)

variable {w : World} {q : Process}

/-! ## A library that the settings name -/

section Named

variable {text : String} (hs : w.settings.library = .str text) (hn : text ≠ "")
include hs hn

theorem locate_named_congr {w' : World} (hl : w'.settings.library = w.settings.library)
    (hh : w'.homes = w.homes) (hf : w'.files = w.files) (hd : w'.directory = w.directory) :
    locate w' q = locate w q := by
  have hpath : configuredPath w' text = configuredPath w text := by
    unfold configuredPath
    rw [hh, hf, hd]
  have hcheck : isFile w' = isFile w := by
    funext p
    unfold isFile
    rw [hf, hd]
  rw [locate_named (hl.trans hs) hn q, locate_named hs hn q, hpath, hcheck]

end Named

/-! ## A list of candidates -/

section Listed

variable {texts : List String} {directories : List Path}

theorem candidates_eq_ok_iff {paths : List Path}
    (hs : w.settings.searchPath = .list (texts.map .str)) :
    candidates w = .ok paths ↔
      ∃ directories, StandFor w texts directories ∧ paths = candidatesIn w directories := by
  have hdirectories : ∀ {directories}, searchDirectories w = .ok directories ↔
      StandFor w texts directories := by
    intro directories
    unfold searchDirectories
    rw [hs]
    show (texts.map Value.str).mapM (valuePath w) = _ ↔ _
    rw [List.mapM_map, mapM_eq_ok_iff]
    simp only [Function.comp_apply, valuePath_str_eq_ok, StandFor]
  simp only [← hdirectories]
  unfold candidates candidatesIn
  cases searchDirectories w with
  | error f => simp [bind, Except.bind]
  | ok directories => simp [bind, Except.bind, pure, Except.pure, eq_comm]

theorem length_candidatesIn (w : World) (directories : List Path) :
    (candidatesIn w directories).length = 3 * (directories.length + 1) := by
  have hthree : ∀ directory, (namesIn w directory).length = 3 := fun _ => rfl
  rw [candidatesIn, List.length_flatMap, List.map_congr_left fun d _ => hthree d, List.map_const',
    List.sum_replicate_nat, List.length_cons, Nat.mul_comm]

variable {paths : List Path} (hn : w.settings.library.isTrue = false)
  (hc : candidates w = .ok paths)
include hn hc

theorem locate_at {i : Nat} (hi : i < paths.length)
    (hb : ∀ p ∈ paths.take i, isFile w p = .ok false) :
    (isFile w paths[i] = .ok true →
      locate w q = ⟨.ok paths[i].toString, q, checks (paths.take (i + 1))⟩) ∧
    ∀ a, isFile w paths[i] = .error a →
      locate w q = ⟨.error (closed a paths[i]), q, checks (paths.take (i + 1))⟩ := by
  have hsplit : paths = paths.take i ++ paths[i] :: paths.drop (i + 1) := by
    rw [List.getElem_cons_drop, List.take_append_drop]
  rw [← List.take_append_getElem hi]
  exact locate_first hn (hc.trans (congrArg _ hsplit)) hb q

theorem locate_of_absent (hb : ∀ p ∈ paths, isFile w p = .ok false) :
    locate w q = ⟨match systemFinds w with
      | some found => .ok found
      | none => .error ↑(Failure.libraryNotFound (paths.map Path.toString ++ [searchedText])), q,
      checks paths ++ [.searched libraryName]⟩ := by
  have hlisted := locateListed_of_absent w q hc (firstFile_of_absent w q hb)
  rw [locate_of_not_named w q hn]
  exact hlisted

/-- The search ends at a candidate, or passes over all of them and asks the system. -/
theorem ends_or_asks (q : Process) :
    (∃ i, ∃ hi : i < paths.length, (∀ p ∈ paths.take i, isFile w p = .ok false) ∧
      (isFile w paths[i] = .ok true ∨ ∃ a, isFile w paths[i] = .error a) ∧
      (locate w q).effects = checks (paths.take (i + 1))) ∨
    (∀ p ∈ paths, isFile w p = .ok false) ∧
      (locate w q).effects = checks paths ++ [.searched libraryName] := by
  obtain hb | ⟨before, p, rest, hpaths, hb, hp⟩ := absent_or_first w paths
  · exact .inr ⟨hb, by rw [locate_of_absent hn hc hb]⟩
  · have hi : before.length < paths.length := by simp [hpaths]
    have htake : paths.take before.length = before := by rw [hpaths, List.take_left]
    have hget : paths[before.length] = p := by simp [hpaths]
    obtain ⟨hfile, hclosed⟩ := locate_at (q := q) hn hc hi (by rwa [htake])
    refine .inl ⟨before.length, hi, by rwa [htake], by rwa [hget], ?_⟩
    obtain hf | ⟨a, ha⟩ := hp
    · rw [hfile (hget ▸ hf)]
    · rw [hclosed a (hget ▸ ha)]

omit hn hc in
theorem searched_notMem_checks (name : String) (paths : List Path) :
    Effect.searched name ∉ checks paths := by
  intro h
  obtain ⟨p, -, hp⟩ := List.mem_map.mp h
  cases hp

/-- The checks that are made tell where the search ends. -/
theorem ends_of_effects {i : Nat} (hi : i < paths.length)
    (he : (locate w q).effects = checks (paths.take (i + 1))) :
    (∀ p ∈ paths.take i, isFile w p = .ok false) ∧
      (isFile w paths[i] = .ok true ∨ ∃ a, isFile w paths[i] = .error a) := by
  obtain ⟨k, hk, hb, hend, hk'⟩ | ⟨-, hasks⟩ := ends_or_asks hn hc q
  · have hlength := congrArg List.length (he.symm.trans hk')
    simp only [checks, List.length_map, List.length_take] at hlength
    obtain rfl : i = k := by omega
    exact ⟨hb, hend⟩
  · have hmem : Effect.searched libraryName ∈ (locate w q).effects := hasks ▸ by simp
    exact absurd (he ▸ hmem) (searched_notMem_checks _ _)

theorem locate_eq_file_iff {i : Nat} (hi : i < paths.length) :
    locate w q = ⟨.ok paths[i].toString, q, checks (paths.take (i + 1))⟩ ↔
      LeadsToFile w paths[i] ∧ ∀ p ∈ paths.take i, isFile w p = .ok false := by
  rw [← isFile_eq_true_iff]
  constructor
  · intro h
    obtain ⟨hb, hf | ⟨a, ha⟩⟩ := ends_of_effects hn hc hi (congrArg Outcome.effects h)
    · exact ⟨hf, hb⟩
    · rw [(locate_at hn hc hi hb).2 a ha] at h
      cases congrArg Outcome.answer h
  · intro h
    exact (locate_at hn hc hi h.2).1 h.1

theorem locate_eq_closed_iff {i : Nat} (hi : i < paths.length) (a : AccessError) :
    locate w q = ⟨.error (closed a paths[i]), q, checks (paths.take (i + 1))⟩ ↔
      isFile w paths[i] = .error a ∧ ∀ p ∈ paths.take i, isFile w p = .ok false := by
  constructor
  · intro h
    obtain ⟨hb, hf | ⟨a', ha⟩⟩ := ends_of_effects hn hc hi (congrArg Outcome.effects h)
    · rw [(locate_at hn hc hi hb).1 hf] at h
      cases congrArg Outcome.answer h
    · rw [(locate_at hn hc hi hb).2 a' ha] at h
      cases congrArg Outcome.answer h
      exact ⟨ha, hb⟩
  · intro h
    exact (locate_at hn hc hi h.2).2 a h.1

theorem locate_eq_system_iff :
    locate w q = ⟨match systemFinds w with
      | some found => .ok found
      | none => .error ↑(Failure.libraryNotFound (paths.map Path.toString ++ [searchedText])), q,
      checks paths ++ [.searched libraryName]⟩ ↔ ∀ p ∈ paths, isFile w p = .ok false := by
  constructor
  · intro h
    obtain ⟨i, hi, -, -, he⟩ | ⟨hb, -⟩ := ends_or_asks hn hc q
    · have hmem : Effect.searched libraryName ∈ (locate w q).effects := by simp [h]
      exact absurd (he ▸ hmem) (searched_notMem_checks _ _)
    · exact hb
  · exact locate_of_absent hn hc

/-- What the search comes to, if it comes to a path. -/
theorem locate_ok_iff {path : String} : (locate w q).answer = .ok path ↔
    (∃ i, ∃ hi : i < paths.length, LeadsToFile w paths[i] ∧
      (∀ p ∈ paths.take i, isFile w p = .ok false) ∧ path = paths[i].toString) ∨
    (∀ p ∈ paths, isFile w p = .ok false) ∧ systemFinds w = some path := by
  constructor
  · intro h
    obtain ⟨i, hi, hb, hf | ⟨a, ha⟩, -⟩ | ⟨hb, -⟩ := ends_or_asks hn hc q
    · rw [(locate_at hn hc hi hb).1 hf] at h
      cases h
      exact .inl ⟨i, hi, isFile_eq_true_iff.mp hf, hb, rfl⟩
    · rw [(locate_at hn hc hi hb).2 a ha] at h
      cases h
    · rw [locate_of_absent hn hc hb] at h
      cases hs : systemFinds w with
      | none =>
        rw [hs] at h
        cases h
      | some found =>
        rw [hs] at h
        cases h
        exact .inr ⟨hb, rfl⟩
  · rintro (⟨i, hi, hf, hb, rfl⟩ | ⟨hb, hs⟩)
    · rw [(locate_at hn hc hi hb).1 (isFile_eq_true_iff.mpr hf)]
    · rw [locate_of_absent hn hc hb, hs]

end Listed

/-- The search path has to become directories before anything is looked at. -/
theorem locate_of_unresolved (hn : w.settings.library.isTrue = false) {before after : List String}
    {text : String} (hs : w.settings.searchPath = .list ((before ++ text :: after).map .str))
    (hb : ∀ text' ∈ before, ∃ p, configuredPath w text' = .ok p) {e : PathError}
    (he : configuredPath w text = .error e) :
    locate w q = ⟨.error ↑(Failure.path e), q, []⟩ := by
  have hc := (candidates_eq_error_iff hs).mpr ⟨before, text, after, e, rfl, hb, he, rfl⟩
  rw [locate_of_not_named w q hn, locateListed_of_error w q hc]

theorem standFor_exists {texts : List String} :
    (∃ directories, StandFor w texts directories) ↔
      ∀ text ∈ texts, ∃ p, configuredPath w text = .ok p := by
  constructor
  · rintro ⟨directories, hd⟩
    induction hd with
    | nil => simp
    | cons hp _ ih => exact List.forall_mem_cons.mpr ⟨⟨_, hp⟩, ih⟩
  · intro h
    induction texts with
    | nil => exact ⟨[], .nil⟩
    | cons text texts ih =>
      obtain ⟨⟨p, hp⟩, hrest⟩ := List.forall_mem_cons.mp h
      obtain ⟨directories, hd⟩ := ih hrest
      exact ⟨p :: directories, .cons hp hd⟩

/-- The search for a library, whatever is around it. One that the settings name is the only one
looked at, and nothing but its text, the homes, the files and the working directory matters. If they
name none, the candidates are three for each directory, the package's own first: the search comes to
the first one that is a file if none before it is one or cannot be checked, it ends at one that
cannot be checked, and it asks the system if there is nothing at any of them. A text of the search
path that does not become a directory ends it before anything is looked at. -/
theorem locate_in_order (w : World) (q : Process) :
    (∀ text, w.settings.library = .str text → text ≠ "" →
      (∀ w' : World, w'.settings.library = w.settings.library → w'.homes = w.homes →
        w'.files = w.files → w'.directory = w.directory → locate w' q = locate w q) ∧
      (∀ name, Effect.searched name ∉ (locate w q).effects) ∧
      ∀ p, configuredPath w text = .ok p →
        ((locate w q).answer = .ok p.toString ↔ LeadsToFile w p) ∧
        ((locate w q).answer = .error ↑(Failure.libraryNotFound [p.toString]) ↔
          isFile w p = .ok false) ∧
        ∀ a, (locate w q).answer = .error (closed a p) ↔ isFile w p = .error a) ∧
    (w.settings.library.isTrue = false →
      ∀ texts, w.settings.searchPath = .list (texts.map .str) →
      (∀ directories, StandFor w texts directories →
        let suffix := librarySuffix w.platform
        let C := (w.packageDirectory :: directories).flatMap fun directory =>
          [directory.child ("kpl" ++ suffix), directory.child ("libtree-sitter-kpl" ++ suffix),
            directory.child ("tree-sitter-kpl" ++ suffix)]
        candidates w = .ok C ∧ C.length = 3 * (texts.length + 1) ∧
        (∀ i (hi : i < C.length),
          locate w q = ⟨.ok C[i].toString, q, checks (C.take (i + 1))⟩ ↔
            LeadsToFile w C[i] ∧ ∀ p ∈ C.take i, isFile w p = .ok false) ∧
        (∀ i (hi : i < C.length) a,
          locate w q = ⟨.error (closed a C[i]), q, checks (C.take (i + 1))⟩ ↔
            isFile w C[i] = .error a ∧ ∀ p ∈ C.take i, isFile w p = .ok false) ∧
        (locate w q = ⟨match (w.systemLibraries.lookup "tree-sitter-kpl").filter (· != "") with
            | some found => .ok found
            | none => .error ↑(Failure.libraryNotFound
                (C.map Path.toString ++ ["find_library('tree-sitter-kpl')"])), q,
            checks C ++ [.searched "tree-sitter-kpl"]⟩ ↔ ∀ p ∈ C, isFile w p = .ok false) ∧
        ∀ path, (locate w q).answer = .ok path ↔
          (∃ i, ∃ hi : i < C.length, LeadsToFile w C[i] ∧
            (∀ p ∈ C.take i, isFile w p = .ok false) ∧ path = C[i].toString) ∨
          (∀ p ∈ C, isFile w p = .ok false) ∧
            (w.systemLibraries.lookup "tree-sitter-kpl").filter (· != "") = some path) ∧
      ∀ before text after e, texts = before ++ text :: after →
        (∀ text' ∈ before, ∃ p, configuredPath w text' = .ok p) →
        configuredPath w text = .error e → locate w q = ⟨.error ↑(Failure.path e), q, []⟩) := by
  constructor
  · intro text hs hn
    have hnamed := locate_named hs hn q
    refine ⟨fun w' => locate_named_congr hs hn, fun name h => ?_, fun p hp => ?_⟩
    · rw [hnamed] at h
      split at h
      · cases h
      · split at h <;> exact searched_notMem_checks _ _ h
    · rw [hp] at hnamed
      dsimp only at hnamed
      rw [hnamed, ← isFile_eq_true_iff]
      cases hf : isFile w p with
      | error a => simp [closed]
      | ok found => cases found <;> simp [closed]
  · intro hn texts hs
    refine ⟨fun directories hd => ?_, ?_⟩
    · intro suffix C
      have hc : candidates w = .ok C := (candidates_eq_ok_iff hs).mpr ⟨directories, hd, rfl⟩
      have hlength : C.length = 3 * (texts.length + 1) := by
        rw [hd.length_eq]
        exact length_candidatesIn w directories
      exact ⟨hc, hlength, fun i hi => locate_eq_file_iff hn hc hi,
        fun i hi => locate_eq_closed_iff hn hc hi, locate_eq_system_iff hn hc,
        fun path => locate_ok_iff hn hc⟩
    · rintro before text after e rfl hb he
      exact locate_of_unresolved hn hs hb he

/-- A directory behind a link, after the package's own and one that is missing; and a file that is
named beside them. -/
theorem locate_in_order_behindLink :
    let files : FileTree := ⟨[(["opt"], .directory), (["opt", "parsers"], .link "../srv"),
      (["srv"], .directory), (["srv", "libtree-sitter-kpl.dylib"], .file)]⟩
    let w : World := { (World.holding files).searching ["gone", "/opt//parsers"] with
      platform := "darwin" }
    let named : World := { w with settings := { library := .str "/opt/parsers/kpl.dylib" } }
    w.settings.library.isTrue = false ∧
    StandFor w ["gone", "/opt//parsers"] [⟨.root, ["gone"]⟩, ⟨.root, ["srv"]⟩] ∧
    (locate w {}).answer = .ok "/srv/libtree-sitter-kpl.dylib" ∧ (locate w {}).effects.length = 8 ∧
    (locate named {}).answer = .error ↑(Failure.libraryNotFound ["/srv/kpl.dylib"]) := by
  intro files w named
  have hd : StandFor w ["gone", "/opt//parsers"] [⟨.root, ["gone"]⟩, ⟨.root, ["srv"]⟩] :=
    .cons (by decide +kernel) (.cons (by decide +kernel) .nil)
  obtain ⟨-, -, hfile, -⟩ := ((locate_in_order w {}).2 rfl ["gone", "/opt//parsers"] rfl).1 _ hd
  have hlocate := (hfile 7 (by decide)).mpr ⟨⟨by decide, by decide +kernel⟩, by decide +kernel⟩
  obtain ⟨-, -, hnamed⟩ := (locate_in_order named {}).1 _ rfl (by decide)
  obtain ⟨-, habsent, -⟩ := hnamed ⟨.root, ["srv", "kpl.dylib"]⟩ (by decide +kernel)
  refine ⟨rfl, hd, ?_, ?_, habsent.mpr (by decide +kernel)⟩
  · rw [hlocate]
    rfl
  · rw [hlocate]
    rfl

/-! ## Entries at the end of the search path -/

theorem candidatesIn_append (w : World) (directories more : List Path) :
    candidatesIn w (directories ++ more) =
      candidatesIn w directories ++ more.flatMap (namesIn w) := by
  rw [candidatesIn, ← List.cons_append, List.flatMap_append, candidatesIn]

/-- What is found among the candidates is found first among more of them. -/
theorem locate_searching_append {w : World} {q : Process} {entries more : List String}
    {path : String} (hn : w.settings.library.isTrue = false)
    (h : (locate (w.searching entries) q).answer = .ok path)
    (hcandidate : ∀ name, .searched name ∉ (locate (w.searching entries) q).effects)
    (hmore : ∀ text ∈ more, ∃ p, configuredPath w text = .ok p) :
    locate (w.searching (entries ++ more)) q = locate (w.searching entries) q := by
  have hl := locate_located (w.searching entries) q
  generalize hlocate : locate (w.searching entries) q = outcome at h hcandidate hl
  cases hl with
  | @listed before rest p hn' hc hb hp =>
    obtain ⟨directories, hd, hpaths⟩ := (candidates_eq_ok_iff rfl).mp hc
    obtain ⟨further, hf⟩ := standFor_exists.mpr hmore
    have hcandidates : candidates (w.searching (entries ++ more)) =
        .ok (before ++ p :: (rest ++ further.flatMap (namesIn w))) := by
      refine (candidates_eq_ok_iff rfl).mpr ⟨directories ++ further, List.rel_append hd hf, ?_⟩
      show _ = candidatesIn (w.searching entries) (directories ++ further)
      rw [candidatesIn_append, ← hpaths, List.append_assoc, List.cons_append]
      rfl
    exact (@locate_first (w.searching (entries ++ more)) hn _ _ _ hcandidates hb q).1 hp
  | system => exact absurd (by simp) (hcandidate libraryName)
  | named hn' | namedClosed hn' | namedAbsent hn' | noPath hn' =>
    exact absurd (hn'.symm.trans hn) nofun
  | noList | listedClosed | absent => cases h

theorem candidates_of_locate_ok (hn : w.settings.library.isTrue = false) {path : String}
    (h : (locate w q).answer = .ok path) : ∃ paths, candidates w = .ok paths := by
  cases hc : candidates w with
  | ok paths => exact ⟨paths, rfl⟩
  | error f =>
    rw [locate_of_not_named w q hn, locateListed_of_error w q hc] at h
    cases h

/-- A hit among the candidates stays one with more entries at the end of the search path exactly if
each of these becomes a path. Else the search breaks off with the first one that does not, before it
looks at anything. -/
theorem hit_undisturbed_iff (w : World) (q : Process) (hn : w.settings.library.isTrue = false)
    (entries : List String) (path : String)
    (h : (locate (w.searching entries) q).answer = .ok path)
    (hcandidate : ∀ name, .searched name ∉ (locate (w.searching entries) q).effects)
    (more : List String) :
    let alone := locate (w.searching entries) q
    let together := locate (w.searching (entries ++ more)) q
    (together.answer = .ok path ↔ ∀ text ∈ more, ∃ p, configuredPath w text = .ok p) ∧
    (together.answer = .ok path → together = alone) ∧
    ∀ fine text rest e, more = fine ++ text :: rest →
      (∀ text' ∈ fine, ∃ p, configuredPath w text' = .ok p) → configuredPath w text = .error e →
      together = ⟨.error ↑(Failure.path e), q, []⟩ := by
  intro alone together
  have hentries : ∀ text ∈ entries, ∃ p, configuredPath w text = .ok p := by
    obtain ⟨paths, hc⟩ := candidates_of_locate_ok (w := w.searching entries) hn h
    obtain ⟨directories, hd, -⟩ := (candidates_eq_ok_iff rfl).mp hc
    exact standFor_exists.mp ⟨directories, hd⟩
  have hbroken : ∀ fine text rest e, more = fine ++ text :: rest →
      (∀ text' ∈ fine, ∃ p, configuredPath w text' = .ok p) → configuredPath w text = .error e →
      together = ⟨.error ↑(Failure.path e), q, []⟩ := by
    rintro fine text rest e rfl hfine he
    have hbefore : ∀ text' ∈ entries ++ fine, ∃ p, configuredPath w text' = .ok p :=
      List.forall_mem_append.mpr ⟨hentries, hfine⟩
    have hs : (w.searching (entries ++ (fine ++ text :: rest))).settings.searchPath =
        .list ((entries ++ fine ++ text :: rest).map .str) := by
      rw [List.append_assoc]
      rfl
    exact locate_of_unresolved (w := w.searching _) hn hs hbefore he
  have hall : together.answer = .ok path → ∀ text ∈ more, ∃ p, configuredPath w text = .ok p := by
    intro ha
    cases hm : more.mapM (configuredPath w) with
    | ok further => exact standFor_exists.mp ⟨further, mapM_eq_ok_iff.mp hm⟩
    | error e =>
      -- the first text that does not become a path would have broken the search off
      obtain ⟨fine, text, rest, hmore, hfine, he⟩ := mapM_eq_error_iff.mp hm
      rw [hbroken fine text rest e hmore hfine he] at ha
      cases ha
  refine ⟨⟨hall, fun hmore => ?_⟩, fun ha => ?_, hbroken⟩
  · rw [← h]
    exact congrArg Outcome.answer (locate_searching_append hn h hcandidate hmore)
  · exact locate_searching_append hn h hcandidate (hall ha)

/-- A world with the library beside the package, and a closed directory. -/
def besidePackage : World :=
  .holding ⟨[(["pkg"], .directory), (["pkg", "kpl.so"], .file), (["closed"], .locked)]⟩

theorem locate_besidePackage : locate (besidePackage.searching []) {} =
    ⟨.ok "/pkg/kpl.so", {}, [.checked "/pkg/kpl.so"]⟩ := by
  have hpath : (Path.child ⟨.root, ["pkg"]⟩ ("kpl" ++ ".so")).toString = "/pkg/kpl.so" := by
    decide +kernel
  have hc : candidates (besidePackage.searching []) = .ok ([] ++ candidatesIn besidePackage []) :=
    rfl
  have hfirst := (@locate_first (besidePackage.searching []) rfl [] _ _ hc (by simp) {}).1
    (by decide +kernel)
  rw [hfirst, checks, List.nil_append, List.map_singleton]
  exact congrArg (fun path => (⟨.ok path, {}, [.checked path]⟩ : Outcome String)) hpath

theorem searched_notMem_besidePackage (name : String) :
    Effect.searched name ∉ (locate (besidePackage.searching []) {}).effects := by
  rw [locate_besidePackage]
  intro h
  cases List.mem_singleton.mp h

/-- A library beside the package, and entries that name a missing directory, one that is closed and
a user who is unknown. -/
theorem hit_undisturbed_iff_missing :
    let w := besidePackage
    w.settings.library.isTrue = false ∧ (locate (w.searching []) {}).answer = .ok "/pkg/kpl.so" ∧
      (locate (w.searching ["gone", "/closed/x"]) {}).answer = .ok "/pkg/kpl.so" ∧
      (locate (w.searching ["gone", "~nobody", "/closed/x"]) {}).answer =
        .error ↑(Failure.path .unknownHome) := by
  intro w
  have halone := congrArg Outcome.answer locate_besidePackage
  have hiff := hit_undisturbed_iff w {} rfl [] "/pkg/kpl.so" halone searched_notMem_besidePackage
  obtain ⟨⟨-, hundisturbed⟩, -⟩ := hiff ["gone", "/closed/x"]
  obtain ⟨-, -, hbroken⟩ := hiff ["gone", "~nobody", "/closed/x"]
  have hgone : configuredPath w "gone" = .ok ⟨.root, ["gone"]⟩ := by decide +kernel
  have hclosed : configuredPath w "/closed/x" = .ok ⟨.root, ["closed", "x"]⟩ := by decide +kernel
  have hunknown : configuredPath w "~nobody" = .error .unknownHome := by decide +kernel
  refine ⟨rfl, halone, hundisturbed (by simp [hgone, hclosed]), ?_⟩
  exact congrArg Outcome.answer
    (hbroken ["gone"] "~nobody" ["/closed/x"] .unknownHome rfl (by simp [hgone]) hunknown)

/-- An entry after a hit can disturb it: a home that is not known breaks the search off although the
library is beside the package. -/
theorem hit_disturbed : ¬ ∀ (w : World) (q : Process) (entries more : List String) (path : String),
    w.settings.library.isTrue = false → (locate (w.searching entries) q).answer = .ok path →
    (∀ name, .searched name ∉ (locate (w.searching entries) q).effects) →
    (locate (w.searching (entries ++ more)) q).answer = .ok path := by
  intro h
  have hfound := h besidePackage {} [] ["~nobody"] "/pkg/kpl.so" rfl
    (congrArg Outcome.answer locate_besidePackage) searched_notMem_besidePackage
  have hbroken : (locate (besidePackage.searching ["~nobody"]) {}).answer =
      .error ↑(Failure.path .unknownHome) := rfl
  rw [List.nil_append, hbroken] at hfound
  cases hfound

end Search

end GrammarLoader
