import GrammarLoader.Proofs.Simulation

/-!
# What the search comes to

The search reads the world and leaves the process as it is. The places it looks at are passed over
one after the other until one of them is a file or cannot be checked; each outcome of the search is
told by the place where it ends, with what has been looked at until then.
-/

namespace GrammarLoader

namespace Search

/-- What a check of a path for a file comes to. -/
def isFile (w : World) (p : Path) : Except AccessError Bool := w.files.isFile w.directory p

/-- A path that leads to a regular file, links followed. -/
def LeadsToFile (w : World) (p : Path) : Prop :=
  p.hasNul = false ∧ w.files.status w.directory p = .ok (some .file)

/-- The check of a path says yes to regular files and to nothing else. -/
theorem isFile_eq_true_iff {w : World} {p : Path} : isFile w p = .ok true ↔ LeadsToFile w p := by
  unfold isFile FileTree.isFile LeadsToFile
  cases p.hasNul with
  | true => simp
  | false =>
    cases w.files.status w.directory p with
    | ok n => simp
    | error e =>
      simp only [Bool.false_eq_true, if_false]
      cases e.isAbsence <;> simp

/-- The fault of a path that cannot be checked. -/
def closed (a : AccessError) (p : Path) : Fault := ↑(Failure.path (.noAccess a p.toString))

/-- The effects of checking paths. -/
def checks (paths : List Path) : List Effect := paths.map fun p => .checked p.toString

section Checking

variable (w : World) (q : Process)

theorem check_apply (p : Path) :
    check p w q = ⟨(isFile w p).mapError (closed · p), q, checks [p]⟩ := by
  unfold check isFile
  rw [Action.perform_bind_apply, Action.world_bind_apply]
  cases w.files.isFile w.directory p <;> rfl

theorem check_of_ok {p : Path} {file : Bool} (h : isFile w p = .ok file) :
    check p w q = ⟨.ok file, q, checks [p]⟩ := by
  rw [check_apply, h]
  rfl

theorem check_of_error {p : Path} {a : AccessError} (h : isFile w p = .error a) :
    check p w q = ⟨.error (closed a p), q, checks [p]⟩ := by
  rw [check_apply, h]
  rfl

theorem firstFile_of_file {p : Path} (rest : List Path) (h : isFile w p = .ok true) :
    firstFile (p :: rest) w q = ⟨.ok (some p), q, checks [p]⟩ := by
  rw [firstFile, Action.bind_eq_of_ok (check_of_ok w q h)]
  simp

theorem firstFile_of_closed {p : Path} (rest : List Path) {a : AccessError}
    (h : isFile w p = .error a) :
    firstFile (p :: rest) w q = ⟨.error (closed a p), q, checks [p]⟩ := by
  rw [firstFile, Action.bind_eq_of_error (check_of_error w q h)]

/-- Paths without a file are passed over. -/
theorem firstFile_append {before : List Path} (rest : List Path)
    (h : ∀ p ∈ before, isFile w p = .ok false) :
    firstFile (before ++ rest) w q = ⟨(firstFile rest w q).answer, (firstFile rest w q).process,
      checks before ++ (firstFile rest w q).effects⟩ := by
  induction before with
  | nil => rfl
  | cons p before ih =>
    have hp := check_of_ok w q (h p List.mem_cons_self)
    rw [List.cons_append, firstFile, Action.bind_eq_of_ok hp]
    simp only [Bool.false_eq_true, if_false]
    rw [ih fun p' h' => h p' (List.mem_cons_of_mem _ h')]
    rfl

theorem firstFile_of_absent {paths : List Path} (h : ∀ p ∈ paths, isFile w p = .ok false) :
    firstFile paths w q = ⟨.ok none, q, checks paths⟩ := by
  have hall := firstFile_append w q [] h
  rw [List.append_nil] at hall
  rw [hall]
  simp [firstFile]

/-- Either all paths are passed over or there is a first one that is not. -/
theorem absent_or_first (paths : List Path) :
    (∀ p ∈ paths, isFile w p = .ok false) ∨ ∃ before p rest, paths = before ++ p :: rest ∧
      (∀ p' ∈ before, isFile w p' = .ok false) ∧
      (isFile w p = .ok true ∨ ∃ a, isFile w p = .error a) := by
  induction paths with
  | nil => exact .inl (by simp)
  | cons p paths ih =>
    cases hp : isFile w p with
    | error a => exact .inr ⟨[], p, paths, rfl, by simp, .inr ⟨a, hp⟩⟩
    | ok file =>
      cases file with
      | true => exact .inr ⟨[], p, paths, rfl, by simp, .inl hp⟩
      | false =>
        obtain hall | ⟨before, p', rest, rfl, hbefore, hp'⟩ := ih
        · exact .inl (List.forall_mem_cons.mpr ⟨hp, hall⟩)
        · exact .inr ⟨p :: before, p', rest, rfl, List.forall_mem_cons.mpr ⟨hp, hbefore⟩, hp'⟩

/-- The answer of the system's own search. -/
def systemFinds (w : World) : Option String :=
  (w.systemLibraries.lookup libraryName).filter (· != "")

theorem systemSearch_apply :
    systemSearch w q = ⟨.ok (systemFinds w), q, [.searched libraryName]⟩ := rfl

end Checking

/-- The outcomes of the search. -/
inductive Located (w : World) (q : Process) : Outcome String → Prop
  /-- The settings name what is no path. -/
  | noPath {f : Failure} (hn : w.settings.library.isTrue)
    (hv : valuePath w w.settings.library = .error f) : Located w q ⟨.error ↑f, q, []⟩
  | namedClosed {p : Path} {a : AccessError} (hn : w.settings.library.isTrue)
    (hv : valuePath w w.settings.library = .ok p) (ha : isFile w p = .error a) :
    Located w q ⟨.error (closed a p), q, checks [p]⟩
  | namedAbsent {p : Path} (hn : w.settings.library.isTrue)
    (hv : valuePath w w.settings.library = .ok p) (hp : isFile w p = .ok false) :
    Located w q ⟨.error ↑(Failure.libraryNotFound [p.toString]), q, checks [p]⟩
  | named {p : Path} (hn : w.settings.library.isTrue)
    (hv : valuePath w w.settings.library = .ok p) (hp : isFile w p = .ok true) :
    Located w q ⟨.ok p.toString, q, checks [p]⟩
  /-- The settings name no library, and the search path cannot be taken. -/
  | noList {f : Failure} (hn : w.settings.library.isTrue = false)
    (hc : candidates w = .error f) : Located w q ⟨.error ↑f, q, []⟩
  | listedClosed {before rest : List Path} {p : Path} {a : AccessError}
    (hn : w.settings.library.isTrue = false) (hc : candidates w = .ok (before ++ p :: rest))
    (hb : ∀ p' ∈ before, isFile w p' = .ok false) (ha : isFile w p = .error a) :
    Located w q ⟨.error (closed a p), q, checks (before ++ [p])⟩
  | listed {before rest : List Path} {p : Path}
    (hn : w.settings.library.isTrue = false) (hc : candidates w = .ok (before ++ p :: rest))
    (hb : ∀ p' ∈ before, isFile w p' = .ok false) (hp : isFile w p = .ok true) :
    Located w q ⟨.ok p.toString, q, checks (before ++ [p])⟩
  | system {paths : List Path} {found : String}
    (hn : w.settings.library.isTrue = false) (hc : candidates w = .ok paths)
    (hb : ∀ p ∈ paths, isFile w p = .ok false) (hs : systemFinds w = some found) :
    Located w q ⟨.ok found, q, checks paths ++ [.searched libraryName]⟩
  | absent {paths : List Path} (hn : w.settings.library.isTrue = false)
    (hc : candidates w = .ok paths) (hb : ∀ p ∈ paths, isFile w p = .ok false)
    (hs : systemFinds w = none) :
    Located w q ⟨.error ↑(Failure.libraryNotFound (paths.map Path.toString ++ [searchedText])), q,
      checks paths ++ [.searched libraryName]⟩

section Locating

variable (w : World) (q : Process)

theorem locate_of_named (hn : w.settings.library.isTrue) :
    locate w q = locateNamed w.settings.library w q := by
  unfold locate
  rw [Action.world_bind_apply]
  simp [hn]

theorem locate_of_not_named (hn : w.settings.library.isTrue = false) :
    locate w q = locateListed w q := by
  unfold locate
  rw [Action.world_bind_apply]
  simp [hn]

/-- The first thing a search does is to ask for paths. -/
theorem locateNamed_apply (library : Value) :
    locateNamed library w q = (Action.ofFailure (valuePath w library) >>= fun p =>
      check p >>= fun found => if found then pure p.toString
        else Action.fail (Failure.libraryNotFound [p.toString])) w q := by
  rfl

theorem locateNamed_located (hn : w.settings.library.isTrue) :
    Located w q (locateNamed w.settings.library w q) := by
  rw [locateNamed_apply]
  cases hv : valuePath w w.settings.library with
  | error f =>
    rw [Action.bind_eq_of_error (Action.ofFailure_of_error rfl)]
    exact .noPath hn hv
  | ok p =>
    rw [Action.bind_eq_of_ok (Action.ofFailure_of_ok rfl)]
    cases hp : isFile w p with
    | error a =>
      rw [Action.bind_eq_of_error (check_of_error w q hp)]
      exact .namedClosed hn hv hp
    | ok found =>
      rw [Action.bind_eq_of_ok (check_of_ok w q hp)]
      cases found with
      | true => exact .named hn hv hp
      | false => exact .namedAbsent hn hv hp

theorem locateListed_of_error {f : Failure} (hc : candidates w = .error f) :
    locateListed w q = ⟨.error ↑f, q, []⟩ := by
  unfold locateListed
  rw [Action.world_bind_apply, Action.bind_eq_of_error (Action.ofFailure_of_error hc)]

theorem locateListed_of_first {paths : List Path} (hc : candidates w = .ok paths) {p : Path}
    {effects : List Effect} (hf : firstFile paths w q = ⟨.ok (some p), q, effects⟩) :
    locateListed w q = ⟨.ok p.toString, q, effects⟩ := by
  unfold locateListed
  rw [Action.world_bind_apply, Action.bind_eq_of_ok (Action.ofFailure_of_ok hc),
    Action.bind_eq_of_ok hf]
  simp

theorem locateListed_of_closed {paths : List Path} (hc : candidates w = .ok paths) {f : Fault}
    {effects : List Effect} (hf : firstFile paths w q = ⟨.error f, q, effects⟩) :
    locateListed w q = ⟨.error f, q, effects⟩ := by
  unfold locateListed
  rw [Action.world_bind_apply, Action.bind_eq_of_ok (Action.ofFailure_of_ok hc),
    Action.bind_eq_of_error hf]
  rfl

theorem locateListed_of_absent {paths : List Path} (hc : candidates w = .ok paths)
    (hf : firstFile paths w q = ⟨.ok none, q, checks paths⟩) :
    locateListed w q = ⟨match systemFinds w with
      | some found => .ok found
      | none => .error ↑(Failure.libraryNotFound (paths.map Path.toString ++ [searchedText])), q,
      checks paths ++ [.searched libraryName]⟩ := by
  unfold locateListed
  rw [Action.world_bind_apply, Action.bind_eq_of_ok (Action.ofFailure_of_ok hc),
    Action.bind_eq_of_ok hf]
  dsimp only
  rw [Action.bind_eq_of_ok (systemSearch_apply w q)]
  cases systemFinds w <;> simp [Action.fail]

theorem locateListed_located (hn : w.settings.library.isTrue = false) :
    Located w q (locateListed w q) := by
  cases hc : candidates w with
  | error f =>
    rw [locateListed_of_error w q hc]
    exact .noList hn hc
  | ok paths =>
    obtain hb | ⟨before, p, rest, rfl, hb, hp | ⟨a, ha⟩⟩ := absent_or_first w paths
    · rw [locateListed_of_absent w q hc (firstFile_of_absent w q hb)]
      cases hs : systemFinds w with
      | some found => exact .system hn hc hb hs
      | none => exact .absent hn hc hb hs
    · have hf := firstFile_append w q (p :: rest) hb
      rw [firstFile_of_file w q rest hp] at hf
      rw [locateListed_of_first w q hc hf, checks, checks, ← List.map_append]
      exact .listed hn hc hb hp
    · have hf := firstFile_append w q (p :: rest) hb
      rw [firstFile_of_closed w q rest ha] at hf
      rw [locateListed_of_closed w q hc hf, checks, checks, ← List.map_append]
      exact .listedClosed hn hc hb ha

theorem locate_located : Located w q (locate w q) := by
  cases hn : w.settings.library.isTrue with
  | true =>
    rw [locate_of_named w q hn]
    exact locateNamed_located w q hn
  | false =>
    rw [locate_of_not_named w q hn]
    exact locateListed_located w q hn

end Locating

@[simp] theorem locate_process (w : World) (p : Process) : (locate w p).process = p := by
  have h := locate_located w p
  generalize locate w p = outcome at h ⊢
  cases h <;> rfl

theorem isSearch_of_mem_checks {paths : List Path} {e : Effect} (h : e ∈ checks paths) :
    e.isSearch := by
  obtain ⟨p, -, rfl⟩ := List.mem_map.mp h
  rfl

theorem isSearch_of_mem_locate {w : World} {p : Process} {e : Effect}
    (h : e ∈ (locate w p).effects) : e.isSearch := by
  have hl := locate_located w p
  generalize locate w p = outcome at h hl
  cases hl with
  | noPath | noList => cases h
  | namedClosed | namedAbsent | named | listedClosed | listed => exact isSearch_of_mem_checks h
  | system | absent =>
    obtain he | he := List.mem_append.mp h
    · exact isSearch_of_mem_checks he
    · rw [List.mem_singleton.mp he]
      rfl

end Search

/-- A search alone opens nothing, calls nothing, gives the engine nothing and logs nothing. -/
theorem views_of_isSearch {effects : List Effect} (h : ∀ e ∈ effects, e.isSearch) :
    openedPaths effects = [] ∧ calledSymbols effects = [] ∧ engagedObjects effects = [] ∧
      loggedEvents effects = [] := by
  have hnone : ∀ e ∈ effects, e.openedPath? = none ∧ e.calledSymbol? = none ∧
      e.engagedObject? = none ∧ e.loggedEvent? = none := by
    intro e he
    have hsearch := h e he
    cases e with
    | checked | searched => exact ⟨rfl, rfl, rfl, rfl⟩
    | opened | called | engaged | logged | kept | wrote => cases hsearch
  refine ⟨?_, ?_, ?_, ?_⟩ <;> apply List.filterMap_eq_nil_iff.mpr <;> intro e he
  · exact (hnone e he).1
  · exact (hnone e he).2.1
  · exact (hnone e he).2.2.1
  · exact (hnone e he).2.2.2

end GrammarLoader
