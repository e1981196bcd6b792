import GrammarLoader.Proofs.Contract
import GrammarLoader.Proofs.Loader.Memory
import GrammarLoader.Proofs.Loader.Tame
import GrammarLoader.Proofs.Search.Absolute

/-!
# What is opened has been found

Whatever is done in a session, the paths that are opened are those that the search finds at that
moment: absolute paths of regular files, or what the system's own search gives. The path of a
library that is loaded was found when it was loaded, however the world has changed since; and
whatever fault comes out, the places that the binding says it has tried are absolute paths too. Only
foreign code may say otherwise in errors of its own.
-/

namespace GrammarLoader

/-- An error that the library is nowhere lists where it has been looked for, unless it is passed on
from foreign code. -/
def Fault.Lists (foreign : Fault → Prop) (f : Fault) : Prop :=
  ∀ tried, .libraryNotFound tried ∈ f.chain →
    Search.Listed tried ∨ ∃ g, foreign g ∧ .libraryNotFound tried ∈ g.chain

namespace Fault

variable {foreign : Fault → Prop} {f : Fault} {failure : Failure}

theorem lists_of_foreign (h : foreign f) : f.Lists foreign :=
  fun _ ht => .inr ⟨f, h, ht⟩

theorem lists_of_listsNothing (h : failure.ListsNothing) : Lists foreign ↑failure := by
  intro tried ht
  rw [chain_failure, List.mem_singleton] at ht
  exact absurd ht.symm (h.ne tried)

theorem Lists.dueTo (h : f.Lists foreign) (hf : failure.ListsNothing) :
    (Fault.dueTo failure f).Lists foreign := by
  intro tried ht
  rw [chain_dueTo] at ht
  obtain ht | ht := List.mem_cons.mp ht
  · exact absurd ht.symm (hf.ne tried)
  · exact h tried ht

/-- A fault that lists places as it should, and whose text can be made unless foreign code keeps it
from that. -/
structure Tells (foreign : Fault → Prop) (f : Fault) : Prop where
  lists : f.Lists foreign
  silenced : ∀ g, f.text = .error g → foreign g

theorem tells_of_foreign (hsilenced : ∀ f g : Fault, foreign f → f.text = .error g → foreign g)
    (h : foreign f) : f.Tells foreign :=
  ⟨lists_of_foreign h, fun g => hsilenced f g h⟩

theorem tells_of_hasText (h : f.Lists foreign) (ht : f.HasText) : f.Tells foreign := by
  obtain ⟨s, hs⟩ := ht
  refine ⟨h, fun g hg => ?_⟩
  rw [hs] at hg
  cases hg

theorem tells_of_listsNothing (h : failure.ListsNothing) : Tells foreign ↑failure :=
  tells_of_hasText (lists_of_listsNothing h) h.hasText

theorem Tells.dueTo (h : f.Tells foreign) (hf : failure.ListsNothing) :
    (Fault.dueTo failure f).Tells foreign :=
  tells_of_hasText (h.lists.dueTo hf) hf.hasText

end Fault

theorem ForeignFault.tells {w : World} {p : Process} {o : Operation} {f : Fault}
    (h : ForeignFault w p o f) : f.Tells (ForeignFault w p o) :=
  Fault.tells_of_foreign (fun _ _ => .text) h

/-- A message that makes no event has a level or a template of its own to blame. -/
theorem Message.listsNothing_of_event? {m : Message} {f : Failure} (h : m.event? = .error f) :
    f.ListsNothing := by
  unfold event? at h
  cases hl : m.level? with
  | error g =>
    rw [hl] at h
    cases h
    unfold level? at hl
    split at hl
    · cases hl
    · split at hl <;> cases hl
      exact ⟨nofun, _, rfl⟩
  | ok level =>
    rw [hl] at h
    cases ht : Template.interpolate m.template m.values with
    | ok subject =>
      rw [ht] at h
      cases h
    | error e =>
      rw [ht] at h
      cases h
      exact ⟨nofun, _, rfl⟩

namespace Contract

/-- Opens what is found, holds on to libraries with paths that may be held, and tells of absolute
paths only. -/
def finds (w : World) (held : String → Prop) (foreign : Fault → Prop) : Contract where
  keeps p := ∀ l, p.loaded = some l →
    held l.path ∧ ∀ f : Fault, f.ComesFrom l.symbol.call → f.Tells foreign
  does effects := ∀ path ∈ openedPaths effects, Search.Found w path
  fails f := f.Tells foreign
  does_nil := by simp [openedPaths]
  does_append := by
    intro first second h h' path hp
    rw [openedPaths_append, List.mem_append] at hp
    exact hp.elim (h path) (h' path)

section Finding

variable {w : World} {held : String → Prop} {foreign : Fault → Prop}

theorem finds_log (e : Logging.Event) :
    (finds w held foreign).Binds w (fun _ => True) (Action.log e) := by
  intro p hp
  refine ⟨by rwa [Action.log_process], ?_, fun f hf => ?_, fun _ _ => trivial⟩
  · intro path hpath
    rw [Action.openedPaths_log] at hpath
    cases hpath
  · obtain ⟨type, rfl⟩ := Action.log_answer_eq_notAppendable e w p hf
    exact Fault.tells_of_listsNothing ⟨nofun, _, rfl⟩

theorem finds_serves (hsilenced : ∀ f g : Fault, foreign f → f.text = .error g → foreign g) :
    (finds w held foreign).Serves w (fun _ => True) where
  texts _ := trivial
  calls _ _ hp := by cases hp
  engages _ _ hp := by cases hp
  logs e _ _ := finds_log e
  wraps := ⟨Fault.tells_of_listsNothing ⟨nofun, _, rfl⟩,
    Fault.tells_of_listsNothing ⟨nofun, _, rfl⟩⟩
  silences _ g hf hg := Fault.tells_of_foreign hsilenced (hf.silenced g hg)
  rejects _ _ hf := hf.dueTo ⟨nofun, _, rfl⟩
  empties _ := Fault.tells_of_listsNothing ⟨nofun, _, rfl⟩

theorem finds_locate (hw : w.packageDirectory.isAbsolute) :
    (finds w held foreign).Binds w (Search.Found w) Search.locate := by
  refine binds_locate (fun effects h path hp => ?_)
    (fun p f hf => Fault.tells_of_hasText
      (fun tried ht => .inl (Search.listed_of_locate hw hf ht)) (Search.hasText_of_locate hf))
    fun p path hp => Search.found_of_locate hw hp
  rw [(views_of_isSearch h).1] at hp
  cases hp

theorem finds_configureLogging (level format : Value) :
    (finds w held foreign).Binds w (fun _ => True) (Action.configureLogging level format) := by
  intro p hp
  rw [Action.configureLogging_apply]
  cases hm : Logging.Setup.make w.settings level format with
  | ok setup => exact ⟨hp, does_nil _, nofun, fun _ _ => trivial⟩
  | error f =>
    refine ⟨hp, does_nil _, fun g hg => ?_, nofun⟩
    cases hg
    apply Fault.tells_of_listsNothing
    unfold Logging.Setup.make at hm
    split at hm
    · split at hm <;> cases hm
      exact ⟨nofun, _, rfl⟩
    · cases hm
      exact ⟨nofun, _, rfl⟩

theorem finds_message (m : Message) :
    (finds w held foreign).Binds w (fun _ => True) m.log := by
  intro p hp
  obtain h | ⟨f, hf, h⟩ | ⟨e, -, h⟩ := m.log_cases w p <;> rw [h]
  · exact ⟨hp, does_nil _, nofun, fun _ _ => trivial⟩
  · refine ⟨hp, does_nil _, fun g hg => ?_, nofun⟩
    cases hg
    exact Fault.tells_of_listsNothing (m.listsNothing_of_event? hf)
  · exact finds_log e p hp

section Loading

variable {q : Process} {o : Operation} (hw : w.packageDirectory.isAbsolute)
  (hheld : ∀ path, Search.Found w path → held path)
include hw hheld

theorem finds_load : (finds w held (ForeignFault w q o)).Binds w
    (fun l => held l.path ∧ (finds w held (ForeignFault w q o)).Trusts l) Loader.load := by
  have hloads : (finds w held (ForeignFault w q o)).Loads w (Search.Found w)
      (fun l => held l.path ∧ (finds w held (ForeignFault w q o)).Trusts l) :=
    { opens := fun path hpath _ hp => List.mem_singleton.mp hp ▸ hpath
      refuses := fun path f ho => by
        have hf : f.Tells (ForeignFault w q o) := by
          obtain rfl | ⟨library, hl, hr⟩ := World.opening_error_cases ho
          · exact Fault.tells_of_listsNothing ⟨nofun, _, rfl⟩
          · exact ForeignFault.tells (.refusal hl hr)
        unfold Loader.openingFault
        split
        · split
          · exact hf.dueTo ⟨nofun, _, rfl⟩
          · rename_i g hg
            exact (hf.silenced g hg).tells
        · exact hf
      lacks := fun path library f ho hf => by
        have habsence : Fault.Tells (ForeignFault w q o) ↑(library.absence Loader.symbolName) :=
          ForeignFault.tells (.absence (World.lookup_of_opening ho))
        unfold Loader.parserSymbol at hf
        split at hf
        · cases hf
        · cases hf
          exact habsence.dueTo ⟨nofun, _, rfl⟩
      announces := fun path => finds_log _
      remembers := fun p l hp hpath hprovides m hm => by
        cases hm
        obtain ⟨library, ho, -, hs⟩ := hprovides
        refine ⟨hheld l.path hpath, fun f hf => ?_⟩
        rw [hs] at hf
        exact ForeignFault.tells (.parser (World.lookup_of_opening ho) hf)
      remembered := fun p l hp hl => hp l hl }
  exact hloads.load (finds_locate hw)

/-- Every operation, also those of others, keeps to it. -/
theorem finds_operation : (finds w held (ForeignFault w q o)).Binds w (fun _ => True) o.run := by
  cases ho : o.isOwn with
  | true =>
    exact (finds_serves fun _ _ => .text).own ho (fun _ => trivial) (fun _ hf => hf.tells)
      ((finds_load hw hheld).weaken fun _ hl => hl.2)
      ((finds_locate hw).weaken fun _ _ => trivial)
      (fun f hf => Fault.tells_of_listsNothing (Search.listsNothing_of_candidates hf))
      (fun _ _ => nofun) (fun _ hp => hp) fun _ => finds_configureLogging
  | false =>
    cases o with
    | message m => exact (finds_message m).bind fun _ _ => binds_pure trivial
    | bindContext entries =>
      exact Binds.bind (binds_modify fun _ hp => hp) fun _ _ => binds_pure trivial
    | _ => cases ho

end Loading

end Finding

end Contract

namespace Operation

/-! ## What the answers of the search operations say -/

variable {w : World} {p : Process}

theorem candidates_of_texts {texts : List String}
    (h : (candidates.run w p).answer = .ok (.texts texts)) :
    ∃ paths, Search.candidates w = .ok paths ∧ texts = paths.map Path.toString := by
  change ((Action.ofFailure (Search.candidates w) >>= fun paths =>
    pure (Answer.texts (paths.map Path.toString))) w p).answer = _ at h
  rw [Action.bind_pure_apply] at h
  cases hc : Search.candidates w with
  | error f =>
    rw [hc] at h
    cases h
  | ok paths =>
    rw [hc] at h
    cases h
    exact ⟨paths, rfl, rfl⟩

theorem locate_of_text {path : String} (h : (locate.run w p).answer = .ok (.text path)) :
    (Search.locate w p).answer = .ok path := by
  rw [locate_run] at h
  cases hl : (Search.locate w p).answer with
  | error f =>
    rw [hl] at h
    cases h
  | ok found =>
    rw [hl] at h
    cases h
    rfl

theorem load_of_text {path : String} (h : (libraryPath.run w p).answer = .ok (.text path)) :
    ∃ l, (Loader.load w p).answer = .ok l ∧ path = l.path := by
  rw [libraryPath_run] at h
  cases hl : (Loader.load w p).answer with
  | error f =>
    rw [hl] at h
    cases h
  | ok l =>
    rw [hl] at h
    cases h
    exact ⟨l, rfl, rfl⟩

end Operation

namespace Session

open Search

variable {s : Session}

theorem packageDirectory_after (s : Session) (steps : List Step) :
    (s.after steps).world.packageDirectory = s.world.packageDirectory := by
  induction steps generalizing s with
  | nil => rfl
  | cons st rest ih => rw [after_cons, ih, (keeps_step s st).1]

theorem keeps_process {held : String → Prop} (hp : ∀ l, s.process.loaded = some l → held l.path)
    (o : Operation) :
    (Contract.finds s.world held (ForeignFault s.world s.process o)).keeps s.process :=
  fun l hl => ⟨hp l hl, fun _ hf => ForeignFault.tells (.loadedParser hl hf)⟩

/-- An operation opens only what is found at that moment, and what is loaded after it may be
held. -/
theorem allows_operation (hw : s.world.packageDirectory.isAbsolute) {held : String → Prop}
    (hheld : ∀ path, Found s.world path → held path)
    (hp : ∀ l, s.process.loaded = some l → held l.path) (o : Operation) :
    (Contract.finds s.world held (ForeignFault s.world s.process o)).Allows (fun _ => True)
      (o.run s.world s.process) :=
  Contract.finds_operation hw hheld s.process (keeps_process hp o)

/-- What is loaded after a run has been found in a world of the run. -/
theorem held_after {steps : List Step} (hw : s.world.packageDirectory.isAbsolute)
    {held : String → Prop}
    (hheld : ∀ done, done <+: steps → ∀ path, Found (s.after done).world path → held path)
    (hp : ∀ l, s.process.loaded = some l → held l.path) :
    ∀ l, (s.after steps).process.loaded = some l → held l.path := by
  induction steps generalizing s with
  | nil => exact hp
  | cons st rest ih =>
    have hfirst := hheld [] List.nil_prefix
    refine ih ?_ ?_ ?_
    · rw [(keeps_step s st).1]
      exact hw
    · intro done hdone
      exact hheld (st :: done) (List.cons_prefix_cons.mpr ⟨rfl, hdone⟩)
    · -- the first step loads what is found in the world that it is taken in, or keeps what there is
      cases st with
      | operation o =>
        intro l hl
        exact ((allows_operation hw hfirst hp o).process l hl).1
      | change c =>
        rw [step_change_process]
        exact hp

/-- Whatever has been done and whatever has changed: each path that an operation opens is found at
that moment, and is the absolute path of a regular file unless the system's own search gives it. So
is the path that the search comes to, and the path of the loaded library is one that was found
before or now; the candidates are absolute, and so is every place that an error of the binding
lists, the system's own search apart. -/
theorem opened_paths_found (w : World) (hw : w.packageDirectory.isAbsolute) (before : List Step)
    (o : Operation) :
    let s := (start w).after before
    let outcome := o.run s.world s.process
    (∀ path ∈ openedPaths outcome.effects, Found s.world path) ∧
    (o = .candidates → ∀ paths, outcome.answer = .ok (.texts paths) →
      ∀ path ∈ paths, Path.isRooted path) ∧
    (o = .locate → ∀ path, outcome.answer = .ok (.text path) → Found s.world path) ∧
    (o = .libraryPath → ∀ path, outcome.answer = .ok (.text path) →
      ∃ done, done <+: before ∧ Found ((start w).after done).world path) ∧
    ∀ f, outcome.answer = .error f → f.Lists (ForeignFault s.world s.process o) := by
  intro s outcome
  have hs : s.world.packageDirectory.isAbsolute := by
    rw [packageDirectory_after]
    exact hw
  -- the invariant of the run: a library that is loaded was found in some world on the way
  let held (path : String) : Prop := ∃ done, done <+: before ∧ Found ((start w).after done).world path
  have hheld : ∀ path, Found s.world path → held path := fun path h => ⟨before, List.prefix_rfl, h⟩
  have hloaded : ∀ l, s.process.loaded = some l → held l.path :=
    held_after hw (fun done hdone path h => ⟨done, hdone, h⟩) nofun
  obtain ⟨-, hopened, hfaults, -⟩ := allows_operation hs hheld hloaded o
  refine ⟨hopened, ?_, ?_, ?_, fun f hf => (hfaults f hf).lists⟩
  · rintro rfl texts ha path hpath
    obtain ⟨paths, hc, rfl⟩ := Operation.candidates_of_texts ha
    obtain ⟨p, hp, rfl⟩ := List.mem_map.mp hpath
    exact Path.isRooted_toString (isAbsolute_of_candidates hs hc p hp)
  · rintro rfl path ha
    exact found_of_locate hs (Operation.locate_of_text ha)
  · rintro rfl path ha
    obtain ⟨l, hl, rfl⟩ := Operation.load_of_text ha
    have hload := Contract.finds_load (q := s.process) (o := .libraryPath) hs hheld
    exact ((hload s.process (keeps_process hloaded _)).value l hl).1

/-- A library that is named from the working directory, behind a link: what is opened is the
file. -/
theorem opened_paths_found_behindLink :
    let w : World := { World.naming (.exporting [Loader.symbolName]) with
      settings := { library := .str "gone" }
      files := ⟨[(["kpl.so"], .file), (["opt"], .directory), (["opt", "link"], .link "../kpl.so")]⟩ }
    let before : List Step := [.operation .language, .change (.enterDirectory ["home"]),
      .change (.assign "TREE_SITTER_KPL_LIBRARY" (.str "./../opt//link"))]
    let s := (start w).after before
    let opened := openedPaths (Operation.language.run s.world s.process).effects
    w.packageDirectory.isAbsolute ∧ opened = ["/kpl.so"] ∧ ∀ path ∈ opened, Found s.world path := by
  intro w before s opened
  have hw : w.packageDirectory.isAbsolute := rfl
  obtain ⟨hopened, -⟩ := opened_paths_found w hw before .language
  exact ⟨hw, by decide +kernel, hopened⟩

end Session

end GrammarLoader
