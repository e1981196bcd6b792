import GrammarLoader.Proofs.Logging.Obstacle

/-!
# Simulations

Two runs side by side, each in its own world: which states of the two processes belong together, and
what may happen beside each other on the way from such states to others. Actions are related if from
states that belong together they come to the same answer and pass on to states that belong together.
Whatever is built from related actions is related, so a fact about a whole operation comes down to
the few actions where its two sides differ. With the same action on both sides a simulation says
what the action keeps.
-/

namespace GrammarLoader

/-- Worlds in which the same is found and opened: they differ at most in what the settings say about
the log, in the engine and in the clock. -/
structure World.LoadsAs (w w' : World) : Prop where
  library : w.settings.library = w'.settings.library
  searchPath : w.settings.searchPath = w'.settings.searchPath
  packageDirectory : w.packageDirectory = w'.packageDirectory
  platform : w.platform = w'.platform
  directory : w.directory = w'.directory
  files : w.files = w'.files
  homes : w.homes = w'.homes
  systemLibraries : w.systemLibraries = w'.systemLibraries
  libraries : w.libraries = w'.libraries

namespace World.LoadsAs

variable {w w' : World}

theorem refl (w : World) : w.LoadsAs w := ⟨rfl, rfl, rfl, rfl, rfl, rfl, rfl, rfl, rfl⟩

theorem valuePath_eq (h : w.LoadsAs w') : Search.valuePath w = Search.valuePath w' := by
  have hpath : Search.configuredPath w = Search.configuredPath w' := by
    funext s
    simp only [Search.configuredPath, h.homes, h.files, h.directory]
  funext v
  cases v with
  | str s => exact congrArg (·.mapError Failure.path) (congrFun hpath s)
  | _ => rfl

theorem candidates_eq (h : w.LoadsAs w') : Search.candidates w = Search.candidates w' := by
  have hnames : Search.namesIn w = Search.namesIn w' := by
    funext directory
    simp only [Search.namesIn, h.platform]
  simp only [Search.candidates, Search.searchDirectories, h.searchPath, h.valuePath_eq,
    h.packageDirectory, hnames]

end World.LoadsAs

/-- A way to compare two runs. What happens on two ways in a row may happen on the whole way. -/
structure Simulation where
  left : World
  right : World
  /-- The states that belong together. -/
  together : Process → Process → Prop
  /-- The effects that may stand beside each other on the way from two states to two states. -/
  passes : (p q p' q' : Process) → List Effect → List Effect → Prop
  stay : ∀ {p q : Process}, together p q → passes p q p q [] []
  trans : ∀ {p q p' q' p'' q'' : Process} {a b c d : List Effect}, passes p q p' q' a b →
    passes p' q' p'' q'' c d → passes p q p'' q'' (a ++ c) (b ++ d)

namespace Simulation

/-- Two outcomes, from two states, that cannot be told apart. -/
structure Matches (S : Simulation) {α : Type} (p q : Process) (x y : Outcome α) : Prop where
  answer : x.answer = y.answer
  together : S.together x.process y.process
  passes : S.passes p q x.process y.process x.effects y.effects

/-- Two actions whose outcomes match from states that belong together. -/
def Relates (S : Simulation) {α : Type} (x y : Action α) : Prop :=
  ∀ p q, S.together p q → S.Matches p q (x S.left p) (y S.right q)

/-- An effect that may happen on both sides at once. -/
def Allows (S : Simulation) (e : Effect) : Prop :=
  ∀ p q, S.together p q → S.passes p q p q [e] [e]

variable {S : Simulation} {α β : Type}

theorem relates_ofExcept (r : Except Fault α) :
    S.Relates (Action.ofExcept r) (Action.ofExcept r) := by
  intro p q hp
  exact ⟨rfl, hp, S.stay hp⟩

theorem relates_pure (a : α) : S.Relates (pure a) (pure a) :=
  relates_ofExcept (.ok a)

theorem relates_fail (f : Fault) : S.Relates (Action.fail f : Action α) (Action.fail f) :=
  relates_ofExcept (.error f)

theorem relates_ofFailure (r : Except Failure α) :
    S.Relates (Action.ofFailure r) (Action.ofFailure r) :=
  relates_ofExcept _

theorem relates_perform {e : Effect} (h : S.Allows e) :
    S.Relates (Action.perform e) (Action.perform e) := by
  intro p q hp
  exact ⟨rfl, hp, h p q hp⟩

theorem relates_world (h : S.left = S.right) : S.Relates Action.world Action.world := by
  intro p q hp
  exact ⟨congrArg Except.ok h, hp, S.stay hp⟩

/-- What is done with the world may differ as the worlds do. -/
theorem relates_world_bind {f g : World → Action α} (h : S.Relates (f S.left) (g S.right)) :
    S.Relates (Action.world >>= f) (Action.world >>= g) := h

theorem relates_modify {f g : Process → Process}
    (h : ∀ p q, S.together p q → S.together (f p) (g q) ∧ S.passes p q (f p) (g q) [] []) :
    S.Relates (Action.modify f) (Action.modify g) := by
  intro p q hp
  obtain ⟨htogether, hpasses⟩ := h p q hp
  exact ⟨rfl, htogether, hpasses⟩

theorem Relates.bind {x y : Action α} {f g : α → Action β} (h : S.Relates x y)
    (hf : ∀ a, S.Relates (f a) (g a)) : S.Relates (x >>= f) (y >>= g) := by
  intro p q hp
  obtain ⟨ha, hq, he⟩ := h p q hp
  cases hx : (x S.left p).answer with
  | ok a =>
    -- both sides go on with the same value, from states that belong together
    rw [Action.bind_of_ok hx, Action.bind_of_ok (ha ▸ hx)]
    obtain ⟨hb, hr, hs⟩ := hf a _ _ hq
    exact ⟨hb, hr, S.trans he hs⟩
  | error f =>
    rw [Action.bind_of_error hx, Action.bind_of_error (ha ▸ hx)]
    exact ⟨rfl, hq, he⟩

theorem Relates.orRecover {x y : Action α} {f g : Fault → Action α} (h : S.Relates x y)
    (hf : ∀ fault, S.Relates (f fault) (g fault)) :
    S.Relates (x.orRecover f) (y.orRecover g) := by
  intro p q hp
  obtain ⟨ha, hq, he⟩ := h p q hp
  cases hx : (x S.left p).answer with
  | ok a =>
    rw [Action.orRecover_of_ok hx, Action.orRecover_of_ok (ha ▸ hx)]
    exact ⟨rfl, hq, he⟩
  | error fault =>
    -- the faults are the same, so one side answers them exactly if the other one does
    cases ho : fault.failure.isOrdinary with
    | true =>
      rw [Action.orRecover_of_ordinary hx ho, Action.orRecover_of_ordinary (ha ▸ hx) ho]
      obtain ⟨hb, hr, hs⟩ := hf fault _ _ hq
      exact ⟨hb, hr, S.trans he hs⟩
    | false =>
      rw [Action.orRecover_of_not_ordinary hx ho, Action.orRecover_of_not_ordinary (ha ▸ hx) ho]
      exact ⟨rfl, hq, he⟩

theorem Relates.mapFault {x y : Action α} (h : S.Relates x y) (f : Fault → Fault) :
    S.Relates (x.mapFault f) (y.mapFault f) := by
  intro p q hp
  obtain ⟨ha, hq, he⟩ := h p q hp
  exact ⟨congrArg (Except.mapError f) ha, hq, he⟩

section Itself

/-! ## Actions by themselves -/

/-- What may be done on the way from one process to another: nothing, and stretches in a row. -/
structure Accumulates (keeps : Process → Process → List Effect → Prop) : Prop where
  refl : ∀ p, keeps p p []
  trans : ∀ {p p' p'' : Process} {a b : List Effect}, keeps p p' a → keeps p' p'' b →
    keeps p p'' (a ++ b)

/-- The simulation that says of actions what they keep to: an invariant of the process, and what
they may do. -/
def itself (w : World) (invariant : Process → Prop)
    {keeps : Process → Process → List Effect → Prop} (h : Accumulates keeps) : Simulation where
  left := w
  right := w
  together := fun p q => p = q ∧ invariant p
  passes := fun p _ p' _ a b => a = b ∧ keeps p p' a
  stay := fun _ => ⟨rfl, h.refl _⟩
  trans := by
    intro p _ p' _ p'' _ a _ c _ h₁ h₂
    obtain ⟨rfl, hk₁⟩ := h₁
    obtain ⟨rfl, hk₂⟩ := h₂
    exact ⟨rfl, h.trans hk₁ hk₂⟩

variable {w : World} {invariant : Process → Prop} {keeps : Process → Process → List Effect → Prop}
  {hk : Accumulates keeps}

theorem relates_itself_iff {x : Action α} : (itself w invariant hk).Relates x x ↔
    ∀ p, invariant p → invariant (x w p).process ∧ keeps p (x w p).process (x w p).effects := by
  constructor
  · intro h p hp
    obtain ⟨-, htogether, hpasses⟩ := h p p ⟨rfl, hp⟩
    exact ⟨htogether.2, hpasses.2⟩
  · intro h p q hpq
    obtain ⟨rfl, hp⟩ := hpq
    obtain ⟨hinvariant, hkeeps⟩ := h p hp
    exact ⟨rfl, ⟨rfl, hinvariant⟩, rfl, hkeeps⟩

end Itself

section Searching

/-! ## The search -/

variable (hw : S.left.LoadsAs S.right) (hl : ∀ e : Effect, e.isSearch → S.Allows e)
include hw hl

theorem relates_check (path : Path) : S.Relates (Search.check path) (Search.check path) := by
  refine (relates_perform (hl _ rfl)).bind fun _ => relates_world_bind ?_
  rw [hw.files, hw.directory]
  exact relates_ofFailure _

theorem relates_firstFile (paths : List Path) :
    S.Relates (Search.firstFile paths) (Search.firstFile paths) := by
  induction paths with
  | nil => exact relates_pure none
  | cons path rest ih =>
    refine (relates_check hw hl path).bind fun found => ?_
    cases found with
    | true => exact relates_pure _
    | false => exact ih

theorem relates_systemSearch : S.Relates Search.systemSearch Search.systemSearch := by
  refine (relates_perform (hl _ rfl)).bind fun _ => relates_world_bind ?_
  rw [hw.systemLibraries]
  exact relates_pure _

theorem relates_locateNamed (library : Value) :
    S.Relates (Search.locateNamed library) (Search.locateNamed library) := by
  refine relates_world_bind ?_
  rw [hw.valuePath_eq]
  refine (relates_ofFailure _).bind fun path => ?_
  refine (relates_check hw hl path).bind fun found => ?_
  cases found with
  | true => exact relates_pure _
  | false => exact relates_fail _

theorem relates_locateListed : S.Relates Search.locateListed Search.locateListed := by
  refine relates_world_bind ?_
  rw [hw.candidates_eq]
  refine (relates_ofFailure _).bind fun paths => ?_
  refine (relates_firstFile hw hl paths).bind fun first => ?_
  cases first with
  | some path => exact relates_pure _
  | none =>
    refine (relates_systemSearch hw hl).bind fun found => ?_
    cases found with
    | some path => exact relates_pure _
    | none => exact relates_fail _

theorem relates_locate : S.Relates Search.locate Search.locate := by
  refine relates_world_bind ?_
  dsimp only
  rw [hw.library]
  split
  · exact relates_locateNamed hw hl _
  · exact relates_locateListed hw hl

end Searching

theorem relates_openLibrary (hw : S.left.LoadsAs S.right) {path : String}
    (ho : S.Allows (.opened path)) :
    S.Relates (Loader.openLibrary path) (Loader.openLibrary path) := by
  refine (relates_perform ho).bind fun _ => relates_world_bind ?_
  rw [hw.libraries]
  split
  · exact relates_fail _
  · split
    · exact relates_fail _
    · exact relates_pure _

/-- Loading anew is related to itself if the event of a library loaded is. -/
theorem relates_loadAnew (hw : S.left.LoadsAs S.right)
    (hl : ∀ e : Effect, e.isLookup → S.Allows e)
    (hlog : ∀ path, S.Relates (Action.log (Loader.loadedEvent path))
      (Action.log (Loader.loadedEvent path))) :
    S.Relates Loader.loadAnew Loader.loadAnew := by
  have hsearch : ∀ e : Effect, e.isSearch → S.Allows e := fun e he =>
    hl e (Effect.isLookup_of_isSearch he)
  refine (relates_locate hw hsearch).bind fun path => ?_
  refine ((relates_openLibrary hw (hl (.opened path) rfl)).mapFault _).bind fun _ => ?_
  exact (relates_ofExcept _).bind fun _ => (hlog path).bind fun _ => relates_pure _

end Simulation

end GrammarLoader
