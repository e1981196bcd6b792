import GrammarLoader.Proofs.Loader.Tame
import GrammarLoader.Proofs.Search.Breaking
import Mathlib.Control.Monad.Basic

/-!
# Faults of the loader

The loader has two errors of its own: no library is found, or the library cannot be used. With valid
settings and tame libraries, other faults come out in three places and nowhere else: where the
search breaks off, and where the event of a load or that of a null descriptor cannot be written.
Once a library is loaded only the last of them is left.
-/

namespace GrammarLoader

/-- The loader's own errors. -/
def Failure.isLoaderError : Failure → Bool
  | libraryNotFound _ | libraryUnusable _ _ => true
  | _ => false

theorem Process.not_isLoaderError_of_obstacle {p : Process} {level : Logging.Level} {f : Failure}
    (h : p.obstacle level = some f) : f.isLoaderError = false := by
  obtain ⟨type, rfl⟩ := Process.obstacle_eq_notAppendable h
  rfl

namespace Loader

/-- The symbol gives nothing, so there is no grammar. -/
def GivesNull (symbol : Symbol) : Prop :=
  ∃ address, symbol.call = .ok address ∧ address.wrap = .ok .null

/-- Failures of a load that are not the loader's own. -/
inductive LoadBreaks (w : World) (p : Process) : Failure → Prop
  | searching {e : PathError} (hn : p.loaded = none) (he : Search.BreaksOff w e) :
    LoadBreaks w p (.path e)
  | announcing {l : Loaded} {f : Failure} (hn : p.loaded = none)
    (hl : (Search.locate w p).answer = .ok l.path) (hp : w.Provides l)
    (hf : p.obstacle .info = some f) : LoadBreaks w p f

/-- Failures of an operation on the library that are not the loader's own. -/
inductive Escapes (w : World) (p : Process) (o : Operation) : Failure → Prop
  | loading {f : Failure} (h : LoadBreaks w p f) : Escapes w p o f
  | describing {l : Loaded} {f : Failure} (ho : o = .language) (hl : (load w p).answer = .ok l)
    (hn : GivesNull l.symbol) (hf : p.obstacle .warning = some f) : Escapes w p o f

variable {w : World} {p : Process}

theorem LoadBreaks.not_isLoaderError {f : Failure} (h : LoadBreaks w p f) :
    f.isLoaderError = false := by
  cases h with
  | searching hn he => rfl
  | announcing hn hl hp hf => exact Process.not_isLoaderError_of_obstacle hf

theorem Escapes.not_isLoaderError {o : Operation} {f : Failure} (h : Escapes w p o f) :
    f.isLoaderError = false := by
  cases h with
  | loading h => exact h.not_isLoaderError
  | describing ho hl hn hf => exact Process.not_isLoaderError_of_obstacle hf

/-- A load fails with an error of the loader's own, or breaks. -/
theorem loadAnew_error_cases (hw : w.IsTame) (hv : w.settings.Valid) (hn : p.loaded = none)
    {f : Fault} (h : (loadAnew w p).answer = .error f) :
    f.failure.isLoaderError ∨ ∃ g : Failure, f = ↑g ∧ LoadBreaks w p g := by
  have hattempt := loadAnew_attempt w p
  generalize loadAnew w p = outcome at h hattempt
  cases hattempt with
  | notFound hl =>
    cases h
    obtain ⟨e, he, rfl⟩ | ⟨tried, rfl⟩ := Search.locate_error_cases hv hl
    · exact .inr ⟨_, rfl, .searching hn he⟩
    · exact .inl rfl
  | notOpened hl ho =>
    cases h
    left
    obtain ⟨hsystem, details, htext⟩ := hw.fault_of_opening ho
    rw [openingFault_of_text _ hsystem htext]
    rfl
  | noSymbol hl ho hs hf =>
    cases h
    left
    unfold parserSymbol at hf
    rw [hs] at hf
    cases hf
    rfl
  | notAnnounced hl hp ho =>
    cases h
    exact .inr ⟨_, rfl, .announcing hn hl hp ho⟩
  | loaded hl hp ho => cases h

theorem LoadBreaks.loadAnew_answer {g : Failure} (h : LoadBreaks w p g) :
    (loadAnew w p).answer = .error ↑g := by
  cases h with
  | searching hn he => rw [loadAnew_of_notFound (he.locate_answer p)]
  | announcing hn hl hp ho => rw [loadAnew_of_provides hl hp, ho]

theorem LoadBreaks.loaded_eq_none {g : Failure} (h : LoadBreaks w p g) : p.loaded = none := by
  cases h <;> assumption

theorem load_error_iff (hw : w.IsTame) (hv : w.settings.Valid) {f : Fault} :
    ((load w p).answer = .error f ∧ f.failure.isLoaderError = false) ↔
      ∃ g : Failure, f = ↑g ∧ LoadBreaks w p g := by
  constructor
  · rintro ⟨h, hf⟩
    cases hl : p.loaded with
    | some l =>
      rw [load_of_loaded hl] at h
      cases h
    | none =>
      cases ha : (loadAnew w p).answer with
      | ok l =>
        rw [load_of_ok hl ha] at h
        cases h
      | error fault =>
        rw [load_of_error hl ha] at h
        cases h
        obtain hloader | hbreaks := loadAnew_error_cases hw hv hl ha
        · rw [hloader] at hf
          cases hf
        · exact hbreaks
  · rintro ⟨g, rfl, h⟩
    rw [load_of_error h.loaded_eq_none h.loadAnew_answer]
    exact ⟨rfl, h.not_isLoaderError⟩

/-- Describing a tame library fails only if there is no grammar and this cannot be written. -/
theorem describe_error_iff {l : Loaded} (hc : GivesAddress l.symbol.call) {f : Fault} :
    (describe l w p).answer = .error f ↔
      ∃ g : Failure, f = ↑g ∧ GivesNull l.symbol ∧ p.obstacle .warning = some g := by
  obtain ⟨address, descriptor, hcall, hwrap⟩ := hc.wraps
  have hdescriptor : l.symbol.call >>= Object.wrap = .ok descriptor := by
    rw [hcall]
    exact hwrap
  rw [describe_of_ok hdescriptor]
  cases hnull : descriptor.isNull with
  | false =>
    constructor
    · intro h
      cases h
    · rintro ⟨g, rfl, ⟨address', hcall', hwrap'⟩, hg⟩
      rw [hcall] at hcall'
      cases hcall'
      rw [hwrap] at hwrap'
      cases hwrap'
      cases hnull
  | true =>
    have hgives : GivesNull l.symbol := by
      rw [Object.eq_null_of_isNull hnull] at hwrap
      exact ⟨address, hcall, hwrap⟩
    cases hg : p.obstacle .warning with
    | none => simp
    | some g =>
      simp only [if_true, Except.error.injEq, hgives, true_and]
      constructor
      · intro h
        exact ⟨g, h.symm, rfl⟩
      · rintro ⟨g', rfl, hg'⟩
        cases hg'
        rfl

/-- What a load comes to is tame, be it remembered or loaded anew. -/
theorem call_of_load (hw : w.IsTame) (hp : p.IsTame) {l : Loaded}
    (h : (load w p).answer = .ok l) : GivesAddress l.symbol.call := by
  have htame : (load w p).process.IsTame :=
    (Simulation.relates_itself_iff.mp (Simulation.tame_relates_load hw) p hp).1
  apply htame
  cases hl : p.loaded with
  | some m =>
    rw [load_of_loaded hl] at h ⊢
    cases h
    exact hl
  | none =>
    cases ha : (loadAnew w p).answer with
    | ok m =>
      rw [load_of_ok hl ha] at h ⊢
      cases h
      rfl
    | error fault =>
      rw [load_of_error hl ha] at h
      cases h

theorem libraryPath_error_iff (hw : w.IsTame) (hv : w.settings.Valid) {f : Fault} :
    ((Operation.libraryPath.run w p).answer = .error f ∧ f.failure.isLoaderError = false) ↔
      ∃ g : Failure, f = ↑g ∧ Escapes w p .libraryPath g := by
  have hanswer : (Operation.libraryPath.run w p).answer = .error f ↔
      (load w p).answer = .error f := by
    rw [Operation.libraryPath_run]
    cases (load w p).answer <;> simp [Except.map]
  rw [hanswer, load_error_iff hw hv]
  constructor
  · rintro ⟨g, rfl, h⟩
    exact ⟨g, rfl, .loading h⟩
  · rintro ⟨g, rfl, h⟩
    cases h with
    | loading h => exact ⟨g, rfl, h⟩
    | describing ho => cases ho

theorem language_error_iff (hw : w.IsTame) (hv : w.settings.Valid) (hp : p.IsTame) {f : Fault} :
    ((Operation.language.run w p).answer = .error f ∧ f.failure.isLoaderError = false) ↔
      ∃ g : Failure, f = ↑g ∧ Escapes w p .language g := by
  have hanswer : (Operation.language.run w p).answer = .error f ↔
      ((load >>= describe) w p).answer = .error f := by
    rw [Operation.language_run, show language = load >>= describe from rfl]
    cases ((load >>= describe) w p).answer <;> simp [Except.map]
  rw [hanswer]
  cases ha : (load w p).answer with
  | error fault =>
    have hload := load_error_iff (p := p) hw hv (f := f)
    rw [Action.bind_of_error ha]
    simp only [ha, Except.error.injEq] at hload ⊢
    rw [hload]
    constructor
    · rintro ⟨g, rfl, h⟩
      exact ⟨g, rfl, .loading h⟩
    · rintro ⟨g, rfl, h⟩
      cases h with
      | loading h => exact ⟨g, rfl, h⟩
      | describing ho hl =>
        rw [ha] at hl
        cases hl
  | ok l =>
    -- a load changes nothing of the log, so the obstacle to a null descriptor is that of before
    obtain ⟨loaded, hprocess⟩ := load_process w p
    have hobstacle : (load w p).process.obstacle .warning = p.obstacle .warning := by
      rw [hprocess]
      rfl
    rw [Action.bind_of_ok ha, describe_error_iff (call_of_load hw hp ha), hobstacle]
    constructor
    · rintro ⟨⟨g, rfl, hnull, hg⟩, -⟩
      exact ⟨g, rfl, .describing rfl ha hnull hg⟩
    · rintro ⟨g, rfl, h⟩
      have hloader := h.not_isLoaderError
      cases h with
      | loading h =>
        rw [load_of_error h.loaded_eq_none h.loadAnew_answer] at ha
        cases ha
      | describing ho hl hnull hg =>
        rw [ha] at hl
        cases hl
        exact ⟨⟨g, rfl, hnull, hg⟩, hloader⟩

end Loader

/-- From every state that is reached through worlds with tame libraries, with valid settings: what
the two operations on the library fail with beside the loader's own errors is exactly what escapes
it. So a library is there or one of the two errors comes out exactly where nothing escapes. -/
theorem Session.escapes_iff (w : World) (steps : List Step)
    (ht : ∀ done, done <+: steps → ((start w).after done).world.IsTame)
    (hv : ((start w).after steps).world.settings.Valid) :
    let s := (start w).after steps
    ∀ o : Operation, o = .language ∨ o = .libraryPath →
      (∀ f, ((o.run s.world s.process).answer = .error f ∧ f.failure.isLoaderError = false) ↔
        ∃ g : Failure, f = ↑g ∧ Loader.Escapes s.world s.process o g) ∧
      ((∀ f, (o.run s.world s.process).answer = .error f → f.failure.isLoaderError) ↔
        ∀ g, ¬ Loader.Escapes s.world s.process o g) := by
  intro s o ho
  have hw : s.world.IsTame := ht steps List.prefix_rfl
  have hp : s.process.IsTame := isTame_after ht nofun
  have hiff : ∀ f, ((o.run s.world s.process).answer = .error f ∧
      f.failure.isLoaderError = false) ↔
        ∃ g : Failure, f = ↑g ∧ Loader.Escapes s.world s.process o g := by
    intro f
    obtain rfl | rfl := ho
    · exact Loader.language_error_iff hw hv hp
    · exact Loader.libraryPath_error_iff hw hv
  refine ⟨hiff, ?_, ?_⟩
  · intro hloader g hg
    obtain ⟨ha, hf⟩ := (hiff ↑g).mpr ⟨g, rfl, hg⟩
    rw [hloader _ ha] at hf
    cases hf
  · intro hnone f ha
    cases hf : f.failure.isLoaderError with
    | true => rfl
    | false =>
      obtain ⟨g, -, hg⟩ := (hiff f).mp ⟨ha, hf⟩
      exact absurd hg (hnone g)

theorem World.isTame_of_libraries {w : World}
    (h : w.libraries = [("/kpl.so", .exporting [Loader.symbolName])]) : w.IsTame := by
  intro path library hl
  rw [h, List.lookup_cons] at hl
  split at hl
  · cases hl
    exact ⟨nofun, .address _⟩
  · cases hl

/-- The library is loaded before the settings name a place that may not be looked at. -/
theorem Session.escapes_iff_locked :
    let w : World := .naming (.exporting [Loader.symbolName])
    let steps : List Step := [.operation .language, .change (.putNode ["locked"] .locked),
      .change (.assign "TREE_SITTER_KPL_LIBRARY" (.str "/locked/kpl.so"))]
    let s := (start w).after steps
    s.process.loaded.isSome ∧ Search.BreaksOff s.world (.noAccess .denied "/locked/kpl.so") ∧
    ∀ f, (Operation.language.run s.world s.process).answer = .error f →
      f.failure.isLoaderError := by
  intro w steps s
  have hloaded : s.process.loaded.isSome := by decide +kernel
  have hcontext : s.process.context.isEmpty := by decide +kernel
  have hpath : Search.configuredPath s.world "/locked/kpl.so" = .ok ⟨.root, ["locked", "kpl.so"]⟩ := by
    decide +kernel
  have hclosed : Search.isFile s.world ⟨.root, ["locked", "kpl.so"]⟩ = .error .denied := by
    decide +kernel
  have ht : ∀ done, done <+: steps → ((start w).after done).world.IsTame := by
    intro done hdone
    simp only [steps, List.prefix_cons_iff, List.prefix_nil] at hdone
    obtain rfl | ⟨_, rfl, rfl | ⟨_, rfl, rfl | ⟨_, rfl, rfl⟩⟩⟩ := hdone <;>
      exact World.isTame_of_libraries rfl
  have hv : s.world.settings.Valid := by
    intro f
    cases f <;> rfl
  refine ⟨hloaded, .namedClosed rfl (by decide) hpath hclosed, ?_⟩
  refine (escapes_iff w steps ht hv .language (.inl rfl)).2.mpr ?_
  intro g hg
  cases hg with
  | loading h =>
    rw [h.loaded_eq_none] at hloaded
    cases hloaded
  | describing ho hl hn hf =>
    rw [Process.obstacle_of_context_nil (List.isEmpty_iff.mp hcontext)] at hf
    cases hf

/-- A directory that may not be looked into: its own error comes out of the loader. -/
theorem Session.denied_escapes : ¬ ∀ (w : World) (steps : List Step),
    (∀ done, done <+: steps → ((start w).after done).world.IsTame) →
    ((start w).after steps).world.settings.Valid →
      ∀ f, (Operation.libraryPath.run ((start w).after steps).world
        ((start w).after steps).process).answer = .error f → f.failure.isLoaderError := by
  intro h
  let w : World :=
    { World.naming (.exporting [Loader.symbolName]) with
      settings := { library := .str "/locked/kpl.so" }
      files := ⟨[(["locked"], .locked)]⟩ }
  have ht : ∀ done : List Step, done <+: [] → ((start w).after done).world.IsTame := by
    intro done hdone
    rw [List.prefix_nil.mp hdone]
    exact World.isTame_of_libraries rfl
  have hv : w.settings.Valid := by
    intro f
    cases f <;> rfl
  have hbreaks : Search.BreaksOff w (.noAccess .denied "/locked/kpl.so") := by
    have hpath : Search.configuredPath w "/locked/kpl.so" = .ok ⟨.root, ["locked", "kpl.so"]⟩ := by
      decide +kernel
    exact .namedClosed rfl (by decide) hpath (by decide +kernel)
  have hw : w.IsTame := World.isTame_of_libraries rfl
  have hescapes : Loader.Escapes w {} .libraryPath (.path (.noAccess .denied "/locked/kpl.so")) :=
    .loading (.searching rfl hbreaks)
  obtain ⟨ha, hf⟩ := (Loader.libraryPath_error_iff hw hv).mpr ⟨_, rfl, hescapes⟩
  rw [h w [] ht hv _ ha] at hf
  cases hf

end GrammarLoader
