import GrammarLoader.Proofs.Loader.Memory
import GrammarLoader.Proofs.Search.Breaking
import Mathlib.Control.Monad.Basic

/-!
# The stages of a call for a descriptor

A call for the grammar's descriptor searches the library, opens it, looks for the symbol, calls it
and wraps what it gives; each stage is entered if those before it have succeeded, and only then. A
call that fails before the symbol is found leaves the session as it was. One that fails later leaves
the library loaded, and loaded it stays until it is forgotten.
-/

namespace GrammarLoader

namespace Loader

/-- The effects of a descriptor that is made: an event if there is no grammar. -/
def nullNotice (path : String) (w : World) (p : Process) : Except Fault Object → List Effect
  | .ok descriptor =>
    if descriptor.isNull then (Action.log (nullEvent path) w p).effects else []
  | .error _ => []

/-- The events among them. -/
def nullEvents (path : String) : Except Fault Object → List Logging.Event
  | .ok descriptor => if descriptor.isNull then [nullEvent path] else []
  | .error _ => []

theorem loggedEvents_nullNotice (path : String) (w : World) (p : Process)
    (r : Except Fault Object) : loggedEvents (nullNotice path w p r) = nullEvents path r := by
  unfold nullNotice nullEvents
  cases r with
  | error f => rfl
  | ok descriptor =>
    dsimp only
    split
    · exact Action.loggedEvents_log _ w p
    · rfl

section Language

variable {w : World} {p : Process}

/-- Without an obstacle to the event a library comes to its descriptor. -/
theorem describe_apply (l : Loaded) (w : World) {p : Process} (hn : p.obstacle .warning = none) :
    describe l w p = ⟨l.symbol.call >>= Object.wrap, p,
      .called l.symbol :: nullNotice l.path w p (l.symbol.call >>= Object.wrap)⟩ := by
  cases h : l.symbol.call >>= Object.wrap with
  | error f => rw [describe_of_error h, nullNotice]
  | ok descriptor =>
    rw [describe_of_ok h, hn, nullNotice]
    split <;> rfl

theorem language_of_loadAnew_error {f : Fault} {effects : List Effect} (hp : p.loaded = none)
    (h : loadAnew w p = ⟨.error f, p, effects⟩) : language w p = ⟨.error f, p, effects⟩ := by
  have hload : load w p = ⟨.error f, p, effects⟩ := by
    rw [load_of_error hp (by rw [h]), h]
  show (load >>= describe) w p = _
  rw [Action.bind_eq_of_error hload]

/-- The library stays loaded whatever the call of its symbol comes to. -/
theorem language_of_provides {l : Loaded} (hp : p.loaded = none)
    (hl : (Search.locate w p).answer = .ok l.path) (hprovides : w.Provides l)
    (hn : p.obstacle .warning = none) :
    language w p = ⟨l.symbol.call >>= Object.wrap, { p with loaded := some l },
      (Search.locate w p).effects ++ .opened l.path ::
        (Action.log (loadedEvent l.path) w p).effects ++ .called l.symbol ::
        nullNotice l.path w { p with loaded := some l } (l.symbol.call >>= Object.wrap)⟩ := by
  have hinfo : p.obstacle .info = none := Process.obstacle_eq_none_of_le (by decide) hn
  have hanew := loadAnew_of_provides hl hprovides
  rw [hinfo] at hanew
  have hload : load w p = ⟨.ok l, { p with loaded := some l }, (loadAnew w p).effects⟩ :=
    load_of_ok hp (by rw [hanew])
  show (load >>= describe) w p = _
  rw [Action.bind_eq_of_ok hload, describe_apply l w (p := { p with loaded := some l }) hn, hanew]

end Language

end Loader

namespace Session

open Loader

variable {w : World} {p : Process}

theorem step_language {answer : Except Fault Object} {next : Process} {effects : List Effect}
    (h : language w p = ⟨answer, next, effects⟩) : (Session.mk w p).step (.operation .language) =
      (⟨w, next⟩, ⟨answer.map .object, effects, next.loaded.isSome⟩) := by
  have hrun : Operation.language.run w p = ⟨answer.map .object, next, effects⟩ := by
    rw [Operation.language_run, h]
  simp only [step, hrun]

/-- The stages at which a call can end before the symbol is called, and the one at which it is. -/
theorem stage_cases (w : World) (p : Process) :
    (∃ f, (Search.locate w p).answer = .error f) ∨
    (∃ path f, (Search.locate w p).answer = .ok path ∧ w.opening path = .error f) ∨
    (∃ path library, (Search.locate w p).answer = .ok path ∧ w.opening path = .ok library ∧
      symbolName ∉ library.exports) ∨
    ∃ l : Loaded, (Search.locate w p).answer = .ok l.path ∧ w.Provides l := by
  cases hl : (Search.locate w p).answer with
  | error f => exact .inl ⟨f, rfl⟩
  | ok path =>
    cases ho : w.opening path with
    | error f => exact .inr (.inl ⟨path, f, rfl, ho⟩)
    | ok library =>
      by_cases hs : symbolName ∈ library.exports
      · exact .inr (.inr (.inr
          ⟨⟨path, path, library.call⟩, rfl, library, ho, by simpa using hs, rfl⟩))
      · exact .inr (.inr (.inl ⟨path, library, rfl, ho, hs⟩))

/-- A library that is loaded stays loaded as long as it is not forgotten. -/
theorem loaded_after {s : Session} {l : Loaded} {steps : List Step} (hc : s.process.context = [])
    (hl : s.process.loaded = some l) (ho : ∀ st ∈ steps, st.isOwn)
    (hf : Step.operation .forget ∉ steps) : (s.after steps).process.loaded = some l := by
  have hfits := account_fits ho hf hc
  rw [hl] at hfits
  exact hfits.of_some.1

section Stages

variable (hn : p.loaded = none)
include hn

theorem step_language_of_notFound {f : Fault} (hl : (Search.locate w p).answer = .error f) :
    (Session.mk w p).step (.operation .language) =
      (⟨w, p⟩, ⟨.error f, (Search.locate w p).effects, false⟩) := by
  rw [step_language (language_of_loadAnew_error hn (loadAnew_of_notFound hl)), hn]
  rfl

theorem step_language_of_notOpened {path : String} {f : Fault}
    (hl : (Search.locate w p).answer = .ok path) (ho : w.opening path = .error f) :
    (Session.mk w p).step (.operation .language) = (⟨w, p⟩,
      ⟨.error (openingFault path f), (Search.locate w p).effects ++ [.opened path], false⟩) := by
  rw [step_language (language_of_loadAnew_error hn (loadAnew_of_notOpened hl ho)), hn]
  rfl

theorem step_language_of_noSymbol {path : String} {library : Library}
    (hl : (Search.locate w p).answer = .ok path) (ho : w.opening path = .ok library)
    (hs : symbolName ∉ library.exports) : (Session.mk w p).step (.operation .language) =
      (⟨w, p⟩, ⟨.error (.dueTo (unusable path ("symbol '" ++ symbolName ++ "' not exported"))
        (library.absence symbolName)), (Search.locate w p).effects ++ [.opened path], false⟩) := by
  have hexports : library.exports.contains symbolName = false := by simpa using hs
  have hf := parserSymbol_of_absent path hexports
  rw [step_language (language_of_loadAnew_error hn (loadAnew_of_noSymbol hl ho hf)), hn]
  rfl

theorem step_language_of_provides {l : Loaded} (hl : (Search.locate w p).answer = .ok l.path)
    (hp : w.Provides l) (hobstacle : p.obstacle .warning = none) :
    let descriptor := l.symbol.call >>= Object.wrap
    let next : Process := { p with loaded := some l }
    (Session.mk w p).step (.operation .language) = (⟨w, next⟩, ⟨descriptor.map .object,
      (Search.locate w p).effects ++ .opened l.path ::
        (Action.log (loadedEvent l.path) w p).effects ++ .called l.symbol ::
        nullNotice l.path w next descriptor, true⟩) :=
  step_language (language_of_provides hn hl hp hobstacle)

/-- A call opens a library exactly if it has found one. -/
theorem opens_iff (hobstacle : p.obstacle .warning = none) :
    openedPaths ((Session.mk w p).effects (.operation .language)) ≠ [] ↔
      ∃ path, (Search.locate w p).answer = .ok path := by
  obtain ⟨hopened, -⟩ :=
    views_of_isSearch fun _ => Search.isSearch_of_mem_locate (w := w) (p := p)
  obtain ⟨f, hl⟩ | ⟨path, f, hl, ho⟩ | ⟨path, library, hl, ho, hs⟩ | ⟨l, hl, hp⟩ := stage_cases w p
  · rw [effects, step_language_of_notFound hn hl, hopened]
    simp [hl]
  · rw [effects, step_language_of_notOpened hn hl ho, openedPaths_append]
    simp [hl, openedPaths, Effect.openedPath?]
  · rw [effects, step_language_of_noSymbol hn hl ho hs, openedPaths_append]
    simp [hl, openedPaths, Effect.openedPath?]
  · rw [effects, step_language_of_provides hn hl hp hobstacle, openedPaths_append,
      openedPaths_append]
    simp [hl, openedPaths, Effect.openedPath?]

/-- A call calls a symbol exactly if the library that it has found opens and exports it. -/
theorem calls_iff (hobstacle : p.obstacle .warning = none) :
    calledSymbols ((Session.mk w p).effects (.operation .language)) ≠ [] ↔
      ∃ l : Loaded, (Search.locate w p).answer = .ok l.path ∧ w.Provides l := by
  obtain ⟨-, hcalled, -⟩ :=
    views_of_isSearch fun _ => Search.isSearch_of_mem_locate (w := w) (p := p)
  obtain ⟨f, hl⟩ | ⟨path, f, hl, ho⟩ | ⟨path, library, hl, ho, hs⟩ | ⟨l, hl, hp⟩ := stage_cases w p
  · rw [effects, step_language_of_notFound hn hl, hcalled]
    simp [hl]
  · rw [effects, step_language_of_notOpened hn hl ho, calledSymbols_append, hcalled]
    refine iff_of_false (fun h => h rfl) ?_
    rintro ⟨l, hl', library, ho', -⟩
    rw [hl] at hl'
    cases hl'
    rw [ho] at ho'
    cases ho'
  · rw [effects, step_language_of_noSymbol hn hl ho hs, calledSymbols_append, hcalled]
    refine iff_of_false (fun h => h rfl) ?_
    rintro ⟨l, hl', library', ho', hs', -⟩
    rw [hl] at hl'
    cases hl'
    rw [ho] at ho'
    cases ho'
    exact hs (by simpa using hs')
  · rw [effects, step_language_of_provides hn hl hp hobstacle, calledSymbols_append]
    refine iff_of_true ?_ ⟨l, hl, hp⟩
    simp [calledSymbols, Effect.calledSymbol?]

end Stages

/-- From every reachable state without a library loaded, in every world: a call for a descriptor
goes as far as its stages succeed. While the symbol is not found the session stays as it was, no
symbol is called and nothing is logged; once it is found the library is announced and is loaded
until it is forgotten, whatever the call of the symbol and its wrapping come to. -/
theorem language_stages (w : World) {p : Process} (hp : p.Reachable) (hn : p.loaded = none) :
    let s : Session := ⟨w, p⟩
    let call : Step := .operation .language
    let found := Search.locate w p
    (∀ e ∈ found.effects, e.isSearch) ∧
    (∀ f, found.answer = .error f → s.step call = (s, ⟨.error f, found.effects, false⟩)) ∧
    (∀ path f, found.answer = .ok path → w.opening path = .error f →
      s.step call = (s, ⟨.error (openingFault path f), found.effects ++ [.opened path], false⟩) ∧
      (f.failure.isSystem = false → openingFault path f = f) ∧
      (f.failure.isSystem → ∀ details, f.text = .ok details →
        openingFault path f = .dueTo (unusable path details) f) ∧
      (f.failure.isSystem → ∀ g, f.text = .error g → openingFault path f = g)) ∧
    (∀ path library, found.answer = .ok path → w.opening path = .ok library →
      symbolName ∉ library.exports → s.step call = (s, ⟨.error (.dueTo
          (unusable path "symbol 'tree_sitter_kpl' not exported") (library.absence symbolName)),
        found.effects ++ [.opened path], false⟩)) ∧
    (∀ l : Loaded, found.answer = .ok l.path → w.Provides l →
      let descriptor := l.symbol.call >>= Object.wrap
      let next : Session := ⟨w, { p with loaded := some l }⟩
      s.step call = (next, ⟨descriptor.map .object, found.effects ++ .opened l.path ::
        (Action.log (loadedEvent l.path) w p).effects ++ .called l.symbol ::
        nullNotice l.path w next.process descriptor, true⟩) ∧
      loggedEvents (s.effects call) = loadedEvent l.path :: nullEvents l.path descriptor ∧
      ∀ steps, (∀ st ∈ steps, st.isOwn) → Step.operation .forget ∉ steps →
        (next.after steps).process.loaded = some l) ∧
    (openedPaths (s.effects call) ≠ [] ↔ ∃ path, found.answer = .ok path) ∧
    (calledSymbols (s.effects call) ≠ [] ↔
      ∃ l : Loaded, found.answer = .ok l.path ∧ w.Provides l) ∧
    ∀ path details, (unusable path details).text =
        .ok ("Cannot load KPL parser from '" ++ path ++ "': " ++ details) ∧
      (unusable path details).attributes.lookup "path" = some (.str path) := by
  intro s call found
  have hc := hp.context_eq_nil
  have hobstacle := p.obstacle_of_context_nil hc .warning
  obtain ⟨-, -, -, hlogged⟩ :=
    views_of_isSearch fun _ => Search.isSearch_of_mem_locate (w := w) (p := p)
  refine ⟨fun _ => Search.isSearch_of_mem_locate, fun f => step_language_of_notFound hn,
    fun path f hl ho => ⟨step_language_of_notOpened hn hl ho, openingFault_of_not_system path,
      fun hs _ => openingFault_of_text path hs, fun hs _ => openingFault_of_silent path hs⟩,
    fun path library => step_language_of_noSymbol hn, ?_, opens_iff hn hobstacle,
    calls_iff hn hobstacle, fun path details => ⟨rfl, rfl⟩⟩
  intro l hl hprovides descriptor next
  have hstep := step_language_of_provides hn hl hprovides hobstacle
  refine ⟨hstep, ?_, fun steps => loaded_after (s := next) hc rfl⟩
  have hannounced : loggedEvents (.opened l.path :: (Action.log (loadedEvent l.path) w p).effects) =
      [loadedEvent l.path] := Action.loggedEvents_log _ w p
  have hnull : loggedEvents (.called l.symbol :: nullNotice l.path w next.process descriptor) =
      nullEvents l.path descriptor := loggedEvents_nullNotice _ _ _ _
  rw [effects, hstep, loggedEvents_append, loggedEvents_append, hlogged, hannounced, hnull]
  rfl

/-- A symbol that fails, after a check has put logging in force and its library has been forgotten:
the failure comes out, and the library is announced and stays loaded. -/
theorem language_stages_symbolFails :
    let fault : Fault := ↑(Failure.foreign .runtime [.str "no table"])
    let w := World.naming { Library.exporting [symbolName] with call := .error fault }
    let p := (Operation.forget.run w (Operation.smoke.run w {}).process).process
    let s : Session := ⟨w, p⟩
    let call : Step := .operation .language
    p.Reachable ∧ p.loaded.isNone ∧ (s.step call).2.answer = .error fault ∧
      loggedEvents (s.effects call) = [loadedEvent "/kpl.so"] ∧
      ((s.step call).1.after [call, .operation .libraryPath]).process.loaded.map Loaded.path =
        some "/kpl.so" := by
  intro fault w p s call
  have hp : p.Reachable := (Process.Reachable.start.operation w rfl).operation w rfl
  have hfound : Search.locate w p = ⟨.ok "/kpl.so", p, _⟩ :=
    Search.locate_of_named_file (p := ⟨.root, ["kpl.so"]⟩) rfl (by decide) (by decide +kernel)
      (by decide +kernel) p
  obtain ⟨-, -, -, -, hprovided, -⟩ := language_stages w hp rfl
  obtain ⟨hstep, hlogged, hstays⟩ := hprovided ⟨"/kpl.so", "/kpl.so", .error fault⟩
    (congrArg Outcome.answer hfound)
    ⟨{ Library.exporting [symbolName] with call := .error fault }, rfl, rfl, rfl⟩
  refine ⟨hp, rfl, ?_, hlogged, ?_⟩
  · rw [hstep]
    rfl
  · rw [hstep, hstays [call, .operation .libraryPath] (by decide) (by simp [call])]
    rfl

end Session

end GrammarLoader
