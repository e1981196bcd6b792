import GrammarLoader.Behaviour
import GrammarLoader.Proofs.Search.Locating

/-!
# Attempts to load

What an attempt to load the library can come to, stage by stage: the library is not found, does not
open, has no parser symbol, is not announced because the line of the event fails, or is loaded. Each
case says what has been done until then; the state of the process is as before in all of them.
-/

namespace GrammarLoader

/-- A library with some symbols that gives the table of a grammar. -/
def Library.exporting (exports : List String) : Library where
  exports
  absence := fun name => .foreign .missingAttribute [.str name]
  call := .ok (.address (.table 14))

/-- A world whose settings name a library that is there. -/
def World.naming (library : Library) : World where
  settings := { library := .str "/kpl.so" }
  packageDirectory := ⟨.root, ["pkg"]⟩
  files := ⟨[(["kpl.so"], .file)]⟩
  libraries := [("/kpl.so", library)]
  engine := Behaviour.languageOf
  now := ⟨2024, 1, 1, 0, 0, 0, 0⟩

/-- What opening a library comes to. -/
def World.opening (w : World) (path : String) : Except Fault Library :=
  match w.libraries.lookup path with
  | none => .error ↑(Failure.cannotOpen path)
  | some library =>
    match library.refusal with
    | some fault => .error fault
    | none => .ok library

theorem World.lookup_of_opening {w : World} {path : String} {library : Library}
    (h : w.opening path = .ok library) : w.libraries.lookup path = some library := by
  unfold opening at h
  split at h
  · cases h
  · rename_i found hl
    split at h
    · cases h
    · rw [hl, Except.ok.inj h]

theorem World.opening_error_cases {w : World} {path : String} {f : Fault}
    (h : w.opening path = .error f) : f = ↑(Failure.cannotOpen path) ∨
      ∃ library, w.libraries.lookup path = some library ∧ library.refusal = some f := by
  unfold opening at h
  split at h
  · exact .inl (Except.error.inj h).symm
  · rename_i library hl
    split at h
    · rename_i hr
      rw [Except.error.inj h] at hr
      exact .inr ⟨library, hl, hr⟩
    · cases h

/-- A library that opens. -/
def World.opens (w : World) (path : String) : Bool := (w.opening path).toBool

/-- A library that opens and has the parser symbol. -/
def World.opensParser (w : World) (path : String) : Bool :=
  match w.opening path with
  | .ok library => library.exports.contains Loader.symbolName
  | .error _ => false

/-- The world has the library with its symbol, the one that is called from then on. -/
def World.Provides (w : World) (l : Loaded) : Prop :=
  ∃ library, w.opening l.path = .ok library ∧ library.exports.contains Loader.symbolName ∧
    l.symbol = ⟨l.path, library.call⟩

theorem World.Provides.opens {w : World} {l : Loaded} (h : w.Provides l) : w.opens l.path := by
  obtain ⟨library, ho, -⟩ := h
  rw [World.opens, ho]
  rfl

theorem World.Provides.opensParser {w : World} {l : Loaded} (h : w.Provides l) :
    w.opensParser l.path := by
  obtain ⟨library, ho, he, -⟩ := h
  rw [World.opensParser, ho]
  exact he

namespace Loader

theorem loadedEvent_isPlain (path : String) : (loadedEvent path).IsPlain :=
  Logging.Event.named_isPlain rfl rfl

theorem nullEvent_isPlain (path : String) : (nullEvent path).IsPlain :=
  Logging.Event.named_isPlain rfl rfl

@[simp] theorem openLibrary_apply (path : String) (w : World) (p : Process) :
    openLibrary path w p = ⟨w.opening path, p, [.opened path]⟩ := by
  unfold openLibrary World.opening
  rw [Action.perform_bind_apply, Action.world_bind_apply]
  cases w.libraries.lookup path with
  | none => rfl
  | some library => cases hr : library.refusal <;> simp [hr, Action.fail]

section Opening

/-! ## What a fault on opening becomes -/

variable {f : Fault} (path : String)

theorem openingFault_of_not_system (hs : f.failure.isSystem = false) :
    openingFault path f = f := by
  simp [openingFault, hs]

theorem openingFault_of_text (hs : f.failure.isSystem) {details : String}
    (ht : f.text = .ok details) : openingFault path f = .dueTo (unusable path details) f := by
  simp [openingFault, hs, ht]

/-- Without a text the library is not said to be unusable. -/
theorem openingFault_of_silent (hs : f.failure.isSystem) {g : Fault} (ht : f.text = .error g) :
    openingFault path f = g := by
  simp [openingFault, hs, ht]

end Opening

/-- The outcomes of an attempt to load the library. -/
inductive Attempt (w : World) (p : Process) : Outcome Loaded → Prop
  | notFound {fault : Fault} (hl : (Search.locate w p).answer = .error fault) :
    Attempt w p ⟨.error fault, p, (Search.locate w p).effects⟩
  | notOpened {path : String} {fault : Fault} (hl : (Search.locate w p).answer = .ok path)
    (ho : w.opening path = .error fault) :
    Attempt w p ⟨.error (openingFault path fault), p,
      (Search.locate w p).effects ++ [.opened path]⟩
  | noSymbol {path : String} {library : Library} {fault : Fault}
    (hl : (Search.locate w p).answer = .ok path) (ho : w.opening path = .ok library)
    (hs : library.exports.contains symbolName = false)
    (hf : parserSymbol path library = .error fault) :
    Attempt w p ⟨.error fault, p, (Search.locate w p).effects ++ [.opened path]⟩
  | notAnnounced {l : Loaded} {f : Failure} (hl : (Search.locate w p).answer = .ok l.path)
    (hp : w.Provides l) (hn : p.obstacle .info = some f) :
    Attempt w p ⟨.error ↑f, p,
      (Search.locate w p).effects ++ .opened l.path ::
        (Action.log (loadedEvent l.path) w p).effects⟩
  | loaded {l : Loaded} (hl : (Search.locate w p).answer = .ok l.path) (hp : w.Provides l)
    (hn : p.obstacle .info = none) :
    Attempt w p ⟨.ok l, p,
      (Search.locate w p).effects ++ .opened l.path ::
        (Action.log (loadedEvent l.path) w p).effects⟩

section Stages

/-! ## An attempt by the stage where it ends -/

variable {w : World} {p : Process}

theorem openingGuarded_apply (path : String) (w : World) (p : Process) :
    (openLibrary path).mapFault (openingFault path) w p =
      ⟨(w.opening path).mapError (openingFault path), p, [.opened path]⟩ := by
  unfold Action.mapFault
  rw [openLibrary_apply]

theorem parserSymbol_of_absent (path : String) {library : Library}
    (hs : library.exports.contains symbolName = false) :
    parserSymbol path library = .error (.dueTo
      (unusable path ("symbol '" ++ symbolName ++ "' not exported")) (library.absence symbolName)) := by
  rw [parserSymbol, hs]
  rfl

theorem loadAnew_of_notFound {fault : Fault} (hl : (Search.locate w p).answer = .error fault) :
    loadAnew w p = ⟨.error fault, p, (Search.locate w p).effects⟩ := by
  unfold loadAnew
  rw [Action.bind_of_error hl, Search.locate_process]

theorem loadAnew_of_notOpened {path : String} {fault : Fault}
    (hl : (Search.locate w p).answer = .ok path) (ho : w.opening path = .error fault) :
    loadAnew w p = ⟨.error (openingFault path fault), p,
      (Search.locate w p).effects ++ [.opened path]⟩ := by
  have hopen := openingGuarded_apply path w p
  rw [ho] at hopen
  unfold loadAnew
  rw [Action.bind_of_ok hl, Search.locate_process, Action.bind_eq_of_error hopen]

/-- Once the library is open, what is left is its symbol and the event. -/
theorem loadAnew_of_opened {path : String} {library : Library}
    (hl : (Search.locate w p).answer = .ok path) (ho : w.opening path = .ok library) :
    let rest := (Action.ofExcept (parserSymbol path library) >>= fun symbol =>
      Action.log (loadedEvent path) >>= fun _ => pure (Loaded.mk path symbol)) w p
    loadAnew w p = ⟨rest.answer, rest.process,
      (Search.locate w p).effects ++ .opened path :: rest.effects⟩ := by
  have hopen := openingGuarded_apply path w p
  rw [ho] at hopen
  unfold loadAnew
  rw [Action.bind_of_ok hl, Search.locate_process, Action.bind_eq_of_ok hopen]
  rfl

theorem loadAnew_of_noSymbol {path : String} {library : Library} {fault : Fault}
    (hl : (Search.locate w p).answer = .ok path) (ho : w.opening path = .ok library)
    (hf : parserSymbol path library = .error fault) :
    loadAnew w p = ⟨.error fault, p, (Search.locate w p).effects ++ [.opened path]⟩ := by
  rw [loadAnew_of_opened hl ho, hf, Action.bind_eq_of_error rfl]

theorem loadAnew_of_provides {l : Loaded} (hl : (Search.locate w p).answer = .ok l.path)
    (hp : w.Provides l) :
    loadAnew w p = ⟨match p.obstacle .info with
      | none => .ok l
      | some f => .error ↑f, p, (Search.locate w p).effects ++ .opened l.path ::
        (Action.log (loadedEvent l.path) w p).effects⟩ := by
  obtain ⟨path, symbol⟩ := l
  obtain ⟨library, ho, hs, hsymbol⟩ := hp
  dsimp only at hl ho hsymbol
  subst hsymbol
  have hf : parserSymbol path library = .ok ⟨path, library.call⟩ := by
    rw [parserSymbol, hs]
    rfl
  have hlog := Action.log_answer w p (loadedEvent_isPlain path)
  rw [show (loadedEvent path).level = .info from rfl] at hlog
  rw [loadAnew_of_opened hl ho, hf, Action.bind_eq_of_ok rfl]
  dsimp only
  rw [Action.bind_pure_apply, hlog, Action.log_process, List.nil_append]
  cases p.obstacle .info <;> rfl

end Stages

theorem loadAnew_attempt (w : World) (p : Process) : Attempt w p (loadAnew w p) := by
  cases hl : (Search.locate w p).answer with
  | error fault =>
    rw [loadAnew_of_notFound hl]
    exact .notFound hl
  | ok path =>
    cases ho : w.opening path with
    | error fault =>
      rw [loadAnew_of_notOpened hl ho]
      exact .notOpened hl ho
    | ok library =>
      cases hs : library.exports.contains symbolName with
      | false =>
        have hf := parserSymbol_of_absent path hs
        rw [loadAnew_of_noSymbol hl ho hf]
        exact .noSymbol hl ho hs hf
      | true =>
        have hprovides : w.Provides ⟨path, path, library.call⟩ := ⟨library, ho, hs, rfl⟩
        rw [loadAnew_of_provides hl hprovides]
        cases hn : p.obstacle .info with
        | none => exact .loaded hl hprovides hn
        | some f => exact .notAnnounced hl hprovides hn

@[simp] theorem loadAnew_process (w : World) (p : Process) : (loadAnew w p).process = p := by
  have h := loadAnew_attempt w p
  generalize loadAnew w p = outcome at h ⊢
  cases h <;> rfl

/-- An attempt looks for the library, opens it and announces it, and does nothing else. -/
theorem mem_loadAnew {w : World} {p : Process} {e : Effect} (h : e ∈ (loadAnew w p).effects) :
    e.isLookup ∨ ∃ path, e ∈ (Action.log (loadedEvent path) w p).effects := by
  have hlocate : e ∈ (Search.locate w p).effects → e.isLookup := fun he =>
    Effect.isLookup_of_isSearch (Search.isSearch_of_mem_locate he)
  have hattempt := loadAnew_attempt w p
  generalize loadAnew w p = outcome at hattempt h
  cases hattempt with
  | notFound => exact .inl (hlocate h)
  | notOpened | noSymbol =>
    obtain he | he := List.mem_append.mp h
    · exact .inl (hlocate he)
    · rw [List.mem_singleton.mp he]
      exact .inl rfl
  | notAnnounced | loaded =>
    obtain he | he := List.mem_append.mp h
    · exact .inl (hlocate he)
    · obtain rfl | hlog := List.mem_cons.mp he
      · exact .inl rfl
      · exact .inr ⟨_, hlog⟩

theorem calledSymbols_loadAnew (w : World) (p : Process) :
    calledSymbols (loadAnew w p).effects = [] := by
  refine List.filterMap_eq_nil_iff.mpr fun e he => ?_
  obtain hlookup | ⟨path, hlog⟩ := mem_loadAnew he
  · cases e with
    | called => cases hlookup
    | _ => rfl
  · exact List.filterMap_eq_nil_iff.mp (Action.calledSymbols_log _ w p) e hlog

theorem engagedObjects_loadAnew (w : World) (p : Process) :
    engagedObjects (loadAnew w p).effects = [] := by
  refine List.filterMap_eq_nil_iff.mpr fun e he => ?_
  obtain hlookup | ⟨path, hlog⟩ := mem_loadAnew he
  · cases e with
    | engaged => cases hlookup
    | _ => rfl
  · exact List.filterMap_eq_nil_iff.mp (Action.engagedObjects_log _ w p) e hlog

/-! ## Loading with memory -/

theorem load_of_loaded {w : World} {p : Process} {l : Loaded} (h : p.loaded = some l) :
    load w p = ⟨.ok l, p, []⟩ := by
  unfold load
  rw [Action.process_bind_apply, h]
  rfl

theorem load_of_ok {w : World} {p : Process} {l : Loaded} (h : p.loaded = none)
    (hl : (loadAnew w p).answer = .ok l) :
    load w p = ⟨.ok l, { p with loaded := some l }, (loadAnew w p).effects⟩ := by
  unfold load
  rw [Action.process_bind_apply, h]
  dsimp only
  rw [Action.bind_of_ok hl, Action.bind_of_ok rfl]
  simp [Action.modify]

theorem load_of_error {w : World} {p : Process} {fault : Fault} (h : p.loaded = none)
    (hl : (loadAnew w p).answer = .error fault) :
    load w p = ⟨.error fault, p, (loadAnew w p).effects⟩ := by
  unfold load
  rw [Action.process_bind_apply, h]
  dsimp only
  rw [Action.bind_of_error hl, loadAnew_process]

theorem load_effects_of_none {w : World} {p : Process} (h : p.loaded = none) :
    (load w p).effects = (loadAnew w p).effects := by
  cases ha : (loadAnew w p).answer with
  | ok l => rw [load_of_ok h ha]
  | error fault => rw [load_of_error h ha]

/-- A load may change what is loaded, and leaves the rest of the process as it is. -/
theorem load_process (w : World) (p : Process) :
    ∃ loaded, (load w p).process = { p with loaded } := by
  cases hp : p.loaded with
  | some l =>
    rw [load_of_loaded hp]
    exact ⟨p.loaded, rfl⟩
  | none =>
    cases ha : (loadAnew w p).answer with
    | ok l =>
      rw [load_of_ok hp ha]
      exact ⟨some l, rfl⟩
    | error fault =>
      rw [load_of_error hp ha]
      exact ⟨p.loaded, rfl⟩

end Loader

end GrammarLoader
