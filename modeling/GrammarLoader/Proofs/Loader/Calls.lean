import GrammarLoader.Proofs.Loader.Source

/-!
# Calls of the parser symbol

An operation that needs a grammar calls the symbol of the library that it gets, once, and nothing
else calls one: not the search, not the check, not the log.
-/

namespace GrammarLoader

namespace Action

variable {α β : Type} {w : World}

/-- In a world an action calls no symbol, whatever the state of the process. -/
def CallsNothing (x : Action α) (w : World) : Prop := ∀ p, calledSymbols (x w p).effects = []

theorem callsNothing_ofExcept (r : Except Fault α) : (ofExcept r).CallsNothing w := fun _ => rfl

theorem callsNothing_log (e : Logging.Event) : (log e).CallsNothing w := fun p =>
  calledSymbols_log e w p

/-- What goes on without a call leaves the calls of what it goes on from. -/
theorem calledSymbols_bind {x : Action α} {f : α → Action β} (hf : ∀ a, (f a).CallsNothing w)
    (p : Process) : calledSymbols ((x >>= f) w p).effects = calledSymbols (x w p).effects := by
  cases hx : (x w p).answer with
  | ok a => rw [bind_of_ok hx, calledSymbols_append, hf a, List.append_nil]
  | error fault => rw [bind_of_error hx]

theorem calledSymbols_orRecover {x : Action α} {handle : Fault → Action α}
    (hh : ∀ fault, (handle fault).CallsNothing w) (p : Process) :
    calledSymbols ((x.orRecover handle) w p).effects = calledSymbols (x w p).effects := by
  cases hx : (x w p).answer with
  | ok a => rw [orRecover_of_ok hx]
  | error fault =>
    cases ho : fault.failure.isOrdinary with
    | true => rw [orRecover_of_ordinary hx ho, calledSymbols_append, hh fault, List.append_nil]
    | false => rw [orRecover_of_not_ordinary hx ho]

theorem CallsNothing.bind {x : Action α} {f : α → Action β} (h : x.CallsNothing w)
    (hf : ∀ a, (f a).CallsNothing w) : (x >>= f).CallsNothing w := by
  intro p
  rw [calledSymbols_bind hf, h]

end Action

namespace Loader

theorem callsNothing_load (w : World) : load.CallsNothing w := by
  intro p
  cases hp : p.loaded with
  | some l =>
    rw [load_of_loaded hp]
    rfl
  | none =>
    cases ha : (loadAnew w p).answer with
    | ok l =>
      rw [load_of_ok hp ha]
      exact calledSymbols_loadAnew w p
    | error fault =>
      rw [load_of_error hp ha]
      exact calledSymbols_loadAnew w p

/-- Describing a library calls its symbol, once. -/
theorem calledSymbols_describe (l : Loaded) (w : World) (p : Process) :
    calledSymbols (describe l w p).effects = [l.symbol] := by
  have hcall : calledSymbols (callSymbol l.symbol w p).effects = [l.symbol] := rfl
  rw [← hcall]
  apply Action.calledSymbols_bind
  intro address
  refine (Action.callsNothing_ofExcept _).bind fun descriptor => ?_
  cases descriptor.isNull with
  | false => exact Action.callsNothing_ofExcept _
  | true => exact (Action.callsNothing_log _).bind fun _ => Action.callsNothing_ofExcept _

/-- A descriptor takes one call of the symbol of the library that there is. -/
theorem calledSymbols_languageFrom {source : Action Loaded} {w : World}
    (hs : source.CallsNothing w) (p : Process) :
    calledSymbols (languageFrom source w p).effects = match (source w p).answer with
      | .ok l => [l.symbol]
      | .error _ => [] := by
  unfold languageFrom
  cases h : (source w p).answer with
  | ok l => rw [Action.bind_of_ok h, calledSymbols_append, hs, calledSymbols_describe,
      List.nil_append]
  | error fault => rw [Action.bind_of_error h, hs]

end Loader

theorem Check.callsNothing_engage (engine : Engine) (descriptor : Object) (w : World) :
    (engage engine descriptor).CallsNothing w := by
  intro p
  rfl

theorem Check.callsNothing_engageWorld (descriptor : Object) (w : World) :
    (engageWorld descriptor).CallsNothing w := by
  intro p
  rfl

theorem Operation.callsNothing_engineOr (engine : Option Engine) (descriptor : Object) (w : World) :
    (engineOr engine descriptor).CallsNothing w := by
  cases engine with
  | some e => exact Check.callsNothing_engage e descriptor w
  | none => exact Check.callsNothing_engageWorld descriptor w

/-- A check calls the symbols that its factory calls. -/
theorem Check.calledSymbols_verify (name : Value) (factory : Action Object)
    {engine : Object → Action Object} {w : World} (he : ∀ d, (engine d).CallsNothing w)
    (p : Process) :
    calledSymbols (verify name factory engine w p).effects =
      calledSymbols (factory w p).effects := by
  have hattempt : calledSymbols (attempt factory engine w p).effects =
      calledSymbols (factory w p).effects := by
    apply Action.calledSymbols_bind
    intro descriptor
    cases descriptor.isNull with
    | true => exact Action.callsNothing_ofExcept _
    | false => exact he descriptor
  have hreport (fault : Fault) : (report name fault).CallsNothing w :=
    (Action.callsNothing_ofExcept _).bind fun _ =>
      (Action.callsNothing_log _).bind fun _ => Action.callsNothing_ofExcept _
  unfold verify
  rw [Action.calledSymbols_bind, Action.calledSymbols_orRecover hreport, hattempt]
  intro language
  refine (Action.callsNothing_ofExcept _).bind fun full => ?_
  cases full with
  | true => exact Action.callsNothing_ofExcept _
  | false => exact (Action.callsNothing_log _).bind fun _ => Action.callsNothing_ofExcept _

theorem Action.callsNothing_configureLogging (level format : Value) (w : World) :
    (configureLogging level format).CallsNothing w := by
  intro p
  rw [configureLogging_apply]
  split <;> rfl

/-- The smoke check calls the symbols that its factory calls, if the settings configure the log. -/
theorem Smoke.calledSymbols_runFrom {source : Action Loaded} {w : World}
    (hs : source.CallsNothing w) (p : Process) :
    calledSymbols (runFrom source w p).effects =
      match (Action.configureLogging .null .null w p).answer with
      | .error _ => []
      | .ok () => match (source w (Action.configureLogging .null .null w p).process).answer with
        | .ok l => [l.symbol]
        | .error _ => [] := by
  have hquiet := Action.callsNothing_configureLogging .null .null w p
  have hverdict (q : Process) : calledSymbols (verdictOf (Check.verify (.str Check.grammarName)
      (Loader.languageFrom source) Check.engageWorld) w q).effects =
      calledSymbols (Loader.languageFrom source w q).effects := by
    rw [verdictOf_effects]
    exact Check.calledSymbols_verify _ _ (fun d => Check.callsNothing_engageWorld d w) q
  have hconclude (verdict : Option Value) : (conclude verdict).CallsNothing w := by
    cases verdict with
    | none => exact (Action.callsNothing_log _).bind fun _ => Action.callsNothing_ofExcept _
    | some fault => exact (Action.callsNothing_log _).bind fun _ => Action.callsNothing_ofExcept _
  unfold runFrom
  cases hc : (Action.configureLogging .null .null w p).answer with
  | error fault => rw [Action.bind_of_error hc, hquiet]
  | ok u =>
    rw [Action.bind_of_ok hc, calledSymbols_append, hquiet, List.nil_append,
      Action.calledSymbols_bind hconclude, hverdict, Loader.calledSymbols_languageFrom hs]

theorem Message.callsNothing_log (m : Message) (w : World) : m.log.CallsNothing w := by
  intro p
  obtain h | ⟨f, -, h⟩ | ⟨e, -, h⟩ := m.log_cases w p <;> rw [h]
  · rfl
  · rfl
  · exact Action.calledSymbols_log e w p

namespace Operation

/-- Operations that do not need the library call no symbol. -/
theorem callsNothing_of_not_usesLoader {o : Operation} (h : o.usesLoader = false) (w : World) :
    o.run.CallsNothing w := by
  cases o with
  | language | libraryPath | smoke | smokeProcess => cases h
  | verify name factory engine =>
    cases factory with
    | none => cases h
    | some made =>
      intro p
      have hcheck := Check.calledSymbols_verify name (Action.ofExcept made)
        (fun d => callsNothing_engineOr engine d w) p
      cases engine <;> exact (Action.calledSymbols_bind (fun _ _ => rfl) p).trans hcheck
  | locate =>
    intro p
    have hlocate := views_of_isSearch fun _ => Search.isSearch_of_mem_locate (w := w) (p := p)
    exact (Action.calledSymbols_bind (fun _ _ => rfl) p).trans hlocate.2.1
  | candidates =>
    have hlist : (Action.world >>= fun around =>
        Action.ofFailure (Search.candidates around)).CallsNothing w := fun _ => rfl
    exact hlist.bind fun _ _ => rfl
  | configureLogging level format =>
    exact (Action.callsNothing_configureLogging level format w).bind fun _ _ => rfl
  | message m => exact (m.callsNothing_log w).bind fun _ _ => rfl
  | forget | bindContext | clearContext | settings =>
    intro p
    rfl

variable {w : World} {p : Process} {l : Loaded}

theorem calledSymbols_language_of_loaded (h : p.loaded = some l) :
    calledSymbols (language.run w p).effects = [l.symbol] := by
  rw [← runFrom_load]
  refine (Action.calledSymbols_bind (fun _ _ => rfl) p).trans ?_
  rw [Loader.calledSymbols_languageFrom (Loader.callsNothing_load w), Loader.load_of_loaded h]

theorem calledSymbols_verify_of_loaded (name : Value) (engine : Option Engine)
    (h : p.loaded = some l) :
    calledSymbols ((verify name none engine).run w p).effects = [l.symbol] := by
  rw [← runFrom_load]
  refine (Action.calledSymbols_bind (fun _ _ => rfl) p).trans ?_
  rw [Check.calledSymbols_verify name _ fun d => callsNothing_engineOr engine d w,
    Loader.calledSymbols_languageFrom (Loader.callsNothing_load w), Loader.load_of_loaded h]

theorem libraryPath_run_of_loaded (h : p.loaded = some l) :
    libraryPath.run w p = ⟨.ok (.text l.path), p, []⟩ := by
  rw [libraryPath_run, Loader.load_of_loaded h]
  rfl

/-- Once a library is loaded no operation calls another symbol than that of the library, or calls it
more than once. -/
theorem calledSymbols_of_loaded (o : Operation) (h : p.loaded = some l) :
    calledSymbols (o.run w p).effects = [] ∨ calledSymbols (o.run w p).effects = [l.symbol] := by
  have hsmoke : calledSymbols (Smoke.runFrom Loader.load w p).effects = [] ∨
      calledSymbols (Smoke.runFrom Loader.load w p).effects = [l.symbol] := by
    rw [Smoke.calledSymbols_runFrom (Loader.callsNothing_load w)]
    cases (Action.configureLogging .null .null w p).answer with
    | error fault => exact .inl rfl
    | ok u =>
      have hl : (Action.configureLogging .null .null w p).process.loaded = some l := by
        rw [Action.configureLogging_apply]
        split <;> exact h
      rw [Loader.load_of_loaded hl]
      exact .inr rfl
  cases hu : o.usesLoader with
  | false => exact .inl (callsNothing_of_not_usesLoader hu w p)
  | true =>
    cases o with
    | language => exact .inr (calledSymbols_language_of_loaded h)
    | libraryPath =>
      rw [libraryPath_run_of_loaded h]
      exact .inl rfl
    | verify name factory engine =>
      cases factory with
      | none => exact .inr (calledSymbols_verify_of_loaded name engine h)
      | some made => cases hu
    | smoke =>
      rw [← runFrom_load]
      have hrun : calledSymbols ((smoke.runFrom Loader.load) w p).effects =
          calledSymbols (Smoke.runFrom Loader.load w p).effects :=
        Action.calledSymbols_bind (fun _ _ => rfl) p
      rwa [hrun]
    | smokeProcess =>
      rw [← runFrom_load]
      exact hsmoke
    | _ => cases hu

end Operation

end GrammarLoader
