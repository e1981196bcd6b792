import GrammarLoader.Proofs.Loader.Account
import GrammarLoader.Proofs.Loader.Calls

/-!
# The library loaded stays until it is forgotten

Between two times that the library is forgotten it is loaded at most once, whatever the operations
and whatever changes around the binding. From then on every operation is served by what was loaded:
nothing is opened, checked or searched, the path is the one of the load and the symbol called is the
one obtained there. A library that opens and lacks the parser symbol is not loaded, so libraries may
well be opened several times before one is.
-/

namespace GrammarLoader

namespace Operation

variable {w : World} {p : Process}

/-- The context of the log stays empty. -/
theorem context_of_isOwn {o : Operation} (ho : o.isOwn) (hc : p.context = []) :
    (o.run w p).process.context = [] := by
  by_cases hf : o = .forget
  · subst hf
    exact hc
  · by_cases hl : o = .locate
    · subst hl
      rw [locate_run]
      exact hc
    · exact (keepsAccount ho hf hl hc).2

theorem account_fits {o : Operation} (ho : o.isOwn) (hf : o ≠ .forget) (hc : p.context = []) :
    Account.Fits p.loaded (o.run w p).process.loaded (.ofEffects w (o.run w p).effects) := by
  by_cases hl : o = .locate
  · subst hl
    rw [locate_run, Account.ofEffects_of_isSearch w (fun _ => Search.isSearch_of_mem_locate)]
    exact .refl _
  · exact (keepsAccount ho hf hl hc).1.fits

theorem provides_of_load {o : Operation} (ho : o.isOwn) (hc : p.context = []) {l : Loaded}
    (hn : p.loaded = none) (hs : (o.run w p).process.loaded = some l) : w.Provides l := by
  by_cases hf : o = .forget
  · subst hf
    cases hs
  · by_cases hl : o = .locate
    · subst hl
      rw [locate_run, hn] at hs
      cases hs
    · exact (keepsAccount ho hf hl hc).1.provides l hn hs

end Operation

/-- The binding itself binds nothing to the context of the log. -/
theorem Process.Reachable.context_eq_nil {p : Process} (h : p.Reachable) : p.context = [] := by
  induction h with
  | start => rfl
  | operation _ w ho ih => exact Operation.context_of_isOwn ho ih

namespace Session

/-- The library that a step loads. -/
def loads (s : Session) (st : Step) : List Loaded :=
  match s.process.loaded with
  | none => (s.step st).1.process.loaded.toList
  | some _ => []

/-- The account of a run. -/
def account : Session → List Step → Account
  | _, [] => {}
  | s, st :: rest => (Account.ofEffects s.world (s.effects st)).append (account (s.step st).1 rest)

theorem account_append (s : Session) (first second : List Step) :
    s.account (first ++ second) = (s.account first).append ((s.after first).account second) := by
  induction first generalizing s with
  | nil => simp [account, Account.append]
  | cons st rest ih =>
    simp [account, ih, Account.append]

variable {s : Session}

theorem context_step {st : Step} (ho : st.isOwn) (hc : s.process.context = []) :
    (s.step st).1.process.context = [] := by
  cases st with
  | operation o => exact Operation.context_of_isOwn ho hc
  | change c => rw [step_change_process, hc]

theorem context_after {steps : List Step} (ho : ∀ st ∈ steps, st.isOwn)
    (hc : s.process.context = []) : (s.after steps).process.context = [] := by
  induction steps generalizing s with
  | nil => exact hc
  | cons st rest ih =>
    apply ih (fun st' h => ho st' (List.mem_cons_of_mem _ h))
    exact context_step (ho st List.mem_cons_self) hc

theorem step_fits {st : Step} (ho : st.isOwn) (hf : st ≠ .operation .forget)
    (hc : s.process.context = []) :
    Account.Fits s.process.loaded (s.step st).1.process.loaded
      (.ofEffects s.world (s.effects st)) := by
  cases st with
  | operation o => exact Operation.account_fits ho (fun h => hf (by rw [h])) hc
  | change c =>
    rw [step_change_process, effects_change]
    exact .refl _

/-- As long as nothing is forgotten the account of a run fits what is loaded at its ends. -/
theorem account_fits {steps : List Step} (ho : ∀ st ∈ steps, st.isOwn)
    (hf : Step.operation .forget ∉ steps) (hc : s.process.context = []) :
    Account.Fits s.process.loaded (s.after steps).process.loaded (s.account steps) := by
  induction steps generalizing s with
  | nil => exact .refl _
  | cons st rest ih =>
    have hst := ho st List.mem_cons_self
    have hne : st ≠ .operation .forget := fun h => hf (h ▸ List.mem_cons_self)
    refine (step_fits hst hne hc).trans ?_
    exact ih (fun st' h => ho st' (List.mem_cons_of_mem _ h))
      (fun h => hf (List.mem_cons_of_mem _ h)) (context_step hst hc)

/-- What a run loads is what is loaded after it, unless it was loaded before. -/
theorem trace_loads {steps : List Step} (ho : ∀ st ∈ steps, st.isOwn)
    (hf : Step.operation .forget ∉ steps) (hc : s.process.context = []) :
    s.trace loads steps = match s.process.loaded with
      | none => (s.after steps).process.loaded.toList
      | some _ => [] := by
  induction steps generalizing s with
  | nil => cases hl : s.process.loaded <;> simp [trace, hl]
  | cons st rest ih =>
    have hst := ho st List.mem_cons_self
    have hne : st ≠ .operation .forget := fun h => hf (h ▸ List.mem_cons_self)
    have hrest := ih (fun st' h => ho st' (List.mem_cons_of_mem _ h))
      (fun h => hf (List.mem_cons_of_mem _ h)) (context_step hst hc)
    have hfits := account_fits (fun st' h => ho st' (List.mem_cons_of_mem _ h))
      (fun h => hf (List.mem_cons_of_mem _ h)) (context_step hst hc)
    have hstep := step_fits hst hne hc
    rw [trace, hrest, after_cons, loads]
    cases hl : s.process.loaded with
    | none =>
      cases hm : (s.step st).1.process.loaded with
      | none => simp
      | some l =>
        -- this step loads the library, so the rest of the run keeps it and loads nothing
        rw [hm] at hfits
        obtain ⟨hafter, -⟩ := hfits.of_some
        simp [hafter]
    | some l =>
      rw [hl] at hstep
      obtain ⟨hafter, -⟩ := hstep.of_some
      simp [hafter]

/-- A step is served by a library that is loaded: nothing but the bare search looks for one, the
path is that of the library, and its symbol is called for a descriptor and for nothing less. -/
structure ServedBy (l : Loaded) (s : Session) (st : Step) : Prop where
  quiet : st ≠ .operation .locate → ∀ e ∈ s.effects st, e.isLookup = false
  path : st = .operation .libraryPath → (s.step st).2.answer = .ok (.text l.path) ∧
    calledSymbols (s.effects st) = []
  call : (st = .operation .language ∨ ∃ name engine, st = .operation (.verify name none engine)) →
    calledSymbols (s.effects st) = [l.symbol]
  calls : calledSymbols (s.effects st) = [] ∨ calledSymbols (s.effects st) = [l.symbol]

theorem servedBy_of_loaded {st : Step} {l : Loaded} (ho : st.isOwn)
    (hc : s.process.context = []) (hl : s.process.loaded = some l) : s.ServedBy l st where
  quiet hne := by
    cases st with
    | change c => simp
    | operation o =>
      by_cases hf : o = .forget
      · subst hf
        intro e he
        cases he
      · have hno : o ≠ .locate := fun h => hne (by rw [h])
        exact (Operation.keepsAccount ho hf hno hc).1.quiet (by rw [hl]; rfl)
  path := by
    rintro rfl
    have hrun := Operation.libraryPath_run_of_loaded (w := s.world) hl
    exact ⟨congrArg Outcome.answer hrun, by rw [effects_operation, hrun]; rfl⟩
  call := by
    rintro (rfl | ⟨name, engine, rfl⟩)
    · exact Operation.calledSymbols_language_of_loaded hl
    · exact Operation.calledSymbols_verify_of_loaded name engine hl
  calls := by
    cases st with
    | change c =>
      rw [effects_change]
      exact .inl rfl
    | operation o => exact Operation.calledSymbols_of_loaded o hl

/-- A library that a step loads is one of the world in which the step is taken. -/
theorem provides_of_mem_loads {st : Step} {l : Loaded} (ho : st.isOwn)
    (hc : s.process.context = []) (h : l ∈ s.loads st) : s.world.Provides l := by
  unfold loads at h
  cases hn : s.process.loaded with
  | some m =>
    rw [hn] at h
    cases h
  | none =>
    rw [hn, Option.mem_toList] at h
    cases st with
    | change c =>
      rw [step_change_process, hn] at h
      cases h
    | operation o => exact Operation.provides_of_load ho hc hn h

/-- From one time that the library is forgotten to the next one it is loaded at most once: at most
one library with the parser symbol opens, and exactly that one is announced. From then on every step
is served by it, and of all that have opened it is the last one. -/
theorem loaded_until_forgotten (w : World) (before segment : List Step)
    (ho : ∀ st ∈ before ++ segment, st.isOwn)
    (hn : ((start w).after before).process.loaded = none)
    (hf : Step.operation .forget ∉ segment) :
    let s := (start w).after before
    (s.trace loads segment).length ≤ 1 ∧
    (s.account segment).parsers = (s.trace loads segment).map Loaded.path ∧
    (s.account segment).announced =
      (s.trace loads segment).map (fun l => Loader.loadedEvent l.path) ∧
    (∀ done st rest, segment = done ++ st :: rest →
      ∀ l ∈ (s.after done).loads st, (s.after done).world.Provides l) ∧
    ∀ done st rest, segment = done ++ st :: rest → ∀ l ∈ s.trace loads done,
      (s.after done).ServedBy l st ∧
      ((start w).account (before ++ done)).opened.getLast? = some l.path := by
  intro s
  have hown : ∀ st ∈ segment, st.isOwn := fun st h => ho st (List.mem_append_right _ h)
  have hc : s.process.context = [] :=
    context_after (fun st h => ho st (List.mem_append_left _ h)) rfl
  -- each beginning of the segment loads what is loaded after it, and its account says so
  have hpart : ∀ done, (∀ st ∈ done, st.isOwn) → Step.operation .forget ∉ done →
      s.trace loads done = (s.after done).process.loaded.toList ∧
      Account.Fits none (s.after done).process.loaded (s.account done) := by
    intro done hd hfd
    have htrace := trace_loads hd hfd hc
    have hfits := account_fits hd hfd hc
    rw [hn] at htrace hfits
    exact ⟨htrace, hfits⟩
  obtain ⟨htrace, hfits⟩ := hpart segment hown hf
  obtain ⟨hparsers, hannounced, -⟩ := hfits.of_none
  rw [htrace]
  refine ⟨Option.length_toList_le, hparsers, hannounced, ?_, ?_⟩
  · rintro done st rest rfl l hl
    refine provides_of_mem_loads (hown st (by simp)) ?_ hl
    exact context_after (fun st' h => hown st' (List.mem_append_left _ h)) hc
  · rintro done st rest rfl l hl
    have hdone : ∀ st' ∈ done, st'.isOwn := fun st' h => hown st' (List.mem_append_left _ h)
    obtain ⟨htrace, hfits⟩ := hpart done hdone fun h => hf (List.mem_append_left _ h)
    rw [htrace, Option.mem_toList] at hl
    refine ⟨servedBy_of_loaded (hown st (by simp)) (context_after hdone hc) hl, ?_⟩
    rw [account_append]
    show (_ ++ (s.account done).opened).getLast? = _
    rw [List.getLast?_append, hfits.of_none.2.2 l hl, Option.some_or]

/-- A library without the symbol opens in vain before it is replaced; the one that is loaded then is
taken away and replaced again. -/
theorem loaded_until_forgotten_replaced :
    let s := (start (.naming (.exporting []))).after [.operation .language, .operation .forget]
    let segment : List Step := [.operation .libraryPath,
      .change (.putLibrary "/kpl.so" (.exporting [Loader.symbolName])), .operation .language,
      .change (.removeNode ["kpl.so"]), .operation .locate,
      .change (.putLibrary "/kpl.so" (.exporting [])), .operation .language,
      .operation .libraryPath]
    (s.account segment).opened = ["/kpl.so", "/kpl.so"] ∧
    (s.account segment).parsers = ["/kpl.so"] ∧
    (s.account segment).announced = [Loader.loadedEvent "/kpl.so"] ∧
    ∀ done st rest, segment = done ++ st :: rest → ∀ l ∈ s.trace loads done,
      (s.after done).ServedBy l st := by
  intro s segment
  have hpath : (s.trace loads segment).map Loaded.path = ["/kpl.so"] := by decide +kernel
  obtain ⟨-, hparsers, hannounced, -, hserved⟩ := loaded_until_forgotten
    (.naming (.exporting [])) [.operation .language, .operation .forget] segment (by decide) rfl
    (by simp [segment])
  refine ⟨by decide +kernel, hparsers.trans hpath, ?_, ?_⟩
  · have hevents := congrArg (List.map Loader.loadedEvent) hpath
    rw [List.map_map] at hevents
    exact hannounced.trans hevents
  · intro done st rest hs l hl
    exact (hserved done st rest hs l hl).1

/-- A library may well open twice without being forgotten in between: one without the parser symbol
does not get loaded. -/
theorem opened_twice_without_symbol : ¬ ∀ (w : World) (segment : List Step),
    (∀ st ∈ segment, st.isOwn) → Step.operation .forget ∉ segment →
      ((start w).account segment).opened.length ≤ 1 := by
  intro h
  have hopened : ((start (.naming (.exporting []))).account
      [.operation .language, .operation .language]).opened = ["/kpl.so", "/kpl.so"] := by
    decide +kernel
  have hle := h (.naming (.exporting [])) [.operation .language, .operation .language]
    (by decide) (by simp)
  rw [hopened] at hle
  exact absurd hle (by decide)

end Session

end GrammarLoader
