import GrammarLoader.Proofs.Session.Trace

/-!
# Accounts of loads

An account says which libraries a stretch of a run opens with success, which of these have the
parser symbol, and which events of a library loaded it logs. Accounts of stretches in a row add up.
As long as the library is not forgotten an account fits what is loaded before and after: nothing is
loaded twice, each load is announced once, and nothing looks for a library while one is loaded.
-/

namespace GrammarLoader

/-- The event is that of a library loaded. -/
def Logging.Event.announces (e : Logging.Event) : Bool :=
  match e.subject with
  | .str "kpl_library_loaded" => true
  | _ => false

theorem Logging.Event.IsReport.announces {e : Logging.Event} (h : e.IsReport) :
    e.announces = false := by
  cases h <;> rfl

/-- What a stretch of a run shows of loads. -/
structure Account where
  /-- The libraries that open. -/
  opened : List String := []
  /-- The libraries that open and have the parser symbol. -/
  parsers : List String := []
  /-- The events of a library loaded. -/
  announced : List Logging.Event := []

namespace Account

/-- The account of two stretches in a row. -/
def append (a b : Account) : Account :=
  ⟨a.opened ++ b.opened, a.parsers ++ b.parsers, a.announced ++ b.announced⟩

/-- The account of what is done in a world. -/
def ofEffects (w : World) (effects : List Effect) : Account where
  opened := (openedPaths effects).filter w.opens
  parsers := (openedPaths effects).filter w.opensParser
  announced := (loggedEvents effects).filter Logging.Event.announces

theorem ofEffects_append (w : World) (first second : List Effect) :
    ofEffects w (first ++ second) = (ofEffects w first).append (ofEffects w second) := by
  simp [ofEffects, append]

theorem ofEffects_of_isSearch (w : World) {effects : List Effect}
    (h : ∀ e ∈ effects, e.isSearch) : ofEffects w effects = {} := by
  obtain ⟨ho, -, -, hl⟩ := views_of_isSearch h
  rw [ofEffects, ho, hl]
  rfl

/-- What an account may say, by the library loaded before and after. -/
inductive Fits : Option Loaded → Option Loaded → Account → Prop
  /-- Nothing is loaded: no library with the parser symbol has opened. -/
  | unloaded {a : Account} (hp : a.parsers = []) (ha : a.announced = []) : Fits none none a
  /-- A library is loaded, the last one that has opened. -/
  | loading {a : Account} {l : Loaded} (ho : a.opened.getLast? = some l.path)
    (hp : a.parsers = [l.path]) (ha : a.announced = [Loader.loadedEvent l.path]) :
    Fits none (some l) a
  /-- A library stays loaded: none is opened. -/
  | loaded {a : Account} {l : Loaded} (ha : a = {}) : Fits (some l) (some l) a

theorem Fits.refl (loaded : Option Loaded) : Fits loaded loaded {} := by
  cases loaded with
  | none => exact .unloaded rfl rfl
  | some l => exact .loaded rfl

theorem Fits.of_some {l : Loaded} {z : Option Loaded} {a : Account} (h : Fits (some l) z a) :
    z = some l ∧ a = {} := by
  cases h with
  | loaded ha => exact ⟨rfl, ha⟩

/-- An account from nothing loaded shows what is loaded in the end. -/
theorem Fits.of_none {z : Option Loaded} {a : Account} (h : Fits none z a) :
    a.parsers = z.toList.map Loaded.path ∧
      a.announced = z.toList.map (fun l => Loader.loadedEvent l.path) ∧
      ∀ l, z = some l → a.opened.getLast? = some l.path := by
  cases h with
  | unloaded hp ha => exact ⟨hp, ha, by simp⟩
  | loading ho hp ha =>
    refine ⟨hp, ha, ?_⟩
    intro m hm
    cases hm
    exact ho

theorem Fits.trans {x y z : Option Loaded} {a b : Account} (h : Fits x y a) (h' : Fits y z b) :
    Fits x z (a.append b) := by
  cases h with
  | unloaded hp ha =>
    cases h' with
    | unloaded hp' ha' => exact .unloaded (by simp [append, hp, hp']) (by simp [append, ha, ha'])
    | loading ho' hp' ha' =>
      refine .loading ?_ (by simp [append, hp, hp']) (by simp [append, ha, ha'])
      simp [append, List.getLast?_append, ho']
  | loading ho hp ha =>
    obtain ⟨rfl, rfl⟩ := h'.of_some
    exact .loading (by simpa [append] using ho) (by simpa [append] using hp)
      (by simpa [append] using ha)
  | loaded ha =>
    obtain ⟨rfl, rfl⟩ := h'.of_some
    exact .loaded (by rw [ha]; rfl)

end Account

/-- What a stretch of a process without forgetting keeps to. -/
structure KeepsAccount (w : World) (p p' : Process) (effects : List Effect) : Prop where
  /-- The account fits what is loaded before and after. -/
  fits : Account.Fits p.loaded p'.loaded (.ofEffects w effects)
  /-- A library that is loaded is one of the world. -/
  provides : ∀ l, p.loaded = none → p'.loaded = some l → w.Provides l
  /-- While a library is loaded none is looked for. -/
  quiet : p.loaded.isSome → ∀ e ∈ effects, e.isLookup = false

/-- What has no account and looks for nothing, and leaves what is loaded as it is. -/
theorem KeepsAccount.of_empty {w : World} {p p' : Process} {effects : List Effect}
    (hl : p'.loaded = p.loaded) (ha : Account.ofEffects w effects = {})
    (hq : ∀ e ∈ effects, e.isLookup = false) : KeepsAccount w p p' effects where
  fits := by
    rw [hl, ha]
    exact .refl _
  provides := by
    intro l hn hs
    rw [hl, hn] at hs
    cases hs
  quiet _ := hq

theorem KeepsAccount.trans {w : World} {p p' p'' : Process} {first second : List Effect}
    (h : KeepsAccount w p p' first) (h' : KeepsAccount w p' p'' second) :
    KeepsAccount w p p'' (first ++ second) where
  fits := by
    rw [Account.ofEffects_append]
    exact h.fits.trans h'.fits
  provides := by
    intro l hn hs
    -- the library comes with the first stretch, and stays, or with the second one
    cases hmid : p'.loaded with
    | none => exact h'.provides l hmid hs
    | some m =>
      have hfits := h'.fits
      rw [hmid, hs] at hfits
      obtain ⟨he, -⟩ := hfits.of_some
      exact h.provides l hn (hmid.trans he.symm)
  quiet := by
    intro hs e he
    obtain ⟨l, hl⟩ := Option.isSome_iff_exists.mp hs
    have hfits := h.fits
    rw [hl] at hfits
    obtain ⟨hl', -⟩ := hfits.of_some
    exact (List.mem_append.mp he).elim (h.quiet hs e) (h'.quiet (by rw [hl']; rfl) e)

namespace Simulation

theorem keepsAccount_accumulates (w : World) : Accumulates (KeepsAccount w) where
  refl _ := .of_empty rfl rfl (by simp)
  trans := .trans

/-- The simulation of actions that keep accounts. -/
def accounts (w : World) : Simulation :=
  itself w (fun p => p.context = []) (keepsAccount_accumulates w)

section Accounts

variable {w : World}

theorem accounts_relates_log {e : Logging.Event} (h : e.IsReport) :
    (accounts w).Relates (Action.log e) (Action.log e) := by
  apply relates_itself_iff.mpr
  intro p hc
  rw [Action.log_process]
  refine ⟨hc, .of_empty rfl ?_ fun effect he => Action.isLookup_of_mem_log e w p he⟩
  simp [Account.ofEffects, h.announces]

theorem accounts_relates_perform {e : Effect} (hlookup : e.isLookup = false)
    (haccount : Account.ofEffects w [e] = {}) : (accounts w).Allows e := by
  intro p q hpq
  exact ⟨rfl, .of_empty rfl haccount (by simp [hlookup])⟩

theorem accounts_relates_configureLogging (level format : Value) :
    (accounts w).Relates (Action.configureLogging level format)
      (Action.configureLogging level format) := by
  apply relates_itself_iff.mpr
  intro p hc
  rw [Action.configureLogging_apply]
  split <;> exact ⟨hc, .of_empty rfl rfl (by simp)⟩

theorem accounts_supports (w : World) : (accounts w).Supports where
  calls _ := accounts_relates_perform rfl rfl
  engages _ := accounts_relates_perform rfl rfl
  engine := rfl
  logs _ h := accounts_relates_log h
  configures := accounts_relates_configureLogging

/-- The account of a load that succeeds. -/
theorem account_of_loaded {p : Process} {l : Loaded} (hp : w.Provides l) :
    Account.ofEffects w ((Search.locate w p).effects ++ .opened l.path ::
      (Action.log (Loader.loadedEvent l.path) w p).effects) =
      ⟨[l.path], [l.path], [Loader.loadedEvent l.path]⟩ := by
  rw [Account.ofEffects_append,
    Account.ofEffects_of_isSearch w (fun _ => Search.isSearch_of_mem_locate),
    ← List.singleton_append,
    Account.ofEffects_append]
  have hopened : Account.ofEffects w [.opened l.path] = ⟨[l.path], [l.path], []⟩ := by
    simp [Account.ofEffects, openedPaths, loggedEvents, Effect.openedPath?, Effect.loggedEvent?,
      hp.opens, hp.opensParser]
  have hlogged : Account.ofEffects w (Action.log (Loader.loadedEvent l.path) w p).effects =
      ⟨[], [], [Loader.loadedEvent l.path]⟩ := by
    simp [Account.ofEffects]
    rfl
  rw [hopened, hlogged]
  rfl

/-- The account of an attempt that ends with a library opened in vain, or without one. -/
theorem account_of_not_loaded {p : Process} {path : String} (h : w.opensParser path = false) :
    (Account.ofEffects w ((Search.locate w p).effects ++ [.opened path])).parsers = [] ∧
      (Account.ofEffects w ((Search.locate w p).effects ++ [.opened path])).announced = [] := by
  rw [Account.ofEffects_append,
    Account.ofEffects_of_isSearch w (fun _ => Search.isSearch_of_mem_locate)]
  simp [Account.ofEffects, Account.append, openedPaths, loggedEvents, Effect.openedPath?,
    Effect.loggedEvent?, h]

/-- An attempt that fails leaves no account of a load. -/
theorem account_of_error {p : Process} (hc : p.context = []) {fault : Fault}
    (h : (Loader.loadAnew w p).answer = .error fault) :
    (Account.ofEffects w (Loader.loadAnew w p).effects).parsers = [] ∧
      (Account.ofEffects w (Loader.loadAnew w p).effects).announced = [] := by
  have hattempt := Loader.loadAnew_attempt w p
  generalize Loader.loadAnew w p = outcome at h hattempt
  cases hattempt with
  | notFound hl =>
    rw [Account.ofEffects_of_isSearch w (fun _ => Search.isSearch_of_mem_locate)]
    exact ⟨rfl, rfl⟩
  | notOpened hl ho => exact account_of_not_loaded (by rw [World.opensParser, ho])
  | noSymbol hl ho hs hf =>
    apply account_of_not_loaded
    rw [World.opensParser, ho]
    exact hs
  | notAnnounced hl hp hn =>
    rw [p.obstacle_of_context_nil hc] at hn
    cases hn
  | loaded hl hp hn => cases h

/-- An attempt that succeeds leaves the account of one. -/
theorem account_of_ok {p : Process} {l : Loaded} (h : (Loader.loadAnew w p).answer = .ok l) :
    w.Provides l ∧ Account.ofEffects w (Loader.loadAnew w p).effects =
      ⟨[l.path], [l.path], [Loader.loadedEvent l.path]⟩ := by
  have hattempt := Loader.loadAnew_attempt w p
  generalize Loader.loadAnew w p = outcome at h hattempt
  cases hattempt with
  | loaded hl hp hn =>
    cases h
    exact ⟨hp, account_of_loaded hp⟩
  | notFound | notOpened | noSymbol | notAnnounced => cases h

theorem accounts_relates_load : (accounts w).Relates Loader.load Loader.load := by
  apply relates_itself_iff.mpr
  intro p hc
  cases hloaded : p.loaded with
  | some l =>
    rw [Loader.load_of_loaded hloaded]
    exact ⟨hc, .of_empty rfl rfl (by simp)⟩
  | none =>
    cases ha : (Loader.loadAnew w p).answer with
    | error fault =>
      rw [Loader.load_of_error hloaded ha]
      obtain ⟨hparsers, hannounced⟩ := account_of_error hc ha
      refine ⟨hc, ?_, by simp [hloaded], by simp [hloaded]⟩
      rw [hloaded]
      exact .unloaded hparsers hannounced
    | ok l =>
      rw [Loader.load_of_ok hloaded ha]
      obtain ⟨hprovides, haccount⟩ := account_of_ok ha
      refine ⟨hc, ?_, ?_, by simp [hloaded]⟩
      · rw [hloaded, haccount]
        exact .loading rfl rfl rfl
      · intro m _ hm
        cases hm
        exact hprovides

theorem accounts_relates_own {o : Operation} (ho : o.isOwn) (hf : o ≠ .forget)
    (hl : o ≠ .locate) : (accounts w).Relates o.run o.run := by
  have hclear : (accounts w).Relates Operation.clearContext.run Operation.clearContext.run := by
    apply relates_itself_iff.mpr
    intro p _
    exact ⟨rfl, .of_empty rfl rfl (by rintro _ ⟨⟩)⟩
  rw [← Operation.runFrom_load]
  exact (accounts_supports w).own (.refl w) accounts_relates_load ho
    (fun _ => Supports.settings rfl) hclear hf hl

end Accounts

end Simulation

/-- Every operation of the binding keeps accounts, but for forgetting and for the bare search. -/
theorem Operation.keepsAccount {w : World} {p : Process} {o : Operation} (ho : o.isOwn)
    (hf : o ≠ .forget) (hl : o ≠ .locate) (hc : p.context = []) :
    KeepsAccount w p (o.run w p).process (o.run w p).effects ∧ (o.run w p).process.context = [] :=
  (Simulation.relates_itself_iff.mp (Simulation.accounts_relates_own ho hf hl) p hc).symm

end GrammarLoader
