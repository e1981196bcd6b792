import GrammarLoader.Proofs.Loader.Source

/-!
# Contracts of actions

A contract says what actions keep to: an invariant of the process, what may be done in a row, and
which faults may come out. Whatever is built from actions under a contract is under it, so for an
operation it is enough to look at its load, its search and what it does to the process; the faults
of foreign code are told apart from those of the binding.
-/

namespace GrammarLoader

/-- The fault comes from a call of foreign code: the call fails, or what it gives cannot be tested
for truth. -/
def Fault.ComesFrom (f : Fault) (call : Except Fault Object) : Prop :=
  call = .error f ∨ ∃ o, call = .ok o ∧ o.truth = .error f

/-- The faults of the foreign code that an operation may run: of the linker, of the parser, of the
engine and of the caller. -/
inductive ForeignFault (w : World) (p : Process) (o : Operation) : Fault → Prop
  /-- The text of one of them fails to be made. -/
  | text {f g : Fault} (hf : ForeignFault w p o f) (ht : f.text = .error g) : ForeignFault w p o g
  | refusal {path : String} {library : Library} {f : Fault}
    (hl : w.libraries.lookup path = some library) (hf : library.refusal = some f) :
    ForeignFault w p o f
  | absence {path : String} {library : Library} (hl : w.libraries.lookup path = some library) :
    ForeignFault w p o (library.absence Loader.symbolName)
  | parser {path : String} {library : Library} {f : Fault}
    (hl : w.libraries.lookup path = some library) (hf : f.ComesFrom library.call) :
    ForeignFault w p o f
  | loadedParser {l : Loaded} {f : Fault} (hl : p.loaded = some l)
    (hf : f.ComesFrom l.symbol.call) : ForeignFault w p o f
  | engine {descriptor : Object} {f : Fault} (hf : f.ComesFrom (w.engine descriptor)) :
    ForeignFault w p o f
  | factory {name : Value} {engine : Option Engine} {f : Fault}
    (ho : o = .verify name (some (.error f)) engine) : ForeignFault w p o f
  | givenEngine {name : Value} {factory : Option (Except Fault Object)} {engine : Engine}
    {descriptor : Object} {f : Fault} (ho : o = .verify name factory (some engine))
    (hf : f.ComesFrom (engine descriptor)) : ForeignFault w p o f

/-- Wrapping fails if the truth test does, or else with an error of its own. -/
theorem Object.wrap_error_cases {o : Object} {f : Fault} (h : o.wrap = .error f) :
    o.truth = .error f ∨ f = ↑Failure.nullAddress ∨ f = ↑Failure.notAddress := by
  have hcapsule {n : Int} (hn : capsuleOf n = .error f) : f = ↑Failure.nullAddress := by
    unfold capsuleOf at hn
    dsimp only at hn
    split at hn
    · exact (Except.error.inj hn).symm
    · cases hn
  unfold wrap at h
  cases ht : o.truth with
  | error g =>
    rw [ht] at h
    exact .inl (congrArg Except.error (Except.error.inj h))
  | ok b =>
    rw [ht] at h
    cases b with
    | false => cases h
    | true =>
      simp only [bind, Except.bind, if_true] at h
      split at h
      · exact .inr (.inl (hcapsule h))
      · exact .inr (.inl (hcapsule h))
      · cases h
      · exact .inr (.inr (Except.error.inj h).symm)

/-- A fault that a process ends with is that of its check. -/
theorem Smoke.eq_error_of_exitStatus {answer : Except Fault Nat} {f : Fault}
    (h : exitStatus answer = .error f) : answer = .error f := by
  unfold exitStatus at h
  split at h
  · cases h
  · split at h
    · rw [Except.error.inj h]
    all_goals cases h

/-- Operations that configure logging. -/
def Operation.configures : Operation → Bool
  | configureLogging _ _ | smoke | smokeProcess => true
  | _ => false

/-- What actions keep to. What may be done in a row may be done in two rows. -/
structure Contract where
  keeps : Process → Prop
  does : List Effect → Prop
  fails : Fault → Prop
  does_nil : does []
  does_append : ∀ {first second : List Effect}, does first → does second → does (first ++ second)

namespace Contract

/-- An outcome within a contract, and what is known of its value. -/
structure Allows (c : Contract) {α : Type} (gives : α → Prop) (outcome : Outcome α) : Prop where
  process : c.keeps outcome.process
  effects : c.does outcome.effects
  fault : ∀ f, outcome.answer = .error f → c.fails f
  value : ∀ a, outcome.answer = .ok a → gives a

/-- An action under a contract. -/
def Binds (c : Contract) (w : World) {α : Type} (gives : α → Prop) (x : Action α) : Prop :=
  ∀ p, c.keeps p → c.Allows gives (x w p)

section Building

variable {c : Contract} {w : World} {α β : Type} {gives : α → Prop} {yields : β → Prop}

theorem Binds.weaken {x : Action α} {gives' : α → Prop} (h : c.Binds w gives x)
    (hg : ∀ a, gives a → gives' a) : c.Binds w gives' x := by
  intro p hp
  obtain ⟨hprocess, heffects, hfault, hvalue⟩ := h p hp
  exact ⟨hprocess, heffects, hfault, fun a ha => hg a (hvalue a ha)⟩

theorem binds_ofExcept {r : Except Fault α} (hf : ∀ f, r = .error f → c.fails f)
    (hv : ∀ a, r = .ok a → gives a) : c.Binds w gives (Action.ofExcept r) :=
  fun _ hp => ⟨hp, c.does_nil, hf, hv⟩

theorem binds_ofFailure {r : Except Failure α} (hf : ∀ f, r = .error f → c.fails ↑f)
    (hv : ∀ a, r = .ok a → gives a) : c.Binds w gives (Action.ofFailure r) := by
  cases r with
  | ok a => exact binds_ofExcept nofun fun _ ha => hv _ (congrArg _ (Except.ok.inj ha))
  | error f => exact binds_ofExcept (fun _ hg => Except.error.inj hg ▸ hf f rfl) nofun

theorem binds_world : c.Binds w (fun around => around = w) Action.world :=
  fun _ hp => ⟨hp, c.does_nil, nofun, fun _ ha => (Except.ok.inj ha).symm⟩

theorem binds_pure {a : α} (h : gives a) : c.Binds w gives (pure a) :=
  binds_ofExcept (r := .ok a) nofun fun _ ha => Except.ok.inj ha ▸ h

theorem binds_fail {f : Fault} (h : c.fails f) : c.Binds w gives (Action.fail f) :=
  binds_ofExcept (r := .error f) (fun _ hf => Except.error.inj hf ▸ h) nofun

theorem binds_perform {e : Effect} (h : c.does [e]) :
    c.Binds w (fun _ => True) (Action.perform e) :=
  fun _ hp => ⟨hp, h, nofun, fun _ _ => trivial⟩

theorem binds_modify {change : Process → Process} (h : ∀ p, c.keeps p → c.keeps (change p)) :
    c.Binds w (fun _ => True) (Action.modify change) :=
  fun p hp => ⟨h p hp, c.does_nil, nofun, fun _ _ => trivial⟩

theorem Binds.bind {x : Action α} {f : α → Action β} (h : c.Binds w gives x)
    (hf : ∀ a, gives a → c.Binds w yields (f a)) : c.Binds w yields (x >>= f) := by
  intro p hp
  obtain ⟨hprocess, heffects, hfault, hvalue⟩ := h p hp
  cases hx : (x w p).answer with
  | ok a =>
    rw [Action.bind_of_ok hx]
    -- the second action starts from a process that the first one has kept
    obtain ⟨hprocess', heffects', hfault', hvalue'⟩ := hf a (hvalue a hx) _ hprocess
    exact ⟨hprocess', c.does_append heffects heffects', hfault', hvalue'⟩
  | error fault =>
    rw [Action.bind_of_error hx]
    exact ⟨hprocess, heffects, fun _ hf => Except.error.inj hf ▸ hfault fault hx, nofun⟩

theorem Binds.orRecover {x : Action α} {handle : Fault → Action α} (h : c.Binds w gives x)
    (hh : ∀ f, c.fails f → c.Binds w gives (handle f)) :
    c.Binds w gives (x.orRecover handle) := by
  intro p hp
  obtain ⟨hprocess, heffects, hfault, hvalue⟩ := h p hp
  cases hx : (x w p).answer with
  | ok a =>
    rw [Action.orRecover_of_ok hx]
    exact ⟨hprocess, heffects, nofun, fun _ ha => Except.ok.inj ha ▸ hvalue a hx⟩
  | error fault =>
    cases ho : fault.failure.isOrdinary with
    | true =>
      rw [Action.orRecover_of_ordinary hx ho]
      obtain ⟨hprocess', heffects', hfault', hvalue'⟩ := hh fault (hfault fault hx) _ hprocess
      exact ⟨hprocess', c.does_append heffects heffects', hfault', hvalue'⟩
    | false =>
      rw [Action.orRecover_of_not_ordinary hx ho]
      exact ⟨hprocess, heffects, fun _ hf => Except.error.inj hf ▸ hfault fault hx, nofun⟩

theorem Binds.verdictOf {check : Action Object} (h : c.Binds w (fun _ => True) check) :
    c.Binds w (fun _ => True) (Smoke.verdictOf check) := by
  intro p hp
  obtain ⟨hprocess, heffects, hfault, -⟩ := h p hp
  refine ⟨?_, ?_, fun f hf => hfault f ?_, fun _ _ => trivial⟩
  · rwa [Smoke.verdictOf_process]
  · rwa [Smoke.verdictOf_effects]
  · rw [Smoke.verdictOf_answer] at hf
    split at hf
    · cases hf
    · rename_i hanswer
      split at hf
      · cases hf
      · rw [hanswer, Except.error.inj hf]

end Building

/-- A library whose parser fails within the contract. -/
def Trusts (c : Contract) (l : Loaded) : Prop := ∀ f : Fault, f.ComesFrom l.symbol.call → c.fails f

/-- An object whose truth test fails within the contract. -/
def Tests (c : Contract) (o : Object) : Prop := ∀ f, o.truth = .error f → c.fails f

theorem binds_attempt {c : Contract} {w : World} {gives : Object → Prop} {factory : Action Object}
    {engine : Object → Action Object} (hn : gives .null) (hf : c.Binds w (fun _ => True) factory)
    (he : ∀ d, c.Binds w gives (engine d)) : c.Binds w gives (Check.attempt factory engine) := by
  refine hf.bind fun descriptor _ => ?_
  cases descriptor.isNull with
  | true => exact binds_pure hn
  | false => exact he descriptor

/-- What a contract has to allow for everything that is done with a library, by what is known of the
values that reports hold: texts, and the names of grammars. -/
structure Serves (c : Contract) (w : World) (holds : Value → Prop) : Prop where
  texts : ∀ s, holds (.str s)
  calls : ∀ symbol, c.does [.called symbol]
  engages : ∀ descriptor, c.does [.engaged descriptor]
  logs : ∀ e : Logging.Event, e.IsReport → (∀ entry ∈ e.entries, holds entry.2) →
    c.Binds w (fun _ => True) (Action.log e)
  /-- The binding's own errors of a null address and of a value that is none. -/
  wraps : c.fails ↑Failure.nullAddress ∧ c.fails ↑Failure.notAddress
  /-- A text that is not made. -/
  silences : ∀ f g : Fault, c.fails f → f.text = .error g → c.fails g
  /-- The error of a check, with and without a cause. -/
  rejects : ∀ name f, c.fails f → c.fails (.dueTo (.grammarRejected name) f)
  empties : ∀ name : Value, c.fails ↑(Failure.grammarRejected name)

section Loading

variable {c : Contract} {w : World} {found : String → Prop} {gives : Loaded → Prop}

/-- The search does nothing but search, and leaves the process as it is. -/
theorem binds_locate (hsearch : ∀ effects : List Effect, (∀ e ∈ effects, e.isSearch) →
    c.does effects) (hf : ∀ p f, (Search.locate w p).answer = .error f → c.fails f)
    (hv : ∀ p path, (Search.locate w p).answer = .ok path → found path) :
    c.Binds w found Search.locate := by
  intro p hp
  exact ⟨by rwa [Search.locate_process], hsearch _ fun _ => Search.isSearch_of_mem_locate, hf p,
    hv p⟩

/-- What a contract has to allow for a load, by what is known of the paths that are found and of the
libraries that are loaded. -/
structure Loads (c : Contract) (w : World) (found : String → Prop) (gives : Loaded → Prop) :
    Prop where
  opens : ∀ path, found path → c.does [.opened path]
  refuses : ∀ path f, w.opening path = .error f → c.fails (Loader.openingFault path f)
  lacks : ∀ path library f, w.opening path = .ok library →
    Loader.parserSymbol path library = .error f → c.fails f
  announces : ∀ path, c.Binds w (fun _ => True) (Action.log (Loader.loadedEvent path))
  remembers : ∀ p l, c.keeps p → found l.path → w.Provides l → c.keeps { p with loaded := some l }
  remembered : ∀ p l, c.keeps p → p.loaded = some l → gives l

namespace Loads

variable (h : c.Loads w found gives) (hlocate : c.Binds w found Search.locate)
include h hlocate

theorem loadAnew :
    c.Binds w (fun l => found l.path ∧ w.Provides l) Loader.loadAnew := by
  refine hlocate.bind fun path hpath => ?_
  have hopen : c.Binds w (fun library => w.opening path = .ok library)
      ((Loader.openLibrary path).mapFault (Loader.openingFault path)) := by
    intro p hp
    rw [Loader.openingGuarded_apply]
    refine ⟨hp, h.opens path hpath, fun f hf => ?_, fun library hl => ?_⟩
    · cases ho : w.opening path with
      | ok library =>
        rw [ho] at hf
        cases hf
      | error f =>
        rw [ho] at hf
        cases hf
        exact h.refuses path f ho
    · cases ho : w.opening path with
      | ok library =>
        rw [ho] at hl
        rw [Except.ok.inj hl]
      | error f =>
        rw [ho] at hl
        cases hl
  refine hopen.bind fun library ho => ?_
  have hsymbol : c.Binds w (fun symbol => w.Provides ⟨path, symbol⟩)
      (Action.ofExcept (Loader.parserSymbol path library)) := by
    refine binds_ofExcept (h.lacks path library · ho) fun symbol hs => ?_
    unfold Loader.parserSymbol at hs
    split at hs
    · rename_i hexports
      exact ⟨library, ho, hexports, (Except.ok.inj hs).symm⟩
    · cases hs
  refine hsymbol.bind fun symbol hprovides => ?_
  exact (h.announces path).bind fun _ _ => binds_pure ⟨hpath, hprovides⟩

theorem load : c.Binds w gives Loader.load := by
  intro p hp
  cases hl : p.loaded with
  | some l =>
    rw [Loader.load_of_loaded hl]
    exact ⟨hp, c.does_nil, nofun, fun _ hl' => Except.ok.inj hl' ▸ h.remembered p l hp hl⟩
  | none =>
    obtain ⟨-, heffects, hfault, hvalue⟩ := h.loadAnew hlocate p hp
    cases ha : (Loader.loadAnew w p).answer with
    | error f =>
      rw [Loader.load_of_error hl ha]
      exact ⟨hp, heffects, fun _ hf => Except.error.inj hf ▸ hfault f ha, nofun⟩
    | ok l =>
      obtain ⟨hpath, hprovides⟩ := hvalue l ha
      -- only a library whose path has just been found is remembered
      have hnext := h.remembers p l hp hpath hprovides
      rw [Loader.load_of_ok hl ha]
      exact ⟨hnext, heffects, nofun, fun _ hl' => Except.ok.inj hl' ▸ h.remembered _ l hnext rfl⟩

end Loads

end Loading

namespace Serves

variable {c : Contract} {w : World} {holds : Value → Prop} (h : c.Serves w holds)
include h

/-- A report whose only entry is a text. -/
theorem logs_text {e : Logging.Event} (he : e.IsReport) {key text : String}
    (hentries : e.entries = [(key, .str text)]) : c.Binds w (fun _ => True) (Action.log e) := by
  refine h.logs e he fun entry hentry => ?_
  rw [hentries, List.mem_singleton] at hentry
  rw [hentry]
  exact h.texts text

theorem logs_rejected {name : Value} (hname : holds name) (reason : String) :
    c.Binds w (fun _ => True) (Action.log (Check.failedEvent name reason)) :=
  h.logs _ (.rejected name reason) (List.forall_mem_cons.mpr
    ⟨hname, List.forall_mem_singleton.mpr (h.texts reason)⟩)

theorem describe {l : Loaded} (hl : c.Trusts l) :
    c.Binds w (fun _ => True) (Loader.describe l) := by
  have hcall : c.Binds w c.Tests (Loader.callSymbol l.symbol) := by
    refine (binds_perform (h.calls _)).bind fun _ _ => binds_ofExcept ?_ ?_
    · exact fun f hf => hl f (.inl hf)
    · exact fun o ho f hf => hl f (.inr ⟨o, ho, hf⟩)
  refine hcall.bind fun address ha => ?_
  have hwrap : c.Binds w (fun _ => True) (Action.ofExcept address.wrap) := by
    refine binds_ofExcept (fun f hf => ?_) fun _ _ => trivial
    obtain ht | rfl | rfl := Object.wrap_error_cases hf
    · exact ha f ht
    · exact h.wraps.1
    · exact h.wraps.2
  refine hwrap.bind fun descriptor _ => ?_
  cases descriptor.isNull with
  | true => exact (h.logs_text (.noGrammar _) rfl).bind fun _ _ => binds_pure trivial
  | false => exact binds_pure trivial

theorem language (hload : c.Binds w c.Trusts Loader.load) :
    c.Binds w (fun _ => True) (Loader.languageFrom Loader.load) :=
  hload.bind fun _ hl => h.describe hl

theorem engage {engine : Engine} {descriptor : Object}
    (he : ∀ f : Fault, f.ComesFrom (engine descriptor) → c.fails f) :
    c.Binds w c.Tests (Check.engage engine descriptor) := by
  refine (binds_perform (h.engages descriptor)).bind fun _ _ => binds_ofExcept ?_ ?_
  · exact fun f hf => he f (.inl hf)
  · exact fun o ho f hf => he f (.inr ⟨o, ho, hf⟩)

theorem engageWorld {descriptor : Object}
    (he : ∀ f : Fault, f.ComesFrom (w.engine descriptor) → c.fails f) :
    c.Binds w c.Tests (Check.engageWorld descriptor) :=
  fun p hp => h.engage he p hp

theorem verify {name : Value} (hname : holds name) {factory : Action Object}
    {engine : Object → Action Object} (hf : c.Binds w (fun _ => True) factory)
    (he : ∀ d, c.Binds w c.Tests (engine d)) :
    c.Binds w (fun _ => True) (Check.verify name factory engine) := by
  have hreport (f : Fault) (hfails : c.fails f) : c.Binds w c.Tests (Check.report name f) := by
    have htext : c.Binds w (fun _ => True) (Action.ofExcept f.text) :=
      binds_ofExcept (fun g => h.silences f g hfails) fun _ _ => trivial
    exact htext.bind fun _ _ =>
      (h.logs_rejected hname _).bind fun _ _ => binds_fail (h.rejects name f hfails)
  refine ((binds_attempt nofun hf he).orRecover hreport).bind fun language hl => ?_
  have htruth : c.Binds w (fun _ => True) (Action.ofExcept language.truth) :=
    binds_ofExcept hl fun _ _ => trivial
  refine htruth.bind fun full _ => ?_
  cases full with
  | true => exact binds_pure trivial
  | false => exact (h.logs_rejected hname _).bind fun _ _ => binds_fail (h.empties name)

/-- The smoke check after logging is configured. -/
theorem smokeChecked (hload : c.Binds w c.Trusts Loader.load)
    (he : ∀ d (f : Fault), f.ComesFrom (w.engine d) → c.fails f) :
    c.Binds w (fun _ => True) (Smoke.verdictOf (Check.verify (.str Check.grammarName)
      (Loader.languageFrom Loader.load) Check.engageWorld) >>= Smoke.conclude) := by
  have hcheck := h.verify (h.texts Check.grammarName) (h.language hload) fun d =>
    h.engageWorld (he d)
  refine hcheck.verdictOf.bind fun verdict _ => ?_
  cases verdict with
  | none => exact (h.logs_text .passed rfl).bind fun _ _ => binds_pure trivial
  | some rejected => exact (h.logs_text (.failed _) rfl).bind fun _ _ => binds_pure trivial

theorem engineOr {q : Process} {name : Value} {factory : Option (Except Fault Object)}
    {engine : Option Engine}
    (hf : ∀ f, ForeignFault w q (.verify name factory engine) f → c.fails f) (d : Object) :
    c.Binds w c.Tests (Operation.engineOr engine d) := by
  cases engine with
  | some e => exact h.engage fun f he => hf f (.givenEngine rfl he)
  | none => exact h.engageWorld fun f he => hf f (.engine he)

/-- The operations of the binding are under a contract that their parts are under. -/
theorem own {o : Operation} (ho : o.isOwn) {q : Process}
    (hnames : ∀ {name factory engine}, o = .verify name factory engine → holds name)
    (hforeign : ∀ f, ForeignFault w q o f → c.fails f)
    (hload : c.Binds w c.Trusts Loader.load)
    (hlocate : c.Binds w (fun _ => True) Search.locate)
    (hcandidates : ∀ f, Search.candidates w = .error f → c.fails ↑f)
    (hforget : ∀ p, c.keeps p → c.keeps { p with loaded := none })
    (hclear : ∀ p, c.keeps p → c.keeps { p with context := [] })
    (hconfigure : o.configures → ∀ level format,
      c.Binds w (fun _ => True) (Action.configureLogging level format)) :
    c.Binds w (fun _ => True) o.run := by
  have hsmoke (hc : o.configures) : c.Binds w (fun _ => True) (Smoke.runFrom Loader.load) :=
    (hconfigure hc _ _).bind fun _ _ =>
      h.smokeChecked hload fun d f hf => hforeign f (.engine hf)
  rw [← Operation.runFrom_load]
  cases o with
  | message | bindContext => cases ho
  | language => exact (h.language hload).bind fun _ _ => binds_pure trivial
  | libraryPath => exact hload.bind fun _ _ => binds_pure trivial
  | forget => exact (binds_modify hforget).bind fun _ _ => binds_pure trivial
  | clearContext => exact (binds_modify hclear).bind fun _ _ => binds_pure trivial
  | locate => exact hlocate.bind fun _ _ => binds_pure trivial
  | settings => exact fun p hp => ⟨hp, c.does_nil, nofun, fun _ _ => trivial⟩
  | candidates =>
    refine binds_world.bind fun around ha => ?_
    subst ha
    exact (binds_ofFailure hcandidates fun _ _ => trivial).bind fun _ _ => binds_pure trivial
  | verify name factory engine =>
    cases factory with
    | none =>
      exact (h.verify (hnames rfl) (h.language hload) (h.engineOr hforeign)).bind fun _ _ =>
        binds_pure trivial
    | some made =>
      have hmade : c.Binds w (fun _ => True) (Action.ofExcept made) :=
        binds_ofExcept (fun f hf => hforeign f (.factory (by rw [hf]))) fun _ _ => trivial
      have hcheck := h.verify (hnames rfl) hmade (h.engineOr hforeign)
      cases engine <;> exact hcheck.bind fun _ _ => binds_pure trivial
  | configureLogging level format =>
    exact (hconfigure rfl level format).bind fun _ _ => binds_pure trivial
  | smoke => exact (hsmoke rfl).bind fun _ _ => binds_pure trivial
  | smokeProcess =>
    intro p hp
    obtain ⟨hprocess, heffects, hfault, -⟩ := hsmoke rfl p hp
    refine ⟨hprocess, heffects, ?_, fun _ _ => trivial⟩
    intro f hf
    -- the end of a process changes some faults into a status and makes none
    apply hfault
    apply Smoke.eq_error_of_exitStatus
    have hended : (Smoke.exitStatus (Smoke.runFrom Loader.load w p).answer).map Answer.exit =
        .error f := hf
    cases hs : Smoke.exitStatus (Smoke.runFrom Loader.load w p).answer with
    | ok status =>
      rw [hs] at hended
      cases hended
    | error g =>
      rw [hs] at hended
      rw [Except.error.inj hended]

end Serves

end Contract

end GrammarLoader
