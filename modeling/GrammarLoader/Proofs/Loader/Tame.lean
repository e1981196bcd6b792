import GrammarLoader.Proofs.Session.Trace

/-!
# Tame libraries

What the loader relies on: a library that does not open fails by an error of the system that has a
text, and the parser symbol gives an address, or nothing. In worlds that keep to this, whatever a
process has loaded does too, also after the world has changed.
-/

namespace GrammarLoader

/-- What a parser symbol is promised to give: nothing, a number of 64 bits or a grammar's table. -/
inductive GivesAddress : Except Fault Object → Prop
  | nothing : GivesAddress (.ok .null)
  | number {n : Integer} (hlow : 0 ≤ n.value) (hhigh : n.value < UInt64.size) :
    GivesAddress (.ok (.value (.int n)))
  | address (a : Address) : GivesAddress (.ok (.address a))

theorem Object.wrap_int {n : Integer} (hlow : 0 < n.value) (hhigh : n.value < UInt64.size) :
    (Object.value (.int n)).wrap = .ok (.capsule (.number (UInt64.ofInt n.value))) := by
  have hne : n.value ≠ 0 := by omega
  have haddress : UInt64.ofInt n.value ≠ 0 := by
    intro h
    have hnat := congrArg UInt64.toNat h
    simp only [UInt64.ofInt, UInt64.toNat_ofNat', UInt64.toNat_zero] at hnat
    simp only [UInt64.size] at hhigh
    omega
  simp [wrap, truth, Value.isTrue, capsuleOf, hne, haddress, bind, Except.bind]

theorem Object.wrap_number {n : UInt64} (hn : n ≠ 0) :
    (Object.address (.number n)).wrap = .ok (.capsule (.number n)) := by
  simp [wrap, truth, hn, bind, Except.bind, pure, Except.pure]

theorem Object.eq_null_of_isNull {o : Object} (h : o.isNull) : o = .null := by
  unfold isNull at h
  split at h
  · rfl
  · cases h

theorem Object.isNull_iff {o : Object} : o.isNull ↔ o = .null := by
  constructor
  · exact Object.eq_null_of_isNull
  · rintro rfl
    rfl

/-- Such a gift can be wrapped. -/
theorem GivesAddress.wraps {r : Except Fault Object} (h : GivesAddress r) :
    ∃ address descriptor, r = .ok address ∧ address.wrap = .ok descriptor := by
  cases h with
  | nothing => exact ⟨_, .null, rfl, rfl⟩
  | @number n hlow hhigh =>
    by_cases hn : n.value = 0
    · refine ⟨_, .null, rfl, ?_⟩
      simp [Object.wrap, Object.truth, Value.isTrue, hn, bind, Except.bind, pure, Except.pure]
    · exact ⟨_, _, rfl, Object.wrap_int (by omega) hhigh⟩
  | address a =>
    cases a with
    | table version => exact ⟨_, .capsule (.table version), rfl, rfl⟩
    | number n =>
      by_cases hn : n = 0
      · subst hn
        exact ⟨_, .null, rfl, rfl⟩
      · exact ⟨_, _, rfl, Object.wrap_number hn⟩

/-- A library that fails to open by an error of the system only, one with a text, and whose symbol
gives an address. -/
structure Library.IsTame (library : Library) : Prop where
  refusal : ∀ fault, library.refusal = some fault → fault.failure.isSystem ∧ fault.HasText
  call : GivesAddress library.call

/-- A world with tame libraries. -/
def World.IsTame (w : World) : Prop :=
  ∀ path library, w.libraries.lookup path = some library → library.IsTame

/-- A process that has loaded a tame library, if any. -/
def Process.IsTame (p : Process) : Prop := ∀ l, p.loaded = some l → GivesAddress l.symbol.call

section Tame

variable {w : World} (hw : w.IsTame)
include hw

theorem World.IsTame.fault_of_opening {path : String} {fault : Fault}
    (h : w.opening path = .error fault) : fault.failure.isSystem ∧ fault.HasText := by
  obtain rfl | ⟨library, hl, hr⟩ := opening_error_cases h
  · exact ⟨rfl, _, rfl⟩
  · exact (hw path library hl).refusal fault hr

theorem World.IsTame.call_of_provides {l : Loaded} (h : w.Provides l) :
    GivesAddress l.symbol.call := by
  obtain ⟨library, ho, -, hs⟩ := h
  rw [hs]
  exact (hw l.path library (lookup_of_opening ho)).call

end Tame

namespace Simulation

theorem accumulates_true : Accumulates fun _ _ _ => True :=
  ⟨fun _ => trivial, fun _ _ => trivial⟩

/-- The simulation of actions that load tame libraries only, whatever they do. -/
def tame (w : World) : Simulation :=
  itself w Process.IsTame accumulates_true

variable {w : World}

theorem tame_relates_log (e : Logging.Event) : (tame w).Relates (Action.log e) (Action.log e) := by
  apply relates_itself_iff.mpr
  intro p hp
  rw [Action.log_process]
  exact ⟨hp, trivial⟩

theorem tame_allows (e : Effect) : (tame w).Allows e := by
  intro p q hpq
  exact ⟨rfl, trivial⟩

theorem tame_supports (w : World) : (tame w).Supports where
  calls _ := tame_allows _
  engages _ := tame_allows _
  engine := rfl
  logs e _ := tame_relates_log e
  configures level format := by
    apply relates_itself_iff.mpr
    intro p hp
    rw [Action.configureLogging_apply]
    split <;> exact ⟨hp, trivial⟩

theorem tame_relates_load (hw : w.IsTame) : (tame w).Relates Loader.load Loader.load := by
  apply relates_itself_iff.mpr
  intro p hp
  refine ⟨?_, trivial⟩
  cases hl : p.loaded with
  | some l =>
    rw [Loader.load_of_loaded hl]
    exact hp
  | none =>
    cases ha : (Loader.loadAnew w p).answer with
    | error fault =>
      rw [Loader.load_of_error hl ha]
      exact hp
    | ok l =>
      rw [Loader.load_of_ok hl ha]
      have hattempt := Loader.loadAnew_attempt w p
      generalize Loader.loadAnew w p = outcome at ha hattempt
      intro m hm
      cases hm
      cases hattempt with
      | loaded hlocate hprovides hn =>
        cases ha
        exact hw.call_of_provides hprovides
      | notFound | notOpened | noSymbol | notAnnounced => cases ha

end Simulation

theorem Message.log_process (m : Message) (w : World) (p : Process) :
    (m.log w p).process = p := by
  obtain h | ⟨f, -, h⟩ | ⟨e, -, h⟩ := m.log_cases w p <;> rw [h]
  exact Action.log_process e w p

/-- No operation loads another library than one of the world, nor changes the one that is loaded. -/
theorem Operation.isTame_run {w : World} {p : Process} (hw : w.IsTame) (hp : p.IsTame)
    (o : Operation) : (o.run w p).process.IsTame := by
  cases ho : o.isOwn with
  | true =>
    have hown : (Simulation.tame w).Relates (o.runFrom Loader.load) (o.runFrom Loader.load) := by
      refine (Simulation.tame_supports w).anyOwn (.refl w) (Simulation.tame_relates_load hw) ho
        (fun _ _ => Simulation.tame_allows _) (fun _ => Simulation.Supports.settings rfl) ?_ ?_
      · apply Simulation.relates_itself_iff.mpr
        intro q hq
        exact ⟨nofun, trivial⟩
      · apply Simulation.relates_itself_iff.mpr
        intro q hq
        exact ⟨hq, trivial⟩
    rw [runFrom_load] at hown
    exact (Simulation.relates_itself_iff.mp hown p hp).1
  | false =>
    cases o with
    | message m =>
      show ((m.log >>= fun _ => pure Answer.nothing) w p).process.IsTame
      rw [Action.bind_pure_apply, m.log_process]
      exact hp
    | bindContext entries => exact hp
    | _ => cases ho

theorem Session.isTame_after {s : Session} {steps : List Step}
    (hw : ∀ done, done <+: steps → (s.after done).world.IsTame)
    (hp : s.process.IsTame) : (s.after steps).process.IsTame := by
  induction steps generalizing s with
  | nil => exact hp
  | cons st rest ih =>
    apply ih
    · intro done hdone
      exact hw (st :: done) (List.cons_prefix_cons.mpr ⟨rfl, hdone⟩)
    · cases st with
      | operation o => exact Operation.isTame_run (hw [] List.nil_prefix) hp o
      | change c =>
        rw [step_change_process]
        exact hp

end GrammarLoader
