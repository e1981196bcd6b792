import GrammarLoader.Proofs.Search.Locating
import GrammarLoader.Proofs.Settings.Valid
import Mathlib.Data.List.Forall2

/-!
# Where the search breaks off

With valid settings the search either finds the library, or lists the places where it is not, or
breaks off. It breaks off at the first place that cannot be looked at: a configured text that does
not become a path, or a path that the system does not let be checked. Nothing else is an error to
it.
-/

namespace GrammarLoader

/-- A walk through a list succeeds if it does at each item. -/
theorem mapM_eq_ok_iff {α β ε : Type} {f : α → Except ε β} {items : List α} {bs : List β} :
    items.mapM f = .ok bs ↔ List.Forall₂ (fun v b => f v = .ok b) items bs := by
  constructor
  · intro h
    induction items generalizing bs with
    | nil =>
      cases h
      exact .nil
    | cons v items ih =>
      rw [List.mapM_cons] at h
      cases hv : f v with
      | error e =>
        rw [hv] at h
        cases h
      | ok b =>
        cases hrest : items.mapM f with
        | error e =>
          rw [hv, hrest] at h
          cases h
        | ok rest =>
          rw [hv, hrest] at h
          cases h
          exact .cons hv (ih hrest)
  · intro h
    induction h with
    | nil => rfl
    | cons hv _ ih =>
      rw [List.mapM_cons, hv, ih]
      rfl

/-- A walk through a list fails with the first item that fails. -/
theorem mapM_eq_error_iff {α β ε : Type} {f : α → Except ε β} {items : List α} {e : ε} :
    items.mapM f = .error e ↔ ∃ before v rest, items = before ++ v :: rest ∧
      (∀ v' ∈ before, ∃ b, f v' = .ok b) ∧ f v = .error e := by
  constructor
  · intro h
    induction items with
    | nil => cases h
    | cons v items ih =>
      rw [List.mapM_cons] at h
      cases hv : f v with
      | error e' =>
        simp only [hv, bind, Except.bind] at h
        cases h
        exact ⟨[], v, items, rfl, by simp, hv⟩
      | ok b =>
        cases htail : items.mapM f with
        | ok bs =>
          simp only [hv, htail, bind, Except.bind, pure, Except.pure] at h
          cases h
        | error e' =>
          simp only [hv, htail, bind, Except.bind] at h
          cases h
          obtain ⟨before, v', rest, rfl, hbefore, hv'⟩ := ih htail
          exact ⟨v :: before, v', rest, rfl, List.forall_mem_cons.mpr ⟨⟨b, hv⟩, hbefore⟩, hv'⟩
  · rintro ⟨before, v, rest, rfl, hbefore, hv⟩
    induction before with
    | nil => simp [List.mapM_cons, hv, bind, Except.bind]
    | cons v' before ih =>
      obtain ⟨⟨b, hb⟩, hbefore⟩ := List.forall_mem_cons.mp hbefore
      simp [List.mapM_cons, hb, ih hbefore, bind, Except.bind]

namespace Search

/-- What keeps the search from coming to an end. -/
inductive BreaksOff (w : World) : PathError → Prop
  /-- The library that the settings name is no path. -/
  | named {text : String} {e : PathError} (hs : w.settings.library = .str text) (hn : text ≠ "")
    (he : configuredPath w text = .error e) : BreaksOff w e
  /-- It cannot be checked. -/
  | namedClosed {text : String} {p : Path} {a : AccessError} (hs : w.settings.library = .str text)
    (hn : text ≠ "") (hp : configuredPath w text = .ok p) (ha : isFile w p = .error a) :
    BreaksOff w (.noAccess a p.toString)
  /-- Some directory of the search path is no path, wherever in the search path it stands. -/
  | directory {before rest : List String} {text : String} {e : PathError}
    (hn : w.settings.library.isTrue = false)
    (hs : w.settings.searchPath = .list ((before ++ text :: rest).map .str))
    (hb : ∀ text' ∈ before, ∃ p, configuredPath w text' = .ok p)
    (he : configuredPath w text = .error e) : BreaksOff w e
  /-- A path cannot be checked, and there is no file before it. -/
  | candidate {before rest : List Path} {p : Path} {a : AccessError}
    (hn : w.settings.library.isTrue = false) (hc : candidates w = .ok (before ++ p :: rest))
    (hb : ∀ p' ∈ before, isFile w p' = .ok false) (ha : isFile w p = .error a) :
    BreaksOff w (.noAccess a p.toString)

section Breaking

variable {w : World}

theorem valuePath_str (text : String) :
    valuePath w (.str text) = match configuredPath w text with
      | .ok p => .ok p
      | .error e => .error (.path e) := by
  show (configuredPath w text).mapError Failure.path = _
  cases configuredPath w text <;> rfl

theorem valuePath_str_eq_error {text : String} {f : Failure} :
    valuePath w (.str text) = .error f ↔ ∃ e, configuredPath w text = .error e ∧ f = .path e := by
  rw [valuePath_str]
  cases configuredPath w text <;> simp [eq_comm]

theorem valuePath_str_eq_ok {text : String} {p : Path} :
    valuePath w (.str text) = .ok p ↔ configuredPath w text = .ok p := by
  rw [valuePath_str]
  cases configuredPath w text <;> simp

/-- The search for a library that the settings name depends on what its text becomes and on the
check of that. -/
theorem locate_named {text : String} (hs : w.settings.library = .str text) (hn : text ≠ "")
    (q : Process) : locate w q = match configuredPath w text with
    | .error e => ⟨.error ↑(Failure.path e), q, []⟩
    | .ok p => match isFile w p with
      | .ok true => ⟨.ok p.toString, q, checks [p]⟩
      | .ok false => ⟨.error ↑(Failure.libraryNotFound [p.toString]), q, checks [p]⟩
      | .error a => ⟨.error (closed a p), q, checks [p]⟩ := by
  have hisTrue : w.settings.library.isTrue := by simpa [hs, Value.isTrue] using hn
  rw [locate_of_named w q hisTrue, locateNamed_apply, hs]
  cases hp : configuredPath w text with
  | error e =>
    have hv : valuePath w (.str text) = .error (.path e) := valuePath_str_eq_error.mpr ⟨e, hp, rfl⟩
    rw [Action.bind_eq_of_error (Action.ofFailure_of_error hv)]
  | ok p =>
    rw [Action.bind_eq_of_ok (Action.ofFailure_of_ok (valuePath_str_eq_ok.mpr hp))]
    dsimp only
    cases hf : isFile w p with
    | error a => rw [Action.bind_eq_of_error (check_of_error w q hf), List.nil_append]
    | ok found =>
      rw [Action.bind_eq_of_ok (check_of_ok w q hf)]
      cases found <;> rfl

/-- A library that the settings name is found if it is a file. -/
theorem locate_of_named_file {text : String} {p : Path} (hs : w.settings.library = .str text)
    (hn : text ≠ "") (hp : configuredPath w text = .ok p) (hf : isFile w p = .ok true)
    (q : Process) : locate w q = ⟨.ok p.toString, q, checks [p]⟩ := by
  rw [locate_named hs hn q, hp]
  dsimp only
  rw [hf]

/-- The list of candidates fails with the first directory of the search path that is no path. -/
theorem candidates_eq_error_iff {texts : List String}
    (hs : w.settings.searchPath = .list (texts.map .str)) {f : Failure} :
    candidates w = .error f ↔ ∃ before text rest e, texts = before ++ text :: rest ∧
      (∀ text' ∈ before, ∃ p, configuredPath w text' = .ok p) ∧
      configuredPath w text = .error e ∧ f = .path e := by
  have hlist : candidates w = .error f ↔
      texts.mapM (fun text => valuePath w (.str text)) = .error f := by
    have hdirectories : searchDirectories w = texts.mapM (fun text => valuePath w (.str text)) := by
      unfold searchDirectories
      rw [hs]
      exact List.mapM_map
    unfold candidates
    rw [hdirectories]
    cases texts.mapM (fun text => valuePath w (.str text)) <;>
      simp [bind, Except.bind, pure, Except.pure]
  rw [hlist, mapM_eq_error_iff]
  simp only [valuePath_str_eq_error, valuePath_str_eq_ok]
  constructor
  · rintro ⟨before, text, rest, rfl, hb, e, he, rfl⟩
    exact ⟨before, text, rest, e, rfl, hb, he, rfl⟩
  · rintro ⟨before, text, rest, e, rfl, hb, he, rfl⟩
    exact ⟨before, text, rest, rfl, hb, e, he, rfl⟩

/-- Where the search ends, if it ends at a candidate. -/
theorem locate_first (hn : w.settings.library.isTrue = false) {before rest : List Path} {p : Path}
    (hc : candidates w = .ok (before ++ p :: rest)) (hb : ∀ p' ∈ before, isFile w p' = .ok false)
    (q : Process) :
    (isFile w p = .ok true → locate w q = ⟨.ok p.toString, q, checks (before ++ [p])⟩) ∧
    ∀ a, isFile w p = .error a →
      locate w q = ⟨.error (closed a p), q, checks (before ++ [p])⟩ := by
  have hchecks : checks before ++ checks [p] = checks (before ++ [p]) := by
    rw [checks, checks, checks, ← List.map_append]
  have hfirst := firstFile_append w q (p :: rest) hb
  constructor
  · intro hf
    rw [firstFile_of_file w q _ hf, hchecks] at hfirst
    rw [locate_of_not_named w q hn, locateListed_of_first w q hc hfirst]
  · intro a ha
    rw [firstFile_of_closed w q _ ha, hchecks] at hfirst
    rw [locate_of_not_named w q hn, locateListed_of_closed w q hc hfirst]

/-- With valid settings the search fails by breaking off or by listing where the library is not. -/
theorem locate_error_cases (hv : w.settings.Valid) {q : Process} {f : Fault}
    (h : (locate w q).answer = .error f) :
    (∃ e, BreaksOff w e ∧ f = ↑(Failure.path e)) ∨
      ∃ tried, f = ↑(Failure.libraryNotFound tried) := by
  -- valid settings name a library by a text, and the empty text names none
  have hnamed : w.settings.library.isTrue → ∃ text, w.settings.library = .str text ∧ text ≠ "" := by
    intro hn
    obtain hl | ⟨text, hl⟩ := hv.library
    · rw [hl] at hn
      cases hn
    · rw [hl] at hn
      exact ⟨text, hl, by simpa [Value.isTrue] using hn⟩
  have hl := locate_located w q
  generalize locate w q = outcome at h hl
  cases hl with
  | noPath hn hp =>
    cases h
    obtain ⟨text, ht, hne⟩ := hnamed hn
    rw [ht, valuePath_str_eq_error] at hp
    obtain ⟨e, he, rfl⟩ := hp
    exact .inl ⟨e, .named ht hne he, rfl⟩
  | namedClosed hn hp ha =>
    cases h
    obtain ⟨text, ht, hne⟩ := hnamed hn
    rw [ht, valuePath_str_eq_ok] at hp
    exact .inl ⟨_, .namedClosed ht hne hp ha, rfl⟩
  | noList hn hc =>
    cases h
    obtain ⟨texts, hs⟩ := hv.searchPath
    obtain ⟨before, text, rest, e, rfl, hb, he, rfl⟩ := (candidates_eq_error_iff hs).mp hc
    exact .inl ⟨e, .directory hn hs hb he, rfl⟩
  | listedClosed hn hc hb ha =>
    cases h
    exact .inl ⟨_, .candidate hn hc hb ha, rfl⟩
  | namedAbsent | absent =>
    cases h
    exact .inr ⟨_, rfl⟩
  | named | listed | system => cases h

/-- Where the search breaks off it comes to the error, whatever comes later in the search. -/
theorem BreaksOff.locate_answer {e : PathError} (h : BreaksOff w e) (q : Process) :
    (locate w q).answer = .error ↑(Failure.path e) := by
  cases h with
  | named hs hn he => rw [locate_named hs hn q, he]
  | namedClosed hs hn hp ha =>
    rw [locate_named hs hn q, hp]
    dsimp only
    rw [ha]
    rfl
  | directory hn hs hb he =>
    have hc := (candidates_eq_error_iff hs).mpr ⟨_, _, _, _, rfl, hb, he, rfl⟩
    rw [locate_of_not_named w q hn, locateListed_of_error w q hc]
  | candidate hn hc hb ha =>
    rw [(locate_first hn hc hb q).2 _ ha]
    rfl

end Breaking

end Search

end GrammarLoader
