import GrammarLoader.Proofs.FileTree.Walk
import Mathlib.Logic.Relation

/-!
# Where names lead

Link resolution keeps what it knows of the links it has met, and gives up at a link that is being
resolved. Where links lead as far as they can be looked at is said here without any memory: names
lead from one place to another, and a link needs the links that are met on the way of its target. If
no link needs itself, resolution never gives up, and what it remembers and comes to is where the
names lead. No name on the way to such a place is a link to those who look at it.
-/

namespace GrammarLoader

namespace Place

theorem child_inj {here here' : Place} {piece piece' : String} :
    here.child piece = here'.child piece' ↔ here = here' ∧ piece = piece' := by
  constructor
  · intro h
    obtain ⟨absolute, ups, names⟩ := here
    obtain ⟨absolute', ups', names'⟩ := here'
    obtain ⟨rfl, rfl, hnames⟩ := Place.mk.inj h
    obtain ⟨rfl, rfl⟩ := List.append_singleton_inj.mp hnames
    exact ⟨rfl, rfl⟩
  · rintro ⟨rfl, rfl⟩
    rfl

end Place

namespace LinkResolution

/-- The place that the target of a link is taken from. -/
def originOf (here : Place) (target : String) : Place :=
  if Path.isAbsoluteText (pieces target) then .root else here

section Relations

variable (t : FileTree) (cwd : Location)

/-- Names lead from a place to another one. What cannot be looked at is no link. -/
inductive Leads : Place → List String → Place → Prop
  | done {here : Place} : Leads here [] here
  | idle {here there : Place} {piece : String} {rest : List String} (hp : isIdle piece)
    (h : Leads here rest there) : Leads here (piece :: rest) there
  | up {here there : Place} {rest : List String} (h : Leads here.parent rest there) :
    Leads here (".." :: rest) there
  | name {here there : Place} {piece : String} {rest : List String} (hp : IsName piece)
    (hl : t.linkTarget? cwd (here.child piece).toPath = none)
    (h : Leads (here.child piece) rest there) : Leads here (piece :: rest) there
  | link {here origin there : Place} {piece target : String} {rest : List String}
    (hp : IsName piece) (hl : t.linkTarget? cwd (here.child piece).toPath = some target)
    (ht : Leads (originOf here target) (pieces target) origin) (h : Leads origin rest there) :
    Leads here (piece :: rest) there

/-- A link is met on the way of names from a place. -/
def Meets (here : Place) (names : List String) (link : Place) : Prop :=
  ∃ before piece rest directory, names = before ++ piece :: rest ∧
    Leads t cwd here before directory ∧ IsName piece ∧ link = directory.child piece ∧
    (t.linkTarget? cwd link.toPath).isSome

/-- A link is met on the way of another one's target. -/
def Needs (link other : Place) : Prop :=
  ∃ here piece target, IsName piece ∧ link = here.child piece ∧
    t.linkTarget? cwd link.toPath = some target ∧
    Meets t cwd (originOf here target) (pieces target) other

/-- No link leads back to itself, not even through other links. -/
def Acyclic : Prop := ∀ link, ¬ Relation.TransGen (Needs t cwd) link link

end Relations

variable {t : FileTree} {cwd : Location}

theorem Meets.first {here : Place} {piece target : String} (hp : IsName piece)
    (hl : t.linkTarget? cwd (here.child piece).toPath = some target) (rest : List String) :
    Meets t cwd here (piece :: rest) (here.child piece) :=
  ⟨[], piece, rest, here, rfl, .done, hp, rfl, by rw [hl]; rfl⟩

/-- What is met behind a piece is met with it. -/
theorem Meets.behind {here there link : Place} {piece : String} {rest : List String}
    (hl : ∀ {before directory}, Leads t cwd there before directory →
      Leads t cwd here (piece :: before) directory)
    (h : Meets t cwd there rest link) : Meets t cwd here (piece :: rest) link := by
  obtain ⟨before, piece', rest', directory, rfl, hlead, hmet⟩ := h
  exact ⟨piece :: before, piece', rest', directory, rfl, hl hlead, hmet⟩

theorem Acyclic.of_rank (rank : Place → Nat)
    (h : ∀ link other, Needs t cwd link other → rank other < rank link) : Acyclic t cwd := by
  intro link hcircle
  have hlt : ∀ other, Relation.TransGen (Needs t cwd) link other → rank other < rank link := by
    intro other hreach
    induction hreach with
    | single hneeds => exact h _ _ hneeds
    | tail _ hneeds ih => exact Nat.lt_trans (h _ _ hneeds) ih
  exact Nat.lt_irrefl _ (hlt link hcircle)

/-! ## What resolution remembers -/

/-- The places that resolution remembers for links are where these lead. -/
def Remembers (t : FileTree) (cwd : Location) (seen : Seen) : Prop :=
  ∀ here piece place, seen.lookup (here.child piece) = some (some place) →
    ∃ target, t.linkTarget? cwd (here.child piece).toPath = some target ∧
      Leads t cwd (originOf here target) (pieces target) place

/-- The links whose targets are being resolved lead to all that is met on the way of names. -/
def HeldReach (t : FileTree) (cwd : Location) (seen : Seen) (here : Place) (names : List String) :
    Prop :=
  ∀ held, seen.lookup held = some none → ∀ link, Meets t cwd here names link →
    Relation.TransGen (Needs t cwd) held link

theorem HeldReach.behind {seen seen' : Seen} {here there : Place} {piece : String}
    {rest : List String} (h : HeldReach t cwd seen here (piece :: rest))
    (hheld : ∀ held, seen'.lookup held = some none → seen.lookup held = some none)
    (hl : ∀ {before directory}, Leads t cwd there before directory →
      Leads t cwd here (piece :: before) directory) : HeldReach t cwd seen' there rest :=
  fun held hs link hmet => h held (hheld held hs) link (hmet.behind hl)

/-- Resolution has come to where the names lead. What it remembers is right, and no more links are
held than before. -/
structure Arrives (t : FileTree) (cwd : Location) (seen : Seen) (here : Place)
    (names : List String) (outcome : Outcome) (seen' : Seen) : Prop where
  remembers : Remembers t cwd seen'
  held : ∀ held, seen'.lookup held = some none → seen.lookup held = some none
  leads : ∃ there, outcome = .reached there ∧ Leads t cwd here names there

theorem Arrives.behind {seen seen₁ seen' : Seen} {here there : Place} {piece : String}
    {rest : List String} {outcome : Outcome} (h : Arrives t cwd seen₁ there rest outcome seen')
    (hheld : ∀ held, seen₁.lookup held = some none → seen.lookup held = some none)
    (hl : ∀ {before directory}, Leads t cwd there before directory →
      Leads t cwd here (piece :: before) directory) :
    Arrives t cwd seen here (piece :: rest) outcome seen' where
  remembers := h.remembers
  held held hs := hheld held (h.held held hs)
  leads := by
    obtain ⟨end', hend, hlead⟩ := h.leads
    exact ⟨end', hend, hl hlead⟩

/-- What is promised of a way to resolve names: it does not give up. -/
def Resolves (t : FileTree) (cwd : Location)
    (descend : Seen → Place → List String → Except PathError (Outcome × Seen)) : Prop :=
  ∀ {seen here names outcome seen'}, Remembers t cwd seen → HeldReach t cwd seen here names →
    descend seen here names = .ok (outcome, seen') →
    Arrives t cwd seen here names outcome seen'

section Resolving

variable {descend : Seen → Place → List String → Except PathError (Outcome × Seen)} {seen : Seen}
  {here : Place} {piece : String} {rest : List String}

theorem stepsWith_of_idle (h : isIdle piece) :
    stepsWith t cwd descend seen here (piece :: rest) =
      stepsWith t cwd descend seen here rest := by
  rw [stepsWith, if_pos h]

theorem stepsWith_up : stepsWith t cwd descend seen here (".." :: rest) =
    stepsWith t cwd descend seen here.parent rest := by
  rw [stepsWith]
  rfl

/-- What resolution does with a name that the system takes. -/
theorem stepsWith_name (hp : IsName piece) (hn : (here.child piece).toPath.hasNul = false) :
    stepsWith t cwd descend seen here (piece :: rest) =
      match t.linkTarget? cwd (here.child piece).toPath with
      | none => stepsWith t cwd descend seen (here.child piece) rest
      | some target =>
        match seen.lookup (here.child piece) with
        | some (some place) => stepsWith t cwd descend seen place rest
        | some none => .ok (.stuck ((here.child piece).toPath.goOn rest), seen)
        | none =>
          match descend (Assoc.insert (here.child piece) none seen) (originOf here target)
            (pieces target) with
          | .error e => .error e
          | .ok (.reached place, seen) =>
            stepsWith t cwd descend (Assoc.insert (here.child piece) (some place) seen) place rest
          | .ok (.stuck path, seen) => .ok (.stuck (path.goOn rest), seen) := by
  rw [stepsWith]
  simp only [hp.notIdle, Bool.false_eq_true, if_false, beq_iff_eq, hp.notUp, hn]
  rfl

theorem stepsWith_of_nul (hp : IsName piece) (hn : (here.child piece).toPath.hasNul) :
    stepsWith t cwd descend seen here (piece :: rest) = .error .nulCharacter := by
  rw [stepsWith]
  simp only [hp.notIdle, Bool.false_eq_true, if_false, beq_iff_eq, hp.notUp, hn, if_true]

/-- While a link is being resolved, what it needs is met. -/
theorem HeldReach.target (h : HeldReach t cwd seen here (piece :: rest)) (hp : IsName piece)
    {target : String} (hl : t.linkTarget? cwd (here.child piece).toPath = some target) :
    HeldReach t cwd (Assoc.insert (here.child piece) none seen) (originOf here target)
      (pieces target) := by
  intro held hs link hmet
  have hneeds : Needs t cwd (here.child piece) link := ⟨here, piece, target, hp, rfl, hl, hmet⟩
  by_cases heq : held = here.child piece
  · rw [heq]
    exact .single hneeds
  · rw [Assoc.lookup_insert_of_ne _ _ heq] at hs
    exact .tail (h held hs _ (.first hp hl rest)) hneeds

theorem Remembers.insert_none (h : Remembers t cwd seen) (link : Place) :
    Remembers t cwd (Assoc.insert link none seen) := by
  intro here piece place hs
  by_cases heq : here.child piece = link
  · rw [heq, Assoc.lookup_insert_self] at hs
    cases hs
  · rw [Assoc.lookup_insert_of_ne _ _ heq] at hs
    exact h here piece place hs

theorem Remembers.insert_some (h : Remembers t cwd seen) {target : String} {place : Place}
    (hl : t.linkTarget? cwd (here.child piece).toPath = some target)
    (hlead : Leads t cwd (originOf here target) (pieces target) place) :
    Remembers t cwd (Assoc.insert (here.child piece) (some place) seen) := by
  intro here' piece' place' hs
  by_cases heq : here'.child piece' = here.child piece
  · obtain ⟨rfl, rfl⟩ := Place.child_inj.mp heq
    rw [Assoc.lookup_insert_self] at hs
    cases hs
    exact ⟨target, hl, hlead⟩
  · rw [Assoc.lookup_insert_of_ne _ _ heq] at hs
    exact h here' piece' place' hs

/-- A link that is resolved is no longer held. -/
theorem held_of_insert_some {seen₁ : Seen} {link place : Place}
    (h : ∀ held, seen₁.lookup held = some none →
      (Assoc.insert link none seen).lookup held = some none) (held : Place)
    (hs : (Assoc.insert link (some place) seen₁).lookup held = some none) :
    seen.lookup held = some none := by
  by_cases heq : held = link
  · rw [heq, Assoc.lookup_insert_self] at hs
    cases hs
  · rw [Assoc.lookup_insert_of_ne _ _ heq] at hs
    have hs₁ := h held hs
    rwa [Assoc.lookup_insert_of_ne _ _ heq] at hs₁

/-- One level of resolution keeps the promise if the level below does. -/
theorem resolves_stepsWith (ha : Acyclic t cwd) (hd : Resolves t cwd descend) :
    Resolves t cwd (stepsWith t cwd descend) := by
  intro seen here names outcome seen' hr hheld h
  induction names generalizing seen here with
  | nil =>
    cases h
    exact ⟨hr, fun _ => id, here, rfl, .done⟩
  | cons piece rest ih =>
    by_cases hidle : isIdle piece
    · rw [stepsWith_of_idle hidle] at h
      exact (ih hr (hheld.behind (fun _ => id) (.idle hidle)) h).behind (fun _ => id) (.idle hidle)
    by_cases hup : piece = ".."
    · subst hup
      rw [stepsWith_up] at h
      exact (ih hr (hheld.behind (fun _ => id) .up) h).behind (fun _ => id) .up
    have hp : IsName piece := ⟨by simpa using hidle, hup⟩
    cases hn : (here.child piece).toPath.hasNul with
    | true =>
      rw [stepsWith_of_nul hp hn] at h
      cases h
    | false =>
      rw [stepsWith_name hp hn] at h
      cases hl : t.linkTarget? cwd (here.child piece).toPath with
      | none =>
        rw [hl] at h
        exact (ih hr (hheld.behind (fun _ => id) (.name hp hl)) h).behind (fun _ => id)
          (.name hp hl)
      | some target =>
        rw [hl] at h
        cases hs : seen.lookup (here.child piece) with
        | some memory =>
          rw [hs] at h
          cases memory with
          | none =>
            -- the link is held, so it would need itself
            exact absurd (hheld _ hs _ (.first hp hl rest)) (ha _)
          | some place =>
            obtain ⟨target', hl', hplace⟩ := hr here piece place hs
            rw [hl] at hl'
            cases hl'
            exact (ih hr (hheld.behind (fun _ => id) (.link hp hl hplace)) h).behind (fun _ => id)
              (.link hp hl hplace)
        | none =>
          rw [hs] at h
          dsimp only at h
          split at h
          · cases h
          · rename_i place seen₁ hdescend
            obtain ⟨hr₁, hheld₁, _, hreached, hplace⟩ :=
              hd (hr.insert_none _) (hheld.target hp hl) hdescend
            cases hreached
            have hkept := @held_of_insert_some seen seen₁ (here.child piece) place hheld₁
            have hheld' := hheld.behind hkept (.link hp hl hplace)
            exact (ih (hr₁.insert_some hl hplace) hheld' h).behind hkept (.link hp hl hplace)
          · rename_i path seen₁ hdescend
            obtain ⟨_, hstuck, -⟩ := (hd (hr.insert_none _) (hheld.target hp hl) hdescend).leads
            cases hstuck

theorem resolves_steps (ha : Acyclic t cwd) (depth : Nat) :
    Resolves t cwd (steps t cwd depth) := by
  induction depth with
  | zero =>
    intro seen here names outcome seen' _ _ h
    cases h
  | succ depth ih => exact resolves_stepsWith ha ih

/-- Resolution that starts anew comes to where the names lead, if it comes to an end. -/
theorem leads_of_steps (ha : Acyclic t cwd) {depth : Nat} {names : List String} {outcome : Outcome}
    {seen' : Seen} (h : steps t cwd depth [] here names = .ok (outcome, seen')) :
    ∃ there, outcome = .reached there ∧ Leads t cwd here names there :=
  (resolves_steps ha depth (fun _ _ _ hs => by cases hs) (fun _ hs => by cases hs) h).leads

end Resolving

/-! ## Clear places -/

/-- A place without a link on the way to it, to those who look at it. -/
structure IsClear (t : FileTree) (cwd : Location) (place : Place) : Prop where
  ups : place.absolute → place.ups = 0
  names : ∀ name ∈ place.names, IsName name ∧ '/' ∉ name.toList
  links : ∀ before, before <+: place.names → before ≠ [] →
    t.linkTarget? cwd (Place.toPath { place with names := before }) = none

theorem isClear_root : IsClear t cwd .root where
  ups _ := rfl
  names _ h := by cases h
  links before hb hne := absurd (List.prefix_nil.mp hb) hne

theorem isClear_here : IsClear t cwd .here where
  ups h := by cases h
  names _ h := by cases h
  links before hb hne := absurd (List.prefix_nil.mp hb) hne

theorem IsClear.parent {here : Place} (h : IsClear t cwd here) : IsClear t cwd here.parent := by
  obtain ⟨absolute, ups, names⟩ := here
  unfold Place.parent
  split
  · have hdrop : names.dropLast <+: names := List.dropLast_prefix names
    exact ⟨h.ups, fun name hn => h.names name (hdrop.subset hn),
      fun before hb => h.links before (hb.trans hdrop)⟩
  · rename_i hempty
    have hnil : names = [] := by simpa using hempty
    subst hnil
    split
    · exact h
    · rename_i habsolute
      exact ⟨fun ha => absurd ha habsolute, h.names,
        fun before hb hne => absurd (List.prefix_nil.mp hb) hne⟩

theorem IsClear.child {here : Place} {piece : String} (h : IsClear t cwd here) (hp : IsName piece)
    (hs : '/' ∉ piece.toList) (hl : t.linkTarget? cwd (here.child piece).toPath = none) :
    IsClear t cwd (here.child piece) where
  ups := h.ups
  names name hn := by
    obtain hn | hn := List.mem_append.mp hn
    · exact h.names name hn
    · rw [List.mem_singleton.mp hn]
      exact ⟨hp, hs⟩
  links before hb hne := by
    obtain rfl | hb := List.prefix_concat_iff.mp hb
    · exact hl
    · exact h.links before hb hne

/-- Names lead from a clear place to a clear place. -/
theorem Leads.isClear {here there : Place} {names : List String} (h : Leads t cwd here names there)
    (hs : ∀ name ∈ names, '/' ∉ name.toList) (hc : IsClear t cwd here) : IsClear t cwd there := by
  induction h with
  | done => exact hc
  | idle _ _ ih => exact ih (List.forall_mem_cons.mp hs).2 hc
  | up _ ih => exact ih (List.forall_mem_cons.mp hs).2 hc.parent
  | name hp hl _ ih =>
    obtain ⟨hpiece, hrest⟩ := List.forall_mem_cons.mp hs
    exact ih hrest (hc.child hp hpiece hl)
  | @link here _ _ _ target _ _ _ _ _ iht ih =>
    have horigin : IsClear t cwd (originOf here target) := by
      unfold originOf
      split
      · exact isClear_root
      · exact hc
    exact ih (List.forall_mem_cons.mp hs).2
      (iht (fun _ hmem => slash_notMem_of_mem_pieces hmem) horigin)

/-! ## Links without circles -/

/-- What is found to be a link is one, at a place with the same last name. -/
theorem exists_node_of_linkTarget {here : Place} {piece target : String} (hp : IsName piece)
    (h : t.linkTarget? cwd (here.child piece).toPath = some target) :
    ∃ directory, t.node? (directory ++ [piece]) = some (.link target) := by
  unfold FileTree.linkTarget? at h
  cases hl : t.locate false cwd (here.child piece).toPath with
  | error e =>
    rw [hl] at h
    cases h
  | ok there =>
    rw [hl] at h
    simp only [Except.map] at h
    unfold FileTree.locate at hl
    split at hl
    · cases hl
    · have hnames : (here.child piece).toPath.names =
          (List.replicate here.ups ".." ++ here.names) ++ [piece] := by
        simp [Place.toPath, Place.child]
      rw [hnames] at hl
      obtain ⟨directory, rfl⟩ := FileTree.walk_getLast hp hl
      refine ⟨directory, ?_⟩
      split at h
      · rename_i target' hnode
        cases h
        exact Except.ok.inj hnode
      · cases h

/-- Links whose targets are written with names of lower rank only have no circle. -/
theorem acyclic_of_names (rank : String → Nat)
    (h : ∀ entry ∈ t.nodes, ∀ target ∈ entry.2.target?, ∀ piece ∈ pieces target, IsName piece →
      rank piece < rank (entry.1.getLast?.getD "")) (cwd : Location) : Acyclic t cwd := by
  refine .of_rank (fun place => rank (place.names.getLast?.getD "")) fun link other hneeds => ?_
  obtain ⟨here, name, target, hname, rfl, hl, before, piece, rest, directory, hpieces, -, hpiece,
    rfl, -⟩ := hneeds
  obtain ⟨parent, hnode⟩ := exists_node_of_linkTarget hname hl
  have hlt := h _ (FileTree.mem_nodes_of_node hnode) target rfl piece (by rw [hpieces]; simp) hpiece
  simpa [Place.child] using hlt

end LinkResolution

end GrammarLoader
