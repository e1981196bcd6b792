import GrammarLoader.LinkResolution
import GrammarLoader.Proofs.Path.Text
import Mathlib.Data.List.Infix
import Mathlib.Logic.Function.Iterate

/-!
# Walks through a tree of files

A walk over names either meets no link and comes to the place that the names spell, or there is a
first link, to which a walk that does not follow it comes as well. Steps up lead where they lead
whatever comes behind them. A walk that does not follow its last link ends at the last name.
-/

namespace GrammarLoader

/-- The target of a link. -/
def Node.target? : Node → Option String
  | link target => some target
  | _ => none

namespace FileTree

/-- There is a link at a place. -/
def IsLink (t : FileTree) (loc : Location) : Prop := ∃ target, t.node? loc = some (.link target)

/-- A place that the system may give as the working directory: names of directories, links aside. -/
structure IsCanonical (t : FileTree) (loc : Location) : Prop where
  names : ∀ name ∈ loc, IsName name ∧ '/' ∉ name.toList
  directories : ∀ before, before <+: loc →
    t.node? before = some .directory ∨ t.node? before = some .locked

instance (t : FileTree) (loc : Location) : Decidable (t.IsCanonical loc) :=
  decidable_of_iff ((∀ name ∈ loc, IsName name ∧ '/' ∉ name.toList) ∧ ∀ before ∈ loc.inits,
      t.node? before = some .directory ∨ t.node? before = some .locked)
    ⟨fun h => ⟨h.1, fun before hb => h.2 before ((List.mem_inits before loc).mpr hb)⟩,
      fun h => ⟨h.names, fun before hb => h.directories before ((List.mem_inits before loc).mp hb)⟩⟩

/-- What the tree says about a place other than the root it says in its list. -/
theorem mem_nodes_of_node {t : FileTree} {loc : Location} {target : String}
    (h : t.node? loc = some (.link target)) : (loc, .link target) ∈ t.nodes := by
  unfold node? at h
  split at h
  · rename_i n hl
    obtain ⟨before, after, hnodes, -⟩ := List.lookup_eq_some_iff.mp (h ▸ hl)
    rw [hnodes]
    simp
  · cases h
  · cases h

theorem IsCanonical.of_prefix {t : FileTree} {loc before : Location} (h : t.IsCanonical loc)
    (hb : before <+: loc) : t.IsCanonical before where
  names name hn := h.names name (hb.subset hn)
  directories before' hb' := h.directories before' (hb'.trans hb)

theorem IsCanonical.not_isLink {t : FileTree} {loc before : Location} (h : t.IsCanonical loc)
    (hb : before <+: loc) : ¬ t.IsLink before := by
  rintro ⟨target, hl⟩
  obtain hd | hd := h.directories before hb <;>
    · rw [hl] at hd
      cases hd

section Walking

variable {t : FileTree} {followLast : Bool}
  {follow : Location → List String → Except AccessError Location} {loc there : Location}

/-- What a walk does with a name. -/
theorem walkWith_name {piece : String} (hp : IsName piece) (rest : List String) :
    t.walkWith followLast follow loc (piece :: rest) = t.enter loc >>= fun _ =>
      if maxNameBytes < piece.utf8ByteSize then .error .nameTooLong
      else match t.node? (loc ++ [piece]) with
        | none => .error .noEntry
        | some (.link target) =>
          if rest.isEmpty && !followLast then .ok (loc ++ [piece])
          else if target == "" then .error .noEntry
          else if Path.isAbsoluteText (pieces target) then follow [] (pieces target ++ rest)
          else follow loc (pieces target ++ rest)
        | some _ => t.walkWith followLast follow (loc ++ [piece]) rest := by
  rw [walkWith, if_neg (by simpa using hp.ne_empty)]
  refine congrArg (t.enter loc >>= ·) (funext fun _ => ?_)
  exact (if_neg (by simpa using hp.ne_dot)).trans (if_neg (by simpa using hp.notUp))

theorem walkWith_up (rest : List String) :
    t.walkWith followLast follow loc (".." :: rest) =
      t.enter loc >>= fun _ => t.walkWith followLast follow loc.dropLast rest := by
  rw [walkWith]
  rfl

/-- A walk over a name that is reached gets into the place before it and finds the name there. -/
theorem node_of_walkWith_name {piece : String} (hp : IsName piece) {rest : List String}
    (h : t.walkWith followLast follow loc (piece :: rest) = .ok there) :
    t.enter loc = .ok () ∧ piece.utf8ByteSize ≤ maxNameBytes ∧
      ∃ n, t.node? (loc ++ [piece]) = some n := by
  rw [walkWith_name hp] at h
  cases he : t.enter loc with
  | error e =>
    rw [he] at h
    cases h
  | ok _ =>
    rw [he] at h
    refine ⟨rfl, ?_⟩
    change (if _ then _ else _) = _ at h
    split at h
    · cases h
    · rename_i hsize
      refine ⟨Nat.le_of_not_lt hsize, ?_⟩
      cases hn : t.node? (loc ++ [piece]) with
      | none =>
        rw [hn] at h
        cases h
      | some n => exact ⟨n, rfl⟩

/-- Over a name that is no link a walk goes on behind it. -/
theorem walkWith_of_not_isLink {piece : String} (hp : IsName piece) {n : Node}
    (he : t.enter loc = .ok ()) (hs : piece.utf8ByteSize ≤ maxNameBytes)
    (hn : t.node? (loc ++ [piece]) = some n) (hl : ¬ t.IsLink (loc ++ [piece]))
    (rest : List String) :
    t.walkWith followLast follow loc (piece :: rest) =
      t.walkWith followLast follow (loc ++ [piece]) rest := by
  rw [walkWith_name hp, he, hn]
  change (if _ then _ else _) = _
  rw [if_neg (Nat.not_lt.mpr hs)]
  cases n with
  | link target => exact absurd ⟨target, hn⟩ hl
  | _ => rfl

/-- A link at the end is where a walk ends that does not follow it. -/
theorem walkWith_of_isLink {piece : String} (hp : IsName piece) (he : t.enter loc = .ok ())
    (hs : piece.utf8ByteSize ≤ maxNameBytes) (hl : t.IsLink (loc ++ [piece])) :
    t.walkWith false follow loc [piece] = .ok (loc ++ [piece]) := by
  obtain ⟨target, hn⟩ := hl
  rw [walkWith_name hp, he, hn]
  change (if _ then _ else _) = _
  rw [if_neg (Nat.not_lt.mpr hs)]
  rfl

/-- Where names meet no link, a walk comes past the place that they spell. -/
theorem walkWith_append {first rest : List String} (hp : ∀ name ∈ first, IsName name)
    (hl : ∀ before, before <+: first → before ≠ [] → ¬ t.IsLink (loc ++ before))
    (h : t.walkWith followLast follow loc (first ++ rest) = .ok there) :
    t.walkWith followLast follow (loc ++ first) rest = .ok there := by
  induction first generalizing loc with
  | nil => rwa [List.append_nil]
  | cons piece first ih =>
    obtain ⟨hpiece, hfirst⟩ := List.forall_mem_cons.mp hp
    obtain ⟨he, hs, n, hn⟩ := node_of_walkWith_name hpiece h
    have hpieceLink : ¬ t.IsLink (loc ++ [piece]) := hl [piece] (by simp) (by simp)
    rw [List.cons_append, walkWith_of_not_isLink hpiece he hs hn hpieceLink] at h
    have hbehind := ih hfirst (fun before hb hne => by
      rw [List.append_assoc]
      exact hl (piece :: before) (List.cons_prefix_cons.mpr ⟨rfl, hb⟩) (by simp)) h
    rwa [List.append_assoc] at hbehind

/-- A walk over names that is reached meets no link and comes to the place that they spell, or there
is a first link, and without following it a walk comes there. -/
theorem straight_or_link {names : List String} (hp : ∀ name ∈ names, IsName name)
    (h : t.walkWith followLast follow loc names = .ok there) :
    (there = loc ++ names ∧
      ∀ before, before <+: names → before ≠ [] → ¬ t.IsLink (loc ++ before)) ∨
    ∃ before, before <+: names ∧ before ≠ [] ∧ t.IsLink (loc ++ before) ∧
      ∀ follow', t.walkWith false follow' loc before = .ok (loc ++ before) := by
  induction names generalizing loc with
  | nil =>
    cases h
    refine .inl ⟨by simp, fun before hb hne => absurd (List.prefix_nil.mp hb) hne⟩
  | cons piece names ih =>
    obtain ⟨hpiece, hnames⟩ := List.forall_mem_cons.mp hp
    obtain ⟨he, hs, n, hn⟩ := node_of_walkWith_name hpiece h
    by_cases hl : t.IsLink (loc ++ [piece])
    · exact .inr ⟨[piece], by simp, by simp, hl, fun _ => walkWith_of_isLink hpiece he hs hl⟩
    · rw [walkWith_of_not_isLink hpiece he hs hn hl] at h
      obtain ⟨rfl, hstraight⟩ | ⟨before, hb, hne, hlink, hwalk⟩ := ih hnames h
      · refine .inl ⟨by simp, fun before hb hne => ?_⟩
        obtain _ | ⟨first, before⟩ := before
        · exact absurd rfl hne
        · obtain ⟨rfl, hb'⟩ := List.cons_prefix_cons.mp hb
          by_cases hempty : before = []
          · rwa [hempty]
          · have hbehind := hstraight before hb' hempty
            rwa [List.append_assoc] at hbehind
      · refine .inr ⟨piece :: before, List.cons_prefix_cons.mpr ⟨rfl, hb⟩, by simp, ?_, ?_⟩
        · rwa [List.append_assoc] at hlink
        · intro follow'
          rw [walkWith_of_not_isLink hpiece he hs hn hl, hwalk, List.append_assoc]
          rfl

/-- Steps up that can be taken lead to the same place, whatever comes behind them. -/
theorem walkWith_ups {ups : Nat} {names : List String}
    (h : t.walkWith followLast follow loc (List.replicate ups ".." ++ names) = .ok there) :
    ∀ followLast' follow' names',
      t.walkWith followLast' follow' loc (List.replicate ups ".." ++ names') =
        t.walkWith followLast' follow' (List.dropLast^[ups] loc) names' := by
  induction ups generalizing loc with
  | zero =>
    intro _ _ _
    rfl
  | succ ups ih =>
    intro followLast' follow' names'
    rw [List.replicate_succ, List.cons_append, walkWith_up] at h ⊢
    cases he : t.enter loc with
    | error e =>
      rw [he] at h
      cases h
    | ok _ =>
      rw [he] at h
      rw [Function.iterate_succ_apply]
      exact ih h followLast' follow' names'

end Walking

theorem iterate_dropLast_prefix (ups : Nat) (loc : Location) : List.dropLast^[ups] loc <+: loc := by
  induction ups generalizing loc with
  | zero => exact List.prefix_refl loc
  | succ ups ih =>
    rw [Function.iterate_succ_apply]
    exact (ih loc.dropLast).trans (List.dropLast_prefix loc)

/-- Behind its first piece a walk goes on from some place, or it follows a link there. -/
theorem goes_on_of_walkWith {t : FileTree} {followLast : Bool}
    {follow : Location → List String → Except AccessError Location} {loc there : Location}
    {first : String} {rest : List String} (hrest : rest ≠ [])
    (h : t.walkWith followLast follow loc (first :: rest) = .ok there) :
    (∃ next, t.walkWith followLast follow next rest = .ok there) ∨
      ∃ origin target, follow origin (pieces target ++ rest) = .ok there := by
  have hbehind : rest.isEmpty = false := by simpa using hrest
  by_cases hempty : first = ""
  · rw [hempty, walkWith, if_pos (by decide), hbehind] at h
    exact .inl ⟨loc, h⟩
  have hname : IsName first ∨ first = "." ∨ first = ".." := by
    by_cases hdot : first = "."
    · exact .inr (.inl hdot)
    by_cases hup : first = ".."
    · exact .inr (.inr hup)
    exact .inl ⟨by simp [isIdle, hempty, hdot], hup⟩
  cases he : t.enter loc with
  | error e =>
    rw [walkWith, if_neg (by simpa using hempty), he] at h
    cases h
  | ok _ =>
    obtain hp | rfl | rfl := hname
    · rw [walkWith_name hp, he] at h
      change (if _ then _ else _) = _ at h
      split at h
      · cases h
      · split at h
        · cases h
        · rw [hbehind] at h
          simp only [Bool.false_and, Bool.false_eq_true, if_false] at h
          split at h
          · cases h
          · split at h
            · exact .inr ⟨_, _, h⟩
            · exact .inr ⟨_, _, h⟩
        · exact .inl ⟨_, h⟩
    · rw [walkWith, if_neg (by decide), he] at h
      exact .inl ⟨loc, h⟩
    · rw [walkWith_up, he] at h
      exact .inl ⟨loc.dropLast, h⟩

/-- What a walk does that does not follow its last link: it ends at the last name. -/
theorem walkWith_getLast {t : FileTree}
    {follow : Location → List String → Except AccessError Location} {piece : String}
    (hp : IsName piece)
    (hf : ∀ loc names there, follow loc (names ++ [piece]) = .ok there →
      ∃ directory, there = directory ++ [piece])
    {loc there : Location} {names : List String}
    (h : t.walkWith false follow loc (names ++ [piece]) = .ok there) :
    ∃ directory, there = directory ++ [piece] := by
  induction names generalizing loc with
  | nil =>
    obtain ⟨he, hs, n, hn⟩ := node_of_walkWith_name hp h
    rw [List.nil_append] at h
    by_cases hl : t.IsLink (loc ++ [piece])
    · rw [walkWith_of_isLink hp he hs hl] at h
      cases h
      exact ⟨loc, rfl⟩
    · rw [walkWith_of_not_isLink hp he hs hn hl] at h
      cases h
      exact ⟨loc, rfl⟩
  | cons first names ih =>
    rw [List.cons_append] at h
    obtain ⟨next, h⟩ | ⟨origin, target, h⟩ := goes_on_of_walkWith (by simp) h
    · exact ih h
    · rw [← List.append_assoc] at h
      exact hf _ _ _ h

theorem walk_getLast {t : FileTree} {piece : String} (hp : IsName piece) {links : Nat}
    {loc there : Location} {names : List String}
    (h : t.walk false links loc (names ++ [piece]) = .ok there) :
    ∃ directory, there = directory ++ [piece] := by
  induction links generalizing loc names there with
  | zero => exact walkWith_getLast hp (fun _ _ _ h => by cases h) h
  | succ links ih => exact walkWith_getLast hp (fun _ _ _ h => ih h) h

end FileTree

end GrammarLoader
