import GrammarLoader.Proofs.LinkResolution.Canonical
import GrammarLoader.Proofs.Search.Breaking

/-!
# The search looks at absolute paths

Whatever the settings say, the path that a configured text becomes is absolute: links are resolved
from the root or from the working directory, and the result is taken from the root. So with a
package directory that is absolute every path that the search looks at is, every path that it says
it has tried, and every path that it finds; what it finds in the tree is a regular file. The answer
of the system's own search is passed on as it is.
-/

namespace GrammarLoader

namespace Path

/-- A text that starts at the root. -/
def isRooted (text : String) : Bool := text.toList.head? == some '/'

theorem isRooted_toString {p : Path} (h : p.isAbsolute) : isRooted p.toString := by
  obtain ⟨start, names⟩ := p
  cases start with
  | here => cases h
  | root | doubleRoot => simp [isRooted, toString, slashes, String.toList_append]

/-- Resolution ends at the root, wherever it starts and whichever links it meets. -/
theorem isAbsolute_of_resolve {t : FileTree} {cwd : Location} {p q : Path}
    (h : p.resolve t cwd = .ok q) : q.isAbsolute := by
  obtain ⟨outcome, seen, -, rfl, -⟩ := of_resolve_eq_ok h
  exact isAbsolute_absolute cwd _

end Path

/-- What a walk through a list comes to, item by item. -/
theorem exists_of_mem_mapM {α β ε : Type} {f : α → Except ε β} {items : List α} {bs : List β}
    (h : items.mapM f = .ok bs) {b : β} (hb : b ∈ bs) : ∃ v ∈ items, f v = .ok b := by
  have hall := mapM_eq_ok_iff.mp h
  clear h
  induction hall with
  | nil => cases hb
  | cons hv _ ih =>
    obtain rfl | hmem := List.mem_cons.mp hb
    · exact ⟨_, List.mem_cons_self, hv⟩
    · obtain ⟨v', hv', hf⟩ := ih hmem
      exact ⟨v', List.mem_cons_of_mem _ hv', hf⟩

/-- The failures that a fault tells of. -/
def Fault.chain (f : Fault) : List Failure := f.failure :: f.causes

theorem Fault.chain_dueTo (failure : Failure) (f : Fault) :
    (Fault.dueTo failure f).chain = failure :: f.chain := rfl

theorem Fault.chain_failure (failure : Failure) : Fault.chain ↑failure = [failure] := rfl

/-- A failure that has a text and lists no places where the library is not. -/
structure Failure.ListsNothing (f : Failure) : Prop where
  ne : ∀ tried, f ≠ .libraryNotFound tried
  hasText : Fault.HasText ↑f

namespace Search

variable {w : World}

theorem isAbsolute_of_configuredPath {text : String} {p : Path}
    (h : configuredPath w text = .ok p) : p.isAbsolute := by
  unfold configuredPath at h
  cases he : (Path.ofString text).expandHome w.homes with
  | error e =>
    rw [he] at h
    cases h
  | ok expanded =>
    rw [he] at h
    exact Path.isAbsolute_of_resolve h

theorem isAbsolute_of_valuePath {v : Value} {p : Path} (h : valuePath w v = .ok p) :
    p.isAbsolute := by
  cases v with
  | str text => exact isAbsolute_of_configuredPath (valuePath_str_eq_ok.mp h)
  | null | bool | int | real | list | object => cases h

theorem isAbsolute_of_candidates (hw : w.packageDirectory.isAbsolute) {paths : List Path}
    (h : candidates w = .ok paths) : ∀ p ∈ paths, p.isAbsolute := by
  unfold candidates at h
  cases hd : searchDirectories w with
  | error f =>
    rw [hd] at h
    cases h
  | ok directories =>
    rw [hd] at h
    cases h
    intro p hp
    obtain ⟨directory, hdirectory, hname⟩ := List.mem_flatMap.mp hp
    have habsolute : directory.isAbsolute := by
      obtain rfl | hmem := List.mem_cons.mp hdirectory
      · exact hw
      · unfold searchDirectories at hd
        cases hi : w.settings.searchPath.items? with
        | error f =>
          rw [hi] at hd
          cases hd
        | ok items =>
          rw [hi] at hd
          obtain ⟨v, -, hv⟩ := exists_of_mem_mapM hd hmem
          exact isAbsolute_of_valuePath hv
    -- a name more leaves the start of a path as it is
    obtain ⟨stem, -, rfl⟩ := List.mem_map.mp hname
    exact habsolute

/-- A path that the search may find: one that the system's own search gives, or the absolute path of
a regular file, links followed. -/
def Found (w : World) (path : String) : Prop :=
  systemFinds w = some path ∨ Path.isRooted path ∧
    ∃ p : Path, p.toString = path ∧ w.files.status w.directory p = .ok (some .file)

theorem found_of_isFile {p : Path} (ha : p.isAbsolute) (h : isFile w p = .ok true) :
    Found w p.toString :=
  .inr ⟨Path.isRooted_toString ha, p, rfl, (isFile_eq_true_iff.mp h).2⟩

theorem found_of_locate (hw : w.packageDirectory.isAbsolute) {q : Process} {path : String}
    (h : (locate w q).answer = .ok path) : Found w path := by
  have hl := locate_located w q
  generalize locate w q = outcome at h hl
  cases hl with
  | named hn hv hp =>
    cases h
    exact found_of_isFile (isAbsolute_of_valuePath hv) hp
  | listed hn hc hb hp =>
    cases h
    exact found_of_isFile (isAbsolute_of_candidates hw hc _ (by simp)) hp
  | system hn hc hb hs =>
    cases h
    exact .inl hs
  | noPath | namedClosed | namedAbsent | noList | listedClosed | absent => cases h

/-- The places that an error lists: absolute paths, and the system's own search. -/
def Listed (tried : List String) : Prop := ∀ entry ∈ tried, Path.isRooted entry ∨ entry = searchedText

/-- What is no path is reported as such. -/
theorem listsNothing_of_valuePath {v : Value} {f : Failure} (h : valuePath w v = .error f) :
    f.ListsNothing := by
  cases v with
  | str text =>
    obtain ⟨e, -, rfl⟩ := valuePath_str_eq_error.mp h
    exact ⟨nofun, _, rfl⟩
  | null | bool | int | real | list | object =>
    cases h
    exact ⟨nofun, _, rfl⟩

theorem listsNothing_of_candidates {f : Failure} (h : candidates w = .error f) :
    f.ListsNothing := by
  have hd : searchDirectories w = .error f := by
    unfold candidates at h
    cases hd : searchDirectories w with
    | error g =>
      rw [hd] at h
      rw [Except.error.inj h]
    | ok directories =>
      rw [hd] at h
      cases h
  unfold searchDirectories at hd
  cases hi : w.settings.searchPath.items? with
  | error g =>
    rw [hi] at hd
    cases hd
    unfold Value.items? at hi
    split at hi <;> cases hi
    exact ⟨nofun, _, rfl⟩
  | ok items =>
    rw [hi] at hd
    obtain ⟨before, v, rest, -, -, hv⟩ := mapM_eq_error_iff.mp hd
    exact listsNothing_of_valuePath hv

/-- An error that the library is nowhere lists absolute paths. -/
theorem listed_of_locate (hw : w.packageDirectory.isAbsolute) {q : Process} {f : Fault}
    (h : (locate w q).answer = .error f) {tried : List String}
    (ht : .libraryNotFound tried ∈ f.chain) : Listed tried := by
  have hl := locate_located w q
  generalize locate w q = outcome at h hl
  cases hl with
  | noPath hn hv =>
    cases h
    exact absurd (List.mem_singleton.mp ht).symm ((listsNothing_of_valuePath hv).ne tried)
  | noList hn hc =>
    cases h
    exact absurd (List.mem_singleton.mp ht).symm ((listsNothing_of_candidates hc).ne tried)
  | namedClosed | listedClosed =>
    cases h
    cases List.mem_singleton.mp ht
  | @namedAbsent p hn hv hp =>
    cases h
    cases List.mem_singleton.mp ht
    intro entry he
    rw [List.mem_singleton.mp he]
    exact .inl (Path.isRooted_toString (isAbsolute_of_valuePath hv))
  | @absent paths hn hc hb hs =>
    cases h
    cases List.mem_singleton.mp ht
    intro entry he
    obtain hmem | he := List.mem_append.mp he
    · obtain ⟨p, hp, rfl⟩ := List.mem_map.mp hmem
      exact .inl (Path.isRooted_toString (isAbsolute_of_candidates hw hc p hp))
    · exact .inr (List.mem_singleton.mp he)
  | named | listed | system => cases h

/-- The errors of the search have a text. -/
theorem hasText_of_locate {q : Process} {f : Fault} (h : (locate w q).answer = .error f) :
    f.HasText := by
  have hl := locate_located w q
  generalize locate w q = outcome at h hl
  cases hl with
  | noPath hn hv =>
    cases h
    exact (listsNothing_of_valuePath hv).hasText
  | noList hn hc =>
    cases h
    exact (listsNothing_of_candidates hc).hasText
  | namedClosed | listedClosed | namedAbsent | absent =>
    cases h
    exact ⟨_, rfl⟩
  | named | listed | system => cases h

end Search

end GrammarLoader
