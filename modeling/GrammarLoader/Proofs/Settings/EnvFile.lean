import GrammarLoader.Proofs.EnvFile.Quoting
import GrammarLoader.Proofs.Settings.Environment
import Mathlib.Data.List.Nodup

/-!
# Settings from an environment file

A file that assigns texts to fields, each in single quotes on a line of its own, gives the settings
that the environment gives with the same texts: the same values, given for the same fields, or the
same problems with them. A search path that cannot be read is an error of either, told apart by its
source alone.
-/

namespace GrammarLoader

/-- The error, told of another source. -/
def SettingsError.inSource (origin : Origin) : SettingsError → SettingsError
  | unreadable _ => unreadable origin
  | invalid problems => invalid problems

theorem Field.isNamed_name (f g : Field) : f.isNamed g.name = decide (f = g) := by
  cases f <;> cases g <;> decide

namespace Settings

/-- What a source gives depends on the texts of the fields, and on the source itself only where the
search path cannot be read. -/
theorem textDraft_congr {vars vars' : EnvFile.Variables} {origin origin' : Origin}
    (h : ∀ f, textFor vars f = textFor vars' f) :
    textDraft origin' vars' = (textDraft origin vars).mapError (·.inSource origin') := by
  unfold textDraft
  simp only [h]
  split
  · rfl
  · split <;> rfl

section Assigning

variable {pairs : List (Field × String)} (hfields : (pairs.map Prod.fst).Nodup)
include hfields

/-- Variables of whatever order that hold assignments to different fields give each field its
text. -/
theorem textFor_of_perm {env : List (String × String)}
    (henv : env.Perm (pairs.map fun p => (p.1.name, p.2))) (f : Field) :
    textFor (environmentVariables env) f = pairs.lookup f := by
  have hmem {p : String × String} : p ∈ env ↔ ∃ q ∈ pairs, (q.1.name, q.2) = p := by
    rw [henv.mem_iff, List.mem_map]
  have hassigned {text : String} (h : pairs.lookup f = some text) : (f, text) ∈ pairs := by
    obtain ⟨before, after, hpairs, -⟩ := List.lookup_eq_some_iff.mp h
    simp [hpairs]
  apply textFor_of_agree
  · intro p hp hf
    obtain ⟨q, hq, rfl⟩ := hmem.mp hp
    rw [Field.isNamed_name, decide_eq_true_eq] at hf
    cases hl : pairs.lookup f with
    | none =>
      have hne := List.lookup_eq_none_iff.mp hl q hq
      exact absurd hf (by simpa using hne)
    | some text =>
      have heq : (f, text) = q := List.inj_on_of_nodup_map hfields (hassigned hl) hq hf
      rw [← heq]
  · intro hsome
    obtain ⟨text, htext⟩ := Option.isSome_iff_exists.mp hsome
    refine ⟨_, hmem.mpr ⟨_, hassigned htext, rfl⟩, ?_⟩
    rw [Field.isNamed_name]
    exact decide_eq_true rfl

/-- A file of quoted assignments and an environment with the same texts come to the same settings,
or to the same error, of which only the source may differ. -/
theorem envFile_as_environment {env : List (String × String)}
    (henv : env.Perm (pairs.map fun p => (p.1.name, p.2))) {file : String}
    (hfile : EnvFile.Assigns pairs file.toList) (hreturn : ∀ p ∈ pairs, '\r' ∉ p.2.toList)
    (hreference : ∀ p ∈ pairs, ¬ ['$', '\x7b'] <:+: p.2.toList) :
    ofSources ⟨[], [], some file⟩ =
      (ofSources ⟨[], env, none⟩).mapError (·.inSource .envFile) := by
  have hvars : EnvFile.read [] file =
      environmentVariables (pairs.map fun p => (p.1.name, p.2)) :=
    EnvFile.read_of_assigns [] hfile hreturn hreference
  have htexts (f : Field) : textFor (environmentVariables env) f =
      textFor (EnvFile.read [] file) f := by
    rw [hvars, textFor_of_perm hfields henv, textFor_of_perm hfields (.refl _)]
  unfold ofSources
  rw [draft_of_environment, draft_of_envFile, textDraft_congr htexts]
  cases textDraft .environment (environmentVariables env) with
  | error e => rfl
  | ok draft =>
    simp only [Except.mapError, bind, Except.bind]
    split <;> rfl

end Assigning

/-- A library whose name holds quotes, a backslash, a comment and a line that looks like an
assignment. -/
theorem envFile_as_environment_hostile :
    let library := "it's \\ #1 = \x22x\x22\nLOG_LEVEL='ERROR'"
    let file := "LOG_LEVEL='warning'\nTREE_SITTER_KPL_LIBRARY='it\\'s \\\\ #1 = \x22x\x22\n" ++
      "LOG_LEVEL=\\'ERROR\\''\n"
    let env := [("TREE_SITTER_KPL_LIBRARY", library), ("LOG_LEVEL", "warning")]
    ofSources ⟨[], [], some file⟩ = (ofSources ⟨[], env, none⟩).mapError (·.inSource .envFile) ∧
      (ofSources ⟨[], env, none⟩).toOption.map
        (fun s => (s.library.shown, s.logLevel.shown, s.explicit)) =
        some (library, "WARNING", [.library, .logLevel]) := by
  intro library file env
  let pairs := [(Field.logLevel, "warning"), (Field.library, library)]
  have hfile : EnvFile.Assigns pairs file.toList := by
    have htext : file.toList = EnvFile.assignment .logLevel "warning".toList ++
        '\n' :: (EnvFile.assignment .library library.toList ++ ['\n']) := by
      decide +kernel
    rw [htext]
    exact .line .logLevel "warning" (.line .library library .nil)
  have hplain : ∀ p ∈ pairs, '\r' ∉ p.2.toList ∧ ¬ ['$', '\x7b'] <:+: p.2.toList := by
    decide +kernel
  refine ⟨?_, by decide +kernel⟩
  exact envFile_as_environment (by decide) (.swap ..) hfile (fun p hp => (hplain p hp).1)
    fun p hp => (hplain p hp).2

end Settings

end GrammarLoader
