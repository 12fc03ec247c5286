import Mathlib.Data.List.Induction
import RequestAccess.Codec.Standard
import RequestAccess.Command

/-!
# Discovery

Without a file that is asked for, the nearest scenario that loads is taken. Directories are tried
from the working directory upwards, and the names of scenario files in their order. A file that
does not load is as good as none.
-/

namespace RequestAccess

/-! ## Directories upwards -/

namespace Path

theorem parents_concat (p : Path) (name : String) {n : Nat} (h : n ≤ p.length) :
    parents (p ++ [name]) n = parents p n := by
  induction n with
  | zero => rfl
  | succ n ih =>
    rw [parents, parents, ih (by omega), List.take_append_of_le_length (by omega)]

theorem upwards_concat (p : Path) (name : String) :
    upwards (p ++ [name]) = (p ++ [name]) :: upwards p := by
  rw [upwards, List.length_append, List.length_singleton, parents,
    parents_concat p name (Nat.le_refl _), List.take_left]
  rfl

theorem mem_upwards {p d : Path} : d ∈ upwards p ↔ d <+: p := by
  induction p using List.reverseRecOn with
  | nil => exact List.mem_singleton.trans List.prefix_nil.symm
  | append_singleton p name ih =>
    rw [upwards_concat, List.mem_cons, ih, List.prefix_concat_iff]

theorem exists_show_concat (p : Path) (name : String) :
    ∃ front, Path.show (p ++ [name]) = front ++ name := by
  cases p with
  | nil => exact ⟨"/", rfl⟩
  | cons first p =>
    refine ⟨"/" ++ (Text.join "/" (first :: p) ++ "/"), ?_⟩
    rw [Path.show, Text.join_concat "/" (List.cons_ne_nil first p) name]
    simp only [String.append_assoc]

end Path

/-! ## Candidates -/

/-- What a scenario file may be called. -/
inductive ScenarioFile where
  | toml
  | hiddenToml
  | json

namespace ScenarioFile

def all : List ScenarioFile := [toml, hiddenToml, json]

theorem mem_all (f : ScenarioFile) : f ∈ all := by cases f <;> simp [all]

def name : ScenarioFile → String
  | toml => "edge.toml"
  | hiddenToml => ".edge.toml"
  | json => "edge.json"

def scenario? [Codec] : ScenarioFile → String → Option Scenario
  | toml, text | hiddenToml, text => Scenario.ofToml? text
  | json, text => Scenario.ofJson? text

/-- The place in the order in which the names are tried. -/
def rank : ScenarioFile → Nat
  | toml => 0
  | hiddenToml => 1
  | json => 2

theorem name_injective {f g : ScenarioFile} (h : f.name = g.name) : f = g := by
  cases f <;> cases g <;> first | rfl | exact absurd h (by decide)

theorem toOption_parse [Codec] (f : ScenarioFile) (front text : String) :
    (Scenario.parse (front ++ f.name) text).toOption = f.scenario? text := by
  have hname : Scenario.isJsonName (front ++ f.name) = Scenario.isJsonName f.name :=
    Scenario.isJsonName_append front (by cases f <;> decide)
  rw [Scenario.parse, hname]
  cases f with
  | json =>
    rw [if_pos (by decide), scenario?]
    cases Scenario.ofJson? text <;> rfl
  | toml | hiddenToml =>
    rw [if_neg (by decide), scenario?]
    cases Scenario.ofToml? text <;> rfl

end ScenarioFile

/-- A place where a scenario is looked for. -/
structure Candidate where
  directory : Path
  file : ScenarioFile

namespace Candidate

def path (c : Candidate) : Path := c.directory ++ [c.file.name]

/-- The scenario that is there, if it exists and loads. -/
def scenario? [Codec] (c : Candidate) (t : FileTree) : Option Scenario :=
  (t.read? c.path).bind c.file.scenario?

/-- The first candidate is nearer, or it is in the same directory and its name is tried first. -/
def Before (b c : Candidate) : Prop :=
  c.directory.length < b.directory.length ∨
    b.directory = c.directory ∧ b.file.rank < c.file.rank

theorem Before.asymm {b c : Candidate} (h : b.Before c) : ¬ c.Before b := by
  unfold Before at *
  rintro (hlength | ⟨hdirectory, hrank⟩)
  · rcases h with h | ⟨h, -⟩
    · omega
    · rw [h] at hlength
      omega
  · rw [hdirectory] at h
    omega

/-- All candidates from a directory upwards, in the order in which they are tried. -/
def along (cwd : Path) : List Candidate :=
  (Path.upwards cwd).flatMap fun directory => ScenarioFile.all.map (Candidate.mk directory)

theorem candidates_eq (cwd : Path) : candidates cwd = (along cwd).map path := by
  simp only [candidates, along, List.map_flatMap, List.map_map]
  rfl

theorem along_concat (p : Path) (name : String) :
    along (p ++ [name]) = ScenarioFile.all.map (Candidate.mk (p ++ [name])) ++ along p := by
  rw [along, Path.upwards_concat, List.flatMap_cons]
  rfl

theorem mem_along {cwd : Path} {c : Candidate} : c ∈ along cwd ↔ c.directory <+: cwd := by
  simp only [along, List.mem_flatMap, List.mem_map, Path.mem_upwards]
  constructor
  · rintro ⟨d, hd, f, -, rfl⟩
    exact hd
  · intro hd
    exact ⟨c.directory, hd, c.file, c.file.mem_all, rfl⟩

theorem pairwise_directory (d : Path) :
    (ScenarioFile.all.map (Candidate.mk d)).Pairwise Before := by
  simp [ScenarioFile.all, Before, ScenarioFile.rank]

theorem pairwise_along (cwd : Path) : (along cwd).Pairwise Before := by
  induction cwd using List.reverseRecOn with
  | nil => exact pairwise_directory []
  | append_singleton p name ih =>
    rw [along_concat, List.pairwise_append]
    refine ⟨pairwise_directory _, ih, fun b hb c hc => .inl ?_⟩
    obtain ⟨f, -, rfl⟩ := List.mem_map.mp hb
    have hlength := (mem_along.mp hc).length_le
    rw [List.length_append]
    exact Nat.lt_succ_of_le hlength

theorem length_along (cwd : Path) : (along cwd).length = 3 * (cwd.length + 1) := by
  induction cwd using List.reverseRecOn with
  | nil => rfl
  | append_singleton p name ih =>
    rw [along_concat, List.length_append, ih, List.length_append]
    simp [ScenarioFile.all]
    omega

/-! ## The first that loads -/

section Loading

variable [Codec]

theorem loadable?_path (c : Candidate) (t : FileTree) :
    loadable? t c.path = (c.scenario? t).map (·, c.path) := by
  rw [loadable?, scenario?]
  cases t.read? c.path with
  | none => rfl
  | some text =>
    obtain ⟨front, hshow⟩ := Path.exists_show_concat c.directory c.file.name
    have hparse := c.file.toOption_parse front text
    rw [← hshow] at hparse
    simp only [path, Option.bind_some, ← hparse]
    cases Scenario.parse (Path.show (c.directory ++ [c.file.name])) text <;> rfl

theorem discover?_eq (t : FileTree) (cwd : Path) :
    discover? t cwd = (along cwd).findSome? fun c => (c.scenario? t).map (·, c.path) := by
  rw [discover?, candidates_eq, List.findSome?_map]
  exact congrArg (fun f => (along cwd).findSome? f) (funext fun c => c.loadable?_path t)

/-- The candidate is on the way up, its scenario loads, and no candidate before it loads. -/
structure Nearest (c : Candidate) (t : FileTree) (cwd : Path) (s : Scenario) : Prop where
  onTheWay : c.directory <+: cwd
  loads : c.scenario? t = some s
  first (b : Candidate) : b.directory <+: cwd → b.Before c → b.scenario? t = none

theorem discover?_eq_some_iff {t : FileTree} {cwd p : Path} {s : Scenario} :
    discover? t cwd = some (s, p) ↔ ∃ c : Candidate, c.Nearest t cwd s ∧ p = c.path := by
  have hpairwise := pairwise_along cwd
  rw [discover?_eq, List.findSome?_eq_some_iff]
  simp only [Option.map_eq_some_iff, Option.map_eq_none_iff]
  constructor
  · rintro ⟨before, c, after, halong, ⟨_, hc, hloaded⟩, hnone⟩
    cases hloaded
    rw [halong, List.pairwise_append, List.pairwise_cons] at hpairwise
    obtain ⟨-, ⟨hafter, -⟩, -⟩ := hpairwise
    refine ⟨c, ⟨mem_along.mp (halong ▸ by simp), hc, fun b hb hbc => ?_⟩, rfl⟩
    rcases List.mem_append.mp (halong ▸ mem_along.mpr hb) with hmem | hmem
    · exact hnone b hmem
    · rcases List.mem_cons.mp hmem with rfl | hmem
      · exact absurd hbc hbc.asymm
      · exact absurd hbc (hafter b hmem).asymm
  · rintro ⟨c, ⟨hway, hc, hfirst⟩, rfl⟩
    obtain ⟨before, after, halong⟩ := List.append_of_mem (mem_along.mpr hway)
    refine ⟨before, c, after, halong, ⟨s, hc, rfl⟩, fun b hb => hfirst b ?_ ?_⟩
    · exact mem_along.mp (halong ▸ List.mem_append_left _ hb)
    · rw [halong, List.pairwise_append] at hpairwise
      exact hpairwise.2.2 b hb c List.mem_cons_self

theorem discover?_eq_none_iff {t : FileTree} {cwd : Path} : discover? t cwd = none ↔
    ∀ c : Candidate, c.directory <+: cwd → c.scenario? t = none := by
  simp only [discover?_eq, List.findSome?_eq_none_iff, mem_along, Option.map_eq_none_iff]

end Loading

end Candidate

/-! ## Files that do not load -/

/-- The tree with no file at the path. -/
def FileTree.without (t : FileTree) (p : Path) : FileTree :=
  { t with files := t.files.filter (·.1 ≠ p) }

theorem FileTree.read?_without (t : FileTree) (p q : Path) :
    (t.without p).read? q = if q = p then none else t.read? q := by
  have hfind : (t.without p).files.find? (·.1 = q) =
      if q = p then none else t.files.find? (·.1 = q) := by
    simp only [without, List.find?_filter]
    split
    · next h =>
      subst h
      simp
    · next h =>
      refine congrArg (fun f => t.files.find? f) (funext fun e => ?_)
      by_cases he : e.1 = q <;> simp [he, h]
  rw [read?, hfind]
  split <;> rfl

namespace Candidate

theorem path_injective {b c : Candidate} (h : b.path = c.path) : b = c := by
  obtain ⟨hdirectory, hname⟩ := List.append_inj' h rfl
  have hfile : b.file = c.file := ScenarioFile.name_injective (List.cons.inj hname).1
  cases b
  cases c
  cases hdirectory
  cases hfile
  rfl

section Loading

variable [Codec]

theorem scenario?_without {c : Candidate} {t : FileTree} (h : c.scenario? t = none)
    (b : Candidate) : b.scenario? (t.without c.path) = b.scenario? t := by
  rw [scenario?, FileTree.read?_without]
  split
  · next hpath =>
    rw [path_injective hpath, h]
    rfl
  · rfl

theorem discover?_without {c : Candidate} {t : FileTree} (h : c.scenario? t = none) (cwd : Path) :
    discover? (t.without c.path) cwd = discover? t cwd := by
  simp only [discover?_eq, scenario?_without h]

theorem load_without {c : Candidate} {t : FileTree} (h : c.scenario? t = none) (cwd : Path) :
    load (t.without c.path) cwd none = load t cwd none := by
  rw [load, load, discover?_without h]

theorem load_eq_default_iff {t : FileTree} {cwd : Path} :
    load t cwd none = .ok { scenario := {}, file := none } ↔
      ∀ c : Candidate, c.directory <+: cwd → c.scenario? t = none := by
  rw [← discover?_eq_none_iff, load]
  cases discover? t cwd with
  | none => simp
  | some found => simp

end Loading

end Candidate

/-- Three names are tried in each directory up to the root, and the nearest scenario that loads is
taken. If there is none it is the default, and a file that does not load is as good as none. -/
theorem discovery_takes_the_nearest [Codec] :
    (∀ cwd : Path, (candidates cwd).length = 3 * (cwd.length + 1)) ∧
    (∀ (t : FileTree) (cwd p : Path) (s : Scenario), discover? t cwd = some (s, p) ↔
      ∃ c : Candidate, c.Nearest t cwd s ∧ p = c.path) ∧
    (∀ (t : FileTree) (cwd : Path), discover? t cwd = none ↔
      ∀ c : Candidate, c.directory <+: cwd → c.scenario? t = none) ∧
    (∀ (t : FileTree) (cwd : Path), load t cwd none = .ok { scenario := {}, file := none } ↔
      ∀ c : Candidate, c.directory <+: cwd → c.scenario? t = none) ∧
    ∀ (t : FileTree) (cwd : Path) (c : Candidate), c.scenario? t = none →
      discover? (t.without c.path) cwd = discover? t cwd ∧
        load (t.without c.path) cwd none = load t cwd none := by
  refine ⟨fun cwd => ?_, fun _ _ _ _ => Candidate.discover?_eq_some_iff,
    fun _ _ => Candidate.discover?_eq_none_iff, fun _ _ => Candidate.load_eq_default_iff,
    fun t cwd c hc => ⟨Candidate.discover?_without hc cwd, Candidate.load_without hc cwd⟩⟩
  rw [Candidate.candidates_eq, List.length_map, Candidate.length_along]

/-- A file that is no scenario is passed over on the way up. -/
theorem discovery_takes_the_nearest_past_a_broken_file :
    let t : FileTree := { files := [(["app", "edge.toml"], "="), (["edge.json"], "[]")] }
    discover? t ["app"] = some ({}, ["edge.json"]) ∧
      discover? (t.without ["app", "edge.toml"]) ["app"] = discover? t ["app"] := by
  intro t
  obtain ⟨-, hfound, -, -, hwithout⟩ := discovery_takes_the_nearest
  have hbroken : Candidate.scenario? ⟨["app"], .toml⟩ t = none := by decide
  refine ⟨(hfound t ["app"] ["edge.json"] {}).mpr ⟨⟨[], .json⟩, ⟨?_, ?_, ?_⟩, rfl⟩,
    (hwithout t ["app"] ⟨["app"], .toml⟩ hbroken).1⟩
  · exact List.nil_prefix
  · rfl
  · rintro ⟨d, f⟩ hway hbefore
    have hd : d ∈ [["app"], []] := Path.mem_upwards.mpr hway
    simp only [List.mem_cons, List.not_mem_nil, or_false] at hd
    rcases hd with rfl | rfl
    · cases f with
      | toml => exact hbroken
      | hiddenToml | json => rfl
    · cases f with
      | toml | hiddenToml => rfl
      | json => exact absurd hbefore hbefore.asymm

end RequestAccess
