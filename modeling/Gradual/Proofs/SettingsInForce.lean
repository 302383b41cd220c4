import Gradual.Settings.Loader
import Mathlib.Data.List.Induction
import Mathlib.Logic.Relation

/-!
The settings in force. Every source sets a version, a format, both or nothing. The sources lie over
each other setting by setting, and a broken one stops the load instead of being passed over. The
project file is searched for upwards from a directory.
-/

namespace Gradual

/-! ### The search for a project file -/

theorem Path.upwards_concat (dir : Path) (name : String) :
    upwards (dir ++ [name]) = (dir ++ [name]) :: upwards dir := by
  induction dir with
  | nil => rfl
  | cons first rest ih =>
    change (upwards (rest ++ [name])).map (first :: ·) ++ [[]] = _
    rw [ih]
    rfl

namespace Loader

variable {l : Loader} {dir start : Path}

/-- There is a project file in a directory. -/
def HasProject (l : Loader) (dir : Path) : Prop := l.tree.contains (dir ++ [projectFile]) = true

instance (l : Loader) (dir : Path) : Decidable (l.HasProject dir) :=
  inferInstanceAs (Decidable (_ = true))

/-- A step of the search: where there is no project file, it goes on in the directory above. -/
def Climbs (l : Loader) (dir above : Path) : Prop :=
  ¬ l.HasProject dir ∧ ∃ name, dir = above ++ [name]

/-- The nearest directory, from one upwards, in which there is a project file. -/
inductive Nearest (l : Loader) (start : Path) : Option Path → Prop where
  | found (dir : Path) (above : dir <+: start) (has : l.HasProject dir)
      (first : ∀ other, other <+: start → l.HasProject other → other <+: dir) :
      Nearest l start (some dir)
  | missing (nowhere : ∀ dir, dir <+: start → ¬ l.HasProject dir) : Nearest l start none

theorem projectRoot?_nil (l : Loader) :
    l.projectRoot? [] = if l.HasProject [] then some [] else none := by
  by_cases has : l.HasProject []
  · rw [if_pos has]
    exact List.find?_cons_of_pos has
  · rw [if_neg has]
    exact List.find?_cons_of_neg has

theorem projectRoot?_concat (l : Loader) (dir : Path) (name : String) :
    l.projectRoot? (dir ++ [name]) =
      if l.HasProject (dir ++ [name]) then some (dir ++ [name]) else l.projectRoot? dir := by
  rw [projectRoot?, Path.upwards_concat]
  by_cases has : l.HasProject (dir ++ [name])
  · rw [if_pos has]
    exact List.find?_cons_of_pos has
  · rw [if_neg has]
    exact List.find?_cons_of_neg has

theorem nearest_projectRoot? (l : Loader) (start : Path) :
    l.Nearest start (l.projectRoot? start) := by
  induction start using List.reverseRecOn with
  | nil =>
    rw [projectRoot?_nil]
    split
    next has => exact .found [] (List.prefix_refl _) has fun _ above _ => above
    next hasNot => exact .missing fun dir above => by rwa [List.prefix_nil.mp above]
  | append_singleton dir name ih =>
    rw [projectRoot?_concat]
    split
    next has => exact .found _ (List.prefix_refl _) has fun _ above _ => above
    next hasNot =>
      -- a directory with a project file is not the one where the search starts
      have further {other : Path} (above : other <+: dir ++ [name]) (has : l.HasProject other) :
          other <+: dir :=
        (List.prefix_concat_iff.mp above).resolve_left fun same => hasNot (same ▸ has)
      generalize l.projectRoot? dir = root at ih
      cases ih with
      | found near above has first =>
        exact .found near (above.trans (List.prefix_append _ _)) has fun other reached holds =>
          first other (further reached holds) holds
      | missing nowhere =>
        exact .missing fun other above has => nowhere other (further above has) has

theorem Nearest.eq {root root' : Option Path} (near : l.Nearest start root)
    (near' : l.Nearest start root') : root = root' := by
  cases near with
  | found dir above has first =>
    cases near' with
    | found dir' above' has' first' =>
      have inside := first' dir above has
      have around := first dir' above' has'
      rw [inside.eq_of_length_le around.length_le]
    | missing nowhere => exact absurd has (nowhere dir above)
  | missing nowhere =>
    cases near' with
    | found dir' above' has' _ => exact absurd has' (nowhere dir' above')
    | missing _ => rfl

theorem nearest_iff {root : Option Path} : l.Nearest start root ↔ l.projectRoot? start = root :=
  ⟨(nearest_projectRoot? l start).eq, fun found => found ▸ nearest_projectRoot? l start⟩

/-- The search ends: each step leaves one name less. -/
theorem acc_climbs (l : Loader) (start : Path) :
    Acc (fun above dir => l.Climbs dir above) start := by
  induction start using List.reverseRecOn with
  | nil =>
    refine .intro _ fun above climbs => ?_
    obtain ⟨name, same⟩ := climbs.2
    simp at same
  | append_singleton dir name ih =>
    refine .intro _ fun above climbs => ?_
    obtain ⟨other, same⟩ := climbs.2
    exact (List.append_inj_left' same rfl) ▸ ih

theorem exists_end_of_search (l : Loader) (start : Path) :
    ∃ last, Relation.ReflTransGen l.Climbs start last ∧ (∀ above, ¬ l.Climbs last above) ∧
      l.projectRoot? start = if l.HasProject last then some last else none := by
  induction start using List.reverseRecOn with
  | nil =>
    refine ⟨[], .refl, fun above climbs => ?_, projectRoot?_nil l⟩
    obtain ⟨name, same⟩ := climbs.2
    simp at same
  | append_singleton dir name ih =>
    rw [projectRoot?_concat]
    split
    next has => exact ⟨_, .refl, fun above climbs => climbs.1 has, (if_pos has).symm⟩
    next hasNot =>
      obtain ⟨last, run, ended, found⟩ := ih
      exact ⟨last, run.head ⟨hasNot, name, rfl⟩, ended, found⟩

end Loader

/-! ### What the sources set -/

/-- What a source sets. -/
structure Layer where
  version : Option Nat
  format : Option OutputFormat

/-- A value that is not there sets nothing. -/
inductive SetBy {α β : Type} (Means : α → β → Prop) : Option α → Option β → Prop where
  | unset : SetBy Means none none
  | set {a : α} {b : β} (means : Means a b) : SetBy Means (some a) (some b)

section SetBy

variable {α β : Type} {Means : α → β → Prop} {a : α} {b? : Option β}

@[simp] theorem setBy_none_iff : SetBy Means none b? ↔ b? = none :=
  ⟨fun | .unset => rfl, fun unset => unset ▸ .unset⟩

@[simp] theorem setBy_some_iff : SetBy Means (some a) b? ↔ ∃ b, Means a b ∧ b? = some b :=
  ⟨fun | .set means => ⟨_, means, rfl⟩, fun ⟨_, means, set⟩ => set ▸ .set means⟩

end SetBy

def KnownVersion (version : Nat) : Prop := version = 2 ∨ version = 3

/-- A version that is set is a known one. -/
def Known (version? : Option Nat) : Prop :=
  ∀ version, version? = some version → KnownVersion version

theorem Known.or {first second : Option Nat} (known : Known first) (known' : Known second) :
    Known (first.or second) := by
  cases first with
  | none => exact known'
  | some _ => exact known

theorem Known.getD {version? : Option Nat} {version : Nat} (known : Known version?)
    (otherwise : KnownVersion version) : KnownVersion (version?.getD version) := by
  cases version? with
  | none => exact otherwise
  | some set => exact known set rfl

/-- Blanks around a version do not matter. -/
def MeansVersion (text : String) (version : Nat) : Prop :=
  numberOf? (Text.trim text.toList) = some version ∧ KnownVersion version

/-- The case of a format does not matter. -/
def MeansFormat (text : String) (format : OutputFormat) : Prop :=
  Text.lowercase text = format.word ∨ Text.lowercase text = "text" ∧ format = .human

/-- The variables are valid, and this is what they set. -/
structure Environment.Sets (e : Environment) (layer : Layer) : Prop where
  version : SetBy MeansVersion e.version layer.version
  format : SetBy MeansFormat e.format layer.format

theorem Environment.Sets.known {e : Environment} {layer : Layer} (sets : e.Sets layer) :
    Known layer.version := by
  intro version set
  have reads := sets.version
  rw [set] at reads
  generalize e.version = text? at reads
  cases reads with
  | set means => exact means.2

/-- A file can be read, it holds settings, a version among them is a known one, and this is what it
sets. -/
def FileTree.Sets {σ : Type} (t : FileTree) (p : Path) (ofText? : String → Option σ)
    (layerOf : σ → Layer) (layer : Layer) : Prop :=
  ∃ text s, t.read p = .ok text ∧ ofText? text = some s ∧ layerOf s = layer ∧ Known layer.version

def ProjectSettings.layer (s : ProjectSettings) : Layer := ⟨s.version?, s.format?⟩

def GlobalSettings.layer (s : GlobalSettings) : Layer := ⟨s.version?, s.format?⟩

/-- What the project file in a directory sets. Without a project file nothing is set. -/
def Loader.ProjectSets (l : Loader) : Option Path → Layer → Prop
  | some dir, layer =>
    l.tree.Sets (dir ++ [projectFile]) ProjectSettings.ofText? ProjectSettings.layer layer
  | none, layer => layer = ⟨none, none⟩

/-- What the global file sets. A file that is not there sets nothing. -/
def Loader.GlobalSets (l : Loader) (layer : Layer) : Prop :=
  if l.tree.contains l.globalPath then
    l.tree.Sets l.globalPath GlobalSettings.ofText? GlobalSettings.layer layer
  else layer = ⟨none, none⟩

theorem checkVersion_eq_ok_iff {version : Nat} :
    checkVersion version = .ok () ↔ KnownVersion version := by
  have listed : supportedVersions.contains version = true ↔ KnownVersion version := by
    simp [supportedVersions, KnownVersion]
  rw [← listed]
  unfold checkVersion
  split
  next known => simp only [known]
  next unknown => simp only [unknown, reduceCtorEq]

theorem checkVersion?_eq_ok_iff {version : Option Nat} :
    checkVersion? version = .ok () ↔ Known version := by
  cases version with
  | none => simp [checkVersion?, Known]
  | some v => simp [checkVersion?, checkVersion_eq_ok_iff, Known]

/-- What comes after a step is reached exactly if the step succeeds. -/
theorem bind_eq_ok_iff {ε α β : Type} {x : Except ε α} {f : α → Except ε β} {b : β} :
    (x >>= f) = .ok b ↔ ∃ a, x = .ok a ∧ f a = .ok b := by
  cases x with
  | error e => simp [bind, Except.bind]
  | ok a => simp [bind, Except.bind]

theorem checked_eq_ok_iff {ε α : Type} {x : Except ε Unit} {a b : α} :
    (x >>= fun _ => pure a) = .ok b ↔ x = .ok () ∧ a = b := by
  cases x with
  | error e => simp [bind, Except.bind]
  | ok done => simp [bind, Except.bind, pure, Except.pure]

theorem throw_eq_ok_iff {ε α : Type} {e : ε} {a : α} :
    (throw e : Except ε α) = .ok a ↔ False := by
  simp [throw, throwThe, MonadExceptOf.throw]

/-- A value is put in place of what there is, if one is set and it can be read. -/
theorem override_eq_ok_iff {ε α β σ : Type} {read : α → Except ε β} {Means : α → β → Prop}
    (reads : ∀ a b, read a = .ok b ↔ Means a b) {a? : Option α} {put : β → σ} {s s' : σ} :
    a?.elim (.ok s) (fun a => (read a).map put) = .ok s' ↔
      ∃ b?, SetBy Means a? b? ∧ b?.elim s put = s' := by
  cases a? with
  | none => simp
  | some a =>
    have mapped : (read a).map put = .ok s' ↔ ∃ b, read a = .ok b ∧ put b = s' := by
      cases read a <;> simp [Except.map]
    simp only [Option.elim_some, mapped, reads, setBy_some_iff]
    constructor
    · rintro ⟨b, means, made⟩
      exact ⟨some b, ⟨b, means, rfl⟩, made⟩
    · rintro ⟨_, ⟨b, means, rfl⟩, made⟩
      exact ⟨b, means, made⟩

theorem versionOfText_eq_ok_iff (text : String) (version : Nat) :
    versionOfText text = .ok version ↔ MeansVersion text version := by
  unfold versionOfText MeansVersion
  cases numberOf? (Text.trim text.toList) with
  | none => simp [throw_eq_ok_iff]
  | some read =>
    simp only [checked_eq_ok_iff, checkVersion_eq_ok_iff, Option.some.injEq]
    constructor
    · rintro ⟨known, rfl⟩
      exact ⟨rfl, known⟩
    · rintro ⟨rfl, known⟩
      exact ⟨known, rfl⟩

theorem OutputFormat.ofWord?_eq_some_iff {word : String} {format : OutputFormat} :
    ofWord? word = some format ↔ word = format.word := by
  constructor
  · intro read
    unfold ofWord? at read
    split at read <;> cases read <;> rfl
  · rintro rfl
    exact ofWord?_word format

theorem OutputFormat.ofText_eq_ok_iff (text : String) (format : OutputFormat) :
    ofText text = .ok format ↔ MeansFormat text format := by
  unfold ofText MeansFormat
  generalize Text.lowercase text = word
  by_cases other : word = "text"
  · subst other
    have noWord : "text" ≠ format.word := by cases format <;> decide
    simp [noWord, eq_comm]
  · simp only [other, if_false, false_and, or_false, ← ofWord?_eq_some_iff]
    cases ofWord? word <;> simp

theorem FileTree.readSettings_eq_ok_iff {t : FileTree} {p : Path} {text : String} :
    t.readSettings p = .ok text ↔ t.read p = .ok text := by
  unfold readSettings
  cases t.read p with
  | ok other => simp
  | error reason => cases reason <;> simp

theorem ProjectSettings.load_eq_ok_iff {t : FileTree} {p : Path} {s : ProjectSettings} :
    load t p = .ok s ↔ ∃ text, t.read p = .ok text ∧ ofText? text = some s ∧
      Known s.version? := by
  simp only [load, bind_eq_ok_iff, FileTree.readSettings_eq_ok_iff]
  refine exists_congr fun text => and_congr_right fun _ => ?_
  cases ofText? text with
  | none => simp [throw_eq_ok_iff]
  | some read =>
    simp only [checked_eq_ok_iff, validate, checkVersion?_eq_ok_iff, Option.some.injEq]
    constructor
    · rintro ⟨known, rfl⟩
      exact ⟨rfl, known⟩
    · rintro ⟨rfl, known⟩
      exact ⟨known, rfl⟩

theorem GlobalSettings.load_eq_ok_iff {t : FileTree} {p : Path} {s : GlobalSettings} :
    load t p = .ok s ↔ ∃ text, t.read p = .ok text ∧ ofText? text = some s ∧
      Known s.version? := by
  simp only [load, bind_eq_ok_iff, FileTree.readSettings_eq_ok_iff]
  refine exists_congr fun text => and_congr_right fun _ => ?_
  cases ofText? text with
  | none => simp [throw_eq_ok_iff]
  | some read =>
    simp only [checked_eq_ok_iff, validate, checkVersion?_eq_ok_iff, Option.some.injEq]
    constructor
    · rintro ⟨known, rfl⟩
      exact ⟨rfl, known⟩
    · rintro ⟨rfl, known⟩
      exact ⟨known, rfl⟩

/-! ### The sources over each other -/

/-- The settings of a project below what the environment sets. -/
def ProjectSettings.under (s : ProjectSettings) (environment : Layer) : ProjectSettings :=
  let s := environment.version.elim s s.setVersion
  environment.format.elim s s.setFormat

theorem ProjectSettings.version?_under (s : ProjectSettings) (environment : Layer) :
    (s.under environment).version? = environment.version.or s.version? := by
  obtain ⟨version, format⟩ := environment
  cases version <;> cases format <;> rfl

theorem ProjectSettings.format?_under (s : ProjectSettings) (environment : Layer) :
    (s.under environment).format? = environment.format.or s.format? := by
  obtain ⟨version, format⟩ := environment
  cases version <;> cases format <;> rfl

namespace Loader

variable {l : Loader} {start : Path} {root : Option Path} {project project' : ProjectSettings}
  {user : GlobalSettings} {layer : Layer} {s : Settings}

/-- The settings of a project where its file was found, or none was. -/
def ProjectFound (l : Loader) : Option Path → ProjectSettings → Prop
  | some dir, project => ProjectSettings.load l.tree (dir ++ [projectFile]) = .ok project
  | none, project => project = .empty

theorem overrideVersion_eq_ok_iff : l.overrideVersion project = .ok project' ↔
    ∃ version, SetBy MeansVersion l.environment.version version ∧
      version.elim project project.setVersion = project' := by
  have put : l.overrideVersion project =
      l.environment.version.elim (.ok project) fun text =>
        (versionOfText text).map project.setVersion := by
    unfold overrideVersion
    cases l.environment.version <;> rfl
  rw [put, override_eq_ok_iff versionOfText_eq_ok_iff]

theorem overrideFormat_eq_ok_iff : l.overrideFormat project = .ok project' ↔
    ∃ format, SetBy MeansFormat l.environment.format format ∧
      format.elim project project.setFormat = project' := by
  have put : l.overrideFormat project =
      l.environment.format.elim (.ok project) fun text =>
        (OutputFormat.ofText text).map project.setFormat := by
    unfold overrideFormat
    cases l.environment.format <;> rfl
  rw [put, override_eq_ok_iff OutputFormat.ofText_eq_ok_iff]

theorem globalSets_iff :
    l.GlobalSets layer ↔ ∃ user, l.loadGlobal = .ok user ∧ user.layer = layer := by
  unfold loadGlobal GlobalSets
  split
  next there =>
    simp only [GlobalSettings.load_eq_ok_iff, FileTree.Sets]
    constructor
    · rintro ⟨text, user, read, holds, rfl, known⟩
      exact ⟨user, ⟨text, read, holds, known⟩, rfl⟩
    · rintro ⟨user, ⟨text, read, holds, known⟩, rfl⟩
      exact ⟨text, user, read, holds, rfl, known⟩
  next absent =>
    constructor
    · rintro rfl
      exact ⟨.empty, rfl, rfl⟩
    · rintro ⟨_, ⟨⟩, sets⟩
      exact sets.symm

theorem projectSets_iff :
    l.ProjectSets root layer ↔ ∃ project, l.ProjectFound root project ∧ project.layer = layer := by
  cases root with
  | none =>
    constructor
    · rintro rfl
      exact ⟨.empty, rfl, rfl⟩
    · rintro ⟨_, rfl, sets⟩
      exact sets.symm
  | some dir =>
    simp only [ProjectFound, ProjectSettings.load_eq_ok_iff, ProjectSets, FileTree.Sets]
    constructor
    · rintro ⟨text, project, read, holds, rfl, known⟩
      exact ⟨project, ⟨text, read, holds, known⟩, rfl⟩
    · rintro ⟨project, ⟨text, read, holds, known⟩, rfl⟩
      exact ⟨text, project, read, holds, rfl, known⟩

theorem GlobalSets.known (sets : l.GlobalSets layer) : Known layer.version := by
  unfold GlobalSets at sets
  split at sets
  next =>
    obtain ⟨_, _, _, _, _, known⟩ := sets
    exact known
  next => simp [sets, Known]

theorem ProjectSets.known (sets : l.ProjectSets root layer) : Known layer.version := by
  cases root with
  | none =>
    cases sets
    simp [Known]
  | some dir =>
    obtain ⟨_, _, _, _, _, known⟩ := sets
    exact known

theorem complete_eq_ok_iff : l.complete root project = .ok s ↔
    ∃ user environment, l.loadGlobal = .ok user ∧ l.environment.Sets environment ∧
      s = ⟨project.under environment, user, root⟩ := by
  simp only [complete, bind_eq_ok_iff, overrideVersion_eq_ok_iff, overrideFormat_eq_ok_iff, pure,
    Except.pure, Except.ok.injEq]
  constructor
  · rintro ⟨user, loaded, _, ⟨version, setVersion, rfl⟩, _, ⟨format, setFormat, rfl⟩, made⟩
    exact ⟨user, ⟨version, format⟩, loaded, ⟨setVersion, setFormat⟩, made.symm⟩
  · rintro ⟨user, environment, loaded, ⟨setVersion, setFormat⟩, made⟩
    exact ⟨user, loaded, _, ⟨_, setVersion, rfl⟩, _, ⟨_, setFormat, rfl⟩, made.symm⟩

theorem loadFromDirectory_eq_ok_iff : l.loadFromDirectory start = .ok s ↔
    ∃ project user environment, l.ProjectFound (l.projectRoot? start) project ∧
      l.loadGlobal = .ok user ∧ l.environment.Sets environment ∧
      s = ⟨project.under environment, user, l.projectRoot? start⟩ := by
  have found : l.loadFromDirectory start = .ok s ↔ ∃ project : ProjectSettings,
      l.ProjectFound (l.projectRoot? start) project ∧
      l.complete (l.projectRoot? start) project = .ok s := by
    unfold loadFromDirectory
    cases l.projectRoot? start with
    | none => simp [ProjectFound]
    | some dir => simp [ProjectFound, bind_eq_ok_iff]
  simp only [found, complete_eq_ok_iff, exists_and_left]

end Loader

end Gradual
