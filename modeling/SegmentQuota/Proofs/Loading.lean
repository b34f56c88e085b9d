import SegmentQuota.Proofs.FirstFault
import SegmentQuota.Proofs.Precedence

/-!
Loading the settings, with whatever reads the texts. Only the files that are there are
read, or the one that is named; the first that cannot be read, or is no settings file,
is the fault, and nothing else is. Once every file is read, the settings are those of
the last layer to make them.
-/

namespace SegmentQuota

namespace Place

variable (name : String) (peek : Place → Option Entry)

theorem nearestWith_eq_none_iff (here : Place) :
    nearestWith name peek here = none ↔
      ∀ place, place <:+ here → ¬(peek (name :: place)).isSome := by
  induction here with
  | nil => simp [nearestWith]
  | cons inner outer ih =>
      simp only [nearestWith, List.suffix_cons_iff, forall_eq_or_imp, ← ih]
      split
      next marked => simp [marked]
      next unmarked => simp [unmarked]

theorem nearest_of_nearestWith (here found : Place)
    (reached : nearestWith name peek here = some found) :
    found <:+ here ∧ (peek (name :: found)).isSome ∧
      ∀ place, place <:+ here → (peek (name :: place)).isSome → place <:+ found := by
  induction here with
  | nil =>
      rw [nearestWith, Option.ite_none_right_eq_some] at reached
      obtain ⟨marked, here⟩ := reached
      cases here
      exact ⟨List.suffix_rfl, marked, fun place above _ => above⟩
  | cons inner outer ih =>
      rw [nearestWith] at reached
      split at reached
      next marked =>
        cases reached
        exact ⟨List.suffix_rfl, marked, fun place above _ => above⟩
      next unmarked =>
        obtain ⟨above, marked, nearest⟩ := ih reached
        refine ⟨above.trans (List.suffix_cons inner outer), marked, fun place below holds => ?_⟩
        rcases List.suffix_cons_iff.mp below with rfl | further
        · exact absurd holds unmarked
        · exact nearest place further holds

end Place

namespace Settings

structure SettingsFile where
  path : String
  found : Option Entry

namespace SettingsFile

variable (reader : Reader) (file : SettingsFile)

def layer : Except LoadFault Layer := reader.readFile file.path file.found

def Describes (layer : Layer) : Prop :=
  ∃ content, file.found = some (.text content) ∧ reader.layer? content = some layer

/-- The file has no text, or a text that is no settings file. -/
def Spoils (fault : LoadFault) : Prop :=
  (∀ content, file.found ≠ some (.text content)) ∧ fault = .unreadable file.path ∨
    ∃ content, file.found = some (.text content) ∧ reader.layer? content = none ∧
      fault = .invalid file.path

theorem layer_eq_ok_iff (layer : Layer) :
    file.layer reader = .ok layer ↔ file.Describes reader layer := by
  obtain ⟨path, found⟩ := file
  rcases found with _ | ⟨content⟩ | _
  · simp [SettingsFile.layer, Reader.readFile, Describes]
  · simp only [SettingsFile.layer, Reader.readFile, Describes]
    cases read : reader.layer? content <;> simp [read]
  · simp [SettingsFile.layer, Reader.readFile, Describes]

theorem layer_eq_error_iff (fault : LoadFault) :
    file.layer reader = .error fault ↔ file.Spoils reader fault := by
  obtain ⟨path, found⟩ := file
  rcases found with _ | ⟨content⟩ | _
  · simp [SettingsFile.layer, Reader.readFile, Spoils, eq_comm]
  · simp only [SettingsFile.layer, Reader.readFile, Spoils]
    cases read : reader.layer? content <;> simp [read, eq_comm]
  · simp [SettingsFile.layer, Reader.readFile, Spoils, eq_comm]

end SettingsFile

namespace Surroundings

variable (s : Surroundings)

def fileBelow (directory : Place) (names : List String) : Option SettingsFile :=
  (s.peek (names.reverse ++ directory)).map fun entry =>
    ⟨"/".intercalate (s.top :: (directory.reverse ++ names)), some entry⟩

/-- The settings files that are read, in order. -/
def files (workspace : Place) : Option String → List SettingsFile
  | some path => [⟨path, s.typed? path⟩]
  | none =>
      (s.userDirectory.bind fun directory =>
          s.fileBelow directory ["excerpt", "config.toml"]).toList ++
        (s.fileBelow workspace [".excerpt", "config.toml"]).toList

/-- The directory is the nearest at or above `here` that holds a `.git`, or `here` itself
where there is none. -/
def IsWorkspace (here directory : Place) : Prop :=
  (directory <:+ here ∧ (s.peek (".git" :: directory)).isSome ∧
    ∀ place, place <:+ here → (s.peek (".git" :: place)).isSome → place <:+ directory) ∨
  (∀ place, place <:+ here → ¬(s.peek (".git" :: place)).isSome) ∧ directory = here

theorem workspace_eq_iff (here directory : Place) :
    s.workspace here = directory ↔ s.IsWorkspace here directory := by
  rw [workspace]
  cases reached : Place.nearestWith ".git" s.peek here with
  | none =>
      have unmarked := (Place.nearestWith_eq_none_iff _ _ _).mp reached
      constructor
      · rintro rfl
        exact Or.inr ⟨unmarked, rfl⟩
      · rintro (⟨above, marked, _⟩ | ⟨_, same⟩)
        · exact absurd marked (unmarked directory above)
        · exact same.symm
  | some found =>
      obtain ⟨above, marked, nearest⟩ := Place.nearest_of_nearestWith _ _ _ _ reached
      constructor
      · rintro rfl
        exact Or.inl ⟨above, marked, nearest⟩
      · rintro (⟨above', marked', nearest'⟩ | ⟨unmarked, _⟩)
        · exact (nearest' found above marked).eq_of_length_le
            (nearest directory above' marked').length_le
        · exact absurd marked (unmarked found above)

section

variable (reader : Reader)

-- Without a working directory the usual files cannot be looked for, so nothing is read.
theorem load_without_directory (complaint : String)
    (lost : s.workingDirectory = .error complaint) :
    s.load reader none = .error (.noWorkingDirectory complaint) := by
  simp only [load, workspaceFile, lost]
  rfl

theorem layerAt_some (directory : Place) (names : List String) :
    s.layerAt reader (some (names.reverse ++ directory)) =
      ((s.fileBelow directory names).map (SettingsFile.layer reader)).getD (.ok {}) := by
  simp only [layerAt, fileBelow, Place.pathText, List.reverse_append, List.reverse_reverse]
  cases s.peek (names.reverse ++ directory) <;> rfl

theorem layerAt_userFile :
    s.layerAt reader s.userFile =
      ((s.userDirectory.bind fun directory =>
          s.fileBelow directory ["excerpt", "config.toml"]).map
        (SettingsFile.layer reader)).getD (.ok {}) := by
  rw [userFile]
  cases s.userDirectory with
  | none => rfl
  | some directory => exact s.layerAt_some reader directory ["excerpt", "config.toml"]

variable (base : Settings) (shipped_read : reader.settings? shipped = some base)

include shipped_read

theorem load_named_eq (workspace : Place) (path : String) :
    s.load reader (some path) =
      ((s.files workspace (some path)).mapM (SettingsFile.layer reader)).map
        (s.settle base) := by
  simp only [load, Reader.shippedSettings, shipped_read, files, List.mapM_cons, List.mapM_nil,
    SettingsFile.layer]
  cases reader.readFile path (s.typed? path) <;> rfl

theorem load_usual_eq (here : Place) (placed : s.workingDirectory = .ok here) :
    s.load reader none =
      ((s.files (s.workspace here) none).mapM (SettingsFile.layer reader)).map
        (s.settle base) := by
  have both_files : s.load reader none = (do
      let user ← s.layerAt reader s.userFile
      let own ← s.layerAt reader (some ([".excerpt", "config.toml"].reverse ++ s.workspace here))
      return s.settle base [user, own]) := by
    simp only [load, workspaceFile, placed, Reader.shippedSettings, shipped_read]
    rfl
  rw [both_files, layerAt_userFile, layerAt_some, files, List.mapM_append]
  generalize (s.userDirectory.bind fun directory =>
    s.fileBelow directory ["excerpt", "config.toml"]) = user
  generalize s.fileBelow (s.workspace here) [".excerpt", "config.toml"] = own
  -- A missing file counts as a layer that makes nothing and so changes nothing.
  rcases user with _ | user <;> rcases own with _ | own
  all_goals
    simp only [Option.map_none, Option.map_some, Option.getD_none, Option.getD_some,
      Option.toList_none, Option.toList_some, List.mapM_nil, List.mapM_cons]
  · rfl
  · cases own.layer reader <;> rfl
  · cases user.layer reader <;> rfl
  · cases user.layer reader with
    | error fault => rfl
    | ok layer => cases own.layer reader <;> rfl

theorem load_eq (named : Option String) (here : Place)
    (placed : named = none → s.workingDirectory = .ok here) :
    s.load reader named =
      ((s.files (s.workspace here) named).mapM (SettingsFile.layer reader)).map
        (s.settle base) := by
  cases named with
  | none => exact s.load_usual_eq reader base shipped_read here (placed rfl)
  | some path => exact s.load_named_eq reader base shipped_read (s.workspace here) path

end

/-- Where the file that comes with the program is read, loading fails just when another
file that is read is spoilt, and then for the first such. Otherwise every setting is as
the last layer to make it has it, unless the environment has a value for it. The lowest
layer is that of the file that comes with the program. Only the usual files need a
working directory, from which the workspace is found by its mark. -/
theorem load_follows_layers (reader : Reader) (base : Settings)
    (shipped_read : reader.settings? shipped = some base) (named : Option String) (here : Place)
    (placed : named = none → s.workingDirectory = .ok here) :
    ∃ workspace, (∀ directory, s.IsWorkspace here directory ↔ directory = workspace) ∧
      ((∃ fault, s.load reader named = .error fault) ↔
        ∃ file ∈ s.files workspace named, ∃ fault, file.Spoils reader fault) ∧
      (∀ fault, s.load reader named = .error fault ↔
        ∃ earlier file later, s.files workspace named = earlier ++ file :: later ∧
          (∀ other ∈ earlier, ∃ layer, other.Describes reader layer) ∧
          file.Spoils reader fault) ∧
      ∀ settings, s.load reader named = .ok settings ↔
        ∃ layers, List.Forall₂ (SettingsFile.Describes reader) (s.files workspace named) layers ∧
          ∀ (key : Key) (value : key.Kind),
            key.value settings = value ↔ s.Prevails base layers key value := by
  have loaded := s.load_eq reader base shipped_read named here placed
  have fails_iff (fault : LoadFault) : s.load reader named = .error fault ↔
      (s.files (s.workspace here) named).mapM (SettingsFile.layer reader) = .error fault := by
    rw [loaded]
    exact map_eq_error_iff _ _ fault
  refine ⟨s.workspace here, ?_, ?_, ?_, ?_⟩
  · intro directory
    rw [← workspace_eq_iff, eq_comm]
  · simp only [fails_iff, exists_mapM_eq_error_iff, SettingsFile.layer_eq_error_iff]
  · intro fault
    simp only [fails_iff, mapM_eq_error_iff, SettingsFile.layer_eq_ok_iff,
      SettingsFile.layer_eq_error_iff]
  · intro settings
    rw [loaded]
    simp only [map_eq_ok_iff, mapM_eq_ok_iff, SettingsFile.layer_eq_ok_iff, settle_eq_iff]

/-- The file of the workspace makes the width what it is from the start, and that counts,
as the environment has no usable width. Of two files that are both spoilt the user's own is
reported. A named file has to be there. -/
theorem last_layer_counts_though_it_repeats_the_first :
    let tree (user own : String) : FileTree := [
      (["config.toml", "excerpt", "home"], .text user),
      ([".git", "work"], .closed),
      (["config.toml", ".excerpt", "work"], .text own)]
    let s (tree : FileTree) : Surroundings :=
      ⟨"", tree.peek, fun _ => none, .ok ["inner", "work"], some ["home"], some " 7.5\n", some "-1"⟩
    let sound := s (tree "[outline]\nwidth = 40\nquota = \"o\"\n" "[outline]\nwidth = 60\n")
    let spoilt := s (tree "[outline" "width = ")
    (∃ settings, sound.load .toml none = .ok settings ∧
        settings.width = 60 ∧ settings.quota = "o" ∧ settings.limitPercent = 7.5 ∧
        ∃ layers, sound.Prevails initial layers .width settings.width) ∧
      spoilt.load .toml none = .error (.invalid "/home/excerpt/config.toml") ∧
      sound.load .toml (some "lost.toml") = .error (.unreadable "lost.toml") := by
  intro tree s sound spoilt
  obtain ⟨_, _, _, _, loads⟩ := load_follows_layers sound .toml initial toml_reads_shipped none
    ["inner", "work"] fun _ => rfl
  obtain ⟨workspace, is_workspace, _, fails, _⟩ := load_follows_layers spoilt .toml initial
    toml_reads_shipped none ["inner", "work"] fun _ => rfl
  obtain ⟨_, _, _, named_fails, _⟩ := load_follows_layers sound .toml initial toml_reads_shipped
    (some "lost.toml") [] (by simp)
  have marked : ["work"] = workspace :=
    (is_workspace _).mp ((spoilt.workspace_eq_iff _ _).mp (by decide +kernel))
  refine ⟨⟨⟨7.5, 60, ".", "#", "o", "*", "!"⟩, ?_⟩, ?_, ?_⟩
  · have loaded : sound.load .toml none = .ok ⟨7.5, 60, ".", "#", "o", "*", "!"⟩ := by
      rw [sound.load_usual_eq .toml initial toml_reads_shipped ["inner", "work"] rfl]
      decide +kernel
    obtain ⟨layers, _, law⟩ := (loads _).mp loaded
    exact ⟨loaded, rfl, rfl, rfl, layers, (law .width 60).mp rfl⟩
  · subst marked
    exact (fails _).mpr ⟨[], ⟨"/home/excerpt/config.toml", some (.text "[outline")⟩, _, rfl,
      by simp, Or.inr ⟨_, rfl, by decide +kernel, rfl⟩⟩
  · exact (named_fails _).mpr ⟨[], ⟨"lost.toml", none⟩, [], rfl, by simp, Or.inl ⟨by simp, rfl⟩⟩

end Surroundings

end Settings

end SegmentQuota
