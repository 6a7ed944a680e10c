import TimingEye.Proofs.BuildFlags.Flags
import TimingEye.Proofs.BuildFlags.Paths

/-!
# What the build step prints

The step prints three lines about the directory, and then a line for each flag in the list.  If the
list ends early, so does what is printed.

* `Prints`: text made of certain lines, each of them ended by a line feed;
* `report`: the lines that are printed for a directory and its flags;
* `configure_of_hasList`: what a run comes to that finds its list;
* `flags_follow_lines`: a run prints the flags of its list, all of them and only them.
-/

namespace TimingEye
namespace BuildFlags

/-! ## Lines -/

/-- A text is made of certain lines, each of them ended by a line feed. -/
def Prints (text : String) (printed : List String) : Prop :=
  text.toList.splitOn '\n' = printed.map String.toList ++ [[]]

theorem prints_join {printed : List String} (h : ∀ line ∈ printed, '\n' ∉ line.toList) :
    Prints (String.join (printed.map (· ++ "\n"))) printed := by
  have hchars : (String.join (printed.map (· ++ "\n"))).toList =
      (printed.map String.toList).flatMap (· ++ ['\n']) := by
    rw [String.toList_join, List.flatMap_map, List.flatMap_map]
    exact congrArg printed.flatMap (funext fun line => String.toList_append)
  rw [Prints, hchars]
  exact splitOn_lines (List.forall_mem_map.mpr h)

/-! ## The report -/

/-- What the step prints about a directory. -/
def header (directory : String) : List Instruction :=
  [.dependsOnVariable, .exportDirectory directory, .dependsOnFile (listFile directory)]

/-- The lines that the step prints for a directory and the flags that are listed in it. -/
def report (directory : String) (names : List String) : List String :=
  ["cargo:rerun-if-env-changed=BUILDINC_DIRECTORY",
    "cargo:rustc-env=BUILDINC_DIRECTORY=" ++ directory,
    "cargo:rerun-if-changed=" ++ listFile directory] ++
  names.map ("cargo:rustc-cfg=" ++ ·)

theorem map_line_header (directory : String) (names : List String) :
    (header directory ++ names.map Instruction.flag).map Instruction.line =
      (report directory names).map (· ++ "\n") := by
  have hvariable : Instruction.dependsOnVariable.line =
      "cargo:rerun-if-env-changed=BUILDINC_DIRECTORY" ++ "\n" := by decide
  rw [List.map_append, report, List.map_append, List.map_map, List.map_map]
  refine congrArg₂ (· ++ ·) ?_ rfl
  rw [header, List.map_cons, hvariable]
  rfl

theorem lineFeed_notMem_report {directory : String} {names : List String}
    (hdirectory : '\n' ∉ directory.toList) (hnames : ∀ name ∈ names, '\n' ∉ name.toList) :
    ∀ line ∈ report directory names, '\n' ∉ line.toList := by
  -- None of the words that a line begins with has a line feed in it.
  refine List.forall_mem_append.mpr ⟨?_, List.forall_mem_map.mpr fun name hname => ?_⟩
  · refine List.forall_mem_cons.mpr ⟨by decide, List.forall_mem_cons.mpr ⟨?_, ?_⟩⟩
    · exact lineFeed_notMem_append (by decide) hdirectory
    · exact List.forall_mem_singleton.mpr
        (lineFeed_notMem_append (by decide) (lineFeed_notMem_listFile hdirectory))
  · exact lineFeed_notMem_append (by decide) (hnames name hname)

/-! ## A run -/

/-- The list in a directory can be read, and says this. -/
def FileTree.HasList (tree : FileTree) (directory : String) (content : Octets) : Prop :=
  tree.read (Octets.ofString (listFile directory)) = .ok content

/-- Every directory can have every list, wherever its path begins, as long as it does not lead up and
is not too long. -/
theorem hasList_add {tree : FileTree} {directory : String} (hfiles : tree.HoldsNoFile)
    (hlength : (Octets.ofString (listFile directory)).length < FileTree.pathLimit)
    (hnames : ∀ name ∈ FileTree.names (Octets.ofString directory), FileTree.LeadsDown name)
    (content : Octets) :
    (tree.add (Octets.ofString (listFile directory)) (some content)).HasList directory content := by
  have hpath : FileTree.names (Octets.ofString (listFile directory)) =
      (FileTree.names (Octets.ofString directory) ++ [Octets.ofString "generated"]) ++
        [Octets.ofString "rust-cfg"] := by
    rw [FileTree.names_listFile, List.append_assoc]
    rfl
  have hdown : ∀ name ∈ FileTree.names (Octets.ofString directory) ++
      [Octets.ofString "generated"], FileTree.LeadsDown name :=
    List.forall_mem_append.mpr ⟨hnames, by decide⟩
  exact FileTree.read_add hfiles hlength hpath hdown (by decide) (by decide) content

section
variable {environment : Environment} {tree : FileTree} {directory : String} {content : Octets}
  {names : List String} {failure : Option Failure}

theorem configure_of_hasList (hdirectory : BuildFlags.directory environment = .ok directory)
    (hlist : tree.HasList directory content) (hflags : ListsFlags content names failure) :
    configure environment tree =
      { instructions := header directory ++ names.map .flag, failure := failure } := by
  rw [FileTree.HasList] at hlist
  simp only [configure, hdirectory, hlist, hflags.eq_flags, header]

/-- What is printed can be told apart into its lines. -/
theorem prints_report {outcome : Outcome}
    (hrun : outcome.instructions = header directory ++ names.map .flag)
    (hfeed : '\n' ∉ directory.toList) (hnames : ∀ name ∈ names, '\n' ∉ name.toList) :
    Prints outcome.printed (report directory names) := by
  rw [Outcome.printed, hrun, map_line_header]
  exact prints_join (lineFeed_notMem_report hfeed hnames)

/-- Flags that are written down, one to a line, are found again. -/
theorem listsFlags_join (h : ∀ name ∈ names, IsFlag name) :
    ListsFlags (Octets.ofString (String.join (names.map (· ++ "\n")))) names none := by
  have hprints : Prints (String.join (names.map (· ++ "\n"))) names :=
    prints_join fun name hname => (h name hname).unbroken
  have hmap : (names.map String.toList).map String.ofList = names := by
    rw [List.map_map]
    exact (List.map_congr_left fun name _ => String.ofList_toList).trans (List.map_id names)
  apply listsFlags_iff.mpr
  calc
    flags (lines (Octets.ofString (String.join (names.map (· ++ "\n")))))
        = (textFlags (String.join (names.map (· ++ "\n"))).toList, none) := flags_lines_ofString _
    _ = (flagsIn (names ++ [""]), none) := by
          rw [textFlags, hprints, List.map_append, hmap]
          rfl
    _ = (names, none) := by
          rw [flagsIn_append, flagsIn_eq_self h]
          exact congrArg (·, none) (List.append_nil names)

/-- What a run comes to that finds its list. -/
structure FollowsList (environment : Environment) (tree : FileTree) (directory : String)
    (content : Octets) (names : List String) (failure : Option Failure) : Prop where
  listed : ListsFlags content names failure
  prints : Prints (configure environment tree).printed (report directory names)
  ends : (configure environment tree).failure = failure
  succeeds : failure = none ↔ ∃ text, content = Octets.ofString text
  /-- White space around the lines makes no difference. -/
  respaced : ∀ text respaced other, content = Octets.ofString text →
    Respaced text.toList respaced.toList →
    FileTree.HasList other directory (Octets.ofString respaced) →
    configure environment other = configure environment tree
  /-- The flags alone, one to a line, would have been a list with the same flags. -/
  rewritten : ∀ other, FileTree.HasList other directory
      (Octets.ofString (String.join (names.map (· ++ "\n")))) →
    configure environment other = { configure environment tree with failure := none }

/-- A run prints the flags of the list that it finds, all of them and only them. -/
theorem flags_follow_lines (hdirectory : BuildFlags.directory environment = .ok directory)
    (hfeed : '\n' ∉ directory.toList) (hlist : tree.HasList directory content) :
    ∃ names failure, FollowsList environment tree directory content names failure := by
  obtain ⟨names, failure, hflags⟩ := exists_listsFlags content
  have hrun := configure_of_hasList hdirectory hlist hflags
  refine ⟨names, failure, ?_⟩
  constructor
  case listed => exact hflags
  case prints =>
    have hinstructions := congrArg Outcome.instructions hrun
    exact prints_report hinstructions hfeed fun name hname => (hflags.isFlag hname).unbroken
  case ends => rw [hrun]
  case succeeds => exact hflags.failure_eq_none_iff
  case respaced =>
    rintro text respaced other rfl hspace hother
    rw [hrun, configure_of_hasList hdirectory hother (hflags.respaced hspace)]
  case rewritten =>
    intro other hother
    rw [hrun, configure_of_hasList hdirectory hother (listsFlags_join fun _ => hflags.isFlag)]

end

/-! ## A list with white space in it -/

def spacedList : Octets :=
  Octets.ofString "has_uart \r\n\n\thas_ctrl"

def spacedEnvironment : Environment where
  buildinc := some (Octets.ofString "/srv/soc")

def spacedTree : FileTree :=
  FileTree.empty.add (Octets.ofString (listFile "/srv/soc")) (some spacedList)

theorem flags_follow_lines_of_spacedList :
    directory spacedEnvironment = .ok "/srv/soc" ∧ '\n' ∉ "/srv/soc".toList ∧
    spacedTree.HasList "/srv/soc" spacedList ∧
    FollowsList spacedEnvironment spacedTree "/srv/soc" spacedList ["has_uart", "has_ctrl"]
      none := by
  have htext : (Octets.ofString "/srv/soc").text? = some "/srv/soc" :=
    Octets.text?_eq_some_iff.mpr rfl
  have hdirectory : directory spacedEnvironment = .ok "/srv/soc" := by
    simp only [directory, spacedEnvironment, Option.bind_some, htext]
  have hfeed : '\n' ∉ "/srv/soc".toList := by decide
  have hlist : spacedTree.HasList "/srv/soc" spacedList :=
    hasList_add FileTree.holdsNoFile_empty (by decide) (by decide) spacedList
  have hflags : flags (lines spacedList) = (["has_uart", "has_ctrl"], none) := by decide +kernel
  obtain ⟨names, failure, hfollows⟩ := flags_follow_lines hdirectory hfeed hlist
  cases hfollows.listed.eq_flags.symm.trans hflags
  exact ⟨hdirectory, hfeed, hlist, hfollows⟩

end BuildFlags
end TimingEye
