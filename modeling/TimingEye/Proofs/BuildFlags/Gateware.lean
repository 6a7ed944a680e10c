import TimingEye.Proofs.BuildFlags.Report

/-!
# The gateware that is built against

The directory that a run settles on is the one that it exports, the one whose list it depends on and
the one whose list it opens.  It is the directory that the environment names, if it names one.

A variable that is set to something other than text names no directory, and the step goes on as if
it had not been set: it takes the directory that lies at a fixed place, that of another gateware.

* `Settled`: how the directory is settled on;
* `CarriesOut`: what a run does with the directory;
* `KeepsToName`: a run uses the directory that was named, or none;
* `run_keeps_to_directory`: a run keeps to its directory, and to the name if that is text.
-/

namespace TimingEye
namespace BuildFlags

/-! ## The directory -/

/-- The environment names no directory: the variable is not set, or not to a text. -/
def Environment.Unnamed (environment : Environment) : Prop :=
  ∀ directory, environment.buildinc ≠ some (Octets.ofString directory)

/-- What the step settles on, and why. -/
inductive Settled (environment : Environment) : Except Failure String → Prop where
  | named {directory : String}
      (hnamed : environment.buildinc = some (Octets.ofString directory)) :
      Settled environment (.ok directory)
  | fallback {package : String} (hunnamed : environment.Unnamed)
      (hpackage : environment.manifest = some (Octets.ofString package)) :
      Settled environment (.ok (join package defaultDirectory))
  | unset (hunnamed : environment.Unnamed) (hpackage : environment.manifest = none) :
      Settled environment (.error .manifestUnset)
  | notText {octets : Octets} (hunnamed : environment.Unnamed)
      (hpackage : environment.manifest = some octets)
      (hbad : ∀ text, Octets.ofString text ≠ octets) :
      Settled environment (.error (.manifestNotText octets))

theorem bind_text?_eq_some_iff {value : Option Octets} {text : String} :
    value.bind Octets.text? = some text ↔ value = some (Octets.ofString text) := by
  rw [Option.bind_eq_some_iff]
  constructor
  · rintro ⟨octets, rfl, htext⟩
    rw [Octets.text?_eq_some_iff.mp htext]
  · rintro rfl
    exact ⟨_, rfl, Octets.text?_eq_some_iff.mpr rfl⟩

theorem exists_settled (environment : Environment) : ∃ settled, Settled environment settled := by
  by_cases hnamed : ∃ directory, environment.buildinc = some (Octets.ofString directory)
  · rcases hnamed with ⟨directory, hnamed⟩
    exact ⟨_, .named hnamed⟩
  · have hunnamed : environment.Unnamed := not_exists.mp hnamed
    cases hpackage : environment.manifest with
    | none => exact ⟨_, .unset hunnamed hpackage⟩
    | some octets =>
      by_cases htext : ∃ package, Octets.ofString package = octets
      · rcases htext with ⟨package, rfl⟩
        exact ⟨_, .fallback hunnamed hpackage⟩
      · exact ⟨_, .notText hunnamed hpackage (not_exists.mp htext)⟩

/-- The step cannot settle on anything else. -/
theorem Settled.eq_directory {environment : Environment} {settled : Except Failure String}
    (h : Settled environment settled) : settled = directory environment := by
  have hnone : environment.Unnamed → environment.buildinc.bind Octets.text? = none :=
    fun hunnamed => Option.eq_none_iff_forall_ne_some.mpr fun directory hset =>
      hunnamed directory (bind_text?_eq_some_iff.mp hset)
  cases h with
  | named hnamed => rw [directory, bind_text?_eq_some_iff.mpr hnamed]
  | fallback hunnamed hpackage =>
    simp only [directory, hnone hunnamed, hpackage, Octets.text?_eq_some_iff.mpr rfl]
  | unset hunnamed hpackage => simp only [directory, hnone hunnamed, hpackage]
  | notText hunnamed hpackage hbad =>
    simp only [directory, hnone hunnamed, hpackage, Octets.text?_eq_none_iff.mpr hbad]

theorem settled_directory (environment : Environment) :
    Settled environment (directory environment) := by
  obtain ⟨settled, h⟩ := exists_settled environment
  rwa [← h.eq_directory]

/-! ## A run -/

/-- What a run does that can use a directory.  It exports the directory, depends on the list there,
and opens it. -/
inductive Opens (environment : Environment) (tree : FileTree) (directory : String) : Prop where
  | missing {cause : FileError}
      (hread : tree.read (Octets.ofString (listFile directory)) = .error cause)
      (hrun : configure environment tree =
        { instructions := header directory, failure := some (.unreadable cause) })
  | found {content : Octets} {names : List String} {failure : Option Failure}
      (hlist : tree.HasList directory content) (hflags : ListsFlags content names failure)
      (hrun : configure environment tree =
        { instructions := header directory ++ names.map .flag, failure := failure })

section
variable {environment : Environment} {tree : FileTree} {directory : String}

theorem Opens.exists_instructions (h : Opens environment tree directory) :
    ∃ names : List String, (∀ name ∈ names, '\n' ∉ name.toList) ∧
      (configure environment tree).instructions = header directory ++ names.map .flag := by
  cases h with
  | missing _ hrun =>
    refine ⟨[], List.forall_mem_nil _, ?_⟩
    rw [hrun, List.map_nil, List.append_nil]
  | found _ hflags hrun =>
    refine ⟨_, fun name hname => (hflags.isFlag hname).unbroken, ?_⟩
    rw [hrun]

/-- The line that exports a directory. -/
def exportLine (directory : String) : List Char :=
  ("cargo:rustc-env=BUILDINC_DIRECTORY=" ++ directory).toList

/-- The directory is exported by a line of its own, unless it would break the line. -/
theorem Opens.exportLine_mem_iff (h : Opens environment tree directory) :
    exportLine directory ∈ (configure environment tree).printed.toList.splitOn '\n' ↔
      '\n' ∉ directory.toList := by
  constructor
  · intro hmem hfeed
    refine lineFeed_notMem_of_mem_splitOn hmem ?_
    rw [exportLine, String.toList_append]
    exact List.mem_append_right _ hfeed
  · intro hfeed
    obtain ⟨names, hnames, hrun⟩ := h.exists_instructions
    rw [prints_report hrun hfeed hnames]
    refine List.mem_append_left _ (List.mem_map_of_mem ?_)
    exact List.mem_cons_of_mem _ List.mem_cons_self

end

/-- What a run does with what the step has settled on.  Without a directory, it stops before it
exports any. -/
inductive CarriesOut (environment : Environment) (tree : FileTree) :
    Except Failure String → Prop where
  | stops {failure : Failure} (hrun : configure environment tree =
        { instructions := [.dependsOnVariable], failure := some failure }) :
      CarriesOut environment tree (.error failure)
  | opens {directory : String} (h : Opens environment tree directory)
      (hpath : (Octets.ofString (listFile directory)).length < FileTree.pathLimit →
        tree.resolve (Octets.ofString (listFile directory)) =
          (tree.resolve (Octets.ofString directory) >>=
            (tree.follow · (Octets.ofString "generated"))) >>=
          (tree.follow · (Octets.ofString "rust-cfg")))
      (hline : exportLine directory ∈ (configure environment tree).printed.toList.splitOn '\n' ↔
        '\n' ∉ directory.toList) :
      CarriesOut environment tree (.ok directory)

theorem carriesOut_directory (environment : Environment) (tree : FileTree) :
    CarriesOut environment tree (directory environment) := by
  cases hdirectory : directory environment with
  | error failure => exact .stops (by simp only [configure, hdirectory])
  | ok directory =>
    have hopens : Opens environment tree directory := by
      cases hread : tree.read (Octets.ofString (listFile directory)) with
      | error cause => exact .missing hread (by simp only [configure, hdirectory, hread, header])
      | ok content =>
        obtain ⟨names, failure, hflags⟩ := exists_listsFlags content
        exact .found hread hflags (configure_of_hasList hdirectory hread hflags)
    exact .opens hopens (FileTree.resolve_listFile tree) hopens.exportLine_mem_iff

/-! ## The name -/

/-- The directories among some instructions that are exported. -/
def exported (instructions : List Instruction) : List String :=
  instructions.filterMap fun
    | .exportDirectory directory => some directory
    | _ => none

theorem exported_header_append (directory : String) (names : List String) :
    exported (header directory ++ names.map .flag) = [directory] := by
  rw [exported, List.filterMap_append, List.filterMap_map]
  exact congrArg ([directory] ++ ·) (List.filterMap_eq_nil_iff.mpr fun _ _ => rfl)

theorem Opens.exported_eq {environment : Environment} {tree : FileTree} {directory : String}
    (h : Opens environment tree directory) :
    exported (configure environment tree).instructions = [directory] := by
  obtain ⟨names, _, hrun⟩ := h.exists_instructions
  rw [hrun, exported_header_append]

/-- A run keeps to what the variable is set to: it uses that directory, or it fails and exports
none. -/
def KeepsToName (environment : Environment) (tree : FileTree) : Prop :=
  ∀ octets, environment.buildinc = some octets →
    (∃ directory, Octets.ofString directory = octets ∧ Opens environment tree directory) ∨
    (exported (configure environment tree).instructions = [] ∧
      (configure environment tree).failure ≠ none)

theorem Settled.keepsToName_iff {environment : Environment} {settled : Except Failure String}
    (h : Settled environment settled) (tree : FileTree) :
    KeepsToName environment tree ↔
      ∀ octets package, environment.buildinc = some octets →
        environment.manifest = some (Octets.ofString package) →
        ∃ directory, Octets.ofString directory = octets := by
  have hcarries := h.eq_directory ▸ carriesOut_directory environment tree
  constructor
  · intro hkeeps octets package hset hpackage
    rcases hkeeps octets hset with ⟨directory, hname, _⟩ | ⟨hnone, _⟩
    · exact ⟨directory, hname⟩
    · -- The only runs that export nothing are those that stop.
      cases hcarries with
      | opens hopens =>
        rw [hopens.exported_eq] at hnone
        cases hnone
      | stops _ =>
        cases h with
        | unset _ hunset => rw [hunset] at hpackage; cases hpackage
        | notText _ hother hbad =>
          rw [hother] at hpackage
          exact absurd (Option.some.inj hpackage).symm (hbad package)
  · intro htext octets hset
    cases hcarries with
    | stops hrun =>
      right
      rw [hrun]
      exact ⟨rfl, Option.some_ne_none _⟩
    | opens hopens =>
      left
      cases h with
      | named hnamed => exact ⟨_, Option.some.inj (hnamed.symm.trans hset), hopens⟩
      | fallback hunnamed hpackage =>
        -- The fallback is taken only for what is not text.
        obtain ⟨directory, rfl⟩ := htext octets _ hset hpackage
        exact absurd hset (hunnamed directory)

/-- A run exports, depends on and opens the directory that it has settled on.  It keeps to what the
variable is set to, unless this is not text and there is a directory to fall back on. -/
theorem run_keeps_to_directory (environment : Environment) (tree : FileTree) :
    ∃ settled, Settled environment settled ∧ CarriesOut environment tree settled ∧
      (KeepsToName environment tree ↔
        ∀ octets package, environment.buildinc = some octets →
          environment.manifest = some (Octets.ofString package) →
          ∃ directory, Octets.ofString directory = octets) := by
  have hsettled := settled_directory environment
  exact ⟨directory environment, hsettled, carriesOut_directory environment tree,
    hsettled.keepsToName_iff tree⟩

/-! ## A name that is not text -/

def misnamedEnvironment : Environment where
  buildinc := some [255]
  manifest := some (Octets.ofString "pkg")

def testbedTree : FileTree :=
  (FileTree.empty.add (Octets.ofString "pkg") none).add
    (Octets.ofString "testbed/software/include/generated/rust-cfg")
    (some (Octets.ofString "has_uart\n"))

/-- The variable is set, and yet the flags are those of another gateware. -/
theorem misnamed_gateware_is_replaced :
    ¬ KeepsToName misnamedEnvironment testbedTree ∧
    configure misnamedEnvironment testbedTree =
      { instructions := header "pkg/../testbed/software/include" ++ [.flag "has_uart"],
        failure := none } := by
  have hrun : configure misnamedEnvironment testbedTree =
      { instructions := header "pkg/../testbed/software/include" ++ [.flag "has_uart"],
        failure := none } := by decide +kernel
  have hbad : Octets.text? [255] = none := by decide +kernel
  refine ⟨fun hkeeps => ?_, hrun⟩
  rcases hkeeps [255] rfl with ⟨directory, hname, _⟩ | ⟨hnone, _⟩
  · exact Octets.text?_eq_none_iff.mp hbad directory hname
  · rw [hrun] at hnone
    cases hnone

end BuildFlags
end TimingEye
