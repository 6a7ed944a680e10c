import TimingEye.Proofs.BuildFlags.Lines

/-!
# The path of the list

The path of the list is put together from its directory and two names.  Whatever the directory
looks like (empty, relative or absolute, with a separator at its end or without one), the path leads
there first and on from there.

* `FileTree.names_join`: the names of a joined path;
* `FileTree.resolve_listFile`: the list is found by way of its directory;
* `FileTree.MakesWay`: what making the directories of a path comes to;
* `FileTree.read_add`: a file is read where it has been put;
* `lineFeed_notMem_listFile`: joining puts no line feed into a path.
-/

namespace TimingEye
namespace BuildFlags

/-! ## Joined paths -/

theorem lineFeed_notMem_append {first second : String} (hfirst : '\n' ∉ first.toList)
    (hsecond : '\n' ∉ second.toList) : '\n' ∉ (first ++ second).toList := by
  rw [String.toList_append]
  exact List.not_mem_append hfirst hsecond

theorem lineFeed_notMem_join {base relative : String} (hbase : '\n' ∉ base.toList)
    (hrelative : '\n' ∉ relative.toList) : '\n' ∉ (join base relative).toList := by
  rw [join]
  split
  case isTrue => exact lineFeed_notMem_append hbase hrelative
  case isFalse =>
    exact lineFeed_notMem_append (lineFeed_notMem_append hbase (by decide)) hrelative

/-- The path of the list has a line feed in it only if the directory has. -/
theorem lineFeed_notMem_listFile {directory : String} (h : '\n' ∉ directory.toList) :
    '\n' ∉ (listFile directory).toList :=
  lineFeed_notMem_join (lineFeed_notMem_join h (by decide)) (by decide)

/-! ## Where they lead -/

namespace FileTree

theorem names_append_cons (first second : Octets) :
    names (first ++ separator :: second) = names first ++ names second := by
  rw [names, Octets.splitOn_eq, List.splitOn_append_cons_self, List.filter_append, names, names,
    Octets.splitOn_eq, Octets.splitOn_eq]

/-- A joined path leads on from where its first part leads. -/
theorem names_join (base relative : String) :
    names (Octets.ofString (join base relative)) =
      names (Octets.ofString base) ++ names (Octets.ofString relative) := by
  have hslash : Octets.ofString "/" = [separator] := rfl
  rw [join]
  split
  case isTrue h =>
    rcases h with rfl | hlast
    · rw [String.empty_append]
      rfl
    · -- The base ends with a separator, behind which there is no name.
      obtain ⟨init, hinit⟩ := List.getLast?_eq_some_iff.mp hlast
      have hbase : base = String.ofList init ++ "/" := by
        rw [← String.toList_inj, hinit, String.toList_append, String.toList_ofList]
        rfl
      have hnone : names [] = [] := rfl
      rw [hbase, Octets.ofString_append, Octets.ofString_append, hslash, List.append_assoc,
        List.singleton_append, names_append_cons, names_append_cons, hnone, List.append_nil]
  case isFalse =>
    rw [Octets.ofString_append, Octets.ofString_append, hslash, List.append_assoc,
      List.singleton_append, names_append_cons]

theorem exists_ofString_join (base relative : String) :
    ∃ rest, Octets.ofString (join base relative) = Octets.ofString base ++ rest := by
  rw [join]
  split
  · exact ⟨Octets.ofString relative, Octets.ofString_append base relative⟩
  · exact ⟨Octets.ofString "/" ++ Octets.ofString relative, by
      rw [Octets.ofString_append, Octets.ofString_append, List.append_assoc]⟩

/-- A joined path starts where its first part does. -/
theorem startOf_join (tree : FileTree) {relative : String}
    (hrelative : (Octets.ofString relative).head? ≠ some separator) (base : String) :
    tree.startOf (Octets.ofString (join base relative)) =
      tree.startOf (Octets.ofString base) := by
  by_cases hbase : base = ""
  · have hnone : (Octets.ofString "").head? ≠ some separator := by decide
    rw [join, if_pos (.inl hbase), hbase, String.empty_append, startOf, if_neg hrelative, startOf,
      if_neg hnone]
  · obtain ⟨rest, hjoin⟩ := exists_ofString_join base relative
    have hsome : Octets.ofString base ≠ [] := fun hnone =>
      hbase (String.toByteArray_inj.mp (ByteArray.ext (Array.toList_inj.mp hnone)))
    rw [hjoin, startOf, startOf, List.head?_append_of_ne_nil _ hsome]

/-- The list lies two names below its directory. -/
theorem names_listFile (directory : String) :
    names (Octets.ofString (listFile directory)) =
      names (Octets.ofString directory) ++
        [Octets.ofString "generated", Octets.ofString "rust-cfg"] := by
  rw [listFile, names_join, names_join, List.append_assoc]
  rfl

/-- The list is found by way of its directory. -/
theorem resolve_listFile (tree : FileTree) {directory : String}
    (hlength : (Octets.ofString (listFile directory)).length < pathLimit) :
    tree.resolve (Octets.ofString (listFile directory)) =
      (tree.resolve (Octets.ofString directory) >>= (tree.follow · (Octets.ofString "generated")))
        >>= (tree.follow · (Octets.ofString "rust-cfg")) := by
  have hstart : tree.startOf (Octets.ofString (listFile directory)) =
      tree.startOf (Octets.ofString directory) :=
    (startOf_join tree (by decide) _).trans (startOf_join tree (by decide) _)
  have hshort : (Octets.ofString directory).length < pathLimit := by
    obtain ⟨rest, hrest⟩ := exists_ofString_join directory "generated"
    obtain ⟨more, hmore⟩ := exists_ofString_join (join directory "generated") "rust-cfg"
    rw [listFile, hmore, hrest, List.length_append, List.length_append] at hlength
    omega
  rw [resolve, if_neg (Nat.not_le.mpr hlength), resolve, if_neg (Nat.not_le.mpr hshort),
    names_listFile, hstart, List.foldlM_append]
  simp only [List.foldlM_cons, List.foldlM_nil, bind_pure, bind_assoc]

/-! ## Putting a file where a path leads -/

theorem entry?_put (tree : FileTree) (place other : Place) (entry : Entry) :
    FileTree.entry? (tree.put place entry) other =
      if other = place then some entry else tree.entry? other := by
  by_cases hsame : other = place
  · simp [put, entry?, hsame]
  · have hother : ¬place = other := fun h => hsame h.symm
    simp [put, entry?, hsame, hother]

/-- There are directories in the tree, and nothing else. -/
def HoldsNoFile (tree : FileTree) : Prop :=
  ∀ place content, tree.entry? place ≠ some (.file content)

theorem HoldsNoFile.put_directory {tree : FileTree} (h : tree.HoldsNoFile) (place : Place) :
    (tree.put place .directory).HoldsNoFile := by
  intro other content
  rw [entry?_put]
  split
  · exact fun hsome => Entry.noConfusion (Option.some.inj hsome)
  · exact h other content

/-- A name that does not lead up, and that a directory can have. -/
def LeadsDown (name : Octets) : Prop :=
  name ≠ parentName ∧ name.length ≤ nameLimit

instance (name : Octets) : Decidable (LeadsDown name) :=
  inferInstanceAs (Decidable (_ ∧ _))

/-- Two trees have the same entries as far down as some place is. -/
def AgreeDownTo (place : Place) (first second : FileTree) : Prop :=
  ∀ other : Place, other.names.length ≤ place.names.length →
    second.entry? other = first.entry? other

theorem agreeDownTo_put (tree : FileTree) (place : Place) (name : Octets) (entry : Entry) :
    AgreeDownTo place tree (tree.put (place.child name) entry) := by
  intro other hother
  have hdeeper : other ≠ place.child name := by
    rintro rfl
    exact absurd hother (Nat.not_succ_le_self _)
  rw [entry?_put, if_neg hdeeper]

/-- What making some directories comes to: they are made below the place from which the names go
down, and following the names leads to the innermost of them.  What is put still further down makes
no difference. -/
structure MakesWay (tree : FileTree) (place : Place) (names : List Octets)
    (made : FileTree × Place) : Prop where
  workingDirectory : made.1.workingDirectory = tree.workingDirectory
  files : made.1.HoldsNoFile
  deeper : place.names.length ≤ made.2.names.length
  above : AgreeDownTo place tree made.1
  follows : ∀ later, AgreeDownTo made.2 made.1 later →
    names.foldlM later.follow (.directory place) = .ok (.directory made.2)

section
variable {tree : FileTree} {place : Place} {name : Octets} {names : List Octets}
  {middle made : FileTree × Place}

theorem MakesWay.nil (hfiles : tree.HoldsNoFile) (place : Place) :
    MakesWay tree place [] (tree, place) :=
  ⟨rfl, hfiles, Nat.le_refl _, fun _ _ => rfl, fun _ _ => rfl⟩

theorem MakesWay.cons (hfirst : MakesWay tree place [name] middle)
    (hrest : MakesWay middle.1 middle.2 names made) :
    MakesWay tree place (name :: names) made := by
  refine ⟨hrest.workingDirectory.trans hfirst.workingDirectory, hrest.files,
    Nat.le_trans hfirst.deeper hrest.deeper, ?_, ?_⟩
  · intro other hother
    have hmiddle := hrest.above other (Nat.le_trans hother hfirst.deeper)
    exact hmiddle.trans (hfirst.above other hother)
  · intro later hlater
    -- What the later names have made lies below what the first one has led to.
    have hmiddle : AgreeDownTo middle.2 middle.1 later := by
      intro other hother
      have hmade := hlater other (Nat.le_trans hother hrest.deeper)
      exact hmade.trans (hrest.above other hother)
    rw [← List.singleton_append, List.foldlM_append, hfirst.follows later hmiddle]
    exact hrest.follows later hlater

theorem foldlM_follow_singleton (tree : FileTree) (node : Node) (name : Octets) :
    [name].foldlM tree.follow node = tree.follow node name := by
  rw [List.foldlM_cons]
  exact bind_pure _

/-- A name that is not the directory's own is followed to the directory below. -/
theorem follow_child {later : FileTree} (hself : name ≠ selfName) (hname : LeadsDown name)
    (hentry : later.entry? (place.child name) = some .directory) :
    [name].foldlM later.follow (.directory place) = .ok (.directory (place.child name)) := by
  rw [foldlM_follow_singleton, follow, if_neg hself, if_neg hname.1,
    if_neg (Nat.not_lt.mpr hname.2), hentry]

theorem makesWay_enter (hfiles : tree.HoldsNoFile) (hname : LeadsDown name) (place : Place) :
    MakesWay tree place [name] (tree.enter place name) := by
  by_cases hself : name = selfName
  · have hstay : ∀ later : FileTree, [name].foldlM later.follow (.directory place) =
        .ok (.directory place) := by
      intro later
      rw [foldlM_follow_singleton, follow, if_pos hself]
    rw [enter, if_pos hself]
    exact ⟨rfl, hfiles, Nat.le_refl _, fun _ _ => rfl, fun later _ => hstay later⟩
  · have hdeeper : place.names.length ≤ (place.child name).names.length := Nat.le_succ _
    cases hentry : tree.entry? (place.child name) with
    | none =>
      have hmade : FileTree.entry? (tree.put (place.child name) .directory) (place.child name) =
          some .directory := by
        rw [entry?_put, if_pos rfl]
      simp only [enter, if_neg hself, if_neg hname.1, hentry]
      refine ⟨rfl, hfiles.put_directory _, hdeeper, agreeDownTo_put tree place name _, ?_⟩
      intro later hlater
      exact follow_child hself hname ((hlater _ (Nat.le_refl _)).trans hmade)
    | some entry =>
      have hfound : tree.entry? (place.child name) = some .directory := by
        cases entry with
        | file content => exact absurd hentry (hfiles _ content)
        | directory => exact hentry
      simp only [enter, if_neg hself, if_neg hname.1, hentry]
      refine ⟨rfl, hfiles, hdeeper, fun _ _ => rfl, ?_⟩
      intro later hlater
      exact follow_child hself hname ((hlater _ (Nat.le_refl _)).trans hfound)

theorem makesWay_makeDirectories (hfiles : tree.HoldsNoFile)
    (hnames : ∀ name ∈ names, LeadsDown name) (place : Place) :
    MakesWay tree place names (tree.makeDirectories place names) := by
  induction names generalizing tree place with
  | nil => exact .nil hfiles place
  | cons name rest ih =>
    rcases List.forall_mem_cons.mp hnames with ⟨hname, hrest⟩
    have hfirst := makesWay_enter hfiles hname place
    exact hfirst.cons (ih hfirst.files hrest _)

/-- A file is read where it has been put, as long as its path does not lead up. -/
theorem read_add {path : Octets} (hfiles : tree.HoldsNoFile) (hlength : path.length < pathLimit)
    (hpath : FileTree.names path = names ++ [name]) (hnames : ∀ name ∈ names, LeadsDown name)
    (hname : LeadsDown name) (hself : name ≠ selfName) (content : Octets) :
    (tree.add path (some content)).read path = .ok content := by
  have hway := makesWay_makeDirectories hfiles hnames (tree.startOf path)
  generalize hmade : tree.makeDirectories (tree.startOf path) names = made at hway
  have hadd : tree.add path (some content) = made.1.put (made.2.child name) (.file content) := by
    simp only [add, hpath, List.dropLast_concat, List.getLast?_concat, hmade]
  have hstart : (tree.add path (some content)).startOf path = tree.startOf path := by
    rw [hadd, startOf, startOf]
    exact congrArg (ite _ Place.root) hway.workingDirectory
  -- The file lies below every directory on the way to it.
  have hfollows := hway.follows _ (hadd ▸ agreeDownTo_put made.1 made.2 name (.file content))
  have hfile : (tree.add path (some content)).follow (.directory made.2) name =
      .ok (.file content) := by
    rw [follow, if_neg hself, if_neg hname.1, if_neg (Nat.not_lt.mpr hname.2), hadd, entry?_put,
      if_pos rfl]
  have hresolve : (tree.add path (some content)).resolve path = .ok (.file content) := by
    rw [resolve, if_neg (Nat.not_le.mpr hlength), hpath, hstart, List.foldlM_append, hfollows]
    exact (foldlM_follow_singleton _ _ name).trans hfile
  rw [read, hresolve]

end

theorem holdsNoFile_empty : empty.HoldsNoFile := by
  have hbare : bare.HoldsNoFile := by
    intro place content hfile
    rcases Option.map_eq_some_iff.mp hfile with ⟨_, hfound, hentry⟩
    cases List.mem_singleton.mp (List.mem_of_find?_eq_some hfound)
    cases hentry
  have hnames : ∀ name ∈ ["scratch", "a", "b", "c"].map Octets.ofString, LeadsDown name := by
    decide
  exact (makesWay_makeDirectories hbare hnames .root).files

end FileTree

end BuildFlags
end TimingEye
