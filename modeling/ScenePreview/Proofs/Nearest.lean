import ScenePreview.Proofs.Content
import ScenePreview.Proofs.Parent

/-!
# The configuration file that counts

The file is looked for from the current directory upwards, and its paths are read from the
directory two steps above it.  The two are found in different ways, one along a place and one
along the text of a path.  Here it is said that they meet: whichever directory the program runs
in, the innermost project decides, it decides alone, and its paths mean the same everywhere.

## Main definitions

* `ConfigFile.Counts` — the configuration file that counts.
* `Configuration.Anchored` — what a path in the file stands for.

## Main results

* `ConfigFile.innermost_of_find?_upwards` — the search upwards finds the innermost directory.
* `ConfigFile.counts_iff` — the file that is located is the one that counts.
* `Configuration.anchored_pathFrom` — what is made of a path in the file.
* `Configuration.load_of_locate?_eq`, `Configuration.load_rewritten` — what loading does not depend
  on.
* `Configuration.load_nearest` — **the innermost project decides alone, wherever the program
  runs.**
-/

namespace ScenePreview

open Text.Utf8

namespace ConfigFile

/-! ### From a directory upwards -/

theorem mem_upwards {d p : Place} : d ∈ upwards p ↔ d <+: p := by
  rw [upwards, List.mem_map]
  constructor
  · rintro ⟨n, -, rfl⟩
    exact List.take_prefix _ _
  · intro hd
    have hle := hd.length_le
    refine ⟨p.length - d.length, by rw [List.mem_range]; omega, ?_⟩
    rw [Nat.sub_sub_self hle]
    exact (List.prefix_iff_eq_take.1 hd).symm

/-- The places come from the inside to the outside. -/
theorem pairwise_upwards (p : Place) :
    (upwards p).Pairwise fun d d' => d'.length < d.length := by
  rw [upwards, List.pairwise_map]
  refine List.pairwise_lt_range.imp_of_mem ?_
  intro n m hn hm hlt
  rw [List.mem_range] at hn hm
  simp only [List.length_take]
  omega

/-- The search upwards finds the innermost of all directories with what is looked for. -/
theorem innermost_of_find?_upwards {f : Place → Bool} {cwd d : Place}
    (hfind : (upwards cwd).find? f = some d) :
    d <+: cwd ∧ f d = true ∧ ∀ d', d' <+: cwd → d.length < d'.length → f d' = false := by
  obtain ⟨hd, inner, outer, hsplit, hinner⟩ := List.find?_eq_some_iff_append.1 hfind
  have hmem : d ∈ upwards cwd := List.mem_of_find?_eq_some hfind
  refine ⟨mem_upwards.1 hmem, hd, fun d' hd' hlt => ?_⟩
  -- a longer place stands before the one that is found
  have hmem' := mem_upwards.2 hd'
  have hpairwise := pairwise_upwards cwd
  rw [hsplit] at hmem' hpairwise
  rcases List.mem_append.1 hmem' with hin | hout
  · simpa using hinner d' hin
  · rcases List.mem_cons.1 hout with rfl | hout
    · omega
    · have hshort := List.rel_of_pairwise_cons (List.pairwise_append.1 hpairwise).2.1 hout
      omega

theorem find?_upwards_eq_none_iff {f : Place → Bool} {cwd : Place} :
    (upwards cwd).find? f = none ↔ ∀ d, d <+: cwd → f d = false := by
  simp only [List.find?_eq_none, mem_upwards, Bool.not_eq_true]

/-! ### The file that counts -/

/-- The configuration file that counts. -/
inductive Counts (h : Host) (vs : Variables) : Option Path → Prop where
  /-- That of the innermost project around the current directory. -/
  | project {d : Place} (hd : d <+: h.cwd) (hfound : h.exists (ofProject d) = true)
      (hinner : ∀ d', d' <+: h.cwd → d.length < d'.length → h.exists (ofProject d') = false) :
      Counts h vs (some (ofProject d))
  /-- That of the user, outside of all projects. -/
  | user {dir : Path} (houtside : ∀ d, d <+: h.cwd → h.exists (ofProject d) = false)
      (hdir : userDir? h vs = some dir)
      (hfound : h.exists ((dir.child "slice-preview").child "config.yaml") = true) :
      Counts h vs (some ((dir.child "slice-preview").child "config.yaml"))
  /-- None, if the user has none either. -/
  | nothing (houtside : ∀ d, d <+: h.cwd → h.exists (ofProject d) = false)
      (huser : ∀ dir, userDir? h vs = some dir →
        h.exists ((dir.child "slice-preview").child "config.yaml") = false) : Counts h vs none

/-- The file that is located counts. -/
theorem counts_locate? (h : Host) (vs : Variables) : Counts h vs (locate? h vs) := by
  have hsearch : ((upwards h.cwd).map ofProject).find? h.exists
      = ((upwards h.cwd).find? fun d => h.exists (ofProject d)).map ofProject :=
    List.find?_map ..
  unfold locate?
  rw [hsearch]
  cases hproject : (upwards h.cwd).find? fun d => h.exists (ofProject d) with
  | some d =>
    obtain ⟨hd, hfound, hinner⟩ := innermost_of_find?_upwards hproject
    exact .project hd hfound hinner
  | none =>
    have houtside := find?_upwards_eq_none_iff.1 hproject
    change Counts h vs ((ofUser? h vs).filter h.exists)
    rw [ofUser?]
    cases huser : userDir? h vs with
    | none => exact .nothing houtside (by simp [huser])
    | some dir =>
      rw [Option.map_some]
      cases hfound : h.exists ((dir.child userDirName).child fileName) with
      | true =>
        rw [Option.filter_some_pos hfound]
        exact .user houtside huser hfound
      | false =>
        rw [Option.filter_some_neg (by simp [hfound])]
        refine .nothing houtside fun dir' hdir' => ?_
        rw [huser] at hdir'
        cases hdir'
        exact hfound

/-- No two files count. -/
theorem Counts.unique {h : Host} {vs : Variables} {file file' : Option Path}
    (hfile : Counts h vs file) (hfile' : Counts h vs file') : file = file' := by
  cases hfile with
  | @project d hd hfound hinner =>
    cases hfile' with
    | @project d' hd' hfound' hinner' =>
      -- neither of two innermost directories is longer
      have hle : d'.length ≤ d.length :=
        Nat.not_lt.1 fun hlt => by simp [hinner d' hd' hlt] at hfound'
      have hge : d.length ≤ d'.length :=
        Nat.not_lt.1 fun hlt => by simp [hinner' d hd hlt] at hfound
      have heq : d = d' := (List.prefix_of_prefix_length_le hd hd' hge).eq_of_length_le hle
      rw [heq]
    | user houtside => simp [houtside _ hd] at hfound
    | nothing houtside => simp [houtside _ hd] at hfound
  | user houtside hdir hfound =>
    cases hfile' with
    | project hd' hfound' => simp [houtside _ hd'] at hfound'
    | user _ hdir' =>
      rw [hdir] at hdir'
      cases hdir'
      rfl
    | nothing _ huser => simp [huser _ hdir] at hfound
  | nothing houtside huser =>
    cases hfile' with
    | project hd' hfound' => simp [houtside _ hd'] at hfound'
    | user _ hdir' hfound' => simp [huser _ hdir'] at hfound'
    | nothing => rfl

/-- The file that is located is the one that counts. -/
theorem counts_iff {h : Host} {vs : Variables} {file : Option Path} :
    Counts h vs file ↔ file = locate? h vs :=
  ⟨fun hfile => hfile.unique (counts_locate? h vs), fun hfile => hfile ▸ counts_locate? h vs⟩

/-! ### The directory two steps above it -/

/-- Two steps up from the file of a project is the directory of the project. -/
theorem parents_ofProject {d : Place} (hd : ∀ n ∈ d, Path.IsName n) :
    (ofProject d).parent?.bind Path.parent? = some d.toPath := by
  have hdir : Path.IsName (encode dirName) := by decide +kernel
  have hfile : Path.IsName (encode fileName) := by decide +kernel
  have habsolute := Place.isAbsolute_toPath d
  rw [← Path.trimmed_toPath hd]
  exact Path.parent?_parent?_join habsolute hdir hfile

/-- Two steps up from the file of the user is the directory of all user configuration. -/
theorem parents_ofUser {dir : Path} (habsolute : dir.isAbsolute = true) :
    ((dir.child "slice-preview").child "config.yaml").parent?.bind Path.parent?
      = some dir.trimmed := by
  have hdir : Path.IsName (encode "slice-preview") := by decide +kernel
  have hfile : Path.IsName (encode "config.yaml") := by decide +kernel
  exact Path.parent?_parent?_join habsolute hdir hfile

/-- The file that counts and the directory two steps above it are absolute. -/
theorem Counts.exists_base {h : Host} {vs : Variables} {file : Path}
    (hfile : Counts h vs (some file)) (hcwd : ∀ n ∈ h.cwd, Path.IsName n)
    (huser : ∀ dir, userDir? h vs = some dir → dir.isAbsolute = true) :
    file.isAbsolute = true ∧
      ∃ base, file.parent?.bind Path.parent? = some base ∧ base.isAbsolute = true := by
  cases hfile with
  | @project d hd hfound hinner =>
    have habsolute := Place.isAbsolute_toPath d
    refine ⟨Path.isAbsolute_join (Path.isAbsolute_join habsolute _) _, d.toPath, ?_, habsolute⟩
    exact parents_ofProject fun n hn => hcwd n (hd.mem hn)
  | @user dir houtside hdir hfound =>
    have habsolute := huser dir hdir
    exact ⟨Path.isAbsolute_join (Path.isAbsolute_join habsolute _) _, dir.trimmed,
      parents_ofUser habsolute, Path.isAbsolute_trimmed dir⟩

end ConfigFile

namespace Configuration

/-! ### Paths in the file -/

/-- What a path in the file stands for, read from a directory: an absolute one for itself, any
other for the entry below the directory that it leads to, by the path of that entry without
links, and if it leads nowhere for its text below the directory. -/
inductive Anchored (h : Host) (base : Path) (text : String) : Path → Prop where
  /-- An absolute path. -/
  | absolute (habs : (Path.ofString text).isAbsolute = true) :
      Anchored h base text (Path.ofString text)
  /-- A relative path that leads to an entry. -/
  | entry {place : Place} {e : Entry} (hrel : (Path.ofString text).isAbsolute = false)
      (hfound : h.tree.stat h.cwd (base.join (Path.ofString text)) = .ok (place, e)) :
      Anchored h base text place.toPath
  /-- A relative path that leads nowhere. -/
  | nowhere {e : IoError} (hrel : (Path.ofString text).isAbsolute = false)
      (hlost : h.tree.stat h.cwd (base.join (Path.ofString text)) = .error e) :
      Anchored h base text (base.join (Path.ofString text))

theorem anchored_pathFrom (h : Host) (base : Path) (text : String) :
    Anchored h base text (pathFrom h base text) := by
  unfold pathFrom FileTree.canonicalize
  dsimp only
  split
  · next habs => exact .absolute habs
  · next hrel =>
    rw [Bool.not_eq_true] at hrel
    cases hstat : h.tree.stat h.cwd (base.join (Path.ofString text)) with
    | ok found => exact .entry hrel hstat
    | error e => exact .nowhere hrel hstat

/-- Read from an absolute directory every path is absolute. -/
theorem Anchored.isAbsolute {h : Host} {base p : Path} {text : String}
    (hp : Anchored h base text p) (hbase : base.isAbsolute = true) : p.isAbsolute = true := by
  cases hp with
  | absolute habs => exact habs
  | entry => exact Place.isAbsolute_toPath _
  | nowhere => exact Path.isAbsolute_join hbase _

/-- Read from an absolute directory a path stands for the same wherever the program runs. -/
theorem pathFrom_of_isAbsolute {h h' : Host} (htree : h'.tree = h.tree) {base : Path}
    (hbase : base.isAbsolute = true) (text : String) :
    pathFrom h' base text = pathFrom h base text := by
  have hstat := FileTree.stat_of_isAbsolute h.tree (Path.isAbsolute_join hbase
    (Path.ofString text)) h'.cwd h.cwd
  unfold pathFrom FileTree.canonicalize
  dsimp only
  rw [htree, hstat]

theorem pathFrom_rewritten {kept : Place → Prop} (h : Host) {tree' : FileTree}
    (htree : FileTree.Rewritten kept h.tree tree') (base : Path) (text : String) :
    pathFrom { h with tree := tree' } base text = pathFrom h base text := by
  unfold pathFrom
  dsimp only
  rw [FileTree.canonicalize_rewritten htree]

/-! ### Layers of a host -/

theorem projectDir_of_parents {file base : Path}
    (h : file.parent?.bind Path.parent? = some base) : projectDir (some file) = base := by
  rw [projectDir, Option.bind_some, h, Option.getD_some]

/-- The host matters to the paths in the file only. -/
theorem ofLayers_congr {h h' : Host} {file : Path}
    (hpath : ∀ text, pathFrom h' (projectDir (some file)) text
      = pathFrom h (projectDir (some file)) text) (content : ConfigFile) (o : Overrides) :
    ofLayers h' (some (file, content)) o = ofLayers h (some (file, content)) o := by
  have hroot : pathFrom h' (projectDir (some file)) = pathFrom h (projectDir (some file)) :=
    funext hpath
  simp only [ofLayers, transformer, Option.map_some, hroot]

/-- Without a file there are the variables and the defaults. -/
theorem ofLayers_none (h : Host) (o : Overrides) :
    ofLayers h none o =
      { environment := Request.environmentName? o.environment
        settings :=
          { transformer := (o.transformer.map Path.ofString).getD (Path.ofString "transformer.py") }
        configFile := none } := by
  unfold ofLayers transformer
  cases o.transformer <;> cases o.environment <;> rfl

/-- A transformer that the file names is absolute, and read from the directory of the project. -/
theorem transformer_ofLayers (h : Host) {file base : Path} {content : ConfigFile} {o : Overrides}
    {text : String} (hparents : file.parent?.bind Path.parent? = some base)
    (hbase : base.isAbsolute = true) (htext : content.tools.transformer = some text)
    (ho : o.transformer = none) :
    let found := (ofLayers h (some (file, content)) o).settings.transformer
    found.isAbsolute = true ∧ Anchored h base text found := by
  intro found
  have hfound : found = pathFrom h base text := by
    change transformer h (projectDir (some file)) o.transformer content.tools.transformer = _
    rw [htext, ho, projectDir_of_parents hparents]
    rfl
  have hanchored := anchored_pathFrom h base text
  rw [hfound]
  exact ⟨hanchored.isAbsolute hbase, hanchored⟩

/-- So is a root for working directories. -/
theorem tempRoot_ofLayers (h : Host) {file base : Path} {content : ConfigFile} (o : Overrides)
    {text : String} (hparents : file.parent?.bind Path.parent? = some base)
    (hbase : base.isAbsolute = true) (htext : content.workdir.root = some text) :
    ∃ root, (ofLayers h (some (file, content)) o).settings.tempRoot = some root ∧
      root.isAbsolute = true ∧ Anchored h base text root := by
  have hanchored := anchored_pathFrom h base text
  refine ⟨pathFrom h base text, ?_, hanchored.isAbsolute hbase, hanchored⟩
  change content.workdir.root.map (pathFrom h (projectDir (some file))) = _
  rw [htext, projectDir_of_parents hparents]
  rfl

/-! ### Loading -/

section Load

variable {h h' : Host} {vs vs' : Variables} {file : Path}

theorem load_of_none (hfile : ConfigFile.locate? h vs = none) :
    load h vs = .ok (ofLayers h none (Overrides.ofVariables vs)) := by
  unfold load
  rw [hfile]
  rfl

/-- With a file everything depends on what is read from it. -/
theorem load_of_some (hfile : ConfigFile.locate? h vs = some file) :
    load h vs = match ConfigFile.read h file with
      | .ok content => .ok (ofLayers h (some (file, content)) (Overrides.ofVariables vs))
      | .error e => .error e := by
  unfold load
  simp only [hfile]
  cases ConfigFile.read h file <;> rfl

theorem load_of_unreadable (hfile : ConfigFile.locate? h vs = some file) {e : IoError}
    (he : h.readText file = .error e) : load h vs = .error (.unreadable file e) := by
  rw [load_of_some hfile, ConfigFile.read, he]

theorem load_of_malformed (hfile : ConfigFile.locate? h vs = some file) {text : String}
    (htext : h.readText file = .ok text) (hparse : ConfigFile.parse? text = none) :
    load h vs = .error (.malformed file) := by
  simp only [load_of_some hfile, ConfigFile.read, htext, hparse]

theorem load_of_content (hfile : ConfigFile.locate? h vs = some file) {text : String}
    {content : ConfigFile} (htext : h.readText file = .ok text)
    (hparse : ConfigFile.parse? text = some content) :
    load h vs = .ok (ofLayers h (some (file, content)) (Overrides.ofVariables vs)) := by
  simp only [load_of_some hfile, ConfigFile.read, htext, hparse]

/-- Two programs that read the same text from one file, and make the same of its paths, load the
same configuration. -/
theorem load_congr (hfile : ConfigFile.locate? h vs = some file)
    (hfile' : ConfigFile.locate? h' vs' = some file)
    (hvars : Overrides.ofVariables vs' = Overrides.ofVariables vs)
    (htext : h'.readText file = h.readText file)
    (hpath : ∀ text, pathFrom h' (projectDir (some file)) text
      = pathFrom h (projectDir (some file)) text) : load h' vs' = load h vs := by
  have hread : ConfigFile.read h' file = ConfigFile.read h file := by
    rw [ConfigFile.read, ConfigFile.read, htext]
  rw [load_of_some hfile, load_of_some hfile', hread, hvars]
  cases ConfigFile.read h file with
  | error e => rfl
  | ok content => simp only [ofLayers_congr hpath]

/-- From every directory from which the same file counts the same is loaded. -/
theorem load_of_locate?_eq (htree : h'.tree = h.tree)
    (hvars : Overrides.ofVariables vs' = Overrides.ofVariables vs)
    (hcwd : ∀ n ∈ h.cwd, Path.IsName n)
    (huser : ∀ dir, ConfigFile.userDir? h vs = some dir → dir.isAbsolute = true)
    (hlocate : ConfigFile.locate? h' vs' = ConfigFile.locate? h vs) : load h' vs' = load h vs := by
  cases hfile : ConfigFile.locate? h vs with
  | none =>
    rw [hfile] at hlocate
    rw [load_of_none hfile, load_of_none hlocate, ofLayers_none, ofLayers_none, hvars]
  | some file =>
    have hcounts := ConfigFile.counts_locate? h vs
    rw [hfile] at hlocate hcounts
    -- the file and the directory of the project are absolute, so the directory does not matter
    obtain ⟨habsolute, base, hparents, hbase⟩ := hcounts.exists_base hcwd huser
    refine load_congr hfile hlocate hvars (Host.readText_of_isAbsolute htree habsolute)
      fun text => ?_
    rw [projectDir_of_parents hparents]
    exact pathFrom_of_isAbsolute htree hbase text

/-- What is in files other than the one that counts makes no difference. -/
theorem load_rewritten {tree' : FileTree}
    (htree : FileTree.Rewritten (fun q => ∃ file e, ConfigFile.locate? h vs = some file ∧
      h.tree.stat h.cwd file = .ok (q, e)) h.tree tree') :
    load { h with tree := tree' } vs = load h vs := by
  have hexists : ∀ p, Host.exists { h with tree := tree' } p = h.exists p :=
    fun p => FileTree.exists_rewritten htree h.cwd p
  have hlocate : ConfigFile.locate? { h with tree := tree' } vs = ConfigFile.locate? h vs := by
    unfold ConfigFile.locate?
    rw [funext hexists]
    rfl
  cases hfile : ConfigFile.locate? h vs with
  | none =>
    rw [hfile] at hlocate
    rw [load_of_none hfile, load_of_none hlocate, ofLayers_none, ofLayers_none]
  | some file =>
    rw [hfile] at hlocate
    refine load_congr hfile hlocate rfl ?_ fun text => pathFrom_rewritten h htree _ text
    exact Host.readText_rewritten h htree fun place e hstat => ⟨file, e, hfile, hstat⟩

end Load

/-- **The innermost project decides alone, wherever the program runs.**  One file counts, or
none: that of the innermost project around the current directory, outside of all projects that of
the user, and without either there are only the variables and the defaults.  The file that counts
is the only one that is consulted: if it cannot be read, or holds no configuration, then loading
fails with that file, and what is in other files makes no difference.  Otherwise what it says is
laid between the variables and the defaults.  A transformer or a root for working directories that
it names is absolute, and if it is relative in the file then it is read from the directory two
steps above the file, which for a project is the directory that holds it.  So from every current
directory from which that file counts the same configuration is loaded. -/
theorem load_nearest (h : Host) (vs : Variables) (hcwd : ∀ n ∈ h.cwd, Path.IsName n)
    (huser : ∀ dir, ConfigFile.userDir? h vs = some dir → dir.isAbsolute = true) :
    let said := Overrides.ofVariables vs
    ∃ counting : Option Path, (∀ other, ConfigFile.Counts h vs other ↔ other = counting) ∧
      (counting = none → load h vs = .ok
        { environment := Request.environmentName? said.environment
          settings := { transformer :=
            (said.transformer.map Path.ofString).getD (Path.ofString "transformer.py") }
          configFile := none }) ∧
      (∀ file, counting = some file →
        (∀ e, h.readText file = .error e → load h vs = .error (.unreadable file e)) ∧
        (∀ text, h.readText file = .ok text → ConfigFile.parse? text = none →
          load h vs = .error (.malformed file)) ∧
        ∀ text content, h.readText file = .ok text → ConfigFile.parse? text = some content →
          let config := ofLayers h (some (file, content)) said
          load h vs = .ok config ∧ config.configFile = some file ∧
          ∃ base, file.parent?.bind Path.parent? = some base ∧ base.isAbsolute = true ∧
            (∀ d : Place, d <+: h.cwd → file = ConfigFile.ofProject d → base = d.toPath) ∧
            (∀ t, content.tools.transformer = some t → said.transformer = none →
              config.settings.transformer.isAbsolute = true ∧
                Anchored h base t config.settings.transformer) ∧
            ∀ t, content.workdir.root = some t → ∃ root, config.settings.tempRoot = some root ∧
              root.isAbsolute = true ∧ Anchored h base t root) ∧
      (∀ h' vs', h'.tree = h.tree → Overrides.ofVariables vs' = said →
        ConfigFile.Counts h' vs' counting → load h' vs' = load h vs) ∧
      ∀ tree', FileTree.Rewritten (fun q => ∃ file e, counting = some file ∧
          h.tree.stat h.cwd file = .ok (q, e)) h.tree tree' →
        load { h with tree := tree' } vs = load h vs := by
  intro said
  refine ⟨ConfigFile.locate? h vs, fun _ => ConfigFile.counts_iff, ?_, ?_, ?_, ?_⟩
  · intro hnone
    rw [load_of_none hnone, ofLayers_none]
  · intro file hfile
    have hcounts := ConfigFile.counts_locate? h vs
    rw [hfile] at hcounts
    obtain ⟨-, base, hparents, hbase⟩ := hcounts.exists_base hcwd huser
    refine ⟨fun e => load_of_unreadable hfile, fun text => load_of_malformed hfile,
      fun text content htext hparse => ?_⟩
    refine ⟨load_of_content hfile htext hparse, rfl, base, hparents, hbase, ?_,
      fun t ht hvariable => transformer_ofLayers h hparents hbase ht hvariable,
      fun t ht => tempRoot_ofLayers h said hparents hbase ht⟩
    rintro d hd rfl
    have hproject := ConfigFile.parents_ofProject fun n hn => hcwd n (hd.mem hn)
    rw [hparents] at hproject
    exact Option.some.inj hproject
  · intro h' vs' htree hvars hcounts'
    exact load_of_locate?_eq htree hvars hcwd huser (ConfigFile.counts_iff.1 hcounts').symm
  · intro tree' htree
    exact load_rewritten htree

/-- A project in a project, whose transformer is beside its configuration. -/
def nestedProjects : Host where
  tree := ⟨[([encode ".slice-preview"], .directory),
    ([encode ".slice-preview", encode "config.yaml"], .file (encode "tools: [") false),
    ([encode "a"], .directory), ([encode "a", encode ".slice-preview"], .directory),
    ([encode "a", encode ".slice-preview", encode "config.yaml"],
      .file (encode "tools:\n  transformer: cut.py\n") false),
    ([encode "a", encode "cut.py"], .file [] false), ([encode "a", encode "b"], .directory)]⟩
  cwd := [encode "a", encode "b"]

/-- A user with a configuration of his own, whose home is on record only. -/
def userHome : Host where
  tree := ⟨[([encode "u"], .directory), ([encode "u", encode ".config"], .directory),
    ([encode "u", encode ".config", encode "slice-preview"], .directory),
    ([encode "u", encode ".config", encode "slice-preview", encode "config.yaml"],
      .file (encode "workdir:\n  root: runs\n") false)]⟩
  cwd := [encode "u"]
  home? := some (Path.ofString "/u")

/-- From a directory of the inner project the inner file counts, although the outer one holds no
configuration, and its transformer is found beside it.  Outside of all projects the file of the
user counts, and the root that it names is read from two steps above it. -/
theorem load_nearest_nested :
    let vs : Variables := [("HOME", "/home")]
    ((∀ n ∈ nestedProjects.cwd, Path.IsName n) ∧
      (∀ dir, ConfigFile.userDir? nestedProjects vs = some dir → dir.isAbsolute = true) ∧
      ∃ config, load nestedProjects vs = .ok config ∧
        config.configFile = some (Path.ofString "/a/.slice-preview/config.yaml") ∧
        config.settings.transformer = Path.ofString "/a/cut.py") ∧
    (∀ n ∈ userHome.cwd, Path.IsName n) ∧
      (∀ dir, ConfigFile.userDir? userHome [] = some dir → dir.isAbsolute = true) ∧
      ∃ config, load userHome [] = .ok config ∧
        config.configFile = some (Path.ofString "/u/.config/slice-preview/config.yaml") ∧
        config.settings.tempRoot = some (Path.ofString "/u/.config/runs") := by
  intro vs
  constructor
  · have hcwd : ∀ n ∈ nestedProjects.cwd, Path.IsName n := by decide +kernel
    have hdir? : ConfigFile.userDir? nestedProjects vs
        = some (Path.ofString "/home/.config") := by decide +kernel
    have huser : ∀ dir, ConfigFile.userDir? nestedProjects vs = some dir →
        dir.isAbsolute = true := by
      intro dir hdir
      rw [hdir?] at hdir
      cases hdir
      decide +kernel
    have hproject : ConfigFile.ofProject [encode "a"]
        = Path.ofString "/a/.slice-preview/config.yaml" := by decide +kernel
    have hcounts : ConfigFile.Counts nestedProjects vs
        (some (Path.ofString "/a/.slice-preview/config.yaml")) := by
      rw [ConfigFile.counts_iff]
      cbv
    have htext : nestedProjects.readText (Path.ofString "/a/.slice-preview/config.yaml")
        = .ok "tools:\n  transformer: cut.py\n" := by cbv
    have hparse : ConfigFile.parse? "tools:\n  transformer: cut.py\n"
        = some { tools := { transformer := some "cut.py" } } := by cbv
    have hjoin : (Path.ofString "/a").join (Path.ofString "cut.py")
        = Path.ofString "/a/cut.py" := by decide +kernel
    have hfound : nestedProjects.tree.stat nestedProjects.cwd (Path.ofString "/a/cut.py")
        = .ok ([encode "a", encode "cut.py"], .file [] false) := by cbv
    obtain ⟨counting, hunique, -, hsome, -⟩ := load_nearest nestedProjects vs hcwd huser
    obtain ⟨-, -, hread⟩ := hsome _ ((hunique _).1 hcounts).symm
    obtain ⟨hload, hfile, base, -, -, hbase, htransformer, -⟩ := hread _ _ htext hparse
    have hbase' : base = Path.ofString "/a" := by
      rw [hbase [encode "a"] (by decide +kernel) hproject.symm]
      decide +kernel
    refine ⟨hcwd, huser, _, hload, hfile, ?_⟩
    obtain ⟨-, hanchored⟩ := htransformer "cut.py" rfl (by decide +kernel)
    rw [hbase'] at hanchored
    generalize (ofLayers ..).settings.transformer = found at hanchored
    cases hanchored with
    | absolute habs => exact absurd habs (by decide +kernel)
    | entry hrel hentry =>
      rw [hjoin, hfound] at hentry
      cases hentry
      decide +kernel
    | nowhere hrel hlost => simp [hjoin, hfound] at hlost
  · have hcwd : ∀ n ∈ userHome.cwd, Path.IsName n := by decide +kernel
    have hdir? : ConfigFile.userDir? userHome [] = some (Path.ofString "/u/.config") := by
      decide +kernel
    have huser : ∀ dir, ConfigFile.userDir? userHome [] = some dir → dir.isAbsolute = true := by
      intro dir hdir
      rw [hdir?] at hdir
      cases hdir
      decide +kernel
    have hcounts : ConfigFile.Counts userHome []
        (some (Path.ofString "/u/.config/slice-preview/config.yaml")) := by
      rw [ConfigFile.counts_iff]
      cbv
    have htext : userHome.readText (Path.ofString "/u/.config/slice-preview/config.yaml")
        = .ok "workdir:\n  root: runs\n" := by cbv
    have hparse : ConfigFile.parse? "workdir:\n  root: runs\n"
        = some { workdir := { root := some "runs" } } := by cbv
    have hbase' : (Path.ofString "/u/.config/slice-preview/config.yaml").parent?.bind Path.parent?
        = some (Path.ofString "/u/.config") := by decide +kernel
    have hjoin : (Path.ofString "/u/.config").join (Path.ofString "runs")
        = Path.ofString "/u/.config/runs" := by decide +kernel
    have hlost : userHome.tree.stat userHome.cwd (Path.ofString "/u/.config/runs")
        = .error (.os .notFound) := by cbv
    obtain ⟨counting, hunique, -, hsome, -⟩ := load_nearest userHome [] hcwd huser
    obtain ⟨-, -, hread⟩ := hsome _ ((hunique _).1 hcounts).symm
    obtain ⟨hload, hfile, base, hparents, -, -, -, htempRoot⟩ := hread _ _ htext hparse
    obtain rfl := Option.some.inj (hparents.symm.trans hbase')
    obtain ⟨root, hroot, -, hanchored⟩ := htempRoot "runs" rfl
    refine ⟨hcwd, huser, _, hload, hfile, ?_⟩
    rw [hroot]
    cases hanchored with
    | absolute habs => exact absurd habs (by decide +kernel)
    | entry hrel hentry => simp [hjoin, hlost] at hentry
    | nowhere hrel hnone => rw [hjoin]

end Configuration

end ScenePreview
