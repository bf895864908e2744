import ScenePreview.Proofs.WorkDir

/-!
# Runs one after the other

Each run has a directory of its own, and only that may be touched by its processes.  The
directory stays after a run that ends with a video, and after a failed one if that is asked for;
else it goes with all that is in it.  Here it is said what this means for the files: nothing else
changes, however many runs there are and however they end.

## Main definitions

* `Round`, `Orchestrator.rounds` — runs one after the other.
* `Round.Confined` — a run whose processes keep to its directory.
* `Round.Isolated` — what one run does to the files.
* `Round.Spares` — what a later run leaves of an earlier one.
* `Scope.Follows` — what runs keep.

## Main results

* `Round.WorksIn.isolated`, `Round.follows` — what one run does, and what it keeps.
* `Orchestrator.follows_of_mem_rounds`, `Orchestrator.pairwise_spares` — the same for a
  sequence of runs.
* `Orchestrator.rounds_isolated` — **runs do not touch each other, nor anything else.**
-/

namespace ScenePreview

open FileTree (Extends)

/-! ### Rounds -/

/-- What a run is given: what runs its processes, what it cannot foresee, and what is asked
for. -/
structure Commission where
  /-- Runs the processes. -/
  runner : Runner
  /-- What the run cannot foresee. -/
  chance : Chance
  /-- What is asked for. -/
  request : Request

/-- A run of a sequence. -/
structure Round extends Commission where
  /-- What the run finds. -/
  before : Scope

namespace Round

variable (r : Round)

/-- The run from its beginning to its end. -/
def result : Progress × Scope := Orchestrator.conduct r.runner r.chance r.request r.before

/-- What the run leaves. -/
def after : Scope := r.result.2

/-- The run ends with a video. -/
def Succeeded : Prop := ∃ run, r.result.1 = .ended (.ok run)

/-- The directory of the run is to stay. -/
def Keeps : Prop :=
  r.Succeeded ∨ r.before.orchestrator.settings.keepFailedWorkdir = true

/-- The working directory of the run, and the tree with it. -/
def made : Except IoError (Path × FileTree) :=
  WorkDir.create r.before.host r.before.orchestrator.settings.workdirPrefix
    r.before.orchestrator.settings.tempRoot r.chance.suffixes

/-- What the transformer leaves, if the run works in the given directory. -/
def sliced (dir : Path) (tree : FileTree) : Ran :=
  Orchestrator.sliced r.runner r.request r.before dir tree

/-- What the renderer leaves, if the run works in the given directory. -/
def rendered (dir : Path) (tree : FileTree) : Ran :=
  Orchestrator.rendered r.runner r.request r.before dir tree

/-- The host as the last process leaves it, if the run works in the given directory. -/
def left (dir : Path) (tree : FileTree) : Host :=
  Orchestrator.left r.runner r.request r.before dir tree

/-- The run works in a directory: its path, the tree when it is new, and its place there. -/
structure WorksIn (dir : Path) (tree : FileTree) (w : Place) : Prop where
  /-- The directory was made for the run. -/
  made : r.made = .ok (dir, tree)
  /-- Its path leads to its place. -/
  found : tree.lstat r.before.host.cwd dir = .ok (w, .directory)

/-- The processes of the run change nothing but files in its working directory. -/
def Confined : Prop :=
  ∀ dir tree w, r.WorksIn dir tree w →
    Host.ChangedBelow w { r.before.host with tree } (r.sliced dir tree).host ∧
      ∀ scene, Slice.outcome (r.sliced dir tree) (WorkDir.scenePath dir) = .ok scene →
        Host.ChangedBelow w (r.sliced dir tree).host (r.rendered dir tree).host

/-- What a run does to the files. -/
structure Isolated (dir : Path) (tree : FileTree) (w : Place) : Prop where
  /-- The run works in the directory. -/
  worksIn : r.WorksIn dir tree w
  /-- Nothing was at its place before, nor below. -/
  fresh : ∀ q, w <+: q → r.before.host.tree.get? q = none
  /-- The directory is empty when the run starts its first process. -/
  empty : ∀ q, w <+: q → q ≠ w → tree.get? q = none
  /-- After the run everything outside is as it was before. -/
  outside : ∀ q, ¬ w <+: q → r.after.host.tree.get? q = r.before.host.tree.get? q
  /-- The directory is still there exactly if it is to stay. -/
  stays_iff : r.after.host.tree.get? w = some .directory ↔ r.Keeps
  /-- If it is to stay then the files are those that the last process left. -/
  kept : r.Keeps → r.after.host.tree = (r.left dir tree).tree
  /-- Else it is gone with all that was in it. -/
  gone : ¬ r.Keeps → ∀ q, w <+: q → r.after.host.tree.get? q = none

/-- What a later run leaves of an earlier one. -/
structure Spares (r r' : Round) : Prop where
  /-- It works elsewhere than in a directory that stayed. -/
  distinct : r.Keeps → ∀ dir tree w dir' tree' w', r.WorksIn dir tree w →
    r'.WorksIn dir' tree' w' → w' ≠ w ∧ dir' ≠ dir
  /-- A directory that stayed is still there after it. -/
  stays : r.Keeps → ∀ dir tree w, r.WorksIn dir tree w →
    r'.after.host.tree.get? w = some .directory
  /-- The video of a run that ended with one is there after both of them, and is the same. -/
  video : ∀ run, r.result.1 = .ended (.ok run) → ∃ a place content executable,
    run.artifact = some a ∧
      r.after.host.tree.stat r.after.host.cwd a.path = .ok (place, .file content executable) ∧
      r'.after.host.tree.stat r'.after.host.cwd a.path = .ok (place, .file content executable)

end Round

/-- Runs one after the other. -/
def Orchestrator.rounds : Scope → List Commission → List Round
  | _, [] => []
  | s, c :: cs =>
    let r : Round := { c with before := s }
    r :: rounds r.after cs

/-- What runs keep: the orchestrator is free and has its settings, and no file is lost. -/
structure Scope.Follows (s s' : Scope) : Prop where
  /-- The orchestrator is free. -/
  free : s'.orchestrator.busy = false
  /-- It has its settings. -/
  settings : s'.orchestrator.settings = s.orchestrator.settings
  /-- The files are in directories. -/
  isTree : s'.host.tree.IsTree
  /-- The current directory is the same. -/
  cwd : s'.host.cwd = s.host.cwd
  /-- No file is lost. -/
  extends_tree : Extends s.host.tree s'.host.tree

theorem Scope.Follows.trans {s s' s'' : Scope} (h : s.Follows s') (h' : s'.Follows s'') :
    s.Follows s'' where
  free := h'.free
  settings := h'.settings.trans h.settings
  isTree := h'.isTree
  cwd := h'.cwd.trans h.cwd
  extends_tree := h.extends_tree.trans h'.extends_tree

namespace Round

open WorkDir (Made)
open Host (ChangedBelow)

section Directory

variable {r : Round} {dir : Path} {tree : FileTree} {w : Place}

theorem left_of_error {f : Failure}
    (hs : Slice.outcome (r.sliced dir tree) (WorkDir.scenePath dir) = .error f) :
    r.left dir tree = (r.sliced dir tree).host := by
  rw [left, Orchestrator.left, ← sliced, hs]

theorem left_of_ok {scene : Path}
    (hs : Slice.outcome (r.sliced dir tree) (WorkDir.scenePath dir) = .ok scene) :
    r.left dir tree = (r.rendered dir tree).host := by
  rw [left, Orchestrator.left, ← sliced, hs, rendered]

variable (htree : r.before.host.tree.IsTree)
include htree

/-- A run for which a directory was made works in it. -/
theorem exists_worksIn (hmade : r.made = .ok (dir, tree)) : ∃ w, r.WorksIn dir tree w := by
  obtain ⟨w, hw⟩ := WorkDir.exists_made htree hmade
  exact ⟨w, hmade, hw.found⟩

variable (hworks : r.WorksIn dir tree w)
include hworks

/-- The directory in which a run works was made for it. -/
theorem WorksIn.isMade : Made r.before.host dir tree w := by
  obtain ⟨w', hw'⟩ := WorkDir.exists_made htree hworks.made
  have hfound := hw'.found
  rw [hworks.found] at hfound
  cases hfound
  exact hw'

omit htree in
/-- The processes of a run, taken together, keep to its directory. -/
theorem WorksIn.changedBelow (hconfined : r.Confined) :
    ChangedBelow w { r.before.host with tree } (r.left dir tree) := by
  obtain ⟨hsliced, hrendered⟩ := hconfined dir tree w hworks
  cases hs : Slice.outcome (r.sliced dir tree) (WorkDir.scenePath dir) with
  | error f =>
    rw [left_of_error hs]
    exact hsliced
  | ok scene =>
    rw [left_of_ok hs]
    exact hsliced.trans (hrendered scene hs)

end Directory

section Single

variable {r : Round} (hfree : r.before.orchestrator.busy = false)
include hfree

/-- A run without a working directory changes no files. -/
theorem after_of_error {e : IoError} (he : r.made = .error e) :
    r.after.host = r.before.host ∧ r.after.orchestrator.busy = false ∧
      r.after.orchestrator.settings = r.before.orchestrator.settings := by
  have hrun : r.result = _ := Orchestrator.conduct_of_error hfree r.runner he
  rw [after, hrun]
  refine ⟨?_, rfl, ?_⟩
  · exact (Scope.host_report _ _).trans (Orchestrator.host_opened r.before)
  · exact (Scope.settings_report _ _).trans (Orchestrator.settings_opened r.before)

variable {dir : Path} {tree : FileTree}

/-- The host after a run with a working directory is what the processes left, less the
directory if that is not to stay. -/
theorem after_of_ok (hmade : r.made = .ok (dir, tree)) :
    (r.Keeps → r.after.host = r.left dir tree) ∧
      (¬ r.Keeps → r.after.host = WorkDir.remove (r.left dir tree) dir) ∧
      r.after.orchestrator.busy = false ∧
        r.after.orchestrator.settings = r.before.orchestrator.settings := by
  obtain ⟨j, s', hj, hhost, hsettings, ⟨f, hrun⟩ | ⟨a, hrun, -⟩⟩ :=
    Orchestrator.conduct_closes r.runner r.request hfree hmade
  · have hkeeps : r.Keeps ↔ s'.orchestrator.settings.keepFailedWorkdir = true := by
      rw [Keeps, hsettings, Succeeded, result, hrun]
      refine or_iff_right ?_
      rintro ⟨run, h⟩
      cases h
    rw [hkeeps, after, result, hrun, Job.host_fail, Job.settings_fail, hhost, hj]
    exact ⟨fun hk => if_pos hk, fun hk => if_neg hk, rfl, hsettings⟩
  · have hkeeps : r.Keeps := by
      refine .inl ⟨j.run.succeed a j.completedAt, ?_⟩
      rw [result, hrun]
      rfl
    rw [after, result, hrun, Job.host_succeed, Job.settings_succeed, hhost]
    exact ⟨fun _ => rfl, fun hk => absurd hkeeps hk, rfl, hsettings⟩

/-- The video of a run that ends with one is a file. -/
theorem exists_video {run : Run} (hrun : r.result.1 = .ended (.ok run)) :
    ∃ a place content executable, run.artifact = some a ∧
      r.after.host.tree.stat r.after.host.cwd a.path
        = .ok (place, .file content executable) := by
  cases hmade : r.made with
  | error e =>
    have hfail : r.result = _ := Orchestrator.conduct_of_error hfree r.runner hmade
    rw [hfail] at hrun
    cases hrun
  | ok made =>
    obtain ⟨dir, tree⟩ := made
    obtain ⟨j, s', -, -, -, ⟨f, hfail⟩ | ⟨a, hend, hfile⟩⟩ :=
      Orchestrator.conduct_closes r.runner r.request hfree hmade
    · rw [result, hfail] at hrun
      cases hrun
    · rw [result, hend] at hrun
      cases hrun
      obtain ⟨place, content, executable, hstat⟩ := FileTree.exists_file_of_isFile hfile
      refine ⟨a, place, content, executable, rfl, ?_⟩
      rw [after, result, hend, Job.host_succeed, hstat]

variable (htree : r.before.host.tree.IsTree) (hconfined : r.Confined)
include htree hconfined

/-- A run changes nothing outside of its directory, and leaves that as it should. -/
theorem WorksIn.isolated {w : Place} (hworks : r.WorksIn dir tree w) : r.Isolated dir tree w := by
  have hw := hworks.isMade htree
  have hleft := hworks.changedBelow hconfined
  obtain ⟨hkept, hgone, -, -⟩ := after_of_ok hfree hworks.made
  have herased : ¬ r.Keeps → ∀ q, r.after.host.tree.get? q
      = if w <+: q then none else (r.left dir tree).tree.get? q := by
    intro hk q
    rw [hgone hk, hw.remove_eq hleft]
    exact FileTree.get?_erase_eq _ hw.ne_root q
  have hnone : ¬ r.Keeps → ∀ q, w <+: q → r.after.host.tree.get? q = none := by
    intro hk q hq
    rw [herased hk, if_pos hq]
  refine ⟨hworks, hw.free, fun q hq hne => hw.get?_below hq hne, ?_, ?_, ?_, hnone⟩
  · intro q hq
    by_cases hk : r.Keeps
    · rw [hkept hk, hw.get?_outside hleft hq]
    · rw [herased hk, if_neg hq, hw.get?_outside hleft hq]
  · constructor
    · intro hthere
      by_contra hk
      rw [hnone hk w (List.prefix_refl w)] at hthere
      cases hthere
    · intro hk
      rw [hkept hk, hw.get?_self hleft]
  · intro hk
    rw [hkept hk]

/-- What one run keeps. -/
theorem follows : r.before.Follows r.after := by
  cases hmade : r.made with
  | error e =>
    obtain ⟨hhost, hbusy, hsettings⟩ := after_of_error hfree hmade
    refine ⟨hbusy, hsettings, ?_, ?_, ?_⟩
    · rw [hhost]
      exact htree
    · rw [hhost]
    · rw [hhost]
      exact Extends.refl _
  | ok made =>
    obtain ⟨dir, tree⟩ := made
    obtain ⟨w, hworks⟩ := exists_worksIn htree hmade
    have hw := hworks.isMade htree
    have hleft := hworks.changedBelow hconfined
    obtain ⟨hkept, hgone, hbusy, hsettings⟩ := after_of_ok hfree hmade
    have hcwd : (r.left dir tree).cwd = r.before.host.cwd := by rw [hleft.files]
    have hisTree : (r.left dir tree).tree.IsTree := hleft.isTree hw.isTree
    have hext : Extends r.before.host.tree (r.left dir tree).tree := hw.extends_left hleft
    by_cases hk : r.Keeps
    · refine ⟨hbusy, hsettings, ?_, ?_, ?_⟩ <;> rw [hkept hk]
      · exact hisTree
      · exact hcwd
      · exact hext
    · refine ⟨hbusy, hsettings, ?_, ?_, ?_⟩ <;> rw [hgone hk, hw.remove_eq hleft]
      · exact hisTree.erase hw.ne_root
      · exact hcwd
      · exact hw.extends_erase hleft

end Single

/-- A later run leaves what an earlier one left. -/
theorem spares {r r' : Round} (hfree : r.before.orchestrator.busy = false)
    (htree : r.before.host.tree.IsTree) (hconfined : r.Confined)
    (hnext : r.after.Follows r'.before) (hconfined' : r'.Confined) : r.Spares r' := by
  have hfollows := follows hfree htree hconfined
  have hfollows' := follows hnext.free hnext.isTree hconfined'
  have hlater := hnext.trans hfollows'
  -- a directory that stays is there for the next run
  have hthere : r.Keeps → ∀ dir tree w, r.WorksIn dir tree w →
      r.after.host.tree.get? w = some .directory := fun hk dir tree w hworks =>
    (hworks.isolated hfree htree hconfined).stays_iff.2 hk
  refine ⟨?_, ?_, ?_⟩
  · intro hk dir tree w dir' tree' w' hworks hworks'
    have hold := hnext.extends_tree w _ (hthere hk dir tree w hworks)
    have hw' := hworks'.isMade hnext.isTree
    have hne : w' ≠ w := by
      rintro rfl
      exact hw'.not_prefix_of_get? hold (List.prefix_refl w')
    refine ⟨hne, ?_⟩
    rintro rfl
    -- the path would lead to the older directory
    have hext := hw'.extends_left (ChangedBelow.refl w' { r'.before.host with tree := tree' })
    have hfound := (hworks.isMade htree).lstat_eq tree'
      ((hfollows.extends_tree.trans hnext.extends_tree).trans hext) (hext w _ hold)
    rw [← (hfollows.trans hnext).cwd, hworks'.found] at hfound
    cases hfound
    exact hne rfl
  · intro hk dir tree w hworks
    exact hlater.extends_tree w _ (hthere hk dir tree w hworks)
  · intro run hrun
    obtain ⟨a, place, content, executable, ha, hstat⟩ := exists_video hfree hrun
    refine ⟨a, place, content, executable, ha, hstat, ?_⟩
    rw [hlater.cwd]
    exact FileTree.stat_of_extends hlater.extends_tree hstat

end Round

/-! ### Sequences of runs -/

namespace Orchestrator

variable {s : Scope} {commissions : List Commission}

/-- What runs keep, up to any of them. -/
theorem follows_of_mem_rounds (hfree : s.orchestrator.busy = false) (htree : s.host.tree.IsTree)
    (hconfined : ∀ r ∈ rounds s commissions, r.Confined) {r : Round}
    (hr : r ∈ rounds s commissions) : s.Follows r.before := by
  induction commissions generalizing s with
  | nil => cases hr
  | cons c cs ih =>
    rw [rounds, List.mem_cons] at hr
    rw [rounds, List.forall_mem_cons] at hconfined
    rcases hr with rfl | hr
    · exact ⟨hfree, rfl, htree, rfl, Extends.refl _⟩
    · have hfirst := Round.follows hfree htree hconfined.1
      exact hfirst.trans (ih hfirst.free hfirst.isTree hconfined.2 hr)

/-- Each run spares all the runs before it. -/
theorem pairwise_spares (hfree : s.orchestrator.busy = false) (htree : s.host.tree.IsTree)
    (hconfined : ∀ r ∈ rounds s commissions, r.Confined) :
    (rounds s commissions).Pairwise Round.Spares := by
  induction commissions generalizing s with
  | nil => exact List.Pairwise.nil
  | cons c cs ih =>
    rw [rounds, List.forall_mem_cons] at hconfined
    have hfirst := Round.follows hfree htree hconfined.1
    rw [rounds, List.pairwise_cons]
    refine ⟨fun r' hr' => ?_, ih hfirst.free hfirst.isTree hconfined.2⟩
    have hnext := follows_of_mem_rounds hfirst.free hfirst.isTree hconfined.2 hr'
    exact Round.spares hfree htree hconfined.1 hnext (hconfined.2 r' hr')

/-- **Runs do not touch each other, nor anything else.**  Let runs follow one another on one
orchestrator, with any requests and with processes that keep to the directory of their run.  A
run without a working directory changes no files.  Any other run starts in an empty directory at
a place where there was nothing.  After it everything outside is as it was before; the directory
is there exactly if the run ended with a video or failed runs keep theirs, with what the last
process left, and else it is gone.  A later run works elsewhere than in a directory that stayed,
and leaves the video of every earlier run as it is. -/
theorem rounds_isolated (commissions : List Commission) {s : Scope}
    (hfree : s.orchestrator.busy = false) (htree : s.host.tree.IsTree)
    (hconfined : ∀ r ∈ rounds s commissions, r.Confined) :
    (∀ r ∈ rounds s commissions,
      r.before.orchestrator.busy = false ∧
      r.before.orchestrator.settings = s.orchestrator.settings ∧
      (∀ run, r.result.1 = .ended (.ok run) → ∃ a place content executable,
        run.artifact = some a ∧ r.after.host.tree.stat r.after.host.cwd a.path
          = .ok (place, .file content executable)) ∧
      match r.made with
      | .error _ => r.after.host = r.before.host
      | .ok (dir, tree) => ∃ w, r.Isolated dir tree w) ∧
    (rounds s commissions).Pairwise Round.Spares := by
  refine ⟨fun r hr => ?_, pairwise_spares hfree htree hconfined⟩
  have hbefore := follows_of_mem_rounds hfree htree hconfined hr
  refine ⟨hbefore.free, hbefore.settings, fun run hrun => Round.exists_video hbefore.free hrun, ?_⟩
  cases hmade : r.made with
  | error e => exact (Round.after_of_error hbefore.free hmade).1
  | ok made =>
    obtain ⟨w, hworks⟩ := Round.exists_worksIn hbefore.isTree hmade
    exact ⟨w, hworks.isolated hbefore.free hbefore.isTree (hconfined r hr)⟩

/-- A transformer that leaves a scene in `/1`, and a renderer that leaves a video there. -/
def videoRunner : Runner := fun h c =>
  let name := Text.Utf8.encode
  match c.cwd with
  | none =>
    { result := .ok {}
      host := { h with tree := ⟨h.tree.entries ++
        [([name "1", name "temp_scene.py"], .file [] false)]⟩ } }
  | some _ =>
    { result := .ok {}
      host := { h with tree := ⟨h.tree.entries ++
        [([name "1", name "media"], .directory),
          ([name "1", name "media", name "videos"], .directory),
          ([name "1", name "media", name "videos", name "temp_scene"], .directory),
          ([name "1", name "media", name "videos", name "temp_scene", name "480p15"], .directory),
          ([name "1", name "media", name "videos", name "temp_scene", name "480p15",
            name "Intro.mp4"], .file [118] false)]⟩ } }

/-- The video of a first run is there after a second one whose transformer fails. -/
theorem rounds_isolated_videoRunner :
    let s : Scope :=
      { orchestrator := { settings :=
          { tempRoot := some (Path.ofString "/"), workdirPrefix := "" } }
        host := {} }
    let request : Request := ⟨"", 3, none, by decide⟩
    let commissions : List Commission :=
      [⟨videoRunner, { suffixes := fun _ => "1" }, request⟩,
        ⟨lostRunner, { suffixes := fun _ => "2" }, request⟩]
    s.orchestrator.busy = false ∧ s.host.tree.IsTree ∧
      (∀ r ∈ rounds s commissions, r.Confined) ∧
      ∃ r r' place content executable, rounds s commissions = [r, r'] ∧
        r'.after.host.tree.stat r'.after.host.cwd
            (Path.ofString "/1/media/videos/temp_scene/480p15/Intro.mp4")
          = .ok (place, .file content executable) := by
  intro s request commissions
  let tree : FileTree := ⟨[([Text.Utf8.encode "1"], .directory)]⟩
  let r : Round := ⟨⟨videoRunner, { suffixes := fun _ => "1" }, request⟩, s⟩
  let r' : Round := ⟨⟨lostRunner, { suffixes := fun _ => "2" }, request⟩, r.after⟩
  have hrounds : rounds s commissions = [r, r'] := rfl
  have hdir : r.made = .ok (Path.ofString "/1", tree) := by cbv
  have hlstat : tree.lstat [] (Path.ofString "/1") = .ok ([Text.Utf8.encode "1"], .directory) := by
    cbv
  have htree : s.host.tree.IsTree := by decide
  have hconfined : r.Confined := by
    rintro dir tree' w ⟨hmade, hfound⟩
    rw [hdir] at hmade
    cases hmade
    change tree.lstat [] (Path.ofString "/1") = _ at hfound
    rw [hlstat] at hfound
    cases hfound
    exact ⟨Host.ChangedBelow.append (by decide +kernel) (by decide +kernel),
      fun _ _ => Host.ChangedBelow.append (by decide +kernel) (by decide +kernel)⟩
  have hconfined' : r'.Confined := by
    intro dir tree' w hworks
    refine ⟨Host.ChangedBelow.refl w _, fun scene hs => ?_⟩
    cases hs
  have hall : ∀ r ∈ rounds s commissions, r.Confined := by
    rw [hrounds]
    exact List.forall_mem_cons.2 ⟨hconfined, List.forall_mem_singleton.2 hconfined'⟩
  -- the first run ends with the video
  have hs : Slice.outcome (r.sliced (Path.ofString "/1") tree)
      (WorkDir.scenePath (Path.ofString "/1")) = .ok (WorkDir.scenePath (Path.ofString "/1")) := by
    cbv
  have ho : (Render.outcome (r.rendered (Path.ofString "/1") tree) (Path.ofString "/1")
      (WorkDir.scenePath (Path.ofString "/1"))).1
        = .ok ⟨Path.ofString "/1/media/videos/temp_scene/480p15/Intro.mp4"⟩ := by cbv
  obtain ⟨run, hrun, hvideo⟩ := ended_of_rendered rfl hdir hs ho
  -- and the second one spares it
  have hpairs := (rounds_isolated commissions (s := s) rfl htree hall).2
  rw [hrounds, List.pairwise_cons] at hpairs
  obtain ⟨a, place, content, executable, ha, -, hstat⟩ :=
    (hpairs.1 r' (List.mem_singleton_self r')).video run hrun
  rw [hvideo] at ha
  cases ha
  exact ⟨rfl, htree, hall, r, r', place, content, executable, hrounds, hstat⟩

end Orchestrator

end ScenePreview
