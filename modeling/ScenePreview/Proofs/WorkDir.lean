import ScenePreview.Proofs.FileTree
import ScenePreview.Proofs.Outcome

/-!
# Working directories and what is left of them

A working directory is made at a place where there was nothing.  As long as the processes of a
run keep to it, its path leads to it, and it can be taken away without a trace.

## Main definitions

* `WorkDir.Made` — a working directory that was made, with its place in the tree.
* `Host.ChangedBelow` — a host whose files have changed below a place only.
* `Orchestrator.left` — the host as the last process of a run leaves it.

## Main results

* `WorkDir.exists_made` — a working directory is new, and its path leads to it.
* `WorkDir.Made.remove_eq` — **taking it away takes away what is in it, and nothing else.**
* `Job.host_fail`, `Job.host_succeed` — which jobs take their directory away.
* `Orchestrator.conduct_closes` — how a run with a working directory comes to its end.
-/

namespace ScenePreview

open FileTree (Extends)

/-! ### Making a working directory -/

theorem Place.isAbsolute_toPath (p : Place) : p.toPath.isAbsolute = true := by
  cases p with
  | nil => rfl
  | cons n p => rfl

theorem Host.isAbsolute_absolute (h : Host) (p : Path) : (h.absolute p).isAbsolute = true := by
  rw [Host.absolute]
  split
  · assumption
  · exact Path.isAbsolute_join (Place.isAbsolute_toPath h.cwd) p

namespace WorkDir

variable {h : Host} {namePrefix : String} {root : Option Path} {suffixes : Nat → String}
  {dir : Path} {tree : FileTree} {w : Place}

/-- A working directory that was made: its path, the tree with it, and its place there. -/
structure Made (h : Host) (dir : Path) (tree : FileTree) (w : Place) : Prop where
  /-- Nothing was there, nor below it. -/
  free : ∀ q, w <+: q → h.tree.get? q = none
  /-- A directory was put there, and nothing else was done. -/
  tree_eq : tree = h.tree.insert w .directory
  /-- All that is there is still in a directory. -/
  isTree : tree.IsTree
  /-- The path leads there, as long as nothing is taken away. -/
  lstat_eq : ∀ t, Extends h.tree t → t.get? w = some .directory →
    t.lstat h.cwd dir = .ok (w, .directory)

/-- The directory that is made is the first one that can be. -/
theorem makeDir_of_createFrom {n attempts : Nat}
    (hc : createFrom h namePrefix root suffixes n attempts = .ok (dir, tree)) :
    (∃ k, dir = candidate h namePrefix root (suffixes k)) ∧
      h.tree.makeDir h.cwd dir = .ok tree := by
  induction attempts generalizing n with
  | zero => cases hc
  | succ attempts ih =>
    rw [createFrom] at hc
    split at hc
    · next hmake =>
      cases hc
      exact ⟨⟨_, rfl⟩, hmake⟩
    · exact ih hc
    · cases hc

theorem isAbsolute_candidate (h : Host) (namePrefix : String) (root : Option Path)
    (suffix : String) : (candidate h namePrefix root suffix).isAbsolute = true :=
  Path.isAbsolute_join (Host.isAbsolute_absolute h _) _

/-- A working directory is new, and its path leads to it. -/
theorem exists_made (ht : h.tree.IsTree)
    (hc : create h namePrefix root suffixes = .ok (dir, tree)) : ∃ w, Made h dir tree w := by
  obtain ⟨⟨k, rfl⟩, hmake⟩ := makeDir_of_createFrom hc
  obtain ⟨d, n, hx, rfl⟩ := FileTree.makeDir_eq_ok hmake
  -- the path is absolute, so that its steps start from the root
  have hwalk := (FileTree.resolve_eq_ok_iff.1 hx).2
  rw [if_pos (isAbsolute_candidate h namePrefix root (suffixes k))] at hwalk
  obtain ⟨hdir, hfree⟩ := FileTree.free_of_walk ht (FileTree.get?_root _) hwalk
  refine ⟨d ++ [n], ?_, rfl, ht.insert hdir hfree, ?_⟩
  · intro q hq
    exact ht.get?_eq_none_of_prefix hfree hq
  · intro t ht hw
    refine FileTree.lstat_eq_ok_iff.2 (FileTree.resolve_of_extends ht ?_ hx)
    intro d' n' hv
    cases hv
    exact hw

end WorkDir

/-! ### Processes that keep to a directory -/

/-- Nothing but files has changed, and no files but those below a place. -/
structure Host.ChangedBelow (w : Place) (h h' : Host) : Prop where
  /-- Nothing but files has changed. -/
  files : h' = { h with tree := h'.tree }
  /-- The files are still in directories. -/
  isTree : h.tree.IsTree → h'.tree.IsTree
  /-- All places that are not below the given one are as before. -/
  outside : ∀ q, (w <+: q → q = w) → h'.tree.get? q = h.tree.get? q

theorem Host.ChangedBelow.refl (w : Place) (h : Host) : ChangedBelow w h h :=
  ⟨rfl, id, fun _ _ => rfl⟩

theorem Host.ChangedBelow.trans {w : Place} {h h' h'' : Host} (hh : ChangedBelow w h h')
    (hh' : ChangedBelow w h' h'') : ChangedBelow w h h'' := by
  refine ⟨?_, fun ht => hh'.isTree (hh.isTree ht), fun q hq => ?_⟩
  · rw [hh'.files, hh.files]
  · rw [hh'.outside q hq, hh.outside q hq]

/-- New entries below a place are a change below it. -/
theorem Host.ChangedBelow.append {w : Place} {h : Host} {es : List (Place × Entry)}
    (htree : FileTree.IsTree ⟨h.tree.entries ++ es⟩) (hbelow : ∀ q ∈ es, w <+: q.1 ∧ q.1 ≠ w) :
    ChangedBelow w h { h with tree := ⟨h.tree.entries ++ es⟩ } := by
  refine ⟨rfl, fun _ => htree, fun q hq => ?_⟩
  by_cases hroot : q = []
  · rw [hroot]
    rfl
  · have hnone : es.find? (·.1 == q) = none := by
      rw [List.find?_eq_none]
      intro r hr hrq
      rw [beq_iff_eq] at hrq
      subst hrq
      exact (hbelow r hr).2 (hq (hbelow r hr).1)
    rw [FileTree.get?_of_ne hroot, FileTree.get?_of_ne hroot, List.find?_append, hnone,
      Option.or_none]

namespace WorkDir.Made

open Host (ChangedBelow)

variable {h h' : Host} {dir : Path} {tree : FileTree} {w : Place} (hmade : Made h dir tree w)
include hmade

theorem ne_root : w ≠ [] := by
  rintro rfl
  cases hmade.free [] (List.prefix_refl [])

theorem not_prefix_of_get? {q : Place} {e : Entry} (hq : h.tree.get? q = some e) : ¬ w <+: q := by
  intro hpq
  rw [hmade.free q hpq] at hq
  cases hq

theorem get?_below {q : Place} (hq : w <+: q) (hne : q ≠ w) : tree.get? q = none := by
  rw [hmade.tree_eq, FileTree.get?_insert_of_ne _ hne, hmade.free q hq]

variable (hleft : ChangedBelow w { h with tree } h')
include hleft

theorem get?_self : h'.tree.get? w = some .directory := by
  rw [hleft.outside w fun _ => rfl]
  change tree.get? w = _
  rw [hmade.tree_eq, FileTree.get?_insert_self _ hmade.ne_root]

/-- What is outside of the directory is as it was before that was made. -/
theorem get?_outside {q : Place} (hq : ¬ w <+: q) : h'.tree.get? q = h.tree.get? q := by
  have hne : q ≠ w := by
    rintro rfl
    exact hq (List.prefix_refl q)
  rw [hleft.outside q fun hpq => absurd hpq hq]
  change tree.get? q = _
  rw [hmade.tree_eq, FileTree.get?_insert_of_ne _ hne]

/-- Nothing that was there before is lost. -/
theorem extends_left : Extends h.tree h'.tree := by
  intro q e hq
  rw [hmade.get?_outside hleft (hmade.not_prefix_of_get? hq), hq]

/-- Nothing that was there before is lost with the directory. -/
theorem extends_erase : Extends h.tree (h'.tree.erase w) := by
  intro q e hq
  rw [FileTree.get?_erase_eq _ hmade.ne_root, if_neg (hmade.not_prefix_of_get? hq)]
  exact hmade.extends_left hleft q e hq

/-- The directory is taken away with all that is in it. -/
theorem remove_eq : WorkDir.remove h' dir = { h' with tree := h'.tree.erase w } := by
  have hcwd : h'.cwd = h.cwd := by rw [hleft.files]
  have hfound := hmade.lstat_eq h'.tree (hmade.extends_left hleft) (hmade.get?_self hleft)
  rw [WorkDir.remove, hcwd, FileTree.removeDirAll_eq_erase hfound]

omit hleft in
/-- The path of a new directory leads to it. -/
theorem found : tree.lstat h.cwd dir = .ok (w, .directory) := by
  have hnone := ChangedBelow.refl w { h with tree }
  exact hmade.lstat_eq tree (hmade.extends_left hnone) (hmade.get?_self hnone)

end WorkDir.Made

/-! ### The end of a run -/

/-- A video that is found is one of the directory. -/
theorem Artifact.exists_isVideo_of_find {h : Host} {dir : Path} {stderr : String} {a : Artifact}
    (hfind : (find h dir stderr).1 = .ok a) : ∃ n, IsVideo h dir n ∧ a.path = dir.join ⟨n⟩ := by
  have hchosen : ∀ names, h.tree.readDir h.cwd dir = .ok names → ∀ n ns,
      sorted (candidates h dir names) = n :: ns → IsVideo h dir n := by
    intro names hnames n ns hsorted
    have hmem : n ∈ sorted (candidates h dir names) := by
      rw [hsorted]
      exact List.mem_cons_self
    rw [sorted, FileTree.sortBytes, List.mem_mergeSort, mem_candidates_iff hnames] at hmem
    exact hmem
  have hsearch : (search h dir).1 = .ok a := by
    rw [find] at hfind
    split at hfind
    · next hsearch =>
      cases hfind
      rw [hsearch]
    · cases hfind
  rw [search] at hsearch
  split at hsearch
  · cases hsearch
  · next names hnames =>
    rw [choose] at hsearch
    split at hsearch
    · cases hsearch
    · next n hone =>
      cases hsearch
      exact ⟨n, hchosen names hnames n [] hone, rfl⟩
    · next n ns _ hmany =>
      cases hsearch
      exact ⟨n, hchosen names hnames n ns hmany, rfl⟩

/-- What a renderer left is a video of the directory that it writes to. -/
theorem Render.exists_isVideo_of_outcome {ran : Ran} {workdir scene : Path} {a : Artifact}
    (h : (Render.outcome ran workdir scene).1 = .ok a) :
    ∃ n, Artifact.IsVideo ran.host (Render.artifactDir workdir scene) n ∧
      a.path = (Render.artifactDir workdir scene).join ⟨n⟩ := by
  rw [Render.outcome] at h
  split at h
  · cases h
  · exact Artifact.exists_isVideo_of_find h

theorem Render.isFile_of_outcome {ran : Ran} {workdir scene : Path} {a : Artifact}
    (h : (Render.outcome ran workdir scene).1 = .ok a) : ran.host.isFile a.path = true := by
  obtain ⟨n, hn, hpath⟩ := exists_isVideo_of_outcome h
  rw [hpath]
  exact hn.file

theorem Scope.host_report (s : Scope) (f : Failure) : (s.report f).host = s.host := by
  rw [report_eq, advance_eq]
  rfl

theorem Scope.settings_report (s : Scope) (f : Failure) :
    (s.report f).orchestrator.settings = s.orchestrator.settings := by
  rw [report_eq, advance_eq]
  rfl

namespace Job

variable (j : Job) (s : Scope)

/-- The directory of a job that fails goes unless it is to be kept. -/
theorem host_fail (f : Failure) :
    (j.fail f s).2.host =
      if s.orchestrator.settings.keepFailedWorkdir then s.host
      else WorkDir.remove s.host j.dir := by
  rw [fail, Scope.settings_report]
  split
  · exact Scope.host_report s f
  · exact congrArg (WorkDir.remove · j.dir) (Scope.host_report s f)

theorem settings_fail (f : Failure) :
    (j.fail f s).2.orchestrator.settings = s.orchestrator.settings := by
  rw [fail, Scope.settings_report]
  split <;> exact Scope.settings_report s f

/-- The directory of a job that ends with a video stays. -/
theorem host_succeed (a : Artifact) : (j.succeed a s).2.host = s.host := by
  rw [succeed, Scope.advance_eq]
  rfl

theorem settings_succeed (a : Artifact) :
    (j.succeed a s).2.orchestrator.settings = s.orchestrator.settings := by
  rw [succeed, Scope.advance_eq]
  rfl

end Job

namespace Orchestrator

variable (runner : Runner) {chance : Chance} (request : Request) (s : Scope) (dir : Path)
  (tree : FileTree)

/-- The host as the last process of a run leaves it. -/
def left : Host :=
  match Slice.outcome (sliced runner request s dir tree) (WorkDir.scenePath dir) with
  | .error _ => (sliced runner request s dir tree).host
  | .ok _ => (rendered runner request s dir tree).host

variable {s dir tree}

/-- How a run with a working directory comes to its end: its job fails, or succeeds with a
file, on the host that the last process left. -/
theorem conduct_closes (hfree : s.orchestrator.busy = false)
    (hdir : WorkDir.create s.host s.orchestrator.settings.workdirPrefix
      s.orchestrator.settings.tempRoot chance.suffixes = .ok (dir, tree)) :
    ∃ (j : Job) (s' : Scope), j.dir = dir ∧ s'.host = left runner request s dir tree ∧
      s'.orchestrator.settings = s.orchestrator.settings ∧
        ((∃ f, conduct runner chance request s = j.fail f s') ∨
          ∃ a, conduct runner chance request s = j.succeed a s' ∧
            s'.host.isFile a.path = true) := by
  cases hs : Slice.outcome (sliced runner request s dir tree) (WorkDir.scenePath dir) with
  | error f =>
    refine ⟨_, _, rfl, ?_, ?_, .inl ⟨f, conduct_of_unsliced hfree runner hdir hs⟩⟩
    · rw [left, hs]
    · exact settings_announced request s dir tree
  | ok scene =>
    have hleft : left runner request s dir tree = (rendered runner request s dir tree).host := by
      rw [left, hs]
    have hrun := conduct_of_sliced hfree runner hdir hs
    rw [play_secondJob] at hrun
    have hsettings : ∀ ws, ((finished runner request s dir tree).warn ws).orchestrator.settings
        = s.orchestrator.settings := fun _ => settings_handedOver runner request s dir tree
    rcases ho : Render.outcome (rendered runner request s dir tree) dir (WorkDir.scenePath dir)
      with ⟨f | a, ws⟩
    · rw [ho] at hrun
      exact ⟨_, _, rfl, hleft.symm, hsettings ws, .inl ⟨f, hrun⟩⟩
    · rw [ho] at hrun
      have hfile := Render.isFile_of_outcome (congrArg Prod.fst ho)
      exact ⟨_, _, rfl, hleft.symm, hsettings ws, .inr ⟨a, hrun, hfile⟩⟩

end Orchestrator

end ScenePreview
