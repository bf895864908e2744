import ScenePreview.Proofs.Position

/-!
# A run beside the directories of others

While a run is under way, others may make directories, fill them and take them away again.  If the
run never looks at their places, and its processes know nothing but its own directory, then it goes
on as if it were alone.  Here a run is followed on a host with such directories; beside it stands
the scope that it would have without them.

## Main definitions

* `Round.Secluded` — a run whose processes keep to its directory and depend on nothing else.
* `Round.Sees`, `Round.Overlooks` — the host that a run sees when it is alone, and a place that it
  never looks at.
* `Round.Beside` — a run that overlooks the places of others, and keeps to its own.
* `Round.Undisturbed` — where a run stands, on its host and on its own.

## Main results

* `Round.Undisturbed.move` — **a step of the run is a step of the run on its own.**
* `Round.Undisturbed.frame` — what others do at their places does not touch the run.
* `Round.Undisturbed.result_eq` — a run that has returned has the result that it has on its own.
* `Round.Undisturbed.exists_goes` — a run that nobody disturbs goes to that result.
-/

namespace ScenePreview

open FileTree (Clear SameOutside Secludes isBelow)
open Host (ChangedBelow)
open WorkDir (Made)

/-- Trees that have the same at a place and below it. -/
def FileTree.SameBelow (w : Place) (t t' : FileTree) : Prop :=
  ∀ q, w <+: q → t.get? q = t'.get? q

/-! ### What is asked of a run -/

namespace Round

variable (r : Round)

/-- A host of the run: nothing but the files is different from what it found. -/
structure Hosts (h : Host) : Prop where
  /-- All but the files is as the run found it. -/
  files : h = { r.before.host with tree := h.tree }
  /-- The files are a proper tree. -/
  isProper : h.tree.IsProper

/-- A host of the run on which it has its directory. -/
structure Houses (dir : Path) (w : Place) (h : Host) : Prop extends r.Hosts h where
  /-- The path leads to the place. -/
  found : h.tree.lstat h.cwd dir = .ok (w, .directory)

/-- The processes of the run, if it works in a directory: the transformer and the renderer. -/
def calls (dir : Path) : List Call :=
  let settings := r.before.orchestrator.settings
  [Slice.call settings r.request (WorkDir.scenePath dir),
    Render.call settings (WorkDir.scenePath dir) dir r.request.environment]

/-- A process of the run that keeps to its directory, and depends on nothing else. -/
structure KeepsTo (dir : Path) (w : Place) (c : Call) : Prop where
  /-- It changes nothing outside. -/
  changed : ∀ h, r.Houses dir w h → ChangedBelow w h (r.runner h c).host
  /-- It leaves a proper tree. -/
  isProper : ∀ h, r.Houses dir w h → (r.runner h c).host.tree.IsProper
  /-- It does the same wherever it finds the same in its directory. -/
  same : ∀ h h', r.Houses dir w h → r.Houses dir w h' → FileTree.SameBelow w h.tree h'.tree →
    (r.runner h c).chunks = (r.runner h' c).chunks ∧
      (r.runner h c).result = (r.runner h' c).result ∧
        FileTree.SameBelow w (r.runner h c).host.tree (r.runner h' c).host.tree

/-- The processes of the run keep to its directory, and depend on nothing else. -/
def Secluded : Prop :=
  ∀ dir tree w, r.WorksIn dir tree w → ∀ c ∈ r.calls dir, r.KeepsTo dir w c

/-- A process that fills its directory in one way keeps to it. -/
theorem keepsTo_of_graft {r : Round} {dir : Path} {w : Place} {c : Call} {t : FileTree}
    {chunks : List Chunk} {result : Except ProcessError ProcessResult}
    (hrun : ∀ h, r.runner h c = ⟨chunks, result, { h with tree := h.tree.graft w t }⟩)
    (ht : t.IsProper) (habs : dir.isAbsolute = true) : r.KeepsTo dir w c := by
  have hproper : ∀ h, r.Houses dir w h → (h.tree.graft w t).IsProper := by
    intro h hh
    have hresolve := FileTree.lstat_eq_ok_iff.1 hh.found
    exact hh.isProper.graft ht (FileTree.get?_of_resolve hh.isProper.isTree habs hresolve)
  refine ⟨fun h hh => ?_, fun h hh => ?_, fun h h' _ _ hsame => ?_⟩
  · rw [hrun]
    refine ⟨rfl, fun _ => (hproper h hh).isTree, fun q hq => ?_⟩
    change (h.tree.graft w t).get? q = _
    rw [FileTree.get?_graft, if_neg]
    intro hbelow
    obtain ⟨hle, hne⟩ := FileTree.isBelow_iff.1 hbelow
    exact hne (hq hle)
  · rw [hrun]
    exact hproper h hh
  · rw [hrun, hrun]
    refine ⟨rfl, rfl, fun q hq => ?_⟩
    change (h.tree.graft w t).get? q = (h'.tree.graft w t).get? q
    rw [FileTree.get?_graft, FileTree.get?_graft, hsame q hq]

/-- The host that the run sees in a phase when it is alone, if it comes so far. -/
inductive Sees (dir : Path) (tree : FileTree) : Job.Phase → Host → Prop
  | slicing : Sees dir tree .slicing { r.before.host with tree }
  | confirming {stderr : String} (h : Slice.settle (r.sliced dir tree).result = .ok stderr) :
      Sees dir tree (.confirming stderr) (r.sliced dir tree).host
  | rendering {scene : Path}
      (h : Slice.outcome (r.sliced dir tree) (WorkDir.scenePath dir) = .ok scene) :
      Sees dir tree .rendering (r.sliced dir tree).host
  | searching {scene : Path} {stderr : String}
      (hs : Slice.outcome (r.sliced dir tree) (WorkDir.scenePath dir) = .ok scene)
      (h : Render.settle (r.rendered dir tree).result = .ok stderr) :
      Sees dir tree (.searching stderr) (r.rendered dir tree).host

/-- When the run is alone, it never looks at a place nor at anything below it. -/
structure Overlooks (w : Place) : Prop where
  /-- Not when it looks for the scene. -/
  scene : ∀ dir tree w' stderr h, r.WorksIn dir tree w' → r.Sees dir tree (.confirming stderr) h →
    h.tree.PassesBy h.cwd true (WorkDir.scenePath dir) w
  /-- Not when it looks for the video. -/
  videos : ∀ dir tree w' stderr h, r.WorksIn dir tree w' → r.Sees dir tree (.searching stderr) h →
    let videos := Render.artifactDir dir (WorkDir.scenePath dir)
    h.tree.PassesBy h.cwd true videos w ∧
      ∀ names, h.tree.readDir h.cwd videos = .ok names → ∀ n ∈ names,
        h.tree.PassesBy h.cwd true (videos.join ⟨n⟩) w

/-- The place of the working directory of the run. -/
def Works (w : Place) : Prop := ∃ dir tree, r.WorksIn dir tree w

/-- A run beside the places of others: they do not come upon each other. -/
structure Beside (W : Place → Prop) : Prop where
  /-- The run finds a proper tree. -/
  isProper : r.before.host.tree.IsProper
  /-- It finds nothing at the places. -/
  free : ∀ w, W w → ∀ q, w <+: q → r.before.host.tree.get? q = none
  /-- The processes of the run keep to its directory. -/
  secluded : r.Secluded
  /-- The directory of the run is at none of the places, and neither is in the other. -/
  apart : ∀ w w', r.Works w → W w' → ¬ w <+: w' ∧ ¬ w' <+: w
  /-- The run overlooks the places. -/
  overlooks : ∀ w, W w → r.Overlooks w

/-! ### Where a run works -/

/-- The directory that is made for the run, if there is one. -/
def dir? : Option Path :=
  if r.before.orchestrator.busy then none else r.made.toOption.map Prod.fst

theorem WorksIn.dir?_eq {r : Round} {dir : Path} {tree : FileTree} {w : Place}
    (hfree : r.before.orchestrator.busy = false) (hw : r.WorksIn dir tree w) :
    r.dir? = some dir := by
  rw [dir?, hfree, hw.made]
  rfl

/-- A run that has a directory works in it. -/
theorem exists_worksIn_of_dir? {r : Round} (htree : r.before.host.tree.IsTree) {dir : Path}
    (hdir : r.dir? = some dir) : ∃ tree w, r.WorksIn dir tree w := by
  rw [dir?] at hdir
  split at hdir
  · cases hdir
  · cases hmade : r.made with
    | error e =>
      rw [hmade] at hdir
      cases hdir
    | ok made =>
      rw [hmade] at hdir
      obtain rfl : made.1 = dir := Option.some.inj hdir
      obtain ⟨w, hw⟩ := exists_worksIn htree hmade
      exact ⟨made.2, w, hw⟩

section Place

variable {r : Round} {dir : Path} {tree : FileTree} {w : Place}

theorem WorksIn.unique {dir' : Path} {tree' : FileTree} {w' : Place}
    (hw : r.WorksIn dir tree w) (hw' : r.WorksIn dir' tree' w') :
    dir' = dir ∧ tree' = tree ∧ w' = w := by
  have hmade := hw'.made
  rw [hw.made] at hmade
  cases hmade
  have hfound := hw'.found
  rw [hw.found] at hfound
  cases hfound
  exact ⟨rfl, rfl, rfl⟩

/-- The working directory is made at a free name in a directory. -/
theorem WorksIn.exists_vacant (htree : r.before.host.tree.IsTree) (hw : r.WorksIn dir tree w) :
    ∃ d n, w = d ++ [n] ∧ Path.IsName n ∧ r.before.host.tree.get? d = some .directory ∧
      r.before.host.tree.resolve r.before.host.cwd false dir = .ok (.vacant d n) := by
  obtain ⟨⟨k, hdir⟩, hmake⟩ := WorkDir.makeDir_of_createFrom hw.made
  obtain ⟨d, n, hx, htree_eq⟩ := FileTree.makeDir_eq_ok hmake
  have hwalk := (FileTree.resolve_eq_ok_iff.1 hx).2
  rw [hdir, if_pos (WorkDir.isAbsolute_candidate ..)] at hwalk
  obtain ⟨hd, hfree⟩ := FileTree.free_of_walk htree (FileTree.get?_root _) hwalk
  refine ⟨d, n, ?_, FileTree.isName_of_walk Path.slash_notMem_of_mem_stepsOf hwalk, hd, hx⟩
  -- the new directory is the only one that was not there before
  by_contra hne
  have hmade := hw.isMade htree
  have hnew := FileTree.get?_insert_self r.before.host.tree (p := d ++ [n]) (by simp) .directory
  rw [← htree_eq, hmade.tree_eq, FileTree.get?_insert_of_ne _ (Ne.symm hne), hfree] at hnew
  cases hnew

end Place

theorem WorksIn.isAbsolute {r : Round} {dir : Path} {tree : FileTree} {w : Place}
    (hw : r.WorksIn dir tree w) : dir.isAbsolute = true := by
  obtain ⟨⟨k, rfl⟩, -⟩ := WorkDir.makeDir_of_createFrom hw.made
  exact WorkDir.isAbsolute_candidate ..

namespace Beside

variable {r : Round} {W : Place → Prop} (hb : r.Beside W) {w q : Place}
include hb

/-- What the run finds is at none of the places of the others. -/
theorem clear_of_get? {e : Entry} (hq : r.before.host.tree.get? q = some e) : Clear W q := by
  intro w hw hle
  rw [hb.free w hw q hle] at hq
  cases hq

/-- The directory of the run is clear of the places of the others. -/
theorem clear (hw : r.Works w) (hq : w <+: q) : Clear W q := by
  intro w' hw' hle
  obtain ⟨hout, hin⟩ := hb.apart w w' hw hw'
  rcases List.prefix_or_prefix_of_prefix hq hle with hle | hle
  · exact hout hle
  · exact hin hle

end Beside

/-! ### A run on its host and on its own -/

/-- A process of the run does on another host what it does when the run is alone. -/
structure Leaves (before after : Host) (c : Call) (w : Place) (ran : Ran) : Prop where
  /-- It has left these files where the run is alone. -/
  after_eq : after = (r.runner before c).host
  /-- It ends in the same way. -/
  result : ran.result = (r.runner before c).result
  /-- It leaves the same in its directory. -/
  below : ∀ q, isBelow w q = true → ran.host.tree.get? q = after.tree.get? q
  /-- It leaves a proper tree. -/
  isProper : ran.host.tree.IsProper

/-- A job of the run, when it is alone on a host. -/
structure Performs (dir : Path) (tree : FileTree) (h : Host) (j : Job) : Prop where
  /-- It does what is asked for. -/
  request_eq : j.request = r.request
  /-- It works in the directory of the run. -/
  dir_eq : j.dir = dir
  /-- It sees what the run sees in its phase. -/
  sees : r.Sees dir tree j.phase h

/-- Where the run can stand once its directory is made, when it is alone on a host. -/
inductive Stage (r : Round) (h : Host) : Position → Prop
  /-- It follows a plan in its directory. -/
  | working {dir : Path} {tree : FileTree} {w : Place} {p : Plan} (hw : r.WorksIn dir tree w)
      (hh : ChangedBelow w { r.before.host with tree } h)
      (hp : p.StaysIn (r.Performs dir tree h) dir) : Stage r h (.active p)
  /-- Its process is under way, and the host has the files that it will leave. -/
  | running {dir : Path} {tree : FileTree} {w : Place} {j : Job} {ran : Ran} {before : Host}
      (hw : r.WorksIn dir tree w) (hh : ChangedBelow w { r.before.host with tree } h)
      (hj : r.Performs dir tree before j) (hawaits : j.awaitsProcess = true)
      (hran : r.Leaves before h (j.call r.before.orchestrator.settings) w ran) :
      Stage r h (.running j ran)
  /-- It is about to return, with or without a directory. -/
  | leaving {ds : List Deed} {o : Outcome} (hds : ∀ d ∈ ds, d.KeepsFiles) :
      Stage r h (.active ⟨ds, .finish o⟩)
  /-- It has returned. -/
  | returned {o : Outcome} : Stage r h (.returned o)

/-- The places at which a process under way may have anything. -/
def Hides : Position → Place → Prop
  | .running .., q => ∃ w, r.Works w ∧ isBelow w q = true
  | _, _ => False

/-- A host that the run may have when it is alone. -/
structure Alone (h : Host) : Prop extends r.Hosts h where
  /-- Outside of the directory of the run all is as the run found it. -/
  outside : SameOutside r.Works r.before.host.tree h.tree
  /-- Nothing but a directory is at the place of the run. -/
  own : ∀ w e, r.Works w → h.tree.get? w = some e → e = .directory

/-- The run stands somewhere on the host `h`, and would have the scope `s` if it were alone. -/
structure Undisturbed (W : Place → Prop) (h : Host) (s : Scope) (st : Position) : Prop where
  /-- The host is one of the run. -/
  host : r.Hosts h
  /-- So is the one on which it would be alone. -/
  alone : r.Alone s.host
  /-- The settings are those with which the run began. -/
  settings : s.orchestrator.settings = r.before.orchestrator.settings
  /-- The run can stand there when it is alone. -/
  stage : r.Stage s.host st
  /-- The hosts agree but for the places of the others and of a process under way. -/
  agrees : ∀ q, Clear W q → ¬ r.Hides st q → s.host.tree.get? q = h.tree.get? q
  /-- If it were alone from here on, the run would end as it does. -/
  completes : st.complete r.toCommission s = some r.result

/-- The run has taken a step and is as undisturbed as before; it has changed files at its own place
only. -/
def Continues (W : Place → Prop) (h : Host) (st : Position) (s : Scope) : Prop :=
  ∃ alone, r.Undisturbed W s.host alone st ∧ s = { alone with host := s.host } ∧
    SameOutside r.Works h.tree s.host.tree

section Hosts

variable {r : Round} {dir : Path} {tree : FileTree} {w : Place} {h : Host}
  (htree : r.before.host.tree.IsTree) (hw : r.WorksIn dir tree w)
  (hh : ChangedBelow w { r.before.host with tree } h)
include htree hw hh

/-- The path of the directory leads to it as long as the run works there. -/
theorem WorksIn.found_left : h.tree.lstat h.cwd dir = .ok (w, .directory) := by
  have hmade := hw.isMade htree
  have hcwd : h.cwd = r.before.host.cwd := by rw [hh.files]
  rw [hcwd]
  exact hmade.lstat_eq h.tree (hmade.extends_left hh) (hmade.get?_self hh)

theorem WorksIn.houses (hhost : r.Hosts h) : r.Houses dir w h :=
  { hhost with found := hw.found_left htree hh }

end Hosts

theorem Works.eq {r : Round} {w w' : Place} (hw : r.Works w) (hw' : r.Works w') : w' = w := by
  obtain ⟨dir, tree, hw⟩ := hw
  obtain ⟨dir', tree', hw'⟩ := hw'
  exact (hw.unique hw').2.2

theorem Hides.isBelow {r : Round} {st : Position} {w q : Place} (hq : r.Hides st q)
    (hw : r.Works w) : isBelow w q = true := by
  cases st with
  | running j ran =>
    obtain ⟨w', hw', hbelow⟩ := hq
    rwa [hw'.eq hw]
  | absent => exact hq.elim
  | active p => exact hq.elim
  | returned o => exact hq.elim

/-! ### What is kept of a host -/

namespace Alone

variable {r : Round} {h : Host} {dir : Path} {tree : FileTree} {w : Place}

/-- Nothing is at the places of the others. -/
theorem clear_of_get? {W : Place → Prop} (ha : r.Alone h) (hb : r.Beside W) {q : Place} {e : Entry}
    (hq : h.tree.get? q = some e) : Clear W q := by
  by_cases hclear : Clear r.Works q
  · rw [← ha.outside q hclear] at hq
    exact hb.clear_of_get? hq
  · rw [Clear] at hclear
    push Not at hclear
    obtain ⟨w, hw, hle⟩ := hclear
    exact hb.clear hw hle

/-- The run may be alone on the host that it found. -/
theorem start (hproper : r.before.host.tree.IsProper) : r.Alone r.before.host where
  files := rfl
  isProper := hproper
  outside := fun _ _ => rfl
  own := by
    rintro w e ⟨dir, tree, hw⟩ hget
    rw [(hw.isMade hproper.isTree).free w (List.prefix_refl w)] at hget
    cases hget

/-- The run makes its directory. -/
theorem create (hproper : r.before.host.tree.IsProper) (hw : r.WorksIn dir tree w) :
    r.Alone { r.before.host with tree } := by
  have hmade := hw.isMade hproper.isTree
  have hself := FileTree.get?_insert_self r.before.host.tree hmade.ne_root .directory
  refine ⟨⟨rfl, ?_⟩, ?_, ?_⟩
  · obtain ⟨d, n, rfl, hn, hd, -⟩ := hw.exists_vacant hproper.isTree
    change tree.IsProper
    rw [hmade.tree_eq]
    exact hproper.insert hn hd (hmade.free _ (List.prefix_refl _))
  · intro q hq
    change _ = tree.get? q
    rw [hmade.tree_eq, FileTree.get?_insert_of_ne]
    rintro rfl
    exact hq q ⟨dir, tree, hw⟩ (List.prefix_refl q)
  · rintro w' e hw' hget
    change tree.get? w' = some e at hget
    rw [Works.eq ⟨dir, tree, hw⟩ hw', hmade.tree_eq, hself] at hget
    exact (Option.some.inj hget).symm

variable {W : Place → Prop} (hb : r.Beside W) (hw : r.WorksIn dir tree w) (ha : r.Alone h)
include hb hw ha

/-- A process of the run leaves its files. -/
theorem process (hh : ChangedBelow w { r.before.host with tree } h) {c : Call}
    (hc : c ∈ r.calls dir) : r.Alone (r.runner h c).host := by
  have hhouses := hw.houses hb.isProper.isTree hh ha.toHosts
  have hkeeps := hb.secluded dir tree w hw c hc
  have hchanged := hkeeps.changed h hhouses
  refine ⟨⟨?_, hkeeps.isProper h hhouses⟩, ?_, ?_⟩
  · rw [hchanged.files, ha.files]
  · intro q hq
    rw [hchanged.outside q fun hle => absurd hle (hq w ⟨dir, tree, hw⟩)]
    exact ha.outside q hq
  · intro w' e hw' hget
    rw [Works.eq ⟨dir, tree, hw⟩ hw', hchanged.outside w fun _ => rfl] at hget
    exact ha.own w e ⟨dir, tree, hw⟩ hget

/-- The run takes its directory away. -/
theorem discard : r.Alone { h with tree := h.tree.erase w } := by
  have hroot := (hw.isMade hb.isProper.isTree).ne_root
  refine ⟨⟨?_, ha.isProper.erase hroot⟩, ?_, ?_⟩
  · rw [ha.files]
  · intro q hq
    change _ = (h.tree.erase w).get? q
    rw [FileTree.get?_erase_eq _ hroot, if_neg (hq w ⟨dir, tree, hw⟩)]
    exact ha.outside q hq
  · intro w' e hw' hget
    change (h.tree.erase w).get? w' = some e at hget
    rw [FileTree.get?_erase_eq _ hroot, Works.eq ⟨dir, tree, hw⟩ hw',
      if_pos (List.prefix_refl w)] at hget
    cases hget

end Alone

/-- Processes that depend on nothing but the directory of the run, and keep to it, change nothing
else. -/
theorem Secluded.confined {r : Round} (hsecluded : r.Secluded)
    (hproper : r.before.host.tree.IsProper) : r.Confined := by
  intro dir tree w hw
  obtain ⟨hcall, hrest⟩ := List.forall_mem_cons.1 (hsecluded dir tree w hw)
  have hrender := hrest _ (List.mem_singleton.2 rfl)
  have hhouses := hw.houses hproper.isTree (ChangedBelow.refl w _) (Alone.create hproper hw).toHosts
  have hsliced := hcall.changed _ hhouses
  refine ⟨hsliced, fun scene _ => hrender.changed _ ?_⟩
  exact hw.houses hproper.isTree hsliced ⟨hsliced.files, hcall.isProper _ hhouses⟩

/-! ### The jobs of a run -/

namespace Performs

variable {r : Round} {dir : Path} {tree : FileTree} {h : Host} {j : Job}
  (hj : r.Performs dir tree h j)
include hj

theorem call_mem : j.call r.before.orchestrator.settings ∈ r.calls dir := by
  rw [Job.call, hj.request_eq, hj.dir_eq, calls]
  split <;> simp

/-- When its process has ended, a job goes on with what that left. -/
theorem of_exited {result : Except ProcessError ProcessResult} {s : Scope} {j' : Job}
    (hresult : result = (r.runner h (j.call r.before.orchestrator.settings)).result)
    (hawaits : j.awaitsProcess = true) (hturn : (j.react (.exited result) s).turn = .wait j') :
    r.Performs dir tree (r.runner h (j.call r.before.orchestrator.settings)).host j' := by
  obtain ⟨request, run, place, completedAt, phase⟩ := j
  obtain ⟨rfl, rfl, hsees⟩ := hj
  cases hsees with
  | slicing =>
    unfold Job.react at hturn
    dsimp only at hturn
    split at hturn
    · cases hturn
    · next stderr hsettle =>
      cases hturn
      exact ⟨rfl, rfl, .confirming (hresult ▸ hsettle)⟩
  | rendering hs =>
    unfold Job.react at hturn
    dsimp only at hturn
    split at hturn
    · cases hturn
    · next stderr hsettle =>
      cases hturn
      exact ⟨rfl, rfl, .searching hs (hresult ▸ hsettle)⟩
  | confirming => cases hawaits
  | searching => cases hawaits

/-- When it has looked at the files, a job goes on with the same ones. -/
theorem of_resumed {s : Scope} (hs : s.host = h) {j' : Job} (hawaits : j.awaitsProcess = false)
    (hturn : (j.react .resumed s).turn = .wait j') : r.Performs dir tree h j' := by
  obtain ⟨request, run, place, completedAt, phase⟩ := j
  obtain ⟨rfl, rfl, hsees⟩ := hj
  cases hsees with
  | confirming hsettle =>
    unfold Job.react at hturn
    dsimp only at hturn
    split at hturn
    · cases hturn
    · next scene hconfirm =>
      cases hturn
      have hslice : Slice.outcome (r.sliced place tree) (WorkDir.scenePath place) = .ok scene := by
        rw [Slice.outcome, hsettle, ← hs]
        exact hconfirm
      exact ⟨rfl, rfl, .rendering hslice⟩
  | searching hslice hsettle =>
    unfold Job.react at hturn
    dsimp only at hturn
    split at hturn <;> cases hturn
  | slicing => cases hawaits
  | rendering => cases hawaits

end Performs

/-! ### Steps of an undisturbed run -/

namespace Undisturbed

variable {r : Round} {W : Place → Prop} {h : Host} {s : Scope} {st : Position} {dir : Path}
  {tree : FileTree} {w : Place}

/-- What others do at their places does not touch the run, also if they come to new ones. -/
theorem frame (hu : r.Undisturbed W h s st) {W' : Place → Prop} (hmore : ∀ w, W w → W' w)
    {h' : Host} (hhost : r.Hosts h') (hsame : SameOutside W' h.tree h'.tree) :
    r.Undisturbed W' h' s st :=
  { hu with
    host := hhost
    agrees := fun q hclear hq =>
      (hu.agrees q (fun w hw => hclear w (hmore w hw)) hq).trans (hsame q hclear) }

/-- A run that has returned has the result that it has on its own. -/
theorem result_eq {o : Outcome} (hu : r.Undisturbed W h s (.returned o)) :
    r.result = (.ended o, s) :=
  (Option.some.inj hu.completes).symm

/-- A step that neither looks at the files nor touches them. -/
theorem continues (hu : r.Undisturbed W h s st) (s' : Scope) {st' : Position}
    (hhost : s'.host = s.host)
    (hsettings : s'.orchestrator.settings = s.orchestrator.settings)
    (hstage : r.Stage s.host st') (hhides : ∀ q, r.Hides st q → r.Hides st' q)
    (hcomplete : st.complete r.toCommission s = st'.complete r.toCommission s') :
    r.Continues W h st' { s' with host := h } := by
  refine ⟨s', ⟨hu.host, ?_, hsettings.trans hu.settings, ?_, ?_, ?_⟩, rfl, fun _ _ => rfl⟩
  · rw [hhost]
    exact hu.alone
  · rw [hhost]
    exact hstage
  · intro q hclear hq
    rw [hhost]
    exact hu.agrees q hclear fun hq' => hq (hhides q hq')
  · rw [← hcomplete, hu.completes]

/-- A deed that leaves the files alone. -/
theorem act {d : Deed} {ds : List Deed} {turn : Turn}
    (hu : r.Undisturbed W h s (.active ⟨d :: ds, turn⟩)) (hd : d.KeepsFiles)
    (hstage : r.Stage s.host (.active ⟨ds, turn⟩)) :
    r.Continues W h (.active ⟨ds, turn⟩) (d.perform { s with host := h }) := by
  rw [hd.perform_eq]
  exact hu.continues _ (hd.host_perform s) (d.settings_perform s) hstage (fun _ => id)
    (Position.complete_act _ s d ds turn)

theorem finish {o : Outcome} (hu : r.Undisturbed W h s (.active ⟨[], .finish o⟩)) :
    r.Continues W h (.returned o) { s with host := h }.release :=
  hu.continues s.release rfl rfl .returned (fun _ => id)
    (Position.complete_finish _ s o)

theorem output {j : Job} {ch : Chunk} {chs : List Chunk}
    {result : Except ProcessError ProcessResult} {left : Host}
    (hu : r.Undisturbed W h s (.running j ⟨ch :: chs, result, left⟩)) :
    r.Continues W h (.running j ⟨chs, result, left⟩)
      (j.step (.output ch) { s with host := h }).2 := by
  rw [j.step_output_eq]
  have hkept : (j.step (.output ch) s).2.host = s.host ∧
      (j.step (.output ch) s).2.orchestrator.settings = s.orchestrator.settings := by
    rcases j.step_output s ch with hout | hout
    · rw [hout]
      exact ⟨rfl, rfl⟩
    · rw [hout]
      exact ⟨rfl, rfl⟩
  cases hu.stage with
  | running hw hh hj hawaits hran =>
    have hrest : r.Stage s.host (.running j ⟨chs, result, left⟩) :=
      .running hw hh hj hawaits ⟨hran.after_eq, hran.result, hran.below, hran.isProper⟩
    exact hu.continues _ hkept.1 hkept.2 hrest (fun _ => id)
      (Position.complete_output _ s j ch chs result left)

variable (hb : r.Beside W)
include hb

/-- At the place of the run is a directory, if anything. -/
theorem own_host (hu : r.Undisturbed W h s st) {e : Entry} (hw : r.Works w)
    (hget : h.tree.get? w = some e) : e = .directory := by
  have hagree := hu.agrees w (hb.clear hw (List.prefix_refl w)) fun hq => by
    have hbelow := hq.isBelow hw
    simp [isBelow] at hbelow
  exact hu.alone.own w e hw (hagree.trans hget)

section Working

variable (hw : r.WorksIn dir tree w) (hh : ChangedBelow w { r.before.host with tree } s.host)
include hw hh

/-- The path of the directory leads to its place on both hosts. -/
theorem found (hu : r.Undisturbed W h s st) :
    r.Houses dir w h ∧ h.tree.get? w = some .directory := by
  have hmade := hw.isMade hb.isProper.isTree
  have hworks : r.Works w := ⟨dir, tree, hw⟩
  -- what is not strictly below the place is the same on both hosts
  have hagree : ∀ q, Clear W q → isBelow w q = false → s.host.tree.get? q = h.tree.get? q := by
    intro q hclear hq
    refine hu.agrees q hclear fun hhides => ?_
    rw [hhides.isBelow hworks] at hq
    cases hq
  have hself : h.tree.get? w = some .directory := by
    rw [← hagree w (hb.clear hworks (List.prefix_refl w)) (by simp [isBelow]),
      hmade.get?_self hh]
  have hext : FileTree.Extends r.before.host.tree h.tree := by
    intro q e hq
    have hout : isBelow w q = false := by
      rw [Bool.eq_false_iff]
      intro hbelow
      exact hmade.not_prefix_of_get? hq (FileTree.isBelow_iff.1 hbelow).1
    rw [← hagree q (hb.clear_of_get? hq) hout]
    exact hmade.extends_left hh q e hq
  have hcwd : h.cwd = r.before.host.cwd := by rw [hu.host.files]
  refine ⟨⟨hu.host, ?_⟩, hself⟩
  rw [hcwd]
  exact hmade.lstat_eq h.tree hext hself

/-- The run takes its directory away. -/
theorem discard {o : Outcome}
    (hu : r.Undisturbed W h s (.active ⟨[.discard dir], .finish o⟩)) :
    r.Continues W h (.active ⟨[], .finish o⟩)
      ((Deed.discard dir).perform { s with host := h }) := by
  have hmade := hw.isMade hb.isProper.isTree
  obtain ⟨hhouses, -⟩ := found hb hw hh hu
  have halone : (Deed.discard dir).perform s
      = { s with host := { s.host with tree := s.host.tree.erase w } } := by
    rw [Deed.perform, hmade.remove_eq hh]
  have hjoint : (Deed.discard dir).perform { s with host := h }
      = { s with host := { h with tree := h.tree.erase w } } := by
    rw [Deed.perform, WorkDir.remove, FileTree.removeDirAll_eq_erase hhouses.found]
  have hcomplete := Position.complete_act r.toCommission s (.discard dir) [] (.finish o)
  rw [halone] at hcomplete
  rw [hjoint]
  refine ⟨{ s with host := { s.host with tree := s.host.tree.erase w } },
    ⟨⟨?_, hu.host.isProper.erase hmade.ne_root⟩, hu.alone.discard hb hw, hu.settings,
      .leaving (fun _ h => absurd h List.not_mem_nil), ?_, ?_⟩, rfl, ?_⟩
  · rw [hu.host.files]
  · intro q hq _
    change (s.host.tree.erase w).get? q = (h.tree.erase w).get? q
    rw [FileTree.get?_erase_eq _ hmade.ne_root, FileTree.get?_erase_eq _ hmade.ne_root,
      hu.agrees q hq id]
  · rw [← hcomplete, hu.completes]
  · intro q hq
    change h.tree.get? q = (h.tree.erase w).get? q
    rw [FileTree.get?_erase_eq _ hmade.ne_root, if_neg (hq w ⟨dir, tree, hw⟩)]

/-- A process starts.  It will do what it does when the run is alone. -/
theorem launch {j : Job} (hj : r.Performs dir tree s.host j) (hawaits : j.awaitsProcess = true)
    (hu : r.Undisturbed W h s (.active ⟨[], .wait j⟩)) :
    r.Continues W h (.running j (r.runner h (j.call s.orchestrator.settings)))
      { s with host := h } := by
  rw [hu.settings]
  have hworks : r.Works w := ⟨dir, tree, hw⟩
  have hhouses := hw.houses hb.isProper.isTree hh hu.alone.toHosts
  obtain ⟨hhouses', -⟩ := found hb hw hh hu
  have hcomplete := Position.complete_launch r.toCommission s hawaits
  rw [hu.settings] at hcomplete
  have hcall := hj.call_mem
  have hkeeps := hb.secluded dir tree w hw _ hcall
  have hchanged := hkeeps.changed s.host hhouses
  obtain ⟨hchunks, hresult, hleft⟩ := hkeeps.same h s.host hhouses' hhouses
    fun q hq => (hu.agrees q (hb.clear hworks hq) id).symm
  -- on its own the process is done at once, while here it has only begun
  refine ⟨{ s with host := (r.runner s.host (j.call r.before.orchestrator.settings)).host },
    ⟨hu.host, hu.alone.process hb hw hh hcall, hu.settings, ?_, ?_, ?_⟩, rfl, fun _ _ => rfl⟩
  · refine .running hw (hh.trans hchanged) hj hawaits ⟨rfl, hresult, fun q hq => ?_, ?_⟩
    · exact hleft q (FileTree.isBelow_iff.1 hq).1
    · exact hkeeps.isProper h hhouses'
  · intro q hq hhides
    -- what the process may change is hidden from now on
    have hout := hchanged.outside q fun hle => by
      by_contra hne
      exact hhides ⟨w, hworks, FileTree.isBelow_iff.2 ⟨hle, hne⟩⟩
    exact hout.trans (hu.agrees q hq id)
  · rw [← hcomplete _ hchunks hresult, hu.completes]

section Running

variable {j : Job} {ran : Ran} {w' : Place} (hdir : j.dir = dir) (hat : j.WorksAt h w')
  (hu : r.Undisturbed W h s (.running j ran))
include hdir hat hu

/-- The place where the process works is that of the run. -/
theorem place_eq : w' = w := by
  obtain ⟨hhouses, -⟩ := found hb hw hh hu
  rw [Job.WorksAt, hdir, hhouses.found] at hat
  cases hat
  rfl

/-- A process changes files in its directory. -/
theorem write {h' : Host} (hchanged : ChangedBelow w' h h') (hproper : h'.tree.IsProper) :
    r.Continues W h (.running j ran) { s with host := h' } := by
  obtain rfl := place_eq hb hw hh hdir hat hu
  have hworks : r.Works w' := ⟨dir, tree, hw⟩
  have hout : ∀ q, ¬ isBelow w' q = true → h'.tree.get? q = h.tree.get? q := by
    intro q hq
    refine hchanged.outside q fun hle => ?_
    by_contra hne
    exact hq (FileTree.isBelow_iff.2 ⟨hle, hne⟩)
  refine ⟨s, ⟨⟨?_, hproper⟩, hu.alone, hu.settings, hu.stage, ?_, hu.completes⟩, rfl, ?_⟩
  · rw [hchanged.files, hu.host.files]
  · intro q hq hhides
    refine (hu.agrees q hq hhides).trans (hout q fun hbelow => ?_).symm
    exact hhides ⟨w', hworks, hbelow⟩
  · intro q hq
    refine (hout q fun hbelow => ?_).symm
    exact hq w' hworks (FileTree.isBelow_iff.1 hbelow).1

end Running

/-- A process ends, and its files are those that it leaves. -/
theorem exit {j : Job} {before left : Host} {result : Except ProcessError ProcessResult}
    {w' : Place} (hj : r.Performs dir tree before j) (hawaits : j.awaitsProcess = true)
    (hran : r.Leaves before s.host (j.call r.before.orchestrator.settings) w ⟨[], result, left⟩)
    (hat : j.WorksAt h w') (hu : r.Undisturbed W h s (.running j ⟨[], result, left⟩)) :
    r.Continues W h
      (.active (j.react (.exited result) { s with host := h.graft w' left }))
      { s with host := h.graft w' left } := by
  obtain rfl := place_eq hb hw hh hj.dir_eq hat hu
  obtain ⟨-, hself⟩ := found hb hw hh hu
  have hworks : r.Works w' := ⟨dir, tree, hw⟩
  have hnext : ∀ j', (j.react (.exited result) s).turn = .wait j' →
      r.Performs dir tree s.host j' := by
    intro j' hturn
    rw [hran.after_eq]
    exact hj.of_exited hran.result hawaits hturn
  rw [j.react_exited_eq]
  refine ⟨s, ⟨⟨?_, hu.host.isProper.graft hran.isProper hself⟩, hu.alone, hu.settings,
    .working hw hh (.react hj.dir_eq hnext), ?_, ?_⟩, rfl, ?_⟩
  · rw [Host.graft, hu.host.files]
  · -- the hosts agree below the place again
    intro q hq _
    change _ = (h.tree.graft w' left.tree).get? q
    rw [FileTree.get?_graft]
    split
    · next hbelow => exact (hran.below q hbelow).symm
    · next hbelow => exact hu.agrees q hq fun hhides => hbelow (hhides.isBelow hworks)
  · rw [← Position.complete_exit _ s j result left, hu.completes]
  · intro q hq
    change _ = (h.tree.graft w' left.tree).get? q
    rw [FileTree.get?_graft, if_neg]
    intro hbelow
    exact hq w' hworks (FileTree.isBelow_iff.1 hbelow).1

section Looking

variable {j : Job} (hj : r.Performs dir tree s.host j)
  (hW : ∀ w e, W w → h.tree.get? w = some e → e = .directory)
  (hu : r.Undisturbed W h s (.active ⟨[], .wait j⟩))
include hj hW hu

omit hh in
/-- A job that looks at the files sees what it sees when it is alone. -/
theorem react_resumed_eq : j.react .resumed { s with host := h } = j.react .resumed s := by
  have hsecl : Secludes W s.host.tree h.tree :=
    ⟨fun q hq => hu.agrees q hq id, fun _ _ => hu.alone.clear_of_get? hb, hW⟩
  have hcwd : h.cwd = s.host.cwd := by rw [hu.host.files, hu.alone.files]
  have hsees := hj.sees
  rw [← hj.dir_eq] at hw
  unfold Job.react
  cases hphase : j.phase with
  | confirming stderr =>
    rw [hphase, ← hj.dir_eq] at hsees
    have hexists : h.exists (WorkDir.scenePath j.dir)
        = s.host.exists (WorkDir.scenePath j.dir) := by
      rw [Host.exists, Host.exists, hcwd]
      exact (FileTree.exists_congr hsecl.same fun w' hw' =>
        (hb.overlooks w' hw').scene _ tree w stderr _ hw hsees).symm
    simp only [hexists]
  | searching stderr =>
    rw [hphase, ← hj.dir_eq] at hsees
    have hvideos := fun w' hw' => (hb.overlooks w' hw').videos _ tree w stderr _ hw hsees
    have hfind := Artifact.find_congr hsecl hcwd hu.alone.isProper hu.host.isProper
      (Render.isAbsolute_artifactDir hw.isAbsolute _) (Path.getLast?_join (by decide +kernel))
      (fun w' hw' => (hvideos w' hw').1) (fun names hnames n hn w' hw' =>
        (hvideos w' hw').2 names hnames n hn)
    simp only [hfind]
  | slicing => rfl
  | rendering => rfl

theorem resume (hawaits : j.awaitsProcess = false) :
    r.Continues W h (.active (j.react .resumed { s with host := h })) { s with host := h } := by
  rw [react_resumed_eq hb hw hj hW hu]
  have hplan : (j.react .resumed s).StaysIn (r.Performs dir tree s.host) dir :=
    .react hj.dir_eq fun j' hturn => hj.of_resumed rfl hawaits hturn
  exact hu.continues s rfl rfl (.working hw hh hplan) (fun _ => id)
    (Position.complete_resume _ s hawaits)

end Looking

end Working

/-- **A step of the run is a step of the run on its own.**  It leaves the run where that would
be if it were alone, and changes files at the place of the run only. -/
theorem move {c : Commission} (hrunner : c.runner = r.runner) (hu : r.Undisturbed W h s st)
    (hW : ∀ w e, W w → h.tree.get? w = some e → e = .directory) {st' : Position} {s' : Scope}
    (hmove : Position.Move c { s with host := h } st st' s') : r.Continues W h st' s' := by
  cases hmove with
  | acquire hfree => cases hu.stage
  | reject hbusy => cases hu.stage
  | act =>
    cases hu.stage with
    | working hw hh hp =>
      cases hp with
      | discard => exact discard hb hw hh hu
      | act hd hp => exact hu.act hd (.working hw hh hp)
    | leaving hds =>
      obtain ⟨hd, hds⟩ := List.forall_mem_cons.1 hds
      exact hu.act hd (.leaving hds)
  | create =>
    cases hu.stage with
    | working hw hh hp => cases hp
  | launch hawaits =>
    cases hu.stage with
    | working hw hh hp =>
      cases hp with
      | wait hj =>
        rw [hrunner]
        exact launch hb hw hh hj hawaits hu
  | write hat hchanged hproper =>
    cases hu.stage with
    | running hw hh hj _ _ => exact write hb hw hh hj.dir_eq hat hu hchanged hproper
  | output => exact hu.output
  | exit hat =>
    cases hu.stage with
    | running hw hh hj hawaits hran => exact exit hb hw hh hj hawaits hran hat hu
  | resume hawaits =>
    cases hu.stage with
    | working hw hh hp =>
      cases hp with
      | wait hj => exact resume hb hw hh hj hW hu hawaits
  | finish => exact hu.finish

/-- A run that has not returned can take a step that brings it nearer to its end. -/
theorem exists_move (c : Commission) (hu : r.Undisturbed W h s st)
    (hreturned : ∀ o, st ≠ .returned o) :
    ∃ st' s', Position.Move c { s with host := h } st st' s' ∧ st'.rank < st.rank := by
  refine Position.exists_move_lt hreturned ?_ ?_
  · rintro p rfl hp
    cases hu.stage with
    | working hw hh hstays => exact hstays.turn_ne_vanish hp
    | leaving hds => cases hp
  · rintro j ran rfl
    cases hu.stage with
    | @running dir tree w _ _ before hw hh hj hawaits hran =>
      obtain ⟨hhouses, -⟩ := found hb hw hh hu
      refine ⟨hawaits, w, ?_⟩
      rw [Job.WorksAt, hj.dir_eq]
      exact hhouses.found

/-- A directory that is gone stays away: the run is about to return, or has returned. -/
theorem gone (hu : r.Undisturbed W h s st) (hw : r.Works w) (hnone : h.tree.get? w = none) :
    r.after.host.tree.get? w = none := by
  have hagree := hu.agrees w (hb.clear hw (List.prefix_refl w)) fun hq => by
    have hbelow := hq.isBelow hw
    simp [isBelow] at hbelow
  rw [hnone] at hagree
  have hthere : ∀ dir tree w', r.WorksIn dir tree w' →
      ¬ ChangedBelow w' { r.before.host with tree } s.host := by
    intro dir tree w' hw' hh
    rw [Works.eq ⟨dir, tree, hw'⟩ hw, (hw'.isMade hb.isProper.isTree).get?_self hh] at hagree
    cases hagree
  cases hu.stage with
  | working hw' hh _ => exact absurd hh (hthere _ _ _ hw')
  | running hw' hh _ _ _ => exact absurd hh (hthere _ _ _ hw')
  | @leaving ds o hds =>
    have hcompletes : some (.ended o, (Deed.performAll s ds).release) = some r.result :=
      hu.completes
    have hhost : r.after.host = s.host := by
      rw [after, ← Option.some.inj hcompletes]
      exact Deed.host_performAll hds s
    rw [hhost]
    exact hagree
  | returned =>
    rw [after, hu.result_eq]
    exact hagree

end Undisturbed

/-! ### A run that nobody disturbs -/

/-- A run has returned on a host, and has what it has when it is conducted at once. -/
structure Delivers (o : Outcome) (s : Scope) : Prop extends r.Hosts s.host where
  /-- It has ended in the same way. -/
  outcome : r.result.1 = .ended o
  /-- The files are the same. -/
  same : ∀ q, r.after.host.tree.get? q = s.host.tree.get? q

/-- A run is beside nobody. -/
theorem Beside.nobody {r : Round} (hproper : r.before.host.tree.IsProper)
    (hsecluded : r.Secluded) : r.Beside fun _ => False where
  isProper := hproper
  free := fun _ hw => hw.elim
  secluded := hsecluded
  apart := fun _ _ _ hw => hw.elim
  overlooks := fun _ hw => hw.elim

/-- **A run that nobody disturbs goes to the end that it has when it is conducted at once.** -/
theorem Undisturbed.exists_goes {r : Round} {h : Host} {s : Scope} {st : Position}
    (hb : r.Beside fun _ => False) {c : Commission} (hrunner : c.runner = r.runner)
    (hu : r.Undisturbed (fun _ => False) h s st) :
    ∃ o s', Position.Goes c (st, { s with host := h }) (.returned o, s') ∧ r.Delivers o s' := by
  -- on what the run has before it
  induction hrank : st.rank using WellFoundedLT.induction generalizing st h s with
  | ind rank ih =>
    by_cases hreturned : ∃ o, st = .returned o
    · obtain ⟨o, rfl⟩ := hreturned
      refine ⟨o, _, .refl, hu.host, congrArg Prod.fst hu.result_eq, fun q => ?_⟩
      rw [after, hu.result_eq]
      exact hu.agrees q (fun _ hw => hw.elim) id
    · obtain ⟨st', s', hmove, hlt⟩ := hu.exists_move hb c (not_exists.1 hreturned)
      obtain ⟨alone, hnext, hs, -⟩ := hu.move hb hrunner (fun _ _ hw => hw.elim) hmove
      obtain ⟨o, s'', hgoes, hend⟩ := ih _ (hrank ▸ hlt) hnext rfl
      refine ⟨o, s'', .head hmove ?_, hend⟩
      rwa [← hs] at hgoes

/-- A run that stands in a directory stands in that of the run. -/
theorem Stage.dir?_eq {r : Round} {h : Host} {st : Position}
    (hfree : r.before.orchestrator.busy = false) (hst : r.Stage h st) :
    st.dir? = none ∨ st.dir? = r.dir? := by
  cases hst with
  | working hw hh hp =>
    rcases hp.dir?_eq fun j hj => hj.dir_eq with hnone | hdir
    · exact .inl hnone
    · exact .inr (hdir.trans (hw.dir?_eq hfree).symm)
  | running hw hh hj hawaits hran =>
    exact .inr ((congrArg some hj.dir_eq).trans (hw.dir?_eq hfree).symm)
  | leaving hds => exact .inl rfl
  | returned => exact .inl rfl

end Round

end ScenePreview
