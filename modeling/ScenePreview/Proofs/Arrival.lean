import ScenePreview.Proofs.Names
import ScenePreview.Proofs.Solitude

/-!
# A run that comes to its directory

Before a run has made its directory it touches no files.  The name of the directory is the first of
those that the run draws that is not taken, and it may be taken by another run.  From then on the
run goes as if it were alone and had drawn no other name.

## Main definitions

* `Round.named` — a run that draws one name only.
* `Round.Unplaced` — where a run stands that has no directory.
* `Round.Arrives` — a run that has just made its directory.

## Main results

* `Round.Unplaced.move` — such a run stays without a directory, or makes it.
* `Round.Unplaced.create` — **the run that makes its directory is undisturbed**, compared with the
  run on the name that it got.
* `Round.exists_goes` — a run that nobody disturbs goes, step by step, to the end that it has when
  it is conducted at once.
-/

namespace ScenePreview

open FileTree (Clear SameOutside)
open Host (ChangedBelow)

namespace Round

variable (r : Round)

/-- The run, if it draws one name only. -/
def named (m : ℕ) : Round :=
  { r with chance := { r.chance with suffixes := fun _ => r.chance.suffixes m } }

/-- The path of the directory with a name that the run draws. -/
def candidate (m : ℕ) : Path :=
  WorkDir.candidate r.before.host r.before.orchestrator.settings.workdirPrefix
    r.before.orchestrator.settings.tempRoot (r.chance.suffixes m)

/-- Where the run stands without a directory, and its scope on the host that it found. -/
inductive Unplaced (s : Scope) : Position → Prop
  /-- It has not come yet. -/
  | absent (hs : s = r.before) : Unplaced s .absent
  /-- It will make its directory.  Whatever name it gets, it will end as if it had drawn only
  that. -/
  | opening {ds : List Deed} (hfree : r.before.orchestrator.busy = false)
      (hhost : s.host = r.before.host)
      (hsettings : s.orchestrator.settings = r.before.orchestrator.settings)
      (hds : ∀ d ∈ ds, d.KeepsFiles)
      (hcompletes : ∀ m, Position.complete (r.named m).toCommission s
        (.active ⟨ds, .create (r.named m).chance r.request⟩) = some (r.named m).result) :
      Unplaced s (.active ⟨ds, .create r.chance r.request⟩)
  /-- It was turned away. -/
  | rejected (hbusy : r.before.orchestrator.busy = true) (hs : s = r.before) :
      Unplaced s (.returned (.error .runInFlight))

/-- The run has made its directory, and goes on as it does on its own on the name that it got. -/
structure Arrives (W : Place → Prop) (h : Host) (made : Scope × Plan) (m : ℕ) : Prop where
  /-- The run is undisturbed, compared with the run on that name. -/
  continues : (r.named m).Continues W h (.active made.2) made.1
  /-- It works in the directory of that run. -/
  dir?_eq : (Position.active made.2).dir? = (r.named m).dir?
  /-- The directory is in none of the places of the others. -/
  clear : ∀ w, (r.named m).Works w → Clear W w

theorem Hosts.named {r : Round} {h : Host} (hh : r.Hosts h) (m : ℕ) : (r.named m).Hosts h :=
  ⟨hh.files, hh.isProper⟩

namespace Unplaced

variable {r} {s : Scope} {st : Position}

theorem host_eq (hu : r.Unplaced s st) : s.host = r.before.host := by
  cases hu with
  | absent hs => rw [hs]
  | opening _ hhost _ _ _ => exact hhost
  | rejected _ hs => rw [hs]

theorem dir?_eq (hu : r.Unplaced s st) : st.dir? = none := by
  cases hu <;> rfl

/-- A run that was turned away has the result that it has on its own. -/
theorem result_eq {o : Outcome} (hu : r.Unplaced s (.returned o)) (m : ℕ) :
    (r.named m).result = (.ended o, s) ∧ (r.named m).dir? = none := by
  cases hu with
  | rejected hbusy hs =>
    rw [hs]
    refine ⟨?_, if_pos hbusy⟩
    exact Option.some.inj (Position.complete_reject (r.named m).toCommission r.before hbusy)

/-- A step of a run without a directory: it stays without one, or makes it. -/
theorem move (hu : r.Unplaced s st) {h : Host} {st' : Position} {s' : Scope}
    (hmove : Position.Move r.toCommission { s with host := h } st st' s') :
    (∃ next, r.Unplaced next st' ∧ s' = { next with host := h }) ∨
      (r.Unplaced s (.active ⟨[], .create r.chance r.request⟩) ∧
        st' = .active (Plan.afterCreate r.chance r.request { s with host := h }).2 ∧
        s' = (Plan.afterCreate r.chance r.request { s with host := h }).1) := by
  cases hmove with
  | acquire hfree =>
    cases hu with
    | absent hs =>
      subst hs
      refine .inl ⟨r.before.acquire, .opening hfree rfl rfl ?_ fun m => ?_, rfl⟩
      · exact List.forall_mem_cons.2 ⟨trivial, List.forall_mem_singleton.2 trivial⟩
      · exact (Position.complete_acquire (r.named m).toCommission r.before hfree).symm
  | reject hbusy =>
    cases hu with
    | absent hs =>
      subst hs
      exact .inl ⟨r.before, .rejected hbusy rfl, rfl⟩
  | @act d ds turn =>
    cases hu with
    | opening hfree hhost hsettings hds hcompletes =>
      obtain ⟨hd, hds⟩ := List.forall_mem_cons.1 hds
      refine .inl ⟨d.perform s, .opening hfree ((hd.host_perform s).trans hhost)
        ((d.settings_perform s).trans hsettings) hds fun m => ?_, hd.perform_eq s h⟩
      rw [← Position.complete_act]
      exact hcompletes m
  | create =>
    cases hu with
    | opening hfree hhost hsettings hds hcompletes =>
      exact .inr ⟨.opening hfree hhost hsettings hds hcompletes, rfl, rfl⟩
  | launch => cases hu
  | write => cases hu
  | output => cases hu
  | exit => cases hu
  | resume => cases hu
  | finish => cases hu

/-- A run without a directory that was not turned away can take a step. -/
theorem exists_move (hu : r.Unplaced s st) (h : Host) (hreturned : ∀ o, st ≠ .returned o) :
    ∃ st' s', Position.Move r.toCommission { s with host := h } st st' s' ∧
      st'.rank < st.rank := by
  refine Position.exists_move_lt hreturned ?_ ?_
  · rintro p rfl hp
    cases hu with
    | opening => cases hp
  · rintro j ran rfl
    cases hu

section Create

variable {W : Place → Prop} {h : Host} {m : ℕ} (hproper : r.before.host.tree.IsProper)
  (hhost : r.Hosts h) (hsame : SameOutside W r.before.host.tree h.tree)
  (hu : r.Unplaced s (.active ⟨[], .create r.chance r.request⟩))
include hproper hhost hsame hu

/-- No directory can be made for the run, as when it is alone. -/
theorem arrives_of_error {e : IoError} (hmade : (r.named m).made = .error e)
    (hcreate : WorkDir.create h r.before.orchestrator.settings.workdirPrefix
      r.before.orchestrator.settings.tempRoot r.chance.suffixes = .error e) :
    r.Arrives W h (Plan.afterCreate r.chance r.request { s with host := h }) m := by
  obtain _ | ⟨-, hs, hsettings, -, hcompletes⟩ | _ := hu
  have halone : WorkDir.create s.host s.orchestrator.settings.workdirPrefix
      s.orchestrator.settings.tempRoot (r.named m).chance.suffixes = .error e := by
    rw [hs, hsettings]
    exact hmade
  have hjoint : Plan.afterCreate r.chance r.request { s with host := h }
      = ({ s with host := h }, Plan.unmade e) := by
    refine Plan.afterCreate_eq_unmade _ _ ?_
    rw [hsettings]
    exact hcreate
  have hcomplete := Position.complete_create (r.named m).toCommission s (r.named m).chance r.request
  rw [Plan.afterCreate_eq_unmade _ _ halone] at hcomplete
  rw [hjoint]
  refine ⟨⟨s, ⟨hhost.named m, ?_, hsettings, .leaving (Failure.keepsFiles_of_mem_deeds _), ?_, ?_⟩,
    rfl, fun _ _ => rfl⟩, ?_, ?_⟩
  · rw [hs]
    exact Alone.start hproper
  · intro q hq _
    rw [hs]
    exact hsame q hq
  · exact hcomplete.symm.trans (hcompletes m)
  · rw [dir?, hmade]
    split <;> rfl
  · rintro w ⟨dir, tree, hw⟩
    rw [hw.made] at hmade
    cases hmade

/-- The run makes the directory that it makes when it is alone. -/
theorem arrives_of_worksIn {dir : Path} {tree : FileTree} {w : Place}
    (hw : (r.named m).WorksIn dir tree w) (hclear : Clear W w)
    (hcreate : WorkDir.create h r.before.orchestrator.settings.workdirPrefix
      r.before.orchestrator.settings.tempRoot r.chance.suffixes
        = .ok (dir, h.tree.insert w .directory)) :
    r.Arrives W h (Plan.afterCreate r.chance r.request { s with host := h }) m := by
  obtain _ | ⟨hfree, hs, hsettings, -, hcompletes⟩ | _ := hu
  have htree : (r.named m).before.host.tree.IsTree := hproper.isTree
  have hmade := hw.isMade htree
  have halone : WorkDir.create s.host s.orchestrator.settings.workdirPrefix
      s.orchestrator.settings.tempRoot (r.named m).chance.suffixes = .ok (dir, tree) := by
    rw [hs, hsettings]
    exact hw.made
  have hjoint : Plan.afterCreate r.chance r.request { s with host := h }
      = ({ s with host := { h with tree := h.tree.insert w .directory } },
        Plan.announcing r.chance r.request s.orchestrator.settings dir) := by
    refine Plan.afterCreate_eq_announcing _ _ ?_
    rw [hsettings]
    exact hcreate
  have hcomplete := Position.complete_create (r.named m).toCommission s (r.named m).chance r.request
  rw [Plan.afterCreate_eq_announcing _ _ halone] at hcomplete
  rw [hjoint]
  have hdir : (r.named m).dir? = some dir := WorksIn.dir?_eq (r := r.named m) hfree hw
  have hhosts : (r.named m).Hosts { h with tree := h.tree.insert w .directory } := by
    obtain ⟨d, n, rfl, hn, hd, -⟩ := hw.exists_vacant htree
    refine ⟨?_, hhost.isProper.insert hn ?_ ?_⟩
    · rw [hhost.files]
      rfl
    · rw [← hsame d fun w' hw' hle => hclear w' hw' (hle.trans (List.prefix_append d [n]))]
      exact hd
    · rw [← hsame _ hclear]
      exact hmade.free _ (List.prefix_refl _)
  refine ⟨⟨{ s with host := { s.host with tree } }, ⟨hhosts, ?_, hsettings, ?_, ?_, ?_⟩, rfl, ?_⟩,
    hdir.symm, fun w' hw' => Works.eq ⟨dir, tree, hw⟩ hw' ▸ hclear⟩
  · rw [hs]
    exact Alone.create hproper hw
  · rw [hs]
    exact .working hw (ChangedBelow.refl w _) (Plan.staysIn_announcing _ _ ⟨rfl, rfl, .slicing⟩ _)
  · -- the directory is new on both hosts, at one place
    intro q hq _
    change tree.get? q = (h.tree.insert w .directory).get? q
    rw [hmade.tree_eq]
    by_cases hqw : q = w
    · rw [hqw, FileTree.get?_insert_self _ hmade.ne_root, FileTree.get?_insert_self _ hmade.ne_root]
    · rw [FileTree.get?_insert_of_ne _ hqw, FileTree.get?_insert_of_ne _ hqw]
      exact hsame q hq
  · exact hcomplete.symm.trans (hcompletes m)
  · intro q hq
    change h.tree.get? q = (h.tree.insert w .directory).get? q
    rw [FileTree.get?_insert_of_ne]
    rintro rfl
    exact hq q ⟨dir, tree, hw⟩ (List.prefix_refl q)

/-- **The run that makes its directory is undisturbed**, if each of its names passes by the places
of the others or is taken there, and these do not take all names that the run has. -/
theorem create
    (hnames : ∀ n, n < WorkDir.maxAttempts →
      (∀ w, W w → r.before.host.tree.PassesBy r.before.host.cwd false (r.candidate n) w) ∨
        WorkDir.Taken h (r.candidate n))
    (henough : (∃ n, n < WorkDir.maxAttempts ∧ ¬ WorkDir.Taken r.before.host (r.candidate n)) →
      ∃ n, n < WorkDir.maxAttempts ∧ ¬ WorkDir.Taken h (r.candidate n)) :
    ∃ m, r.Arrives W h (Plan.afterCreate r.chance r.request { s with host := h }) m := by
  obtain ⟨m, herror, hok⟩ := WorkDir.exists_create_eq hsame hhost.files hnames henough
  refine ⟨m, ?_⟩
  rcases hmade : (r.named m).made with e | ⟨dir, tree⟩
  · exact arrives_of_error hproper hhost hsame hu hmade (herror e hmade)
  · have htree : (r.named m).before.host.tree.IsTree := hproper.isTree
    obtain ⟨w, hw⟩ := exists_worksIn htree hmade
    obtain ⟨d, n, rfl, -, -, hx⟩ := hw.exists_vacant htree
    obtain ⟨d', n', hclear, hx', -, hcreate⟩ := hok dir tree hmade
    -- one path leads to one place
    obtain ⟨rfl, rfl⟩ : d = d' ∧ n = n' := by
      have heq : (Except.ok (.vacant d n) : Except IoError FileTree.Target)
          = .ok (.vacant d' n') := hx.symm.trans hx'
      cases heq
      exact ⟨rfl, rfl⟩
    exact arrives_of_worksIn hproper hhost hsame hu hw hclear hcreate

end Create

/-- A run without a directory that nobody disturbs goes to the end that it has on one of its
names. -/
theorem exists_goes (hproper : r.before.host.tree.IsProper)
    (hsecluded : ∀ m, (r.named m).Secluded) {h : Host} (hhost : r.Hosts h)
    (hsame : ∀ q, r.before.host.tree.get? q = h.tree.get? q) (hu : r.Unplaced s st) :
    ∃ m o s', Position.Goes r.toCommission (st, { s with host := h }) (.returned o, s') ∧
      (r.named m).Delivers o s' := by
  induction hrank : st.rank using WellFoundedLT.induction generalizing st s with
  | ind rank ih =>
    by_cases hreturned : ∃ o, st = .returned o
    · obtain ⟨o, rfl⟩ := hreturned
      obtain ⟨hresult, -⟩ := hu.result_eq 0
      refine ⟨0, o, _, .refl, hhost.named 0, congrArg Prod.fst hresult, fun q => ?_⟩
      rw [after, hresult]
      change s.host.tree.get? q = _
      rw [hu.host_eq, hsame q]
    · obtain ⟨st', s', hmove, hlt⟩ := hu.exists_move h (not_exists.1 hreturned)
      obtain ⟨next, hnext, rfl⟩ | ⟨hopening, rfl, rfl⟩ := hu.move hmove
      · obtain ⟨m, o, s'', hgoes, hend⟩ := ih _ (hrank ▸ hlt) hnext rfl
        exact ⟨m, o, s'', .head hmove hgoes, hend⟩
      · -- it makes its directory, and is undisturbed from then on
        have hnobody : SameOutside (fun _ => False) r.before.host.tree h.tree := fun q _ => hsame q
        have htaken : ∀ p, WorkDir.Taken h p ↔ WorkDir.Taken r.before.host p := fun p =>
          (WorkDir.attempt_congr hnobody hhost.files fun _ hw => hw.elim).1
        obtain ⟨m, harrives⟩ := hopening.create hproper hhost hnobody
          (fun n _ => .inl fun _ hw => hw.elim) (by simp only [htaken, imp_self])
        obtain ⟨alone, hnext, hs, -⟩ := harrives.continues
        obtain ⟨o, s'', hgoes, hend⟩ := Undisturbed.exists_goes (r := r.named m)
          (.nobody hproper (hsecluded m)) (c := r.toCommission) rfl hnext
        refine ⟨m, o, s'', .head hmove ?_, hend⟩
        rwa [← hs] at hgoes

end Unplaced

/-- **A run that nobody disturbs goes, step by step, to the end that it has when it is conducted at
once on one of its names.**  It may begin on any host that has the files that it finds. -/
theorem exists_goes (hproper : r.before.host.tree.IsProper)
    (hsecluded : ∀ m, (r.named m).Secluded) {h : Host} (hhost : r.Hosts h)
    (hsame : ∀ q, r.before.host.tree.get? q = h.tree.get? q) :
    ∃ m o s, Position.Goes r.toCommission (.absent, { r.before with host := h })
      (.returned o, s) ∧ (r.named m).Delivers o s :=
  (Unplaced.absent rfl).exists_goes hproper hsecluded hhost hsame

end Round

end ScenePreview
