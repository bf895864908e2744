import ScenePreview.Proofs.Deeds
import ScenePreview.Proofs.Seclusion
import ScenePreview.Proofs.Rounds

/-!
# A run and its processes step by step

`Orchestrator.conduct` runs a process at once: its output, its end and its files come together.
To everybody else they come one by one.  Here a run is followed from step to step, and a process
writes to its directory, has output and ends in steps of its own.  What is left of a run that
nobody disturbs can be said at every step, and the steps do not change it.

## Main definitions

* `Position`, `Position.dir?` — where a run stands, and in which directory; a process may be under
  way.
* `Position.Move`, `Position.Goes` — one step of a run or of its process, and any number of them.
* `Position.complete` — how a run ends that nobody disturbs from here on.
* `Position.rank` — how much a run has before it.

## Main results

* `Position.complete_launch`, `Position.complete_exit` and the like — no step changes how a run
  ends.
-/

namespace ScenePreview

/-! ### Steps -/

/-- Where a run stands. -/
inductive Position where
  /-- It has not come yet. -/
  | absent
  /-- It follows a plan. -/
  | active (p : Plan)
  /-- Its process is under way, with the output that is still to come, its end and the files that
  it will leave. -/
  | running (j : Job) (ran : Ran)
  /-- It has returned. -/
  | returned (o : Outcome)

/-- The directory in which a run works from a position on. -/
def Position.dir? : Position → Option Path
  | .active p => match p.turn with
    | .wait j => some j.dir
    | _ => none
  | .running j _ => some j.dir
  | .absent | .returned _ => none

/-- Whether a job waits for a process, and not for a look at the files. -/
def Job.awaitsProcess (j : Job) : Bool :=
  match j.phase with
  | .slicing | .rendering => true
  | .confirming _ | .searching _ => false

/-- The place of the working directory of a job. -/
def Job.WorksAt (j : Job) (h : Host) (w : Place) : Prop :=
  h.tree.lstat h.cwd j.dir = .ok (w, .directory)

/-- The host with what another one has below a place. -/
def Host.graft (h : Host) (w : Place) (h' : Host) : Host :=
  { h with tree := h.tree.graft w h'.tree }

namespace Position

/-- One step of a run, or of its process: where it stands then, and what the scope is. -/
inductive Move (c : Commission) (s : Scope) : Position → Position → Scope → Prop
  /-- It takes the orchestrator. -/
  | acquire (hfree : s.orchestrator.busy = false) :
      Move c s .absent (.active (Plan.opening c.chance c.request)) s.acquire
  /-- It finds the orchestrator taken. -/
  | reject (hbusy : s.orchestrator.busy = true) :
      Move c s .absent (.returned (.error .runInFlight)) s
  /-- It does the next deed of its plan. -/
  | act {d : Deed} {ds : List Deed} {turn : Turn} :
      Move c s (.active ⟨d :: ds, turn⟩) (.active ⟨ds, turn⟩) (d.perform s)
  /-- It makes its working directory. -/
  | create {chance : Chance} {request : Request} :
      Move c s (.active ⟨[], .create chance request⟩)
        (.active (Plan.afterCreate chance request s).2) (Plan.afterCreate chance request s).1
  /-- Its process starts. -/
  | launch {j : Job} (hj : j.awaitsProcess = true) :
      Move c s (.active ⟨[], .wait j⟩)
        (.running j (c.runner s.host (j.call s.orchestrator.settings))) s
  /-- Its process changes files in the working directory. -/
  | write {j : Job} {ran : Ran} {w : Place} {h : Host} (hw : j.WorksAt s.host w)
      (hchanged : Host.ChangedBelow w s.host h) (hproper : h.tree.IsProper) :
      Move c s (.running j ran) (.running j ran) { s with host := h }
  /-- Its process writes something. -/
  | output {j : Job} {ch : Chunk} {chs : List Chunk} {r : Except ProcessError ProcessResult}
      {h : Host} :
      Move c s (.running j ⟨ch :: chs, r, h⟩) (.running j ⟨chs, r, h⟩) (j.step (.output ch) s).2
  /-- Its process has ended, and the files in the working directory are those that it leaves. -/
  | exit {j : Job} {r : Except ProcessError ProcessResult} {h : Host} {w : Place}
      (hw : j.WorksAt s.host w) :
      Move c s (.running j ⟨[], r, h⟩)
        (.active (j.react (.exited r) { s with host := s.host.graft w h }))
        { s with host := s.host.graft w h }
  /-- It looks at the files. -/
  | resume {j : Job} (hj : j.awaitsProcess = false) :
      Move c s (.active ⟨[], .wait j⟩) (.active (j.react .resumed s)) s
  /-- It lets the orchestrator go and returns. -/
  | finish {o : Outcome} : Move c s (.active ⟨[], .finish o⟩) (.returned o) s.release

/-- Any number of steps of a run and its processes, while nobody else does anything. -/
def Goes (c : Commission) : Position × Scope → Position × Scope → Prop :=
  Relation.ReflTransGen fun x y => Move c x.2 x.1 y.1 y.2

theorem Goes.head {c : Commission} {s s' : Scope} {st st' : Position} {x : Position × Scope}
    (hmove : Move c s st st' s') (h : Goes c (st', s') x) : Goes c (st, s) x :=
  Relation.ReflTransGen.head (b := (st', s')) hmove h

end Position

/-! ### How a run ends that nobody disturbs -/

/-- The second process of a job that goes on after its first one. -/
def Job.onward (runner : Runner) : Progress × Scope → Progress × Scope
  | (.running j, s) => j.play runner s
  | (.ended o, s) => (.ended o, s)

/-- A job that waits is told all that it waits for, up to its end. -/
def Job.conclude (runner : Runner) (j : Job) (s : Scope) : Progress × Scope :=
  match j.phase with
  | .slicing => Job.onward runner (j.play runner s)
  | .confirming _ => Job.onward runner (j.step .resumed s)
  | .rendering => j.play runner s
  | .searching _ => j.step .resumed s

/-- A run is conducted to its end. -/
def Progress.conclude (runner : Runner) : Progress × Scope → Progress × Scope
  | (.running j, s) => j.conclude runner s
  | (.ended o, s) => (.ended o, s)

/-- A plan is done, and then its run is conducted to its end. -/
def Plan.complete (runner : Runner) (p : Plan) (s : Scope) : Option (Progress × Scope) :=
  match p.turn with
  | .create chance request =>
    let made := Plan.afterCreate chance request (Deed.performAll s p.deeds)
    (made.2.close made.1).map (Progress.conclude runner)
  | _ => (p.close s).map (Progress.conclude runner)

/-- How a run ends that nobody disturbs from here on.  The files of the scope are those that the
process under way will leave. -/
def Position.complete (c : Commission) (s : Scope) : Position → Option (Progress × Scope)
  | .absent => some (Orchestrator.conduct c.runner c.chance c.request s)
  | .active p => p.complete c.runner s
  | .running j ran =>
    some (Progress.conclude c.runner (j.step (.exited ran.result)
      (ran.chunks.foldl (fun s ch => (j.step (.output ch) s).2) s)))
  | .returned o => some (.ended o, s)

theorem Plan.complete_of_close {runner : Runner} {p : Plan} {s : Scope} {r : Progress × Scope}
    (h : p.close s = some r) : p.complete runner s = some (Progress.conclude runner r) := by
  obtain ⟨ds, turn⟩ := p
  cases turn with
  | create chance request => cases h
  | wait j => exact congrArg (Option.map (Progress.conclude runner)) h
  | finish o => exact congrArg (Option.map (Progress.conclude runner)) h
  | vanish => cases h

/-- A run is conducted from its beginning to its end. -/
theorem Orchestrator.conduct_eq_conclude (runner : Runner) (chance : Chance) (request : Request)
    (s : Scope) :
    Orchestrator.conduct runner chance request s
      = Progress.conclude runner (Job.begin chance request s) := by
  unfold Orchestrator.conduct
  rcases hbegin : Job.begin chance request s with ⟨j | o, s'⟩
  · simp only [Progress.conclude, Job.conclude, Job.phase_begin hbegin]
    rcases j.play runner s' with ⟨j' | o, s''⟩ <;> rfl
  · rfl

namespace Position

variable (c : Commission) (s : Scope)

theorem complete_acquire (hfree : s.orchestrator.busy = false) :
    complete c s .absent
      = complete c s.acquire (.active (Plan.opening c.chance c.request)) := by
  have hplan := Job.begin_eq_plan c.chance c.request hfree
  rw [complete, Orchestrator.conduct_eq_conclude]
  exact (congrArg (Option.map (Progress.conclude c.runner)) hplan).symm

theorem complete_reject (hbusy : s.orchestrator.busy = true) :
    complete c s .absent = complete c s (.returned (.error .runInFlight)) := by
  rw [complete, Orchestrator.conduct_eq_conclude, Job.begin_of_busy _ _ hbusy]
  rfl

theorem complete_act (d : Deed) (ds : List Deed) (turn : Turn) :
    complete c s (.active ⟨d :: ds, turn⟩) = complete c (d.perform s) (.active ⟨ds, turn⟩) := by
  cases turn <;> rfl

theorem complete_create (chance : Chance) (request : Request) :
    complete c s (.active ⟨[], .create chance request⟩)
      = complete c (Plan.afterCreate chance request s).1
          (.active (Plan.afterCreate chance request s).2) := by
  obtain ⟨r, hr⟩ := Plan.exists_close_afterCreate chance request s
  rw [complete, complete, Plan.complete_of_close hr]
  exact congrArg (Option.map _) hr

/-- A process that starts will leave the files that the scope has then. -/
theorem complete_launch {j : Job} (hj : j.awaitsProcess = true) (ran : Ran)
    (hchunks : ran.chunks = (c.runner s.host (j.call s.orchestrator.settings)).chunks)
    (hresult : ran.result = (c.runner s.host (j.call s.orchestrator.settings)).result) :
    complete c s (.active ⟨[], .wait j⟩)
      = complete c { s with host := (c.runner s.host (j.call s.orchestrator.settings)).host }
          (.running j ran) := by
  rw [complete, complete, hchunks, hresult]
  -- the job is told all that comes of its process, which is what is left of the run
  change some (j.conclude c.runner s) = _
  congr 1
  cases hphase : j.phase with
  | slicing =>
    simp only [Job.conclude, hphase, Job.play, Job.step_slicing_exited _ hphase]
    cases Slice.settle (c.runner s.host (j.call s.orchestrator.settings)).result <;> rfl
  | rendering =>
    simp only [Job.conclude, hphase, Job.play, Job.step_rendering_exited _ hphase]
    cases Render.settle (c.runner s.host (j.call s.orchestrator.settings)).result <;> rfl
  | confirming stderr => simp [Job.awaitsProcess, hphase] at hj
  | searching stderr => simp [Job.awaitsProcess, hphase] at hj

theorem complete_output (j : Job) (ch : Chunk) (chs : List Chunk)
    (r : Except ProcessError ProcessResult) (h : Host) :
    complete c s (.running j ⟨ch :: chs, r, h⟩)
      = complete c (j.step (.output ch) s).2 (.running j ⟨chs, r, h⟩) := rfl

theorem complete_exit (j : Job) (r : Except ProcessError ProcessResult) (h : Host) :
    complete c s (.running j ⟨[], r, h⟩) = complete c s (.active (j.react (.exited r) s)) := by
  rw [complete, complete, Plan.complete_of_close (Job.step_eq_plan j (.exited r) s)]
  rfl

theorem complete_resume {j : Job} (hj : j.awaitsProcess = false) :
    complete c s (.active ⟨[], .wait j⟩) = complete c s (.active (j.react .resumed s)) := by
  rw [complete, complete, Plan.complete_of_close (Job.step_eq_plan j .resumed s)]
  change some (j.conclude c.runner s) = _
  congr 1
  cases hphase : j.phase with
  | confirming stderr =>
    simp only [Job.conclude, hphase, Job.step_confirming_resumed _ hphase]
    cases Slice.confirm (s.host.exists (WorkDir.scenePath j.dir)) stderr
      (WorkDir.scenePath j.dir) <;> rfl
  | searching stderr =>
    simp only [Job.conclude, hphase, Job.step_searching_resumed _ hphase]
    rcases Artifact.find s.host (Render.artifactDir j.dir (WorkDir.scenePath j.dir)) stderr with
      ⟨f | a, ws⟩ <;> rfl
  | slicing => simp [Job.awaitsProcess, hphase] at hj
  | rendering => simp [Job.awaitsProcess, hphase] at hj

theorem complete_finish (o : Outcome) :
    complete c s (.active ⟨[], .finish o⟩) = complete c s.release (.returned o) := rfl

end Position

/-! ### What is done without files -/

/-- A deed that leaves the files alone. -/
def Deed.KeepsFiles : Deed → Prop
  | .discard _ => False
  | _ => True

/-- What does not touch the files does not depend on them. -/
theorem Deed.KeepsFiles.perform_eq {d : Deed} (hd : d.KeepsFiles) (s : Scope) (h : Host) :
    d.perform { s with host := h } = { d.perform s with host := h } := by
  cases d with
  | advance next => simp only [perform, Scope.advance_eq]
  | say m => rfl
  | warn ws => rfl
  | start c => rfl
  | discard dir => exact hd.elim

theorem Deed.KeepsFiles.host_perform {d : Deed} (hd : d.KeepsFiles) (s : Scope) :
    (d.perform s).host = s.host := by
  have heq : d.perform s = { d.perform s with host := s.host } := hd.perform_eq s s.host
  rw [heq]

theorem Deed.host_performAll {ds : List Deed} (hds : ∀ d ∈ ds, d.KeepsFiles) (s : Scope) :
    (performAll s ds).host = s.host := by
  induction ds generalizing s with
  | nil => rfl
  | cons d ds ih =>
    obtain ⟨hd, hds⟩ := List.forall_mem_cons.1 hds
    rw [performAll_cons, ih hds, hd.host_perform]

theorem Deed.settings_perform (d : Deed) (s : Scope) :
    (d.perform s).orchestrator.settings = s.orchestrator.settings := by
  cases d with
  | advance next => rw [perform, Scope.advance_eq]
  | say m => rfl
  | warn ws => rfl
  | start c => rfl
  | discard dir => rfl

theorem Failure.keepsFiles_of_mem_deeds (f : Failure) : ∀ d ∈ f.deeds, d.KeepsFiles := by
  intro d hd
  rcases List.mem_cons.1 hd with rfl | hd
  · trivial
  · obtain ⟨m, -, rfl⟩ := List.mem_map.1 hd
    trivial

namespace Job

variable (j : Job) (s : Scope) (h : Host)

/-- What a process writes is at most shown. -/
theorem step_output (ch : Chunk) :
    (j.step (.output ch) s).2 = s ∨ (j.step (.output ch) s).2 = s.say (.log ch.text) := by
  obtain ⟨request, run, dir, completedAt, phase⟩ := j
  cases phase with
  | rendering => exact .inr rfl
  | slicing => exact .inl rfl
  | confirming stderr => exact .inl rfl
  | searching stderr => exact .inl rfl

theorem step_output_eq (ch : Chunk) :
    (j.step (.output ch) { s with host := h }).2
      = { (j.step (.output ch) s).2 with host := h } := by
  obtain ⟨request, run, dir, completedAt, phase⟩ := j
  cases phase <;> rfl

/-- A job that hears of the end of a process does not look at the files. -/
theorem react_exited_eq (r : Except ProcessError ProcessResult) :
    j.react (.exited r) { s with host := h } = j.react (.exited r) s := by
  obtain ⟨request, run, dir, completedAt, phase⟩ := j
  cases phase <;> rfl

end Job

/-! ### Plans in a directory -/

/-- What is planned in a directory leaves the files alone, but that the directory may go when the
run is about to return.  The run may wait with some jobs only. -/
inductive Plan.StaysIn (P : Job → Prop) (dir : Path) : Plan → Prop
  | wait {j : Job} (hj : P j) : StaysIn P dir ⟨[], .wait j⟩
  | finish {o : Outcome} : StaysIn P dir ⟨[], .finish o⟩
  | discard {o : Outcome} : StaysIn P dir ⟨[.discard dir], .finish o⟩
  | act {d : Deed} {ds : List Deed} {turn : Turn} (hd : d.KeepsFiles)
      (h : StaysIn P dir ⟨ds, turn⟩) : StaysIn P dir ⟨d :: ds, turn⟩

namespace Plan.StaysIn

variable {P : Job → Prop} {dir : Path}

theorem append {ds ds' : List Deed} {turn : Turn} (hds : ∀ d ∈ ds, d.KeepsFiles)
    (h : StaysIn P dir ⟨ds', turn⟩) : StaysIn P dir ⟨ds ++ ds', turn⟩ := by
  induction ds with
  | nil => exact h
  | cons d ds ih =>
    obtain ⟨hd, hds⟩ := List.forall_mem_cons.1 hds
    exact .act hd (ih hds)

theorem turn_ne_vanish {p : Plan} (h : StaysIn P dir p) : p.turn ≠ .vanish := by
  induction h with
  | wait hj => exact nofun
  | finish => exact nofun
  | discard => exact nofun
  | act hd h ih => exact ih

theorem dir?_eq {p : Plan} (h : StaysIn P dir p) (hdir : ∀ j, P j → j.dir = dir) :
    (Position.active p).dir? = none ∨ (Position.active p).dir? = some dir := by
  induction h with
  | wait hj => exact .inr (congrArg some (hdir _ hj))
  | finish => exact .inl rfl
  | discard => exact .inl rfl
  | act hd h ih => exact ih

variable {j : Job}

theorem failing (hdir : j.dir = dir) (f : Failure) (settings : Settings) :
    StaysIn P dir (j.failing f settings) := by
  refine append f.keepsFiles_of_mem_deeds ?_
  split
  · exact .finish
  · rw [hdir]
    exact .discard

theorem succeeding (a : Artifact) : StaysIn P dir (j.succeeding a) :=
  .act trivial (.act trivial (.act trivial .finish))

/-- Whatever a job is told, it stays in its directory. -/
theorem react (hdir : j.dir = dir) {signal : Signal} {s : Scope}
    (hnext : ∀ j', (j.react signal s).turn = .wait j' → P j') :
    StaysIn P dir (j.react signal s) := by
  -- the cases are those of the phases, and in each of them how it went
  unfold Job.react at hnext ⊢
  dsimp only at hnext ⊢
  split at hnext
  · split
    · exact failing hdir _ _
    · next heq =>
      rw [heq] at hnext
      exact .wait (hnext _ rfl)
  · split
    · exact failing hdir _ _
    · next heq =>
      rw [heq] at hnext
      exact .act trivial (.act trivial (.wait (hnext _ rfl)))
  · exact .act trivial (.wait (hnext _ rfl))
  · split
    · exact failing hdir _ _
    · next heq =>
      rw [heq] at hnext
      exact .wait (hnext _ rfl)
  · split
    · exact .act trivial (failing hdir _ _)
    · exact .act trivial (succeeding _)
  · exact .wait (hnext _ rfl)

end Plan.StaysIn

/-- The plan of a run for which no directory could be made. -/
def Plan.unmade (e : IoError) : Plan :=
  { deeds := (Failure.workingDirectory e).deeds
    turn := .finish (.error (.workingDirectory e)) }

/-- The plan of a run whose directory is there. -/
def Plan.announcing (chance : Chance) (request : Request) (settings : Settings) (dir : Path) :
    Plan :=
  let call := Slice.call settings request (WorkDir.scenePath dir)
  { deeds := [.say (.info (Job.announcement call.invocation)), .start call]
    turn := .wait (Orchestrator.firstJob chance request dir) }

section Create

variable (chance : Chance) (request : Request) {s : Scope}

theorem Plan.afterCreate_eq_unmade {e : IoError}
    (h : WorkDir.create s.host s.orchestrator.settings.workdirPrefix
      s.orchestrator.settings.tempRoot chance.suffixes = .error e) :
    afterCreate chance request s = (s, unmade e) := by
  simp only [afterCreate, h]
  rfl

theorem Plan.afterCreate_eq_announcing {dir : Path} {tree : FileTree}
    (h : WorkDir.create s.host s.orchestrator.settings.workdirPrefix
      s.orchestrator.settings.tempRoot chance.suffixes = .ok (dir, tree)) :
    afterCreate chance request s = ({ s with host := { s.host with tree } },
      announcing chance request s.orchestrator.settings dir) :=
  afterCreate_of_ok h

theorem Plan.staysIn_announcing {P : Job → Prop} {dir : Path}
    (hfirst : P (Orchestrator.firstJob chance request dir)) (settings : Settings) :
    StaysIn P dir (announcing chance request settings dir) :=
  .act trivial (.act trivial (.wait hfirst))

end Create

/-! ### How much a run has before it -/

/-- How far a turn is from the end. -/
def Turn.stage : Turn → ℕ
  -- a process under way stands between the job that waits for it and the next one
  | .create .. => 10
  | .wait j => match j.phase with
    | .slicing => 9
    | .confirming _ => 7
    | .rendering => 6
    | .searching _ => 4
  | .finish _ | .vanish => 2

/-- How much a run has before it: first the stages, and then what is to be done or heard in the
one where it is. -/
def Position.rank : Position → ℕ ×ₗ ℕ
  | .absent => toLex (11, 0)
  | .active p => toLex (p.turn.stage, p.deeds.length)
  | .running j ran => toLex ((Turn.wait j).stage - 1, ran.chunks.length)
  | .returned _ => toLex (0, 0)

theorem Plan.stage_afterCreate (chance : Chance) (request : Request) (s : Scope) :
    (afterCreate chance request s).2.turn.stage < 10 := by
  dsimp only [afterCreate]
  split <;> simp [Turn.stage, Orchestrator.firstJob]

theorem Job.stage_react_exited {j : Job} (hj : j.awaitsProcess = true)
    (r : Except ProcessError ProcessResult) (s : Scope) :
    (j.react (.exited r) s).turn.stage < (Turn.wait j).stage - 1 := by
  obtain ⟨request, run, dir, completedAt, phase⟩ := j
  cases phase with
  | slicing =>
    unfold react
    dsimp only
    cases Slice.settle r <;> simp [Turn.stage, failing]
  | rendering =>
    unfold react
    dsimp only
    cases Render.settle r <;> simp [Turn.stage, failing]
  | confirming stderr => cases hj
  | searching stderr => cases hj

theorem Job.stage_react_resumed {j : Job} (hj : j.awaitsProcess = false) (s : Scope) :
    (j.react .resumed s).turn.stage < (Turn.wait j).stage := by
  obtain ⟨request, run, dir, completedAt, phase⟩ := j
  cases phase with
  | confirming stderr =>
    unfold react
    dsimp only
    cases Slice.confirm (s.host.exists (WorkDir.scenePath dir)) stderr (WorkDir.scenePath dir) <;>
      simp [Turn.stage, failing, handingOver]
  | searching stderr =>
    unfold react
    dsimp only
    rcases Artifact.find s.host (Render.artifactDir dir (WorkDir.scenePath dir)) stderr with
      ⟨f | a, ws⟩ <;> simp [Turn.stage, failing, succeeding]
  | slicing => cases hj
  | rendering => cases hj

namespace Position

variable {c : Commission} {s : Scope}

theorem rank_lt_of_stage {p : Plan} {n k : ℕ} (h : p.turn.stage < n) :
    (active p).rank < toLex (n, k) :=
  Prod.Lex.toLex_lt_toLex.2 (.inl h)

/-- A run that has not returned has a step that brings it nearer to its end. -/
theorem exists_move_lt {st : Position} (hreturned : ∀ o, st ≠ .returned o)
    (hvanish : ∀ p, st = .active p → p.turn ≠ .vanish)
    (hrunning : ∀ j ran, st = .running j ran →
      j.awaitsProcess = true ∧ ∃ w, j.WorksAt s.host w) :
    ∃ st' s', Move c s st st' s' ∧ st'.rank < st.rank := by
  cases st with
  | absent =>
    cases hbusy : s.orchestrator.busy with
    | false => exact ⟨_, _, .acquire hbusy, rank_lt_of_stage (by simp [Plan.opening, Turn.stage])⟩
    | true => exact ⟨_, _, .reject hbusy, Prod.Lex.toLex_lt_toLex.2 (.inl (by simp))⟩
  | active p =>
    obtain ⟨ds, turn⟩ := p
    cases ds with
    | cons d ds => exact ⟨_, _, .act, Prod.Lex.toLex_lt_toLex.2 (.inr ⟨rfl, by simp⟩)⟩
    | nil =>
      cases turn with
      | create chance request =>
        exact ⟨_, _, .create, rank_lt_of_stage (Plan.stage_afterCreate chance request s)⟩
      | wait j =>
        cases hj : j.awaitsProcess with
        | true =>
          have hpos : 0 < (Turn.wait j).stage := by
            simp only [Turn.stage]
            split <;> simp
          exact ⟨_, _, .launch hj, Prod.Lex.toLex_lt_toLex.2 (.inl (Nat.sub_one_lt_of_lt hpos))⟩
        | false => exact ⟨_, _, .resume hj, rank_lt_of_stage (Job.stage_react_resumed hj s)⟩
      | finish o => exact ⟨_, _, .finish, Prod.Lex.toLex_lt_toLex.2 (.inl (by simp [Turn.stage]))⟩
      | vanish => exact absurd rfl (hvanish _ rfl)
  | running j ran =>
    obtain ⟨hj, w, hw⟩ := hrunning j ran rfl
    obtain ⟨chunks, r, h⟩ := ran
    cases chunks with
    | nil => exact ⟨_, _, .exit hw, rank_lt_of_stage (Job.stage_react_exited hj r _)⟩
    | cons ch chs => exact ⟨_, _, .output, Prod.Lex.toLex_lt_toLex.2 (.inr ⟨rfl, by simp⟩)⟩
  | returned o => exact absurd rfl (hreturned o)

/-- A step adds to the journal, and takes nothing back. -/
theorem Move.exists_journal_eq {st st' : Position} {s' : Scope} (h : Move c s st st' s') :
    ∃ new, s'.journal = s.journal ++ new := by
  have hnone : ∃ new, s.journal = s.journal ++ new := ⟨[], (List.append_nil _).symm⟩
  cases h with
  | @act d ds turn =>
    cases d with
    | advance next => exact ⟨_, by rw [Deed.perform, Scope.advance_eq]⟩
    | say m => exact ⟨_, rfl⟩
    | warn ws => exact ⟨_, rfl⟩
    | start c => exact ⟨_, rfl⟩
    | discard dir => exact hnone
  | @output j ch chs r h =>
    rcases j.step_output s ch with hout | hout
    · rw [hout]
      exact hnone
    · rw [hout]
      exact ⟨_, rfl⟩
  | create => rwa [Plan.journal_afterCreate]
  | acquire => exact hnone
  | reject => exact hnone
  | launch => exact hnone
  | write => exact hnone
  | exit => exact hnone
  | resume => exact hnone
  | finish => exact hnone

end Position

end ScenePreview
