import ScenePreview.Pipeline.Job
import ScenePreview.Process.Runner

/-!
# Conducting a run

A run from its beginning to its end, on processes of a given runner: one process for the
slice, and then one for the video.

## Main definitions

* `Job.play` — a job up to the end of its next process, and the look at what that left.
* `Orchestrator.conduct` — a whole run.
* `Scope.messages` — what the display was told.

## Main results

* `Orchestrator.conduct_ends` — a run that is conducted ends.

## References

`run` of the reference's `Orchestrator`, with nothing else going on.
-/

namespace ScenePreview

/-- Runs the process that a job waits for, and tells the job of its output, of its end and
that the files can be looked at. -/
def Job.play (runner : Runner) (j : Job) (s : Scope) : Progress × Scope :=
  let ran := runner s.host (j.call s.orchestrator.settings)
  let s := ran.chunks.foldl (fun s c => (j.step (.output c) s).2) { s with host := ran.host }
  match j.step (.exited ran.result) s with
  | (.running j, s) => j.step .resumed s
  | ended => ended

/-- Conducts a run. It has ended in the end, since a job has no more than two processes. -/
def Orchestrator.conduct (runner : Runner) (chance : Chance) (request : Request) (s : Scope) :
    Progress × Scope :=
  match Job.begin chance request s with
  | (.running j, s) =>
    match j.play runner s with
    | (.running j, s) => j.play runner s
    | ended => ended
  | ended => ended

/-! ### Every run ends -/

/-- A job that waits for the renderer has ended after its next process. -/
theorem Job.play_rendering (runner : Runner) {j : Job} (h : j.phase = .rendering) (s : Scope) :
    ∃ o s', j.play runner s = (.ended o, s') := by
  unfold Job.play Job.step Job.fail Job.succeed
  simp only [h]
  cases Render.settle (runner s.host (j.call s.orchestrator.settings)).result with
  | error f => exact ⟨_, _, rfl⟩
  | ok stderr =>
    simp only
    split <;> exact ⟨_, _, rfl⟩

/-- A job that waits for the transformer has ended after its next process, or waits for the
renderer. -/
theorem Job.play_slicing (runner : Runner) {j : Job} (h : j.phase = .slicing) (s : Scope) :
    (∃ o s', j.play runner s = (.ended o, s')) ∨
      ∃ j' s', j.play runner s = (.running j', s') ∧ j'.phase = .rendering := by
  unfold Job.play Job.step Job.fail Job.render
  simp only [h]
  cases Slice.settle (runner s.host (j.call s.orchestrator.settings)).result with
  | error f => exact .inl ⟨_, _, rfl⟩
  | ok stderr =>
    simp only
    split
    · exact .inl ⟨_, _, rfl⟩
    · exact .inr ⟨_, _, rfl, rfl⟩

/-- A job that begins waits for the transformer. -/
theorem Job.phase_begin {chance : Chance} {request : Request} {s s' : Scope} {j : Job}
    (h : Job.begin chance request s = (.running j, s')) : j.phase = .slicing := by
  unfold Job.begin at h
  split at h
  · cases h
  · dsimp only at h
    split at h
    · cases h
    · cases h
      rfl

/-- A run that is conducted ends. -/
theorem Orchestrator.conduct_ends (runner : Runner) (chance : Chance) (request : Request)
    (s : Scope) : ∃ o s', Orchestrator.conduct runner chance request s = (.ended o, s') := by
  unfold Orchestrator.conduct
  split
  · next j s₁ hb =>
    rcases Job.play_slicing runner (Job.phase_begin hb) s₁ with ⟨o, s', h⟩ | ⟨j', s', h, hj⟩
    · rw [h]
      exact ⟨_, _, rfl⟩
    · rw [h]
      exact Job.play_rendering runner hj s'
  · next r hr =>
    rcases h : Job.begin chance request s with ⟨p, s'⟩
    cases p with
    | running j => exact absurd h (hr j s')
    | ended o => exact ⟨o, s', rfl⟩

/-! ### The display -/

/-- What the display was told, oldest first. -/
def Scope.messages (s : Scope) : List Message :=
  s.journal.filterMap fun
    | .message m => some m
    | _ => none

end ScenePreview
