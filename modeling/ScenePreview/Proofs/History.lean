import ScenePreview.Proofs.Interleaving

/-!
# The states of an orchestrator over time

An orchestrator takes whatever state it is told, and only warns when the change is not
expected.  So whether all changes are expected depends on all calls together: each of them has
to find the orchestrator in a state that it can go on from.  A call that was dropped leaves the
orchestrator in the middle of a run, and the next one to be accepted finds it there.  Nothing
else ever leads to a warning.

## Main definitions

* `Scope.alarms` — the warnings of changes of state that are not expected.
* `Plan.Fits` — a plan that can be followed from a state without such a warning.
* `World.accepted`, `World.LeftIn`, `World.Restarts` — what a history says of its calls.
* `World.Standing` — how state, calls and history belong together.

## Main results

* `Job.fits_react`, `Plan.fits_afterCreate` — what a call does next fits the state.
* `World.Step.standing` — every step keeps state, calls and history together.
* `World.alarm_iff_dropped` — **only the run after a dropped one begins with a warning, and
  nothing else leads to one.**
-/

namespace ScenePreview

/-! ### Warnings -/

/-- The text of a warning that a change of state is not expected. -/
def Warning.unexpected : String := "Unexpected run state transition"

@[simp] theorem Warning.message_transition (source target : RunState) :
    (Warning.transition source target).message = unexpected := rfl

/-- The warnings of changes of state that are not expected, oldest first. -/
def Scope.alarms (s : Scope) : List Warning :=
  s.journal.filterMap fun
    | .warning w => if w.message = Warning.unexpected then some w else none
    | _ => none

namespace Scope

@[simp] theorem alarms_say (s : Scope) (m : Message) : (s.say m).alarms = s.alarms := by
  simp [alarms, say, record]

@[simp] theorem alarms_start (s : Scope) (c : Call) : (s.start c).alarms = s.alarms := by
  simp [alarms, start, record]

theorem alarms_warn (s : Scope) {ws : List Warning}
    (h : ∀ w ∈ ws, w.message ≠ Warning.unexpected) : (s.warn ws).alarms = s.alarms := by
  simpa [alarms, warn, List.filterMap_map] using h

/-- Only a change of state that is not expected leads to a warning of it. -/
theorem alarms_advance (s : Scope) (next : RunState) :
    (s.advance next).alarms = s.alarms ++ if s.orchestrator.state.leadsTo next then []
      else [.transition s.orchestrator.state next] := by
  rw [advance_eq]
  by_cases h : s.orchestrator.state.leadsTo next <;> simp [alarms, h]

@[simp] theorem state_advance (s : Scope) (next : RunState) :
    (s.advance next).orchestrator.state = next := by
  rw [advance_eq]

end Scope

/-- A look for the video never warns of a change of state. -/
theorem Artifact.message_find (h : Host) (dir : Path) (stderr : String) :
    ∀ w ∈ (Artifact.find h dir stderr).2, w.message ≠ Warning.unexpected := by
  have hchoose (names : List Name) :
      ∀ w ∈ (Artifact.choose dir names).2, w.message ≠ Warning.unexpected := by
    unfold Artifact.choose
    split
    · simp
    · simp
    · simp [Warning.message, Warning.unexpected]
  have hsearch : ∀ w ∈ (Artifact.search h dir).2, w.message ≠ Warning.unexpected := by
    unfold Artifact.search
    split
    · simp
    · exact hchoose _
  unfold Artifact.find
  split
  · next heq => rwa [heq] at hsearch
  · next heq => rwa [heq] at hsearch

/-! ### Plans that fit a state -/

theorem RunState.eq_of_leadsTo (st : RunState) :
    (st.leadsTo .rendering = true → st = .slicing) ∧
      (st.leadsTo .succeeded = true → st = .rendering) := by
  cases st <;> decide

/-- The state after a run with this outcome. -/
def Outcome.state : Outcome → RunState
  | .ok _ => .succeeded
  | .error _ => .failed

/-- The state while a job is in this phase. -/
def Job.Phase.state : Job.Phase → RunState
  | .slicing | .confirming _ => .slicing
  | .rendering | .searching _ => .rendering

theorem Job.Phase.state_eq (ph : Job.Phase) : ph.state = .slicing ∨ ph.state = .rendering := by
  cases ph <;> simp [state]

/-- The state in which a turn is taken. -/
def Turn.Fits (st : RunState) : Turn → Prop
  | .create .. => st = .slicing
  | .wait j => st = j.phase.state
  | .finish o => st = Outcome.state o
  | .vanish => st = .slicing ∨ st = .rendering

/-- Deeds that lead from a state to the turn without a warning of a change of state, and
without another beginning. -/
def Deed.Fits (turn : Turn) : RunState → List Deed → Prop
  | st, [] => turn.Fits st
  | st, .advance next :: ds => st.leadsTo next = true ∧ next ≠ .slicing ∧ Fits turn next ds
  | st, .warn ws :: ds => (∀ w ∈ ws, w.message ≠ Warning.unexpected) ∧ Fits turn st ds
  | st, .say _ :: ds | st, .start _ :: ds | st, .discard _ :: ds => Fits turn st ds

/-- A plan that can be followed from a state. -/
def Plan.Fits (p : Plan) (st : RunState) : Prop := Deed.Fits p.turn st p.deeds

namespace Deed

theorem fits_map_say (turn : Turn) (st : RunState) (ms : List Message) (ds : List Deed) :
    Fits turn st (ms.map .say ++ ds) ↔ Fits turn st ds := by
  induction ms with
  | nil => rfl
  | cons m ms ih => exact ih

/-- A deed that fits leads to a state that the other deeds fit, and to no warning. -/
theorem Fits.perform {turn : Turn} {s : Scope} {d : Deed} {ds : List Deed}
    (h : Fits turn s.orchestrator.state (d :: ds)) :
    Fits turn (d.perform s).orchestrator.state ds ∧ (d.perform s).alarms = s.alarms := by
  cases d with
  | advance next =>
    obtain ⟨hlegal, -, hrest⟩ := h
    rw [Deed.perform, Scope.state_advance, Scope.alarms_advance, if_pos hlegal]
    exact ⟨hrest, List.append_nil _⟩
  | say m => exact ⟨h, Scope.alarms_say s m⟩
  | warn ws => exact ⟨h.2, Scope.alarms_warn s h.1⟩
  | start c => exact ⟨h, Scope.alarms_start s c⟩
  | discard dir => exact ⟨h, rfl⟩

end Deed

theorem Plan.fits_afterCreate (chance : Chance) (request : Request) (s : Scope) :
    (afterCreate chance request s).2.Fits .slicing := by
  dsimp only [afterCreate]
  split
  · refine ⟨rfl, nofun, ?_⟩
    rw [← List.append_nil (List.map _ _), Deed.fits_map_say]
    rfl
  · rfl

namespace Job

theorem fits_failing (j : Job) (f : Failure) (settings : Settings) :
    (j.failing f settings).Fits j.phase.state := by
  -- a job can fail in both states that it waits in
  have hlegal : j.phase.state.leadsTo .failed = true := by
    rcases j.phase.state_eq with h | h <;> rw [h] <;> rfl
  refine ⟨hlegal, nofun, ?_⟩
  change Deed.Fits _ _ (List.map _ _ ++ _)
  rw [Deed.fits_map_say]
  split <;> rfl

/-- What a job does next fits the state that it waits in. -/
theorem fits_react (j : Job) (signal : Signal) (s : Scope) :
    (j.react signal s).Fits j.phase.state := by
  have hfail (f : Failure) := j.fits_failing f s.orchestrator.settings
  unfold react
  split
  · next r hphase =>
    dsimp only
    split
    · exact hfail _
    · rw [hphase]
      rfl
  · next stderr hphase =>
    dsimp only
    split
    · exact hfail _
    · rw [hphase]
      exact ⟨rfl, nofun, rfl⟩
  · rfl
  · next r hphase =>
    dsimp only
    split
    · exact hfail _
    · rw [hphase]
      rfl
  · next stderr hphase =>
    dsimp only
    have hfind := Artifact.message_find s.host
      (Render.artifactDir j.dir (WorkDir.scenePath j.dir)) stderr
    split
    · next f ws heq =>
      rw [heq] at hfind
      exact ⟨hfind, hfail f⟩
    · next a ws heq =>
      rw [heq] at hfind
      rw [hphase]
      exact ⟨hfind, rfl, nofun, rfl⟩
  · rfl

theorem fits_dropping (j : Job) : j.dropping.Fits j.phase.state := j.phase.state_eq

end Job

namespace World

/-! ### Histories -/

/-- The state of the orchestrator. -/
def state (w : World) : RunState := w.scope.orchestrator.state

/-- The calls that were accepted, oldest first. -/
def accepted (trace : List Label) : List Nat :=
  trace.filterMap fun
    | .acquire i .. => some i
    | _ => none

@[simp] theorem accepted_append (trace trace' : List Label) :
    accepted (trace ++ trace') = accepted trace ++ accepted trace' :=
  List.filterMap_append

theorem accepted_append_of_nil {l : Label} (hl : accepted [l] = []) (trace : List Label) :
    accepted (trace ++ [l]) = accepted trace := by
  rw [accepted_append, hl, List.append_nil]

/-- A call was dropped in this state of the orchestrator. -/
def LeftIn (start : World) (trace : List Label) (k : Nat) (st : RunState) : Prop :=
  ∃ before after mid, trace = before ++ .drop k :: after ∧ Runs start before mid ∧ mid.state = st

/-- A step is the first advance of an accepted call, and the call that was accepted before it
was dropped. -/
def Restarts (trace : List Label) (l : Label) (k : Nat) : Prop :=
  ∃ i, l = .act i (.advance .slicing) ∧ (∀ next, .act i (.advance next) ∉ trace) ∧
    (∃ earlier, accepted trace = earlier ++ [k, i]) ∧ .drop k ∈ trace

namespace LeftIn

variable {start : World} {trace : List Label} {k : Nat} {st : RunState}

theorem append (h : LeftIn start trace k st) (l : Label) : LeftIn start (trace ++ [l]) k st := by
  obtain ⟨before, after, mid, rfl, hruns, hst⟩ := h
  exact ⟨before, after ++ [l], mid, by simp, hruns, hst⟩

theorem drop_mem (h : LeftIn start trace k st) : .drop k ∈ trace := by
  obtain ⟨before, after, mid, rfl, -⟩ := h
  simp

end LeftIn

/-! ### Who takes a step -/

/-- The call that takes a step. -/
def Label.caller : Label → Option Nat
  | .acquire i .. | .reject i .. | .act i _ | .create i | .hear i _ | .drop i | .leave i =>
    some i
  | .disturb _ => none

theorem Move.caller_eq {s s' : Scope} {i : Nat} {p : Plan} {l : Label} {t : Thread}
    (h : Move s i p l t s') : l.caller = some i ∧ accepted [l] = [] ∧ t ≠ .absent := by
  cases h <;> exact ⟨rfl, rfl, nofun⟩

/-- A step changes the call that takes it, which was not there before or has the
orchestrator. -/
theorem Step.caller_cases {w w' : World} {l : Label} (hstep : Step w l w') :
    l.caller = none ∧ w'.threads = w.threads ∨
      ∃ i, l.caller = some i ∧ (w.threads i = .absent ∨ w.Holds i) ∧ w'.threads i ≠ .absent ∧
        ∀ k, k ≠ i → w'.threads k = w.threads k := by
  cases hstep with
  | acquire hi _ =>
    exact .inr ⟨_, rfl, .inl hi, by simp, fun k hk => threads_update_of_ne _ hk _ _⟩
  | reject hi _ _ =>
    exact .inr ⟨_, rfl, .inl hi, by simp, fun k hk => threads_update_of_ne _ hk _ _⟩
  | move hi hmove =>
    refine .inr ⟨_, hmove.caller_eq.1, .inr ⟨_, hi⟩, ?_, fun k hk => threads_update_of_ne _ hk _ _⟩
    rw [threads_update]
    exact hmove.caller_eq.2.2
  | disturb => exact .inl ⟨rfl, rfl⟩

/-- A call that has come to its end stays as it is. -/
theorem Step.threads_of_ended {w w' : World} {l : Label} (hstep : Step w l w') {k : Nat}
    (habsent : w.threads k ≠ .absent) (hactive : ¬ w.Holds k) :
    w'.threads k = w.threads k ∧ l.caller ≠ some k := by
  rcases hstep.caller_cases with ⟨hl, heq⟩ | ⟨i, hl, hi, -, heq⟩
  · rw [heq, hl]
    exact ⟨rfl, nofun⟩
  · have hne : k ≠ i := by
      rintro rfl
      exact hi.elim habsent hactive
    refine ⟨heq k hne, ?_⟩
    rw [hl]
    exact fun h => hne (Option.some.inj h).symm

/-- A call that is not there has not taken a step. -/
theorem Runs.silent {start w : World} {trace : List Label} (hruns : Runs start trace w) {i : Nat}
    (hi : w.threads i = .absent) : ∀ l ∈ trace, l.caller ≠ some i := by
  induction hruns with
  | refl => simp
  | step _ hstep ih =>
    simp only [List.mem_append, List.mem_singleton]
    rcases hstep.caller_cases with ⟨hl, heq⟩ | ⟨k, hl, -, hk, heq⟩
    · rw [heq] at hi
      rintro m (hm | rfl)
      · exact ih hi m hm
      · rw [hl]
        exact nofun
    · have hne : i ≠ k := by
        rintro rfl
        exact hk hi
      rw [heq i hne] at hi
      rintro m (hm | rfl)
      · exact ih hi m hm
      · rw [hl]
        exact fun h => hne (Option.some.inj h).symm

/-! ### State, calls and history -/

/-- What the last of the calls has left behind. -/
inductive Rest (start : World) (trace : List Label) (w : World) : List Nat → Prop
  /-- There was no call. -/
  | idle (hstate : w.state = .idle) : Rest start trace w []
  /-- It has returned. -/
  | ended {earlier : List Nat} {k : Nat} {o : Outcome} (hk : w.threads k = .returned o)
      (hstate : w.state = Outcome.state o) (hdrop : .drop k ∉ trace) :
      Rest start trace w (earlier ++ [k])
  /-- It was dropped. -/
  | dropped {earlier : List Nat} {k : Nat} (hk : w.threads k = .dropped)
      (hstate : w.state = .slicing ∨ w.state = .rendering)
      (hleft : LeftIn start trace k w.state) : Rest start trace w (earlier ++ [k])

/-- A call was dropped and has no more to do than to clear away, or was not dropped. -/
def Departs (start : World) (trace : List Label) (i : Nat) (p : Plan) (st : RunState) : Prop :=
  (∃ dirs : List Path, p = ⟨dirs.map .discard, .vanish⟩) ∧ LeftIn start trace i st ∨
    p.turn ≠ .vanish ∧ .drop i ∉ trace

/-- How state, calls and history belong together. -/
inductive Standing (start : World) (trace : List Label) (w : World) : Prop
  /-- No call has the orchestrator. -/
  | free (hfree : w.scope.orchestrator.busy = false)
      (hrest : Rest start trace w (accepted trace))
  /-- A call has the orchestrator and has not done anything. -/
  | opening {i : Nat} {earlier : List Nat} {chance : Chance} {request : Request}
      (hi : w.threads i = .active (Plan.opening chance request))
      (haccepted : accepted trace = earlier ++ [i]) (hrest : Rest start trace w earlier)
      (hfirst : ∀ next, .act i (.advance next) ∉ trace) (hdrop : .drop i ∉ trace)
  /-- A call has the orchestrator and goes on. -/
  | underway {i : Nat} {earlier : List Nat} {p : Plan} (hi : w.threads i = .active p)
      (haccepted : accepted trace = earlier ++ [i]) (hfits : p.Fits w.state)
      (hlater : .act i (.advance .slicing) ∈ trace) (hdeparts : Departs start trace i p w.state)

section

variable {start w w' : World} {trace : List Label} {l : Label}

theorem drop_notMem_append {k : Nat} (h : .drop k ∉ trace) (hl : l.caller ≠ some k) :
    .drop k ∉ trace ++ [l] := by
  simp only [List.mem_append, List.mem_singleton, not_or]
  refine ⟨h, ?_⟩
  rintro rfl
  exact hl rfl

theorem Rest.step {calls : List Nat} (h : Rest start trace w calls) (hstep : Step w l w')
    (hstate : w'.state = w.state) : Rest start (trace ++ [l]) w' calls := by
  cases h with
  | idle hidle => exact .idle (hstate.trans hidle)
  | @ended earlier k o hk hended hdrop =>
    obtain ⟨hk', hl⟩ := hstep.threads_of_ended (k := k) (by simp [hk]) (by simp [Holds, hk])
    exact .ended (hk'.trans hk) (hstate.trans hended) (drop_notMem_append hdrop hl)
  | @dropped earlier k hk hdropped hleft =>
    obtain ⟨hk', -⟩ := hstep.threads_of_ended (k := k) (by simp [hk]) (by simp [Holds, hk])
    rw [← hstate] at hdropped hleft
    exact .dropped (hk'.trans hk) hdropped (hleft.append l)

/-- A step that is not taken by the call that has the orchestrator, and does not take it. -/
theorem Standing.frame (h : Standing start trace w) (hstep : Step w l w')
    (horch : w'.scope.orchestrator = w.scope.orchestrator) (hl : accepted [l] = [])
    (hcaller : ∀ i, w.Holds i → l.caller ≠ some i) : Standing start (trace ++ [l]) w' := by
  have hstate : w'.state = w.state := congrArg Orchestrator.state horch
  have hacc := accepted_append_of_nil hl trace
  have hkeep {i : Nat} {p : Plan} (hi : w.threads i = .active p) : w'.threads i = .active p := by
    rcases hstep.caller_cases with ⟨-, heq⟩ | ⟨k, hk, -, -, heq⟩
    · rw [heq, hi]
    · rw [heq i ?_, hi]
      rintro rfl
      exact hcaller i ⟨p, hi⟩ hk
  cases h with
  | free hfree hrest =>
    refine .free (by rwa [horch]) ?_
    rw [hacc]
    exact hrest.step hstep hstate
  | @opening i earlier chance request hi haccepted hrest hfirst hdrop =>
    have hother := hcaller i ⟨_, hi⟩
    refine .opening (hkeep hi) (hacc.trans haccepted) (hrest.step hstep hstate) ?_
      (drop_notMem_append hdrop hother)
    simp only [List.mem_append, List.mem_singleton, not_or]
    refine fun next => ⟨hfirst next, ?_⟩
    rintro rfl
    exact hother rfl
  | @underway i earlier p hi haccepted hfits hlater hdeparts =>
    have hother := hcaller i ⟨_, hi⟩
    refine .underway (hkeep hi) (hacc.trans haccepted) (by rwa [hstate])
      (List.mem_append_left _ hlater) ?_
    rw [hstate]
    exact hdeparts.imp (fun h => ⟨h.1, h.2.append l⟩)
      fun h => ⟨h.1, drop_notMem_append h.2 hother⟩

/-- A call that goes on keeps the state fit. -/
theorem Move.standing {s : Scope} {i : Nat} {p : Plan} {t : Thread} {earlier : List Nat}
    (hmove : Move w.scope i p l t s) (hruns : Runs start trace w)
    (haccepted : accepted trace = earlier ++ [i]) (hfits : p.Fits w.state)
    (hlater : .act i (.advance .slicing) ∈ trace) (hdeparts : Departs start trace i p w.state) :
    Standing start (trace ++ [l]) (w.update i t s) := by
  have hacc := (accepted_append_of_nil hmove.caller_eq.2.1 trace).trans haccepted
  have hlater' : .act i (.advance .slicing) ∈ trace ++ [l] := List.mem_append_left _ hlater
  cases hmove with
  | @act d ds turn =>
    refine .underway (threads_update ..) hacc (Deed.Fits.perform hfits).1 hlater' ?_
    -- a call that was dropped only clears away, which leaves the state alone
    rcases hdeparts with ⟨⟨dirs, hp⟩, hleft⟩ | ⟨hturn, hdrop⟩
    · cases dirs with
      | nil => cases hp
      | cons dir dirs =>
        cases hp
        exact .inl ⟨⟨dirs, rfl⟩, hleft.append _⟩
    · exact .inr ⟨hturn, by simpa using hdrop⟩
  | @create chance request =>
    obtain ⟨-, hdrop⟩ := hdeparts.resolve_left (by simp)
    have hst : w.state = .slicing := hfits
    obtain ⟨r, hclose⟩ := Plan.exists_close_afterCreate chance request w.scope
    refine .underway (threads_update ..) hacc ?_ hlater'
      (.inr ⟨Plan.turn_ne_vanish hclose, by simpa using hdrop⟩)
    rw [state, scope_update, Plan.orchestrator_afterCreate, ← state, hst]
    exact Plan.fits_afterCreate ..
  | @hear j signal =>
    obtain ⟨-, hdrop⟩ := hdeparts.resolve_left (by simp)
    have hst : w.state = j.phase.state := hfits
    refine .underway (threads_update ..) hacc ?_ hlater'
      (.inr ⟨Plan.turn_ne_vanish (j.step_eq_plan signal w.scope), by simpa using hdrop⟩)
    change (j.react signal w.scope).Fits w.state
    rw [hst]
    exact j.fits_react signal w.scope
  | @drop j =>
    have hst : w.state = j.phase.state := hfits
    refine .underway (threads_update ..) hacc ?_ hlater'
      (.inl ⟨⟨[j.dir], rfl⟩, trace, [], w, rfl, hruns, rfl⟩)
    change j.dropping.Fits w.state
    rw [hst]
    exact j.fits_dropping
  | @finish o =>
    obtain ⟨-, hdrop⟩ := hdeparts.resolve_left (by simp)
    refine .free rfl ?_
    rw [hacc]
    exact .ended (threads_update ..) hfits (by simpa using hdrop)
  | vanish =>
    obtain ⟨-, hleft⟩ := hdeparts.resolve_right (by simp)
    refine .free rfl ?_
    rw [hacc]
    exact .dropped (threads_update ..) hfits (hleft.append _)

/-- Every step keeps state, calls and history together. -/
theorem Step.standing {owner : Option Nat} (hstep : Step w l w') (hruns : Runs start trace w)
    (hguarded : w.Guarded owner) (h : Standing start trace w) :
    Standing start (trace ++ [l]) w' := by
  cases hstep with
  | @acquire i chance request hi hfree =>
    -- the orchestrator is free, so the call before has come to its end
    have hrest : Rest start trace w (accepted trace) := by
      cases h with
      | free _ hrest => exact hrest
      | opening hk => simp [hguarded.busy_eq hk] at hfree
      | underway hk => simp [hguarded.busy_eq hk] at hfree
    have hsilent {l : Label} (hl : l.caller = some i) : l ∉ trace :=
      fun hmem => hruns.silent hi l hmem hl
    refine .opening (threads_update ..) (by simp [accepted])
      (hrest.step (.acquire hi hfree) rfl) (fun next => ?_) ?_
    · simpa using hsilent rfl
    · simpa using hsilent rfl
  | reject hi hbusy hbegin =>
    have hstep := Step.reject hi hbusy hbegin
    refine h.frame hstep ?_ rfl ?_
    · rw [hstep.eq_of_reject.2]
      rfl
    · rintro k ⟨p, hk⟩ heq
      cases heq
      rw [hi] at hk
      cases hk
  | @move i p l t s hi hmove =>
    cases h with
    | free hfree _ => simp [hguarded.busy_eq hi] at hfree
    | opening hk haccepted hrest hfirst hdrop =>
      obtain ⟨rfl, rfl⟩ := hguarded.unique hi hk
      -- the only move of a call that has done nothing is its first advance
      cases hmove with
      | act =>
        refine .underway (threads_update ..) ((accepted_append_of_nil rfl trace).trans haccepted)
          ?_ (by simp) (.inr ⟨by simp, by simpa using hdrop⟩)
        rw [state, scope_update, Deed.perform, Scope.state_advance]
        rfl
    | underway hk haccepted hfits hlater hdeparts =>
      obtain ⟨rfl, rfl⟩ := hguarded.unique hi hk
      exact hmove.standing hruns haccepted hfits hlater hdeparts
  | disturb => exact h.frame .disturb rfl rfl (by simp [Label.caller])

/-- State, calls and history belong together at any time. -/
theorem Runs.standing (hruns : Runs start trace w) (hstart : start.Fresh)
    (hidle : start.state = .idle) : Standing start trace w := by
  induction hruns with
  | refl => exact .free hstart.free (.idle hidle)
  | step hruns hstep ih =>
    obtain ⟨owner, hguarded⟩ := hruns.guarded hstart
    exact hstep.standing hruns hguarded ih

/-! ### Changes of state -/

/-- Only an advance changes the state. -/
theorem Step.state_cases (hstep : Step w l w') :
    (∃ i next, l = .act i (.advance next) ∧ w'.state = next) ∨
      (∀ i next, l ≠ .act i (.advance next)) ∧ w'.state = w.state := by
  cases hstep with
  | acquire hi hfree => exact .inr ⟨nofun, rfl⟩
  | reject hi hbusy hbegin =>
    rw [(Step.reject hi hbusy hbegin).eq_of_reject.2]
    exact .inr ⟨nofun, rfl⟩
  | move hi hmove =>
    cases hmove with
    | @act d ds turn =>
      cases d with
      | advance next => exact .inl ⟨_, next, rfl, Scope.state_advance w.scope next⟩
      | say m => exact .inr ⟨nofun, rfl⟩
      | warn ws => exact .inr ⟨nofun, rfl⟩
      | start c => exact .inr ⟨nofun, rfl⟩
      | discard dir => exact .inr ⟨nofun, rfl⟩
    | create =>
      exact .inr ⟨nofun, congrArg Orchestrator.state (Plan.orchestrator_afterCreate ..)⟩
    | hear => exact .inr ⟨nofun, rfl⟩
    | drop => exact .inr ⟨nofun, rfl⟩
    | finish => exact .inr ⟨nofun, rfl⟩
    | vanish => exact .inr ⟨nofun, rfl⟩
  | disturb => exact .inr ⟨nofun, rfl⟩

/-- What a step does to the state is expected, and nothing warns of it. -/
def Smooth (trace : List Label) (w : World) (l : Label) (w' : World) : Prop :=
  (¬ ∃ k, Restarts trace l k) ∧ w'.scope.alarms = w.scope.alarms ∧
    ∀ i next, l = .act i (.advance next) → w.state.leadsTo next = true

theorem Smooth.of_ne (hl : ∀ i d, l ≠ .act i d) (halarms : w'.scope.alarms = w.scope.alarms) :
    Smooth trace w l w' :=
  ⟨fun ⟨_, _, h, _⟩ => hl _ _ h, halarms, fun _ _ h => absurd h (hl _ _)⟩

/-- A call begins where the one before it was dropped, and there is a warning of that. -/
def Jolts (start : World) (trace : List Label) (w : World) (l : Label) (w' : World) : Prop :=
  ∃ k, Restarts trace l k ∧ (w.state = .slicing ∨ w.state = .rendering) ∧
    LeftIn start trace k w.state ∧
    w'.scope.alarms = w.scope.alarms ++ [.transition w.state .slicing]

/-- The first advance of a call: what the call before it has left decides whether it is
expected. -/
theorem Rest.advance {i : Nat} {earlier : List Nat} (h : Rest start trace w earlier)
    (haccepted : accepted trace = earlier ++ [i])
    (hfirst : ∀ next, .act i (.advance next) ∉ trace)
    (hscope : w'.scope = w.scope.advance .slicing) :
    Jolts start trace w (.act i (.advance .slicing)) w' ∨
      Smooth trace w (.act i (.advance .slicing)) w' := by
  have halarms : w'.scope.alarms = w.scope.alarms ++ if w.state.leadsTo .slicing then []
      else [.transition w.state .slicing] := by
    rw [hscope]
    exact Scope.alarms_advance ..
  -- the last of the earlier calls is the one before `i`
  have smooth (hlegal : w.state.leadsTo .slicing = true)
      (hk : ∀ k, (∃ before, earlier = before ++ [k]) → .drop k ∉ trace) :
      Smooth trace w (.act i (.advance .slicing)) w' := by
    refine ⟨?_, by simpa [hlegal] using halarms, ?_⟩
    · rintro ⟨k, i', hl, -, ⟨before, hbefore⟩, hdrop⟩
      cases hl
      refine hk k ⟨before, ?_⟩ hdrop
      have heq : earlier ++ [i] = (before ++ [k]) ++ [i] := by simpa [haccepted] using hbefore
      exact List.append_cancel_right heq
    · rintro i' next hl
      cases hl
      exact hlegal
  cases h with
  | idle hstate =>
    refine .inr (smooth (by rw [hstate]; rfl) ?_)
    rintro k ⟨before, hbefore⟩
    simp at hbefore
  | @ended before k o hk hstate hdrop =>
    refine .inr (smooth (by cases o <;> rw [hstate] <;> rfl) ?_)
    rintro k' ⟨before', heq⟩
    obtain ⟨-, rfl⟩ := List.append_singleton_inj.1 heq
    exact hdrop
  | @dropped before k hk hstate hleft =>
    have hillegal : w.state.leadsTo .slicing = false := by
      rcases hstate with h | h <;> rw [h] <;> rfl
    have hrestarts : Restarts trace (.act i (.advance .slicing)) k :=
      ⟨i, rfl, hfirst, ⟨before, by simp [haccepted]⟩, hleft.drop_mem⟩
    exact .inl ⟨k, hrestarts, hstate, hleft, by simpa [hillegal] using halarms⟩

/-- A call that goes on never leads to a warning. -/
theorem Move.smooth {s : Scope} {i : Nat} {p : Plan} {t : Thread}
    (hmove : Move w.scope i p l t s) (hfits : p.Fits w.state)
    (hlater : .act i (.advance .slicing) ∈ trace) : Smooth trace w l (w.update i t s) := by
  cases hmove with
  | @act d ds turn =>
    refine ⟨?_, (Deed.Fits.perform hfits).2, ?_⟩
    · rintro ⟨k, i', hl, hfirst, -⟩
      cases hl
      exact hfirst _ hlater
    · rintro i' next hl
      cases hl
      exact hfits.1
  | create => exact .of_ne nofun (congrArg (List.filterMap _) (Plan.journal_afterCreate ..))
  | hear => exact .of_ne nofun rfl
  | drop => exact .of_ne nofun rfl
  | finish => exact .of_ne nofun rfl
  | vanish => exact .of_ne nofun rfl

/-- A step leads to a warning if a call begins where the one before it was dropped, and is
smooth otherwise. -/
theorem Standing.step_cases {owner : Option Nat} (h : Standing start trace w)
    (hguarded : w.Guarded owner) (hstep : Step w l w') :
    Jolts start trace w l w' ∨ Smooth trace w l w' := by
  cases hstep with
  | acquire hi hfree => exact .inr (.of_ne nofun rfl)
  | reject hi hbusy hbegin =>
    rw [(Step.reject hi hbusy hbegin).eq_of_reject.2]
    exact .inr (.of_ne nofun rfl)
  | move hi hmove =>
    cases h with
    | free hfree _ => simp [hguarded.busy_eq hi] at hfree
    | opening hk haccepted hrest hfirst hdrop =>
      obtain ⟨rfl, rfl⟩ := hguarded.unique hi hk
      cases hmove with
      | act => exact hrest.advance haccepted hfirst rfl
    | underway hk haccepted hfits hlater hdeparts =>
      obtain ⟨rfl, rfl⟩ := hguarded.unique hi hk
      exact .inr (hmove.smooth hfits hlater)
  | disturb => exact .inr (.of_ne nofun rfl)

/-- Without a dropped call there is no warning. -/
theorem Runs.alarms_eq (hruns : Runs start trace w) (hstart : start.Fresh)
    (hidle : start.state = .idle) (hdrop : ∀ k, .drop k ∉ trace) :
    w.scope.alarms = start.scope.alarms := by
  induction hruns with
  | refl => rfl
  | step hruns hstep ih =>
    have hdrop' (k : Nat) := fun h => hdrop k (List.mem_append_left _ h)
    obtain ⟨owner, hguarded⟩ := hruns.guarded hstart
    rcases (hruns.standing hstart hidle).step_cases hguarded hstep with
      ⟨k, ⟨i, -, -, -, hk⟩, -⟩ | ⟨-, halarms, -⟩
    · exact absurd hk (hdrop' k)
    · exact halarms.trans (ih hdrop')

/-- As long as no other call is accepted, the state is that of the last outcome. -/
theorem Standing.state_eq (h : Standing start trace w) {earlier : List Nat} {k : Nat}
    {o : Outcome} (haccepted : accepted trace = earlier ++ [k])
    (hk : w.threads k = .returned o) : w.state = Outcome.state o := by
  have active {i : Nat} {earlier' : List Nat} {p : Plan} (hi : w.threads i = .active p)
      (heq : accepted trace = earlier' ++ [i]) : False := by
    obtain ⟨-, rfl⟩ := List.append_singleton_inj.1 (heq.symm.trans haccepted)
    rw [hi] at hk
    cases hk
  cases h with
  | free hfree hrest =>
    rw [haccepted] at hrest
    -- the index of `Rest` has to be a variable for the case split
    generalize hcalls : earlier ++ [k] = calls at hrest
    cases hrest with
    | idle hstate => simp at hcalls
    | ended hk' hstate hdrop =>
      obtain ⟨-, rfl⟩ := List.append_singleton_inj.1 hcalls
      obtain rfl := Thread.returned.inj (hk.symm.trans hk')
      exact hstate
    | dropped hk' hstate hleft =>
      obtain ⟨-, rfl⟩ := List.append_singleton_inj.1 hcalls
      rw [hk] at hk'
      cases hk'
  | opening hi heq => exact (active hi heq).elim
  | underway hi heq => exact (active hi heq).elim

/-- The call that has the orchestrator was accepted last. -/
theorem Standing.accepted_eq {owner : Option Nat} (h : Standing start trace w)
    (hguarded : w.Guarded owner) {i : Nat} {p : Plan} (hi : w.threads i = .active p) :
    ∃ earlier, accepted trace = earlier ++ [i] := by
  cases h with
  | free hfree _ => simp [hguarded.busy_eq hi] at hfree
  | opening hk haccepted =>
    obtain ⟨rfl, -⟩ := hguarded.unique hi hk
    exact ⟨_, haccepted⟩
  | underway hk haccepted =>
    obtain ⟨rfl, -⟩ := hguarded.unique hi hk
    exact ⟨_, haccepted⟩

/-- **Only the run after a dropped one begins with a warning, and nothing else leads to one.**
Over any history of calls of an orchestrator that was idle, a step leads to a warning of an
unexpected change of state exactly if it is the first advance of an accepted call and the call
accepted before it was dropped; the warning names the state that this one was dropped in.
Every other advance is expected.  So the orchestrator renders only after it has sliced and
succeeds only after it has rendered, without a dropped call there is no warning at all, and
once an accepted call has returned the state is that of its outcome, until another call is
accepted. -/
theorem alarm_iff_dropped (hstart : start.Fresh) (hidle : start.state = .idle)
    (hruns : Runs start trace w) :
    (∀ l w', Step w l w' →
      (∃ k, Restarts trace l k ∧ (w.state = .slicing ∨ w.state = .rendering) ∧
        LeftIn start trace k w.state ∧
        w'.scope.alarms = w.scope.alarms ++ [.transition w.state .slicing]) ∨
      (¬ ∃ k, Restarts trace l k) ∧ w'.scope.alarms = w.scope.alarms ∧
        ∀ i next, l = .act i (.advance next) → w.state.leadsTo next = true) ∧
    (∀ l w', Step w l w' →
      (∃ i next, l = .act i (.advance next) ∧ w'.state = next ∧
        (next = .rendering → w.state = .slicing) ∧ (next = .succeeded → w.state = .rendering)) ∨
      (∀ i next, l ≠ .act i (.advance next)) ∧ w'.state = w.state) ∧
    ((∀ k, .drop k ∉ trace) → w.scope.alarms = start.scope.alarms ∧
      ∀ i next w', Step w (.act i (.advance next)) w' → w.state.leadsTo next = true) ∧
    (∀ i o w', Step w (.leave i) w' → w'.threads i = .returned o →
      w'.state = Outcome.state o) ∧
    (∀ earlier k o, accepted trace = earlier ++ [k] → w.threads k = .returned o →
      w.state = Outcome.state o) := by
  obtain ⟨owner, hguarded⟩ := hruns.guarded hstart
  have hstanding := hruns.standing hstart hidle
  have hcases {l : Label} {w' : World} (hstep : Step w l w') :
      Jolts start trace w l w' ∨ Smooth trace w l w' := hstanding.step_cases hguarded hstep
  refine ⟨fun l w' => hcases, fun l w' hstep => ?_, fun hdrop => ?_, fun i o w' hstep hi => ?_,
    fun earlier k o => hstanding.state_eq⟩
  · refine hstep.state_cases.imp_left ?_
    rintro ⟨i, next, rfl, hnext⟩
    refine ⟨i, next, rfl, hnext, ?_⟩
    rcases hcases hstep with ⟨k, ⟨i', hl, -⟩, -⟩ | ⟨-, -, hlegal⟩
    · cases hl
      exact ⟨nofun, nofun⟩
    · have h := hlegal i next rfl
      constructor
      · rintro rfl
        exact w.state.eq_of_leadsTo.1 h
      · rintro rfl
        exact w.state.eq_of_leadsTo.2 h
  · refine ⟨hruns.alarms_eq hstart hidle hdrop, fun i next w' hstep => ?_⟩
    rcases hcases hstep with ⟨k, ⟨i', -, -, -, hk⟩, -⟩ | ⟨-, -, hlegal⟩
    · exact absurd hk (hdrop k)
    · exact hlegal i next rfl
  · have hstanding' := hstep.standing hruns hguarded hstanding
    have hacc : ∃ earlier, accepted trace = earlier ++ [i] := by
      cases hstep with
      | move hk hmove =>
        cases hmove with
        | finish => exact hstanding.accepted_eq hguarded hk
        | vanish => exact hstanding.accepted_eq hguarded hk
    obtain ⟨earlier, hacc⟩ := hacc
    exact hstanding'.state_eq ((accepted_append_of_nil rfl trace).trans hacc) hi

end

/-- A call is dropped while its transformer runs, and the next one begins with a warning. -/
theorem alarm_iff_dropped_slicing :
    quiet.Fresh ∧ quiet.state = .idle ∧ ∃ trace w w', Runs quiet trace w ∧
      Step w (.act 1 (.advance .slicing)) w' ∧ accepted trace = [0, 1] ∧ .drop 0 ∈ trace ∧
      w'.scope.alarms = [.transition .slicing .slicing] := by
  let chance : Chance := { suffixes := fun _ => "1" }
  let request : Request := ⟨"", 3, none, by decide⟩
  have hfresh : quiet.Fresh := ⟨fun _ => rfl, rfl⟩
  have hdir : WorkDir.create quiet.scope.host quiet.scope.orchestrator.settings.workdirPrefix
      quiet.scope.orchestrator.settings.tempRoot chance.suffixes = .ok (Path.ofString "/1",
        ⟨[([Text.Utf8.encode "1"], .directory)]⟩) := by cbv
  have hmade := (((Runs.single (@Step.acquire quiet 0 chance request rfl rfl)).step
    (.move (i := 0) rfl .act)).step (.move (i := 0) rfl .act)).step (.move (i := 0) rfl .create)
  rw [Plan.afterCreate_of_ok (by exact hdir)] at hmade
  -- the call is dropped while it waits for the transformer, and another one comes
  have hruns := (((((hmade.step (.move (i := 0) rfl .act)).step (.move (i := 0) rfl .act)).step
    (.move (i := 0) rfl .drop)).step (.move (i := 0) rfl .act)).step
    (.move (i := 0) rfl .vanish)).step (@Step.acquire _ 1 chance request rfl rfl)
  refine ⟨hfresh, rfl, _, _, _, hruns, .move (i := 1) rfl .act, rfl, by simp, ?_⟩
  rcases (alarm_iff_dropped hfresh rfl hruns).1 _ _ (.move (i := 1) rfl .act) with
    ⟨k, -, -, -, halarms⟩ | ⟨hnone, -⟩
  · rw [halarms]
    rfl
  · exact absurd ⟨0, 1, rfl, by simp, ⟨[], rfl⟩, by simp⟩ hnone

end World

end ScenePreview
