import ScenePreview.Proofs.Deeds

/-!
# Many calls of one orchestrator

Any number of calls share an orchestrator.  Each of them takes its own steps, and the steps of
different calls come in any order.  A call that finds the orchestrator taken returns at once;
one that takes it follows its plan, deed by deed, and lets the orchestrator go when it returns
or when it was dropped while it waited.

## Main definitions

* `World`, `World.Thread` — an orchestrator with its calls, and where a call stands.
* `World.Move`, `World.Step`, `World.Runs` — what the call that has the orchestrator can do,
  one step of any call, and any number of steps.
* `World.Guarded` — the calls that have the orchestrator are one or none, as it says itself.
* `World.Shadow` — a world in which the rejected calls never came.

## Main results

* `World.Runs.begin`, `World.Runs.hear`, `World.Runs.drop` — what a job does at once is a run
  of the world.
* `World.Step.guarded` — every step keeps the orchestrator with one call.
* `World.Step.shadow` — a step without a rejection is a step where no rejected call came.
* `World.one_run_at_a_time` — **one call has the orchestrator at a time, and rejected calls
  leave no trace.**
-/

namespace ScenePreview

/-- Where a call stands. -/
inductive World.Thread where
  /-- It has not come yet. -/
  | absent
  /-- It has the orchestrator. -/
  | active (p : Plan)
  /-- It has returned. -/
  | returned (o : Outcome)
  /-- It was dropped, and is gone. -/
  | dropped

/-- An orchestrator and all calls of it, by number. -/
structure World where
  /-- The orchestrator on its host, with the journal. -/
  scope : Scope
  /-- Where each call stands. -/
  threads : Nat → World.Thread

namespace World

/-- One call and the scope change. -/
def update (w : World) (i : Nat) (t : Thread) (s : Scope) : World :=
  { scope := s, threads := fun k => if k = i then t else w.threads k }

@[simp] theorem scope_update (w : World) (i : Nat) (t : Thread) (s : Scope) :
    (w.update i t s).scope = s := rfl

@[simp] theorem threads_update (w : World) (i : Nat) (t : Thread) (s : Scope) :
    (w.update i t s).threads i = t := if_pos rfl

theorem threads_update_of_ne (w : World) {i k : Nat} (h : k ≠ i) (t : Thread) (s : Scope) :
    (w.update i t s).threads k = w.threads k := if_neg h

@[simp] theorem update_update (w : World) (i : Nat) (t t' : Thread) (s s' : Scope) :
    (w.update i t s).update i t' s' = w.update i t' s' := by
  simp only [update, mk.injEq, true_and]
  funext k
  split <;> rfl

theorem update_eq_self {w : World} {i : Nat} {t : Thread} (h : w.threads i = t) :
    w.update i t w.scope = w := by
  obtain ⟨s, threads⟩ := w
  simp only [update, mk.injEq, true_and]
  funext k
  split
  · next hk => rw [hk, ← h]
  · rfl

/-- A call has the orchestrator. -/
def Holds (w : World) (i : Nat) : Prop := ∃ p, w.threads i = .active p

/-- No call has come yet. -/
structure Fresh (w : World) : Prop where
  /-- No call is there. -/
  absent : ∀ i, w.threads i = .absent
  /-- The orchestrator is free. -/
  free : w.scope.orchestrator.busy = false

/-! ### Steps -/

/-- What can happen next. -/
inductive Label where
  /-- A call comes and takes the orchestrator. -/
  | acquire (i : Nat) (chance : Chance) (request : Request)
  /-- A call comes and finds the orchestrator taken. -/
  | reject (i : Nat) (chance : Chance) (request : Request)
  /-- A call does the next deed of its plan. -/
  | act (i : Nat) (d : Deed)
  /-- A call makes its working directory. -/
  | create (i : Nat)
  /-- A call that waits is told something. -/
  | hear (i : Nat) (signal : Signal)
  /-- A call that waits is dropped. -/
  | drop (i : Nat)
  /-- A call lets the orchestrator go. -/
  | leave (i : Nat)
  /-- Something else, such as a process, changes the host. -/
  | disturb (f : Host → Host)

/-- Whether a call is rejected. -/
def Label.isReject : Label → Bool
  | .reject .. => true
  | _ => false

/-- What a call can do that has the orchestrator: where it stands then, and what the scope
is. -/
inductive Move (s : Scope) (i : Nat) : Plan → Label → Thread → Scope → Prop
  | act {d : Deed} {ds : List Deed} {turn : Turn} :
      Move s i ⟨d :: ds, turn⟩ (.act i d) (.active ⟨ds, turn⟩) (d.perform s)
  | create {chance : Chance} {request : Request} :
      Move s i ⟨[], .create chance request⟩ (.create i)
        (.active (Plan.afterCreate chance request s).2) (Plan.afterCreate chance request s).1
  | hear {j : Job} {signal : Signal} :
      Move s i ⟨[], .wait j⟩ (.hear i signal) (.active (j.react signal s)) s
  | drop {j : Job} : Move s i ⟨[], .wait j⟩ (.drop i) (.active j.dropping) s
  | finish {o : Outcome} : Move s i ⟨[], .finish o⟩ (.leave i) (.returned o) s.release
  | vanish : Move s i ⟨[], .vanish⟩ (.leave i) .dropped s.release

/-- One step of one call, or of the surroundings. -/
inductive Step (w : World) : Label → World → Prop
  | acquire {i : Nat} {chance : Chance} {request : Request} (hi : w.threads i = .absent)
      (hfree : w.scope.orchestrator.busy = false) :
      Step w (.acquire i chance request)
        (w.update i (.active (Plan.opening chance request)) w.scope.acquire)
  | reject {i : Nat} {chance : Chance} {request : Request} {o : Outcome} {s : Scope}
      (hi : w.threads i = .absent) (hbusy : w.scope.orchestrator.busy = true)
      (h : Job.begin chance request w.scope = (.ended o, s)) :
      Step w (.reject i chance request) (w.update i (.returned o) s)
  | move {i : Nat} {p : Plan} {l : Label} {t : Thread} {s : Scope}
      (hi : w.threads i = .active p) (h : Move w.scope i p l t s) : Step w l (w.update i t s)
  | disturb {f : Host → Host} :
      Step w (.disturb f) { w with scope := { w.scope with host := f w.scope.host } }

/-- A call that is rejected is told so, and nothing else happens. -/
theorem Step.eq_of_reject {w w' : World} {i : Nat} {chance : Chance} {request : Request}
    (hstep : Step w (.reject i chance request) w') :
    w.threads i = .absent ∧ w' = w.update i (.returned (.error .runInFlight)) w.scope := by
  cases hstep with
  | reject hi hbusy hbegin =>
    rw [Job.begin_of_busy _ _ hbusy] at hbegin
    obtain ⟨hend, rfl⟩ := Prod.mk.inj hbegin
    cases hend
    exact ⟨hi, rfl⟩
  | move hi hmove => cases hmove

/-- Any number of steps, oldest first. -/
inductive Runs (start : World) : List Label → World → Prop
  | refl : Runs start [] start
  | step {trace : List Label} {l : Label} {w w' : World} (hruns : Runs start trace w)
      (hstep : Step w l w') : Runs start (trace ++ [l]) w'

/-! ### Calls that nobody disturbs -/

/-- Where a call stands after an action of its job. -/
def Thread.ofProgress : Progress → Thread
  | .running j => .active ⟨[], .wait j⟩
  | .ended o => .returned o

theorem Runs.single {w w' : World} {l : Label} (h : Step w l w') : Runs w [l] w' :=
  .step .refl h

theorem Runs.trans {w₁ w₂ w₃ : World} {t₁ t₂ : List Label} (h₁ : Runs w₁ t₁ w₂)
    (h₂ : Runs w₂ t₂ w₃) : Runs w₁ (t₁ ++ t₂) w₃ := by
  induction h₂ with
  | refl => rwa [List.append_nil]
  | step _ hstep ih =>
    rw [← List.append_assoc]
    exact .step ih hstep

/-- A call does all deeds of its plan. -/
theorem Runs.acts {w : World} {i : Nat} {ds : List Deed} {turn : Turn}
    (h : w.threads i = .active ⟨ds, turn⟩) :
    Runs w (ds.map (.act i)) (w.update i (.active ⟨[], turn⟩) (Deed.performAll w.scope ds)) := by
  induction ds generalizing w with
  | nil =>
    rw [Deed.performAll_nil, update_eq_self h]
    exact .refl
  | cons d ds ih =>
    have hrest := ih (w := w.update i (.active ⟨ds, turn⟩) (d.perform w.scope))
      (threads_update ..)
    rw [update_update] at hrest
    exact (Runs.single (.move h .act)).trans hrest

/-- A plan that ends in a wait or in a result is followed up to there. -/
theorem Runs.close {w : World} {i : Nat} {p : Plan} {r : Progress × Scope}
    (h : w.threads i = .active p) (hp : p.close w.scope = some r) :
    ∃ trace, Runs w trace (w.update i (.ofProgress r.1) r.2) := by
  obtain ⟨ds, turn⟩ := p
  have hacts := Runs.acts h
  cases turn with
  | wait j =>
    obtain rfl := Option.some.inj hp
    exact ⟨_, hacts⟩
  | finish o =>
    obtain rfl := Option.some.inj hp
    have hleave := hacts.step (.move (threads_update ..) .finish)
    rw [update_update] at hleave
    exact ⟨_, hleave⟩
  | create chance request => cases hp
  | vanish => cases hp

/-- A call that comes and is not disturbed begins as the job does. -/
theorem Runs.begin {w : World} {i : Nat} (h : w.threads i = .absent) (chance : Chance)
    (request : Request) :
    ∃ trace, Runs w trace (w.update i (.ofProgress (Job.begin chance request w.scope).1)
      (Job.begin chance request w.scope).2) := by
  cases hbusy : w.scope.orchestrator.busy with
  | true =>
    have hbegin := Job.begin_of_busy chance request hbusy
    rw [hbegin]
    exact ⟨_, .single (.reject h hbusy hbegin)⟩
  | false =>
    -- up to the working directory, and then along the plan that came of it
    have hopen := (Runs.single (@Step.acquire w i chance request h hbusy)).trans
      (Runs.acts (threads_update ..))
    rw [update_update, scope_update] at hopen
    have hmade := hopen.step (.move (threads_update ..) .create)
    rw [update_update, scope_update] at hmade
    obtain ⟨trace, hclose⟩ := Runs.close (threads_update w i _ _)
      (Job.begin_eq_plan chance request hbusy)
    rw [update_update] at hclose
    exact ⟨_, hmade.trans hclose⟩

/-- A call that waits and is not disturbed answers as its job does. -/
theorem Runs.hear {w : World} {i : Nat} {j : Job} (h : w.threads i = .active ⟨[], .wait j⟩)
    (signal : Signal) :
    ∃ trace, Runs w trace (w.update i (.ofProgress (j.step signal w.scope).1)
      (j.step signal w.scope).2) := by
  obtain ⟨trace, hclose⟩ := Runs.close (threads_update w i (.active (j.react signal w.scope)) _)
    (Job.step_eq_plan j signal w.scope)
  rw [update_update] at hclose
  exact ⟨_, (Runs.single (.move h .hear)).trans hclose⟩

/-- A call that waits and is not disturbed is given up as its job is. -/
theorem Runs.drop {w : World} {i : Nat} {j : Job} (h : w.threads i = .active ⟨[], .wait j⟩) :
    ∃ trace, Runs w trace (w.update i .dropped (j.drop w.scope)) := by
  have hacts := (Runs.single (.move h .drop)).trans (Runs.acts (threads_update ..))
  rw [update_update, scope_update] at hacts
  have hleave := hacts.step (.move (threads_update ..) .vanish)
  rw [update_update, scope_update] at hleave
  exact ⟨_, Job.drop_eq_plan j w.scope ▸ hleave⟩

/-! ### One call at a time -/

/-- The call that has the orchestrator, if any, is the only one, and the orchestrator says
whether there is one. -/
def Guarded (w : World) (owner : Option Nat) : Prop :=
  w.scope.orchestrator.busy = owner.isSome ∧ ∀ k, w.Holds k ↔ owner = some k

theorem holds_of_eq {w : World} {i : Nat} {p : Plan} (h : w.threads i = .active p) : w.Holds i :=
  ⟨p, h⟩

@[simp] theorem holds_update_active (w : World) (i k : Nat) (p : Plan) (s : Scope) :
    (w.update i (.active p) s).Holds k ↔ k = i ∨ w.Holds k := by
  by_cases hk : k = i
  · subst hk
    simp [Holds]
  · simp [Holds, threads_update_of_ne, hk]

theorem holds_update_of_idle (w : World) (i k : Nat) {t : Thread} (s : Scope)
    (ht : ∀ p, t ≠ .active p) : (w.update i t s).Holds k ↔ k ≠ i ∧ w.Holds k := by
  by_cases hk : k = i
  · subst hk
    simp [Holds, ht]
  · simp [Holds, threads_update_of_ne, hk]

theorem Fresh.guarded {w : World} (h : w.Fresh) : w.Guarded none := by
  refine ⟨h.free, fun k => ?_⟩
  simp [Holds, h.absent]

namespace Guarded

variable {w : World} {owner : Option Nat} {i : Nat}

theorem owner_eq (h : w.Guarded owner) {p : Plan} (hi : w.threads i = .active p) :
    owner = some i :=
  (h.2 i).1 (holds_of_eq hi)

theorem busy_eq (h : w.Guarded owner) {p : Plan} (hi : w.threads i = .active p) :
    w.scope.orchestrator.busy = true := by
  rw [h.1, h.owner_eq hi]
  rfl

theorem unique (h : w.Guarded owner) {k : Nat} {p p' : Plan} (hi : w.threads i = .active p)
    (hk : w.threads k = .active p') : i = k ∧ p = p' := by
  have heq : i = k := Option.some.inj ((h.owner_eq hi).symm.trans (h.owner_eq hk))
  subst heq
  exact ⟨rfl, Thread.active.inj (hi.symm.trans hk)⟩

/-- A call takes the orchestrator, which is free. -/
theorem take (h : w.Guarded owner) (hfree : w.scope.orchestrator.busy = false) {p : Plan} :
    (w.update i (.active p) w.scope.acquire).Guarded (some i) := by
  refine ⟨rfl, fun k => ?_⟩
  have hk : ¬ w.Holds k := by
    rw [h.2]
    rintro rfl
    rw [h.1] at hfree
    cases hfree
  simp [hk, eq_comm]

/-- A call that does not have the orchestrator goes by. -/
theorem frame (h : w.Guarded owner) (hi : w.threads i = .absent) {t : Thread}
    (ht : ∀ p, t ≠ .active p) : (w.update i t w.scope).Guarded owner := by
  refine ⟨h.1, fun k => ?_⟩
  rw [holds_update_of_idle _ _ _ _ ht, h.2]
  refine ⟨And.right, fun hk => ⟨?_, hk⟩⟩
  -- the call that has the orchestrator is another one
  rintro rfl
  obtain ⟨p, hp⟩ := (h.2 k).2 hk
  rw [hi] at hp
  cases hp

/-- The call that has the orchestrator keeps it. -/
theorem keep (h : w.Guarded owner) {p p' : Plan} (hi : w.threads i = .active p) {s : Scope}
    (hs : s.orchestrator.busy = w.scope.orchestrator.busy) :
    (w.update i (.active p') s).Guarded owner := by
  refine ⟨hs.trans h.1, fun k => ?_⟩
  rw [holds_update_active, h.2, h.owner_eq hi]
  constructor
  · rintro (rfl | hk)
    · rfl
    · exact hk
  · exact .inr

/-- The call that has the orchestrator lets it go. -/
theorem release (h : w.Guarded owner) {p : Plan} (hi : w.threads i = .active p) {t : Thread}
    (ht : ∀ p, t ≠ .active p) : (w.update i t w.scope.release).Guarded none := by
  refine ⟨rfl, fun k => ?_⟩
  rw [holds_update_of_idle _ _ _ _ ht, h.2, h.owner_eq hi]
  constructor
  · rintro ⟨hne, hk⟩
    exact absurd (Option.some.inj hk).symm hne
  · intro hk
    cases hk

end Guarded

/-- Who has the orchestrator after a step. -/
def Label.owner (owner : Option Nat) : Label → Option Nat
  | .acquire i .. => some i
  | .leave _ => none
  | _ => owner

/-- A call keeps the orchestrator until it leaves, and then lets it go. -/
theorem Move.cases {s s' : Scope} {i : Nat} {p : Plan} {l : Label} {t : Thread}
    (h : Move s i p l t s') :
    (∀ owner, l.owner owner = owner) ∧ s'.orchestrator.busy = s.orchestrator.busy ∧
        (∃ p', t = .active p') ∨
      l = .leave i ∧ s' = s.release ∧ ((∃ o, t = .returned o) ∨ t = .dropped) := by
  cases h with
  | act => exact .inl ⟨fun _ => rfl, Deed.busy_perform _ _, _, rfl⟩
  | create => exact .inl ⟨fun _ => rfl, congrArg _ (Plan.orchestrator_afterCreate ..), _, rfl⟩
  | hear => exact .inl ⟨fun _ => rfl, rfl, _, rfl⟩
  | drop => exact .inl ⟨fun _ => rfl, rfl, _, rfl⟩
  | finish => exact .inr ⟨rfl, rfl, .inl ⟨_, rfl⟩⟩
  | vanish => exact .inr ⟨rfl, rfl, .inr rfl⟩

/-- Every step keeps the orchestrator with at most one call. -/
theorem Step.guarded {w w' : World} {l : Label} {owner : Option Nat} (hstep : Step w l w')
    (h : w.Guarded owner) : w'.Guarded (l.owner owner) := by
  cases hstep with
  | acquire hi hfree => exact h.take hfree
  | reject hi hbusy hbegin =>
    rw [(Step.reject hi hbusy hbegin).eq_of_reject.2]
    exact h.frame hi (by simp)
  | move hi hmove =>
    rcases hmove.cases with ⟨hl, hbusy, p', rfl⟩ | ⟨rfl, rfl, ⟨o, rfl⟩ | rfl⟩
    · rw [hl]
      exact h.keep hi hbusy
    · exact h.release hi (by simp)
    · exact h.release hi (by simp)
  | disturb => exact h

/-- At any time the orchestrator is with at most one call. -/
theorem Runs.guarded {start w : World} {trace : List Label} (hruns : Runs start trace w)
    (hstart : start.Fresh) : ∃ owner, w.Guarded owner := by
  induction hruns with
  | refl => exact ⟨none, hstart.guarded⟩
  | step _ hstep ih =>
    obtain ⟨owner, h⟩ := ih
    exact ⟨_, hstep.guarded h⟩

/-- A call that has the orchestrator no longer has left, with a result or dropped. -/
theorem Step.eq_leave {w w' : World} {l : Label} {i : Nat} (hstep : Step w l w')
    (hi : w.Holds i) (hi' : ¬ w'.Holds i) :
    l = .leave i ∧ ((∃ o, w'.threads i = .returned o) ∨ w'.threads i = .dropped) := by
  have other {k : Nat} {t : Thread} {s : Scope} (h : ¬ (w.update k t s).Holds i) : i = k := by
    refine Decidable.byContradiction fun hne => h ?_
    rwa [Holds, threads_update_of_ne _ hne]
  cases hstep with
  | acquire hk hfree => exact absurd ((holds_update_active ..).2 (.inr hi)) hi'
  | reject hk hbusy hbegin =>
    obtain rfl := other hi'
    obtain ⟨p, hp⟩ := hi
    rw [hk] at hp
    cases hp
  | move hk hmove =>
    obtain rfl := other hi'
    rw [threads_update]
    rcases hmove.cases with ⟨-, -, p', rfl⟩ | ⟨rfl, -, ht⟩
    · exact absurd ⟨p', threads_update ..⟩ hi'
    · exact ⟨rfl, ht⟩
  | disturb => exact absurd hi hi'

/-- A call that has the orchestrator can always go on until it lets it go. -/
theorem Runs.exists_leave {w : World} {i : Nat} (hi : w.Holds i) :
    ∃ trace w', Runs w trace w' ∧ ¬ w'.Holds i := by
  have gone {t : Thread} {s : Scope} (ht : ∀ p, t ≠ .active p) : ¬ (w.update i t s).Holds i := by
    rw [holds_update_of_idle _ _ _ _ ht]
    exact fun h => h.1 rfl
  -- from a wait it can be dropped
  have leave {p : Plan} {s : Scope} {r : Progress × Scope} (hp : p.close s = some r) :
      ∃ trace w', Runs (w.update i (.active p) s) trace w' ∧ ¬ w'.Holds i := by
    obtain ⟨trace, hclose⟩ := Runs.close (threads_update w i (.active p) s) hp
    rw [update_update] at hclose
    obtain ⟨j | o, s'⟩ := r
    · obtain ⟨trace', hdrop⟩ := Runs.drop (threads_update w i (.active ⟨[], .wait j⟩) s')
      rw [update_update] at hdrop
      exact ⟨_, _, hclose.trans hdrop, gone (by simp)⟩
    · exact ⟨_, _, hclose, gone (by simp [Thread.ofProgress])⟩
  obtain ⟨⟨ds, turn⟩, hp⟩ := hi
  cases turn with
  | wait j =>
    rw [← update_eq_self hp]
    exact leave rfl
  | finish o =>
    rw [← update_eq_self hp]
    exact leave rfl
  | create chance request =>
    have hmade := (Runs.acts hp).step (.move (threads_update ..) .create)
    rw [update_update, scope_update] at hmade
    obtain ⟨r, hr⟩ := Plan.exists_close_afterCreate chance request (Deed.performAll w.scope ds)
    obtain ⟨trace, w', hruns, hleft⟩ := leave hr
    exact ⟨_, w', hmade.trans hruns, hleft⟩
  | vanish =>
    have hleave := (Runs.acts hp).step (.move (threads_update ..) .vanish)
    rw [update_update] at hleave
    exact ⟨_, _, hleave, gone (by simp)⟩

/-! ### Rejected calls -/

/-- A call that was rejected. -/
def Rejected (trace : List Label) (i : Nat) : Prop :=
  ∃ chance request, .reject i chance request ∈ trace

theorem rejected_append_of_not {trace : List Label} {l : Label} (hl : l.isReject = false)
    (i : Nat) : Rejected (trace ++ [l]) i ↔ Rejected trace i := by
  have hne (chance : Chance) (request : Request) : .reject i chance request ≠ l := by
    rintro rfl
    cases hl
  simp [Rejected, hne]

/-- The same world, but the rejected calls never came. -/
structure Shadow (trace : List Label) (w v : World) : Prop where
  /-- Nothing that the calls share is different. -/
  scope : v.scope = w.scope
  /-- A call stands where it stands, or was rejected and is not there. -/
  threads : ∀ i, Rejected trace i ∧ w.threads i = .returned (.error .runInFlight) ∧
    v.threads i = .absent ∨ ¬ Rejected trace i ∧ v.threads i = w.threads i

namespace Shadow

variable {trace : List Label} {w v : World} {i : Nat}

theorem threads_eq (h : Shadow trace w v) (hi : ∀ o, w.threads i ≠ .returned o) :
    v.threads i = w.threads i := by
  rcases h.threads i with ⟨-, hret, -⟩ | ⟨-, heq⟩
  · exact absurd hret (hi _)
  · exact heq

theorem update (h : Shadow trace w v) (hi : ∀ o, w.threads i ≠ .returned o) {l : Label}
    (hl : l.isReject = false) (t : Thread) (s : Scope) :
    Shadow (trace ++ [l]) (w.update i t s) (v.update i t s) := by
  refine ⟨rfl, fun k => ?_⟩
  rw [rejected_append_of_not hl]
  by_cases hk : k = i
  · subst hk
    rcases h.threads k with ⟨-, hret, -⟩ | ⟨hnot, -⟩
    · exact absurd hret (hi _)
    · exact .inr ⟨hnot, by simp⟩
  · simpa only [threads_update_of_ne _ hk] using h.threads k

theorem reject (h : Shadow trace w v) {chance : Chance} {request : Request}
    (hi : w.threads i = .absent) :
    Shadow (trace ++ [.reject i chance request])
      (w.update i (.returned (.error .runInFlight)) w.scope) v := by
  refine ⟨h.scope, fun k => ?_⟩
  by_cases hk : k = i
  · subst hk
    refine .inl ⟨⟨chance, request, by simp⟩, threads_update .., ?_⟩
    rw [h.threads_eq (by simp [hi]), hi]
  · have hrej : Rejected (trace ++ [.reject i chance request]) k ↔ Rejected trace k := by
      simp [Rejected, hk]
    rw [hrej, threads_update_of_ne _ hk]
    exact h.threads k

end Shadow

theorem Move.isReject_eq {s s' : Scope} {i : Nat} {p : Plan} {l : Label} {t : Thread}
    (h : Move s i p l t s') : l.isReject = false := by
  cases h <;> rfl

/-- A step is a step of the other world too, or a call is rejected. -/
theorem Step.shadow {trace : List Label} {w w' v : World} {l : Label} (hstep : Step w l w')
    (h : Shadow trace w v) :
    l.isReject = true ∧ Shadow (trace ++ [l]) w' v ∨
      l.isReject = false ∧ ∃ v', Step v l v' ∧ Shadow (trace ++ [l]) w' v' := by
  have hscope := h.scope
  cases hstep with
  | reject hi hbusy hbegin =>
    rw [(Step.reject hi hbusy hbegin).eq_of_reject.2]
    exact .inl ⟨rfl, h.reject hi⟩
  | acquire hi hfree =>
    have hv := (h.threads_eq (by simp [hi])).trans hi
    refine .inr ⟨rfl, _, .acquire hv (hscope ▸ hfree), ?_⟩
    rw [hscope]
    exact h.update (by simp [hi]) rfl _ _
  | move hi hmove =>
    -- a call that has the orchestrator was not rejected, so it stands there too
    have hv := (h.threads_eq (by simp [hi])).trans hi
    rw [← hscope] at hmove
    exact .inr ⟨hmove.isReject_eq, _, .move hv hmove,
      h.update (by simp [hi]) hmove.isReject_eq _ _⟩
  | disturb =>
    refine .inr ⟨rfl, _, .disturb, ?_, fun k => ?_⟩
    · rw [hscope]
    · rw [rejected_append_of_not rfl]
      exact h.threads k

/-- Without its rejected calls a run comes to the same end. -/
theorem Runs.shadow {start w : World} {trace : List Label} (hruns : Runs start trace w) :
    ∃ v, Runs start (trace.filter (!·.isReject)) v ∧ Shadow trace w v := by
  induction hruns with
  | refl => exact ⟨start, .refl, rfl, fun i => .inr ⟨by simp [Rejected], rfl⟩⟩
  | @step trace l w w' _ hstep ih =>
    obtain ⟨v, hv, hshadow⟩ := ih
    rw [List.filter_append]
    rcases hstep.shadow hshadow with ⟨hl, h⟩ | ⟨hl, v', hstep', h⟩
    · refine ⟨v, ?_, h⟩
      simpa [hl] using hv
    · refine ⟨v', ?_, h⟩
      simpa [hl] using hv.step hstep'

/-! ### All calls together -/

/-- **One call has the orchestrator at a time, and rejected calls leave no trace.**  However
the steps of any number of calls come, at most one call has the orchestrator, and the
orchestrator is busy exactly while one does.  A call that comes meanwhile can only be rejected:
it is told so, and state, display, processes and files are as before.  Without all rejected
calls the other steps are still possible and come to the same end.  The call that has the
orchestrator can always go on until it has it no longer; then it has returned, with or without
a video, or was dropped, and the next call that comes is accepted. -/
theorem one_run_at_a_time {start w : World} {trace : List Label} (hstart : start.Fresh)
    (hruns : Runs start trace w) :
    (∀ i k, w.Holds i → w.Holds k → i = k) ∧
    (w.scope.orchestrator.busy = true ↔ ∃ i, w.Holds i) ∧
    (∀ i chance request, w.threads i = .absent → w.scope.orchestrator.busy = true →
      ∀ l w', l = .acquire i chance request ∨ l = .reject i chance request →
        (Step w l w' ↔ l = .reject i chance request ∧
          w' = w.update i (.returned (.error .runInFlight)) w.scope)) ∧
    (∃ v, Runs start (trace.filter (!·.isReject)) v ∧ v.scope = w.scope ∧
      ∀ i, ¬ Rejected trace i → v.threads i = w.threads i) ∧
    (∀ i, w.Holds i → ∃ more w', Runs w more w' ∧ ¬ w'.Holds i) ∧
    (∀ i l w', Step w l w' → w.Holds i → ¬ w'.Holds i →
      ((∃ o, w'.threads i = .returned o) ∨ w'.threads i = .dropped) ∧
      ∀ k chance request, w'.threads k = .absent →
        (∀ w'', ¬ Step w' (.reject k chance request) w'') ∧
          ∃ w'', Step w' (.acquire k chance request) w'' ∧ w''.Holds k) := by
  obtain ⟨owner, hbusy, hholds⟩ := hruns.guarded hstart
  obtain ⟨v, hv, hshadow⟩ := hruns.shadow
  refine ⟨?_, ?_, ?_, ⟨v, hv, hshadow.scope, ?_⟩, fun i => Runs.exists_leave, ?_⟩
  · intro i k hi hk
    rw [hholds] at hi hk
    exact Option.some.inj (hi.symm.trans hk)
  · simp only [hbusy, hholds, Option.isSome_iff_exists]
  · intro i chance request hi hbusy l w' hl
    constructor
    · intro hstep
      rcases hl with rfl | rfl
      · cases hstep with
        | acquire _ hfree =>
          rw [hbusy] at hfree
          cases hfree
        | move _ hmove => cases hmove
      · exact ⟨rfl, hstep.eq_of_reject.2⟩
    · rintro ⟨rfl, rfl⟩
      exact .reject hi hbusy (Job.begin_of_busy chance request hbusy)
  · intro i hi
    rcases hshadow.threads i with ⟨hrej, -⟩ | ⟨-, heq⟩
    · exact absurd hrej hi
    · exact heq
  · intro i l w' hstep hi hi'
    obtain ⟨rfl, hend⟩ := hstep.eq_leave hi hi'
    -- the call that leaves was the only one
    have hfree : w'.scope.orchestrator.busy = false := (hstep.guarded ⟨hbusy, hholds⟩).1
    refine ⟨hend, fun k chance request hk => ⟨fun w'' hrej => ?_, _, .acquire hk hfree, ?_⟩⟩
    · cases hrej with
      | reject _ hbusy _ =>
        rw [hfree] at hbusy
        cases hbusy
      | move _ hmove => cases hmove
    · exact holds_of_eq (threads_update ..)

/-- A world in which nothing has happened. -/
def quiet : World :=
  { scope :=
      { orchestrator := { settings :=
          { tempRoot := some (Path.ofString "/"), workdirPrefix := "" } }
        host := {} }
    threads := fun _ => .absent }

/-- A call is rejected while another one begins. -/
theorem one_run_at_a_time_rejected :
    let chance : Chance := { suffixes := fun _ => "" }
    let request : Request := ⟨"", 3, none, by decide⟩
    quiet.Fresh ∧ ∃ w, Runs quiet [.acquire 0 chance request, .act 0 (.advance .slicing),
        .reject 1 chance request, .act 0 (.say .loading)] w ∧
      w.threads 1 = .returned (.error .runInFlight) ∧ w.scope.messages = [.loading] ∧
      (∀ i, w.Holds i ↔ i = 0) ∧
      ∃ v, Runs quiet [.acquire 0 chance request, .act 0 (.advance .slicing),
        .act 0 (.say .loading)] v ∧ v.scope = w.scope ∧ v.threads 0 = w.threads 0 := by
  intro chance request
  have hfresh : quiet.Fresh := ⟨fun _ => rfl, rfl⟩
  have hruns := (((Runs.single (@Step.acquire quiet 0 chance request rfl rfl)).step
    (.move (i := 0) rfl .act)).step
    (.reject (i := 1) rfl rfl (Job.begin_of_busy chance request rfl))).step
    (.move (i := 0) rfl .act)
  obtain ⟨hsole, -, -, ⟨v, hv, hscope, hthreads⟩, -⟩ := one_run_at_a_time hfresh hruns
  refine ⟨hfresh, _, hruns, rfl, rfl, fun i => ⟨fun hi => hsole i 0 hi ⟨_, rfl⟩, ?_⟩, v, hv, hscope,
    hthreads 0 (by simp [Rejected])⟩
  rintro rfl
  exact ⟨_, rfl⟩

end World

end ScenePreview
