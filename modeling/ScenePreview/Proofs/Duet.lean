import ScenePreview.Proofs.Pairing

/-!
# Two runs that do not notice each other

The processes of a run keep to its directory.  Two runs may draw the same names; then one of them
gets the name and the other one tries another.  If neither is led into the directory of the other
one, by a link or by a prefix with a slash, then neither notices the other: each goes as if it were
alone on the name that it got.  Otherwise it may end in another way.

## Main definitions

* `Pairing.Stands` — where a run stands beside the directory of the other one.
* `Duet.Accord` — both runs are undisturbed, and the display has been told what they said.
* `Pairing.AsAlone` — a run that has returned has what it has on its own.

## Main results

* `Pairing.exists_accord_of_step` — every step keeps both runs undisturbed.
* `Pairing.exists_returned` — both runs can go on until they return.
* `Pairing.returns_as_alone` — **each run goes as if it were alone on the name that it got, and the
  display is told a shuffle of what it is told by both.**
* `Pairing.returns_otherwise_if_led` — a run that is led into the directory of the other one may
  end otherwise than alone.
-/

namespace ScenePreview

open FileTree (Clear SameOutside)
open Text.Utf8 (encode)

namespace Pairing

variable (p : Pairing)

/-- The places of the directory of a run that may have got a name. -/
def Places (i : Side) (got : Option ℕ) (w : Place) : Prop :=
  ∃ m, got = some m ∧ (p.solo i m).Works w

/-- Where a run stands beside the places of the other one, and the name that it got. -/
inductive Stands (d : Duet) (i : Side) (W : Place → Prop) : Option ℕ → Prop
  /-- It has no directory. -/
  | unplaced {s : Scope} (hu : (p.round i).Unplaced s (d.part i).position)
      (hscope : d.scope i = { s with host := d.host })
      (hsame : SameOutside W p.host.tree d.host.tree) (hdir : (d.part i).dir = none) :
      Stands d i W none
  /-- It has got a name, and stands where it would stand alone on that name. -/
  | placed {m : ℕ} {s : Scope} (hfree : (p.orchestrator i).busy = false)
      (hu : (p.solo i m).Undisturbed W d.host s (d.part i).position)
      (hscope : d.scope i = { s with host := d.host })
      (hdir : (d.part i).dir = (p.solo i m).dir?) : Stands d i W (some m)

end Pairing

/-- Both runs are undisturbed, and the display has been told what they said. -/
structure Duet.Accord (p : Pairing) (d : Duet) (got : Side → Option ℕ) : Prop where
  /-- Nothing but the files is different from what the runs found. -/
  hosts : ∀ i, (p.round i).Hosts d.host
  /-- Each run stands where it would stand if it were alone. -/
  stands : ∀ i, p.Stands d i (p.Places i.other (got i.other)) (got i)
  /-- Neither directory is in the other one. -/
  apart : ∀ i w, p.Places i (got i) w → Clear (p.Places i.other (got i.other)) w
  /-- The display has been told what the runs said, each in its order. -/
  told : ∃ ms, Shuffle (d.scope .left).messages (d.scope .right).messages ms ∧
    d.recorder = Recorder.ofMessages ms

namespace Pairing

variable {p : Pairing}

/-! ### Steps -/

namespace Stands

variable {d d' : Duet} {i : Side} {W W' : Place → Prop} {got : Option ℕ}

/-- A run stands where it stood while the other one takes a step, also if that comes to a place. -/
theorem frame (h : p.Stands d i W got) (hpart : d'.part i = d.part i)
    (hhost : (p.round i).Hosts d'.host) (hmore : ∀ w, W w → W' w)
    (hsame : SameOutside W' d.host.tree d'.host.tree) : p.Stands d' i W' got := by
  have hnext : ∀ s : Scope, d.scope i = { s with host := d.host } →
      d'.scope i = { s with host := d'.host } := by
    intro s hscope
    rw [Duet.scope, hpart]
    exact congrArg (fun s' : Scope => { s' with host := d'.host }) hscope
  cases h with
  | unplaced hu hscope hagree hdir =>
    refine .unplaced (hpart ▸ hu) (hnext _ hscope) (fun q hq => ?_) (hpart ▸ hdir)
    exact (hagree q fun w hw => hq w (hmore w hw)).trans (hsame q hq)
  | placed hfree hu hscope hdir =>
    refine .placed hfree ?_ (hnext _ hscope) (hpart ▸ hdir)
    rw [hpart]
    exact hu.frame hmore (hhost.named _) hsame

end Stands

/-- The display is told what is new, and has been told the rest. -/
theorem told_update {d : Duet} {i : Side} {position : Position} {s : Scope} {new : List Happening}
    (htold : ∃ ms, Shuffle (d.scope .left).messages (d.scope .right).messages ms ∧
      d.recorder = Recorder.ofMessages ms)
    (hnew : s.journal = (d.part i).journal ++ new) :
    ∃ ms, Shuffle ((d.update i position s new).scope .left).messages
        ((d.update i position s new).scope .right).messages ms ∧
      (d.update i position s new).recorder = Recorder.ofMessages ms := by
  obtain ⟨ms, hms, hrecorder⟩ := htold
  -- one run has said something more, and the other one nothing
  have hself : s.messages = (d.scope i).messages ++ new.filterMap Happening.message? := by
    rw [Scope.messages_eq, Scope.messages_eq, hnew, List.filterMap_append]
    rfl
  have hother : ∀ k, k ≠ i → ((d.update i position s new).scope k).messages
      = (d.scope k).messages ++ [] := by
    intro k hk
    rw [List.append_nil, Scope.messages_eq, Scope.messages_eq, Duet.scope, Duet.scope,
      Duet.part_update_of_ne d i position s new hk]
  refine ⟨ms ++ new.filterMap Happening.message?, ?_, ?_⟩
  · cases i with
    | left =>
      rw [Duet.scope_update, hself, hother .right (by decide)]
      exact hms.append (.left_nil _)
    | right =>
      rw [Duet.scope_update, hself, hother .left (by decide)]
      exact hms.append (.right_nil _)
  · rw [Recorder.ofMessages, List.foldl_append, ← Recorder.ofMessages, ← hrecorder]
    rfl

/-- What is needed of two runs for neither to notice the other. -/
structure Apart (p : Pairing) : Prop extends p.Granted where
  /-- They draw names without a slash. -/
  plain : p.Plain
  /-- No link leads from one to the other. -/
  unlinked : p.Unlinked

section Steps

variable (hp : p.Apart) {d d' : Duet} {got : Side → Option ℕ}
include hp

/-- A run that has got a name is beside the directory of the other one. -/
theorem beside (h : d.Accord p got) {i : Side} {m : ℕ} (hm : got i = some m) :
    (p.solo i m).Beside (p.Places i.other (got i.other)) where
  isProper := hp.isProper
  free := by
    rintro w ⟨m', -, hw⟩
    obtain ⟨-, -, -, -, hfree⟩ := Works.free hp.isProper hw
    exact hfree
  secluded := hp.secluded i m
  apart := by
    intro w w' hw hw'
    have hown : p.Places i (got i) w := ⟨m, hm, hw⟩
    refine ⟨?_, h.apart i w hown w' hw'⟩
    have hclear := h.apart i.other w' hw'
    rw [Side.other_other] at hclear
    exact hclear w hown
  overlooks := by
    rintro w ⟨m', hm', hw⟩
    have hfree : p.Free := by
      intro k
      by_cases hk : k = i
      · have hstands := h.stands i
        rw [hm] at hstands
        cases hstands with
        | placed hfree _ _ _ => rwa [hk]
      · have hstands := h.stands i.other
        rw [hm'] at hstands
        cases hstands with
        | placed hfree _ _ _ => rwa [Side.eq_other_of_ne hk]
    refine hp.unlinked hfree i m m' w hw fun hown => ?_
    exact h.apart i w ⟨m, hm, hown⟩ w ⟨m', hm', hw⟩ (List.prefix_refl w)

/-- At the place of a run is a directory, if anything. -/
theorem directory_of_places (h : d.Accord p got) {i : Side} {w : Place} {e : Entry}
    (hw : p.Places i (got i) w) (hget : d.host.tree.get? w = some e) : e = .directory := by
  obtain ⟨m, hm, hw⟩ := hw
  have hstands := h.stands i
  have hbeside := beside hp h hm
  rw [hm] at hstands
  cases hstands with
  | placed _ hu _ _ => exact hu.own_host hbeside hw hget

/-- The directory of the other run is there when a run draws its name. -/
theorem directory_of_leads (h : d.Accord p got) {i : Side} {w : Place} {n : ℕ}
    (hfree : (p.orchestrator i).busy = false) (hw : p.Places i.other (got i.other) w)
    (hleads : p.Leads ((p.round i).candidate n) w) : d.host.tree.get? w = some .directory := by
  cases hget : d.host.tree.get? w with
  | some e => rw [directory_of_places hp h hw hget]
  | none =>
    -- else it is gone with its run, and the name is not drawn again
    obtain ⟨m, hm, hw⟩ := hw
    have hstands := h.stands i.other
    have hbeside := beside hp h hm
    rw [hm] at hstands
    cases hstands with
    | placed hother hu _ _ =>
      have hboth : p.Free := by
        intro k
        by_cases hk : k = i
        · rwa [hk]
        · rwa [Side.eq_other_of_ne hk]
      have hgone := hu.gone hbeside hw hget
      refine absurd ?_ (hp.fresh.again hboth i.other m w hw hgone n)
      rwa [Side.other_other]

/-- What a run comes upon when it tries a name: the directory of the other run, or nothing of
it. -/
theorem passesBy_or_taken (h : d.Accord p got) {i : Side}
    (hfree : (p.orchestrator i).busy = false)
    (hsame : SameOutside (p.Places i.other (got i.other)) p.host.tree d.host.tree) (n : ℕ) :
    (∀ w, p.Places i.other (got i.other) w →
      p.host.tree.PassesBy p.host.cwd false ((p.round i).candidate n) w) ∨
    WorkDir.Taken d.host ((p.round i).candidate n) := by
  by_cases hleads : ∃ w, p.Places i.other (got i.other) w ∧ p.Leads ((p.round i).candidate n) w
  · right
    obtain ⟨w, hw, hleads⟩ := hleads
    have hthere := directory_of_leads hp h hfree hw hleads
    obtain ⟨d', n', rfl, hx⟩ := hleads
    refine WorkDir.taken_of_filled ?_ (h := p.host) ?_ hx hthere
    · intro q e hq
      rw [← hsame q, hq]
      rintro w ⟨m, -, hw⟩ hle
      obtain ⟨-, -, -, -, hnone⟩ := Works.free hp.isProper hw
      rw [hnone q hle] at hq
      cases hq
    · rw [(h.hosts i).files]
      rfl
  · refine .inl fun w hw => ?_
    obtain ⟨m, hm, hworks⟩ := hw
    refine (passesBy_or_leads hp.isProper hp.root_eq hp.plain hworks n).resolve_right ?_
    exact fun hleads' => hleads ⟨w, ⟨m, hm, hworks⟩, hleads'⟩

/-- The names that a run has do not run out. -/
theorem exists_not_taken (h : d.Accord p got) {i : Side}
    (hsame : SameOutside (p.Places i.other (got i.other)) p.host.tree d.host.tree)
    (hsome : ∃ n, n < WorkDir.maxAttempts ∧ ¬ WorkDir.Taken p.host ((p.round i).candidate n)) :
    ∃ n, n < WorkDir.maxAttempts ∧ ¬ WorkDir.Taken d.host ((p.round i).candidate n) := by
  obtain ⟨n, hn, hnot, hpasses⟩ : ∃ n, n < WorkDir.maxAttempts ∧
      ¬ WorkDir.Taken p.host ((p.round i).candidate n) ∧
      ∀ w, p.Places i.other (got i.other) w →
        p.host.tree.PassesBy p.host.cwd false ((p.round i).candidate n) w := by
    by_cases hplaces : ∃ w, p.Places i.other (got i.other) w
    · obtain ⟨w, m, hm, hw⟩ := hplaces
      obtain ⟨n, hn, hnot, hleads⟩ := hp.fresh.enough i m w hw hsome
      refine ⟨n, hn, hnot, ?_⟩
      rintro w' ⟨m', hm', hw'⟩
      obtain rfl := Option.some.inj (hm.symm.trans hm')
      rw [hw.eq hw']
      exact (passesBy_or_leads hp.isProper hp.root_eq hp.plain hw n).resolve_right hleads
    · obtain ⟨n, hn, hnot⟩ := hsome
      exact ⟨n, hn, hnot, fun w hw => absurd ⟨w, hw⟩ hplaces⟩
  refine ⟨n, hn, fun htaken => hnot ?_⟩
  exact (WorkDir.attempt_congr hsame (h.hosts i).files hpasses).1.1 htaken

/-- A step of a run that has got a name. -/
theorem accord_of_placed (h : d.Accord p got) {i : Side} {m : ℕ} (hm : got i = some m)
    {position : Position} {s : Scope} {new : List Happening}
    (hmove : Position.Move (p.commission i) (d.scope i) (d.part i).position position s)
    (hnew : s.journal = (d.part i).journal ++ new) :
    (d.update i position s new).Accord p got := by
  have hbeside := beside hp h hm
  have hstands := h.stands i
  rw [hm] at hstands
  cases hstands with
  | placed hfree hu hscope hdir =>
    rw [hscope] at hmove
    obtain ⟨next, hnext, hs, hsame⟩ := hu.move hbeside (c := p.commission i) rfl
      (fun w e hw hget => directory_of_places hp h hw hget) hmove
    have hhosts : ∀ k, (p.round k).Hosts s.host := fun k => ⟨hnext.host.files, hnext.host.isProper⟩
    refine ⟨hhosts, fun k => ?_, h.apart, told_update h.told hnew⟩
    by_cases hk : k = i
    · subst hk
      rw [hm]
      refine .placed hfree ?_ ?_ ?_ (s := next)
      · rw [Duet.position_update]
        exact hnext
      · rw [Duet.scope_update]
        exact hs
      · rw [Duet.dir_update, hdir]
        rcases hnext.stage.dir?_eq hfree with hnone | hsome
        · rw [hnone]
          rfl
        · rw [hsome, Option.or_self]
    · -- the other run does not notice the step
      obtain rfl := Side.eq_other_of_ne hk
      refine (h.stands i.other).frame (Duet.part_update_of_ne d i position s new hk) (hhosts _)
        (fun _ => id) ?_
      rw [Side.other_other]
      intro q hq
      exact hsame q fun w hw => hq w ⟨m, hm, hw⟩

/-- A run makes its directory, and so gets a name. -/
theorem accord_of_arrives (h : d.Accord p got) {i : Side} (hm : got i = none)
    (hfree : (p.orchestrator i).busy = false) (hdir : (d.part i).dir = none) {m : ℕ}
    {made : Scope × Plan} {new : List Happening}
    (harrives : (p.round i).Arrives (p.Places i.other (got i.other)) d.host made m)
    (hnew : made.1.journal = (d.part i).journal ++ new) :
    (d.update i (.active made.2) made.1 new).Accord p (Function.update got i (some m)) := by
  obtain ⟨next, hnext, hs, hchanged⟩ := harrives.continues
  have hhosts : ∀ k, (p.round k).Hosts made.1.host :=
    fun k => ⟨hnext.host.files, hnext.host.isProper⟩
  have hself : (Function.update got i (some m)) i = some m := Function.update_self ..
  have hother : (Function.update got i (some m)) i.other = got i.other :=
    Function.update_of_ne i.other_ne _ _
  have hapart : ∀ w, p.Places i (some m) w → Clear (p.Places i.other (got i.other)) w := by
    rintro w ⟨m', hm', hw⟩
    obtain rfl := Option.some.inj hm'
    exact harrives.clear w hw
  refine ⟨hhosts, fun k => ?_, fun k w hw => ?_, told_update h.told hnew⟩
  · by_cases hk : k = i
    · subst hk
      rw [hself, hother]
      refine .placed (s := next) hfree ?_ ?_ ?_
      · rw [Duet.position_update]
        exact hnext
      · rw [Duet.scope_update]
        exact hs
      · rw [Duet.dir_update, hdir, harrives.dir?_eq, Option.or_none]
        rfl
    · -- the other run has a neighbour now
      obtain rfl := Side.eq_other_of_ne hk
      rw [hother, Side.other_other, hself]
      refine (h.stands i.other).frame (Duet.part_update_of_ne d i _ _ new hk) (hhosts _) ?_ ?_
      · rintro w ⟨m', hm', -⟩
        rw [Side.other_other, hm] at hm'
        cases hm'
      · intro q hq
        exact hchanged q fun w hw => hq w ⟨m, rfl, hw⟩
  · by_cases hk : k = i
    · subst hk
      rw [hself] at hw
      rw [hother]
      exact hapart w hw
    · obtain rfl := Side.eq_other_of_ne hk
      rw [hother] at hw
      rw [Side.other_other, hself]
      -- two places that were free are the same, or neither is in the other
      rintro w' hw' hle
      have hclear := hapart w' hw' w hw
      obtain ⟨m', -, hw'⟩ := hw'
      obtain ⟨m'', -, hw⟩ := hw
      exact hclear (Works.eq_of_le hp.isProper hw' hw hle ▸ List.prefix_refl w')

/-- A step of a run that has not got a name yet. -/
theorem exists_accord_of_unplaced (h : d.Accord p got) {i : Side} (hm : got i = none)
    {position : Position} {s : Scope} {new : List Happening}
    (hmove : Position.Move (p.commission i) (d.scope i) (d.part i).position position s)
    (hnew : s.journal = (d.part i).journal ++ new) :
    ∃ got', (d.update i position s new).Accord p got' := by
  have hstands := h.stands i
  rw [hm] at hstands
  cases hstands with
  | @unplaced alone hu hscope hsame hdir =>
    rw [hscope] at hmove
    obtain ⟨next, hnext, rfl⟩ | ⟨hopening, rfl, rfl⟩ := hu.move hmove
    · -- it stays without one, and the files are not touched
      refine ⟨got, h.hosts, fun k => ?_, h.apart, told_update h.told hnew⟩
      by_cases hk : k = i
      · subst hk
        rw [hm]
        refine .unplaced (s := next) ?_ ?_ hsame ?_
        · rw [Duet.position_update]
          exact hnext
        · rw [Duet.scope_update]
          rfl
        · rw [Duet.dir_update, hnext.dir?_eq, hdir]
          rfl
      · exact (h.stands k).frame (Duet.part_update_of_ne d i position _ new hk) (h.hosts k)
          (fun _ => id) fun _ _ => rfl
    · have hfree : (p.orchestrator i).busy = false := by
        cases hopening with
        | opening hfree _ _ _ _ => exact hfree
      obtain ⟨m, harrives⟩ := hopening.create hp.isProper (h.hosts i) hsame
        (fun n _ => passesBy_or_taken hp h hfree hsame n) (exists_not_taken hp h hsame)
      exact ⟨_, accord_of_arrives hp h hm hfree hdir harrives hnew⟩

/-- Every step keeps both runs undisturbed. -/
theorem exists_accord_of_step (h : d.Accord p got) (hstep : p.Step d d') :
    ∃ got', d'.Accord p got' := by
  cases hstep with
  | @move i position s new hmove hnew =>
    cases hm : got i with
    | none => exact exists_accord_of_unplaced hp h hm hmove hnew
    | some m => exact ⟨got, accord_of_placed hp h hm hmove hnew⟩

theorem exists_accord_of_reaches (h : d.Accord p got) (hreaches : p.Reaches d d') :
    ∃ got', d'.Accord p got' := by
  induction hreaches with
  | refl => exact ⟨got, h⟩
  | tail _ hstep ih =>
    obtain ⟨got', h'⟩ := ih
    exact exists_accord_of_step hp h' hstep

/-- The runs begin undisturbed. -/
theorem accord_start : p.start.Accord p fun _ => none where
  hosts := fun _ => ⟨rfl, hp.isProper⟩
  stands := fun i => .unplaced (.absent rfl) rfl (fun _ _ => rfl) rfl
  apart := by
    rintro i w ⟨m, hm, -⟩
    cases hm
  told := ⟨[], .nil, rfl⟩

/-- A run that has not returned can take a step that brings it nearer to its end. -/
theorem exists_step (h : d.Accord p got) (i : Side)
    (hreturned : ∀ o, (d.part i).position ≠ .returned o) :
    ∃ d', p.Step d d' ∧ (d'.part i).position.rank < (d.part i).position.rank ∧
      d'.part i.other = d.part i.other := by
  obtain ⟨position, s, hmove, hrank⟩ : ∃ position s,
      Position.Move (p.commission i) (d.scope i) (d.part i).position position s ∧
        position.rank < (d.part i).position.rank := by
    have hstands := h.stands i
    have hbeside := fun m => beside hp h (i := i) (m := m)
    cases hgot : got i with
    | none =>
      rw [hgot] at hstands
      cases hstands with
      | unplaced hu hscope _ _ =>
        rw [hscope]
        exact hu.exists_move d.host hreturned
    | some m =>
      rw [hgot] at hstands
      cases hstands with
      | placed _ hu hscope _ =>
        rw [hscope]
        exact hu.exists_move (hbeside m hgot) (p.commission i) hreturned
  obtain ⟨new, hnew⟩ := hmove.exists_journal_eq
  refine ⟨d.update i position s new, .move i hmove hnew, ?_, ?_⟩
  · rwa [Duet.position_update]
  · exact Duet.part_update_of_ne d i position s new i.other_ne

/-- One of the runs can go on until it returns. -/
theorem exists_returned (h : d.Accord p got) (i : Side) :
    ∃ d', p.Reaches d d' ∧ (∃ o, (d'.part i).position = .returned o) ∧
      d'.part i.other = d.part i.other := by
  -- on what the run has before it, while the other one stands still
  induction hrank : (d.part i).position.rank using WellFoundedLT.induction generalizing d got with
  | ind rank ih =>
    by_cases hreturned : ∃ o, (d.part i).position = .returned o
    · exact ⟨d, .refl, hreturned, rfl⟩
    · obtain ⟨d₁, hstep, hlt, hother⟩ := exists_step hp h i (not_exists.1 hreturned)
      obtain ⟨got₁, haccord⟩ := exists_accord_of_step hp h hstep
      obtain ⟨d', hreaches, hend, hother'⟩ := ih _ (hrank ▸ hlt) haccord rfl
      exact ⟨d', .head hstep hreaches, hend, hother'.trans hother⟩

/-- Both runs can go on until they have returned. -/
theorem exists_both_returned (h : d.Accord p got) :
    ∃ d', p.Reaches d d' ∧ ∀ i, ∃ o, (d'.part i).position = .returned o := by
  obtain ⟨d₁, hfirst, ⟨o, ho⟩, -⟩ := exists_returned hp h .left
  obtain ⟨got₁, h₁⟩ := exists_accord_of_reaches hp h hfirst
  obtain ⟨d₂, hsecond, hend, hother⟩ := exists_returned hp h₁ .right
  refine ⟨d₂, hfirst.trans hsecond, fun i => ?_⟩
  cases i with
  | left => exact ⟨o, (congrArg Duet.Part.position hother).trans ho⟩
  | right => exact hend

/-! ### Runs that do not notice each other -/

omit hp in
/-- What one of the runs has when it has returned is what it has on its own, on one of its
names. -/
structure AsAlone (p : Pairing) (d : Duet) (i : Side) (m : ℕ) (o : Outcome) : Prop where
  /-- It ends in the same way. -/
  outcome : (p.solo i m).result.1 = .ended o
  /-- Its orchestrator is left the same. -/
  orchestrator : (d.part i).orchestrator = (p.solo i m).after.orchestrator
  /-- The same processes were started, with the same warnings and messages, in the same order. -/
  journal : (d.part i).journal = (p.solo i m).after.journal
  /-- It has worked in the same directory, if in any. -/
  dir : (d.part i).dir = (p.solo i m).dir?
  /-- Its directory is left the same. -/
  contents : ∀ dir tree w, (d.part i).dir = some dir → (p.solo i m).WorksIn dir tree w →
    FileTree.SameBelow w d.host.tree (p.solo i m).after.host.tree

/-- A run that has returned has what it has on its own. -/
theorem asAlone_of_returned (h : d.Accord p got) {i : Side} {o : Outcome}
    (ho : (d.part i).position = .returned o) : p.AsAlone d i ((got i).getD 0) o := by
  have hstands := h.stands i
  have hbeside := fun m => beside hp h (i := i) (m := m)
  cases hgot : got i with
  | none =>
    rw [hgot] at hstands
    cases hstands with
    | unplaced hu hscope _ hdir =>
      -- it was turned away
      rw [ho] at hu
      obtain ⟨hresult, hnone⟩ := hu.result_eq 0
      have hafter : (p.solo i 0).after = _ := congrArg Prod.snd hresult
      refine ⟨congrArg Prod.fst hresult, ?_, ?_, hdir.trans hnone.symm, ?_⟩
      · rw [Option.getD_none, hafter]
        exact congrArg Scope.orchestrator hscope
      · rw [Option.getD_none, hafter]
        exact congrArg Scope.journal hscope
      · intro dir tree w hdir'
        rw [hdir] at hdir'
        cases hdir'
  | some m =>
    rw [hgot] at hstands
    cases hstands with
    | placed _ hu hscope hdir =>
      rw [ho] at hu
      have hresult := hu.result_eq
      have hafter : (p.solo i m).after = _ := congrArg Prod.snd hresult
      refine ⟨congrArg Prod.fst hresult, ?_, ?_, hdir, ?_⟩
      · rw [Option.getD_some, hafter]
        exact congrArg Scope.orchestrator hscope
      · rw [Option.getD_some, hafter]
        exact congrArg Scope.journal hscope
      · intro dir tree w _ hw q hq
        rw [Option.getD_some, hafter]
        exact (hu.agrees q ((hbeside m hgot).clear ⟨dir, tree, hw⟩ hq) id).symm

/-- The directories of the runs are different, and neither is in the other one. -/
theorem dirs_apart (h : d.Accord p got) {dir dir' : Path} (hdir : (d.part .left).dir = some dir)
    (hdir' : (d.part .right).dir = some dir') :
    dir ≠ dir' ∧ ∃ w w', p.Leads dir w ∧ p.Leads dir' w' ∧ ¬ w <+: w' ∧ ¬ w' <+: w := by
  have hplaces : ∀ i dir, (d.part i).dir = some dir →
      ∃ w, p.Leads dir w ∧ p.Places i (got i) w := by
    intro i dir hdir
    have hstands := h.stands i
    cases hgot : got i with
    | none =>
      rw [hgot] at hstands
      cases hstands with
      | unplaced _ _ _ hnone =>
        rw [hnone] at hdir
        cases hdir
    | some m =>
      rw [hgot] at hstands
      cases hstands with
      | placed _ _ _ hsome =>
        have htree : (p.solo i m).before.host.tree.IsTree := hp.isProper.isTree
        obtain ⟨tree, w, hw⟩ := Round.exists_worksIn_of_dir? htree (hsome.symm.trans hdir)
        obtain ⟨d', n, rfl, -, -, hx⟩ := hw.exists_vacant htree
        exact ⟨_, ⟨d', n, rfl, hx⟩, m, rfl, dir, tree, hw⟩
  obtain ⟨w, hleads, hw⟩ := hplaces .left dir hdir
  obtain ⟨w', hleads', hw'⟩ := hplaces .right dir' hdir'
  have hclear := h.apart .left w hw w' hw'
  have hclear' := h.apart .right w' hw' w hw
  refine ⟨?_, w, w', hleads, hleads', hclear', hclear⟩
  -- one path would lead to one place
  rintro rfl
  rw [hleads.unique hleads'] at hclear
  exact hclear (List.prefix_refl w')

end Steps

/-- How one of two runs may be led into the directory of the other one. -/
inductive Trap where
  /-- It is not. -/
  | none
  /-- What its transformer leaves for a scene is a link to the scene of the other one. -/
  | link
  /-- Its prefix has a slash after the name of that directory. -/
  | slash

/-- The place where a process works: where it starts, or where it is told to write. -/
def clipPlace (c : Call) : Place :=
  match c.cwd with
  | some dir => FileTree.stepsOf dir
  | none =>
    FileTree.stepsOf (((Path.ofString (c.invocation.args.getD 1 "")).parent?).getD ⟨[]⟩)

/-- What is in the directory at a place when the scene is cut, and when it is rendered. -/
def clipFiles (w : Place) (scene : Entry) (rendered : Bool) : FileTree :=
  let name := encode
  let cut := w.inits.tail.map (·, .directory) ++ [(w ++ [name "temp_scene.py"], scene)]
  let videos := [(w ++ [name "media"], .directory),
    (w ++ [name "media", name "videos"], .directory),
    (w ++ [name "media", name "videos", name "temp_scene"], .directory),
    (w ++ [name "media", name "videos", name "temp_scene", name "480p15"], .directory),
    (w ++ [name "media", name "videos", name "temp_scene", name "480p15", name "Intro.mp4"],
      .file [118] false)]
  ⟨if rendered then cut ++ videos else cut⟩

/-- A transformer that leaves a scene, and a renderer that writes a line and leaves a video. -/
def clipRunner (scene : Entry) : Runner := fun h c =>
  let w := clipPlace c
  let tree := h.tree.graft w (clipFiles w scene c.cwd.isSome)
  { chunks := if c.cwd.isSome then [⟨.stdout, "frame"⟩] else []
    result := .ok {}
    host := { h with tree } }

/-- The names that two runs draw.  The first one may be the same for both. -/
def clipName : Trap → Side → ℕ → String
  | .none, _, 0 => "Ab3dE9"
  | _, .left, _ => "Kk7mN2"
  | _, .right, _ => "Zz9yX8"

/-- The prefixes of the names. -/
def clipPrefix : Trap → Side → String
  | .slash, .left => "Zz9yX8/"
  | _, _ => ""

/-- What the transformers leave for a scene. -/
def clipScene : Trap → Side → Entry
  | .link, .left => .link (Path.ofString "/Zz9yX8/temp_scene.py")
  | _, _ => .file [] false

/-- Two runs that make their directories in the root, and keep them. -/
def clips (trap : Trap) : Pairing where
  host := {}
  orchestrator := fun i =>
    { settings := { tempRoot := some (Path.ofString "/"), workdirPrefix := clipPrefix trap i,
                    keepFailedWorkdir := true } }
  commission := fun i => ⟨clipRunner (clipScene trap i), { suffixes := clipName trap i },
    ⟨"", 5, none, by decide⟩⟩

/-- The paths of their directories. -/
def clipDir (trap : Trap) (i : Side) (m : ℕ) : Path :=
  Path.ofString ("/" ++ clipPrefix trap i ++ clipName trap i m)

/-- The places of their directories. -/
def clipWhere : Trap → Side → ℕ → Place
  | .slash, .left, _ => [encode "Zz9yX8", encode "Kk7mN2"]
  | trap, i, m => [encode (clipName trap i m)]

/-- All of these places. -/
def clipPlaces : List Place :=
  [[encode "Ab3dE9"], [encode "Kk7mN2"], [encode "Zz9yX8"], [encode "Zz9yX8", encode "Kk7mN2"]]

/-- The video of a run. -/
def clipVideo (trap : Trap) (i : Side) (m : ℕ) : Artifact :=
  ⟨Path.ofString ("/" ++ clipPrefix trap i ++ clipName trap i m
    ++ "/media/videos/temp_scene/480p15/Intro.mp4")⟩

section Clips

variable (trap : Trap) (i : Side) (m : ℕ)

theorem clipWhere_mem : clipWhere trap i m ∈ clipPlaces := by
  cases trap <;> cases i <;> cases m <;> simp [clipWhere, clipName, clipPlaces]

theorem isProper_clipFiles (rendered : Bool) :
    (clipFiles (clipWhere trap i m) (clipScene trap i) rendered).IsProper := by
  have hproper : ∀ w ∈ clipPlaces,
      ∀ scene ∈ [.file [] false, .link (Path.ofString "/Zz9yX8/temp_scene.py")], ∀ rendered,
        (clipFiles w scene rendered).IsProper := by
    decide +kernel
  refine hproper _ (clipWhere_mem trap i m) _ ?_ rendered
  cases trap <;> cases i <;> simp [clipScene]

theorem isProper_nil : FileTree.IsProper {} := by decide

variable {trap i m}

/-- The processes keep to the directories of the runs, whatever files these find. -/
theorem secluded_of_worksIn {t tree : FileTree}
    (hw : (((clips trap).finding t).solo i m).WorksIn (clipDir trap i m) tree
      (clipWhere trap i m)) :
    (((clips trap).finding t).solo i m).Secluded := by
  intro dir tree' w hw' c hc
  obtain ⟨rfl, rfl, rfl⟩ := hw.unique hw'
  have hplace : clipPlace c = clipWhere trap i m := by
    rcases List.mem_cons.1 hc with rfl | hc
    · cases trap with
      | none => cases i <;> cases m <;> cbv
      | link => cases i <;> cbv
      | slash => cases i <;> cbv
    · obtain rfl := List.mem_singleton.1 hc
      cases trap with
      | none => cases i <;> cases m <;> cbv
      | link => cases i <;> cbv
      | slash => cases i <;> cbv
  have hrun : ∀ h, (((clips trap).finding t).solo i m).runner h c
      = ⟨if c.cwd.isSome then [⟨.stdout, "frame"⟩] else [], .ok {},
        { h with
          tree := h.tree.graft (clipWhere trap i m)
            (clipFiles (clipWhere trap i m) (clipScene trap i) c.cwd.isSome) }⟩ := by
    intro h
    rw [← hplace]
    rfl
  exact Round.keepsTo_of_graft hrun (isProper_clipFiles trap i m _) hw.isAbsolute

/-- A run that gets a directory ends with a video if its scene and its video are found. -/
theorem exists_ended {r : Round} {tree : FileTree} (hfree : r.before.orchestrator.busy = false)
    (hmade : r.made = .ok (clipDir trap i m, tree))
    (hs : Slice.outcome (r.sliced (clipDir trap i m) tree) (WorkDir.scenePath (clipDir trap i m))
      = .ok (WorkDir.scenePath (clipDir trap i m)))
    (ho : (Render.outcome (r.rendered (clipDir trap i m) tree) (clipDir trap i m)
      (WorkDir.scenePath (clipDir trap i m))).1 = .ok (clipVideo trap i m)) :
    ∃ run, r.result.1 = .ended (.ok run) := by
  obtain ⟨run, hrun, -⟩ := Orchestrator.ended_of_rendered hfree hmade hs ho
  exact ⟨run, hrun⟩

end Clips

/-- The files when a directory is new. -/
def clipTree (trap : Trap) (i : Side) (m : ℕ) (t : FileTree) : FileTree :=
  t.insert (clipWhere trap i m) .directory

theorem makeDir_slash (n : ℕ) : (clips .slash).host.tree.makeDir (clips .slash).host.cwd
    (((clips .slash).round .left).candidate n) = .error (.os .notFound) := by
  cbv

/-- A run whose prefix leads nowhere gets no directory. -/
theorem exists_made_slash (m : ℕ) : ∃ e, ((clips .slash).solo .left m).made = .error e := by
  have hmake := makeDir_slash m
  have hfree : ¬ WorkDir.Taken (clips .slash).host (((clips .slash).round .left).candidate m) := by
    rw [WorkDir.Taken, hmake]
    intro h
    cases h
  have hmade : ((clips .slash).solo .left m).made
      = WorkDir.attempt (clips .slash).host (((clips .slash).round .left).candidate m) :=
    WorkDir.createFrom_of_first (k := 0) (Nat.le_refl 0) (by decide)
      (fun j _ hj => absurd hj (Nat.not_lt_zero j)) hfree
  rw [hmade, WorkDir.attempt, hmake]
  exact ⟨_, rfl⟩

theorem worksIn_clips (trap : Trap) (i : Side) (h : trap = .slash → i = .right) (m : ℕ) :
    ((clips trap).solo i m).WorksIn (clipDir trap i m) (clipTree trap i m {})
      (clipWhere trap i m) := by
  cases trap with
  | none => cases i <;> cases m <;> exact ⟨by cbv, by cbv⟩
  | link => cases i <;> exact ⟨by cbv, by cbv⟩
  | slash =>
    obtain rfl := h rfl
    exact ⟨by cbv, by cbv⟩

theorem secluded_clips (trap : Trap) (i : Side) (m : ℕ) : ((clips trap).solo i m).Secluded := by
  by_cases h : trap = .slash → i = .right
  · exact secluded_of_worksIn (t := {}) (worksIn_clips trap i h m)
  · -- there is no directory
    intro dir tree w hw
    cases trap with
    | none => exact absurd nofun h
    | link => exact absurd nofun h
    | slash =>
      cases i with
      | left =>
        obtain ⟨e, he⟩ := exists_made_slash m
        cases he.symm.trans hw.made
      | right => exact absurd (fun _ => rfl) h

/-- One of the names of a run is free and not that of the other one. -/
theorem exists_leads_elsewhere (trap : Trap) (i : Side) {m : ℕ} {w : Place}
    (hw : ((clips trap).solo i.other m).Works w) : ∃ n, n < WorkDir.maxAttempts ∧
      ¬ WorkDir.Taken (clips trap).host (((clips trap).round i).candidate n) ∧
        ¬ (clips trap).Leads (((clips trap).round i).candidate n) w := by
  have hleads : (trap = .slash → i = .right) → ∀ n,
      (clips trap).Leads (((clips trap).round i).candidate n) (clipWhere trap i n) :=
    fun h n => exists_leads isProper_nil ⟨_, _, worksIn_clips trap i h n⟩
  cases trap with
  | none =>
    have hleads := hleads nofun
    by_cases h : clipWhere .none i 0 = w
    · refine ⟨1, by decide, (hleads 1).not_taken, fun hw' => ?_⟩
      have heq := h.trans (hw'.unique (hleads 1))
      revert heq
      cases i <;> decide +kernel
    · exact ⟨0, by decide, (hleads 0).not_taken, fun hw' => h ((hleads 0).unique hw')⟩
  | link =>
    have hne : clipWhere .link .left 0 ≠ clipWhere .link .right 0 := by decide +kernel
    refine ⟨0, by decide, (hleads nofun 0).not_taken, fun hw' => ?_⟩
    have heq := ((hleads nofun 0).unique hw').trans
      (Round.Works.eq ⟨_, _, worksIn_clips .link i.other nofun m⟩ hw)
    cases i with
    | left => exact hne heq
    | right => exact hne heq.symm
  | slash =>
    cases i with
    | left =>
      have hmake := makeDir_slash 0
      refine ⟨0, by decide, ?_, ?_⟩
      · rw [WorkDir.Taken, hmake]
        intro h
        cases h
      · rintro ⟨d, n, -, hx⟩
        rw [FileTree.makeDir, hx] at hmake
        cases hmake
    | right =>
      obtain ⟨dir, tree, hw⟩ := hw
      obtain ⟨e, he⟩ := exists_made_slash m
      cases he.symm.trans hw.made

theorem granted_clips (trap : Trap) : (clips trap).Granted where
  isProper := isProper_nil
  root_eq := rfl
  secluded := secluded_clips trap
  fresh := by
    refine ⟨fun i m w hw _ => exists_leads_elsewhere trap i hw, ?_⟩
    -- both runs keep their directories
    rintro - i m w ⟨dir, tree, hw⟩ hgone
    have hproper : ((clips trap).solo i m).before.host.tree.IsProper := isProper_nil
    have hisolated := hw.isolated rfl hproper.isTree
      ((secluded_clips trap i m).confined hproper)
    rw [hisolated.stays_iff.2 (.inr rfl)] at hgone
    cases hgone

theorem plain_clips (trap : Trap) (h : trap ≠ .slash) : (clips trap).Plain := by
  have hnames : ∀ name ∈ ["Ab3dE9", "Kk7mN2", "Zz9yX8"], Path.IsName (encode ("" ++ name)) := by
    decide +kernel
  intro i n
  cases trap with
  | none => cases i <;> cases n <;> exact hnames _ (by simp [clips, clipName])
  | link => cases i <;> exact hnames _ (by simp [clips, clipName])
  | slash => exact absurd rfl h

theorem unlinked_none : (clips .none).Unlinked := by
  have hworks := fun i m => worksIn_clips .none i nofun m
  rintro - i m m' w ⟨dir, tree, hw⟩ hnot
  obtain ⟨rfl, rfl, rfl⟩ := (hworks i.other m').unique hw
  have hne : encode (clipName .none i.other m') ≠ encode (clipName .none i m) := by
    intro heq
    have hsame : clipWhere .none i.other m' = clipWhere .none i m := congrArg (fun n => [n]) heq
    rw [hsame] at hnot
    exact hnot ⟨_, _, hworks i m⟩
  -- a look-up that goes from name to name below the one directory does not come to the other one
  have hpasses : ∀ (t : FileTree) (follow : Bool) (p : Path) (ns : List Name),
      FileTree.trail t follow FileTree.maxLinks (if p.isAbsolute then [] else [])
        (FileTree.stepsOf p) = (List.inits (encode (clipName .none i m) :: ns)).tail →
      t.PassesBy [] follow p (clipWhere .none i.other m') := by
    intro t follow p ns htrail q hq hle
    have hmem : q ∈ List.inits (encode (clipName .none i m) :: ns) :=
      List.mem_of_mem_tail (htrail ▸ hq)
    have hinit := hle.trans ((List.mem_inits _ _).1 hmem)
    exact hne (List.cons_prefix_cons.1 hinit).1
  constructor
  · intro dir tree w stderr h hw hsees
    obtain ⟨rfl, rfl, rfl⟩ := (hworks i m).unique hw
    cases hsees
    exact hpasses _ _ _ [encode "temp_scene.py"] (by cases i <;> cases m <;> cbv)
  · intro dir tree w stderr h hw hsees
    obtain ⟨rfl, rfl, rfl⟩ := (hworks i m).unique hw
    cases hsees
    refine ⟨hpasses _ _ _ [encode "media", encode "videos", encode "temp_scene", encode "480p15"]
      (by cases i <;> cases m <;> cbv), ?_⟩
    have hread : (((clips .none).solo i m).rendered (clipDir .none i m)
        (clipTree .none i m {})).host.tree.readDir [] (Render.artifactDir (clipDir .none i m)
          (WorkDir.scenePath (clipDir .none i m))) = .ok [encode "Intro.mp4"] := by
      cases i <;> cases m <;> cbv
    intro names hnames n hn
    obtain rfl := Except.ok.inj (hread.symm.trans hnames)
    obtain rfl := List.mem_singleton.1 hn
    exact hpasses _ _ _ [encode "media", encode "videos", encode "temp_scene", encode "480p15",
      encode "Intro.mp4"] (by cases i <;> cases m <;> cbv)

theorem unlinked_slash : (clips .slash).Unlinked := by
  have hnot : ∀ m w, ¬ ((clips .slash).solo .left m).Works w := by
    rintro m w ⟨dir, tree, hw⟩
    obtain ⟨e, he⟩ := exists_made_slash m
    cases he.symm.trans hw.made
  rintro - i m m' w hw -
  cases i with
  | left => exact ⟨fun _ _ w' _ _ hw' => absurd ⟨_, _, hw'⟩ (hnot m w'),
      fun _ _ w' _ _ hw' => absurd ⟨_, _, hw'⟩ (hnot m w')⟩
  | right => exact absurd hw (hnot m' w)

/-- The files that the second of two runs finds. -/
def clipLeft : FileTree := clipFiles [encode "Zz9yX8"] (.file [] false) true

section Second

variable {trap : Trap} (h : trap ≠ .none) (m : ℕ)
include h

theorem tree_after : ((clips trap).solo .right m).after.host.tree = clipLeft := by
  have hmade := (worksIn_clips trap .right (fun _ => rfl) m).made
  have hs : Slice.outcome (((clips trap).solo .right m).sliced (clipDir trap .right m)
      (clipTree trap .right m {})) (WorkDir.scenePath (clipDir trap .right m))
        = .ok (WorkDir.scenePath (clipDir trap .right m)) := by
    cases trap <;> first | exact absurd rfl h | cbv
  rw [(Round.after_of_ok rfl hmade).1 (.inr rfl), Round.left_of_ok hs]
  cases trap <;> first | exact absurd rfl h | cbv

theorem worksIn_second : (((clips trap).finding clipLeft).solo .left m).WorksIn
    (clipDir trap .left m) (clipTree trap .left m clipLeft) (clipWhere trap .left m) := by
  cases trap <;> first | exact absurd rfl h | exact ⟨by cbv, by cbv⟩

/-- With the files of the other run, the run ends with a video. -/
theorem exists_ended_second :
    ∃ run, (((clips trap).finding clipLeft).solo .left m).result.1 = .ended (.ok run) := by
  refine exists_ended rfl (worksIn_second h m).made ?_ ?_ <;>
    cases trap <;> first | exact absurd rfl h | cbv

/-- On its own, the run fails. -/
theorem exists_failed : ∃ f, ((clips trap).solo .left m).result.1 = .ended (.error f) := by
  cases trap with
  | none => exact absurd rfl h
  | link =>
    have hmade := (worksIn_clips .link .left nofun m).made
    have hscene : (Slice.outcome (((clips .link).solo .left m).sliced (clipDir .link .left m)
        (clipTree .link .left m {})) (WorkDir.scenePath (clipDir .link .left m))).isOk = false := by
      cbv
    cases hs : Slice.outcome (((clips .link).solo .left m).sliced (clipDir .link .left m)
      (clipTree .link .left m {})) (WorkDir.scenePath (clipDir .link .left m)) with
    | error f => exact ⟨f, Orchestrator.ended_of_unsliced rfl hmade hs⟩
    | ok scene =>
      rw [hs] at hscene
      cases hscene
  | slash =>
    obtain ⟨e, he⟩ := exists_made_slash m
    exact ⟨_, Orchestrator.ended_of_error rfl he⟩

/-- A run that comes when the other one has returned ends otherwise than on its own. -/
theorem exists_otherwise : ∃ d o, (clips trap).Reaches (clips trap).start d ∧
    (d.part .left).position = .returned o ∧ ∀ m, ¬ (clips trap).AsAlone d .left m o := by
  have hproper : clipLeft.IsProper := isProper_clipFiles .link .right 0 true
  obtain ⟨d, o, m, hreaches, hreturned, ho⟩ := exists_reaches_second isProper_nil
    (secluded_clips trap .right) hproper (tree_after h)
    fun m => secluded_of_worksIn (worksIn_second h m)
  refine ⟨d, o, hreaches, hreturned, fun m' halone => ?_⟩
  obtain ⟨run, hrun⟩ := exists_ended_second h m
  obtain ⟨f, hf⟩ := exists_failed h m'
  have heq : Progress.ended (.ok run) = .ended (.error f) :=
    hrun.symm.trans (ho.trans (halone.outcome.symm.trans hf))
  cases heq

end Second

end Pairing

end ScenePreview
