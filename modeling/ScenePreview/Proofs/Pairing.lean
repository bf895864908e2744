import ScenePreview.Proofs.Arrival
import ScenePreview.Proofs.Display

/-!
# Two runs that share a host and a display

Two orchestrators share a host, a directory for their working directories and a display, and each
of them has a run.  The steps of the runs and of their processes come in any order.

## Main definitions

* `Shuffle` — a list that two others are merged into.
* `Pairing`, `Pairing.solo` — two runs that are to share a host, and each of them on its own on
  one of its names.
* `Duet`, `Pairing.Step` — where both runs stand, and one step of one of them.
* `Pairing.Granted` — what is granted of two runs: their processes keep to the directory of the run,
  and the paths that are drawn are fresh.
* `Pairing.Plain`, `Pairing.Unlinked` — neither run is led into the directory of the other one, by a
  prefix with a slash or by a link.

## Main results

* `Pairing.passesBy_or_leads` — a name that a run draws passes by the directory of the other one,
  or is its name.
* `Pairing.exists_reaches_second` — one run may come when the other one has returned, and then it
  goes as it does with the files that this one has left.
-/

namespace ScenePreview

open Text.Utf8 (encode)

/-! ### Shuffles -/

/-- A list that two others are merged into, each in its order. -/
inductive Shuffle {α : Type*} : List α → List α → List α → Prop
  | nil : Shuffle [] [] []
  | left {a : α} {l r t : List α} (h : Shuffle l r t) : Shuffle (a :: l) r (a :: t)
  | right {a : α} {l r t : List α} (h : Shuffle l r t) : Shuffle l (a :: r) (a :: t)

namespace Shuffle

variable {α β : Type*} {l r t l' r' t' : List α}

theorem left_nil (l : List α) : Shuffle l [] l := by
  induction l with
  | nil => exact .nil
  | cons a l ih => exact .left ih

theorem right_nil (r : List α) : Shuffle [] r r := by
  induction r with
  | nil => exact .nil
  | cons a r ih => exact .right ih

theorem append (h : Shuffle l r t) (h' : Shuffle l' r' t') :
    Shuffle (l ++ l') (r ++ r') (t ++ t') := by
  induction h with
  | nil => exact h'
  | left _ ih => exact .left ih
  | right _ ih => exact .right ih

theorem filterMap (f : α → Option β) (h : Shuffle l r t) :
    Shuffle (l.filterMap f) (r.filterMap f) (t.filterMap f) := by
  induction h with
  | nil => exact .nil
  | @left a l r t _ ih =>
    rw [List.filterMap_cons, List.filterMap_cons]
    cases f a with
    | none => exact ih
    | some b => exact .left ih
  | @right a l r t _ ih =>
    rw [List.filterMap_cons, List.filterMap_cons]
    cases f a with
    | none => exact ih
    | some b => exact .right ih

/-- Nothing is lost in a shuffle, and nothing comes twice. -/
theorem perm (h : Shuffle l r t) : t.Perm (l ++ r) := by
  induction h with
  | nil => exact .nil
  | left _ ih => exact ih.cons _
  | right _ ih => exact (ih.cons _).trans List.perm_middle.symm

end Shuffle

/-! ### Two runs -/

/-- The two runs. -/
inductive Side where
  /-- One of them. -/
  | left
  /-- The other one. -/
  | right
  deriving DecidableEq

/-- The other run. -/
def Side.other : Side → Side
  | .left => .right
  | .right => .left

@[simp] theorem Side.other_other (i : Side) : i.other.other = i := by cases i <;> rfl

theorem Side.other_ne (i : Side) : i.other ≠ i := by cases i <;> nofun

theorem Side.eq_other_of_ne {i k : Side} (h : k ≠ i) : k = i.other := by
  cases i with
  | left => cases k with
    | left => exact absurd rfl h
    | right => rfl
  | right => cases k with
    | left => rfl
    | right => exact absurd rfl h

/-- Two runs that are to share a host. -/
structure Pairing where
  /-- The host. -/
  host : Host
  /-- The orchestrators of the runs. -/
  orchestrator : Side → Orchestrator
  /-- What the runs are given. -/
  commission : Side → Commission

/-- Where one of the runs stands, with what is its own. -/
structure Duet.Part where
  /-- Its orchestrator. -/
  orchestrator : Orchestrator
  /-- What has happened in it. -/
  journal : List Happening := []
  /-- Where it stands. -/
  position : Position := .absent
  /-- The directory in which it works or has worked. -/
  dir : Option Path := none

/-- Two runs, with what they share. -/
structure Duet where
  /-- The host. -/
  host : Host
  /-- The display. -/
  recorder : Recorder := {}
  /-- The runs. -/
  part : Side → Duet.Part

/-- The message of a line of the journal that is one. -/
def Happening.message? : Happening → Option Message
  | .message m => some m
  | .call .. | .warning _ => none

theorem Scope.messages_eq (s : Scope) : s.messages = s.journal.filterMap Happening.message? := by
  refine List.filterMap_congr fun x _ => ?_
  cases x <;> rfl

namespace Duet

/-- What one of the runs has before it. -/
def scope (d : Duet) (i : Side) : Scope :=
  { orchestrator := (d.part i).orchestrator, host := d.host, journal := (d.part i).journal }

/-- One of the runs takes a step, and the display is told what is new in its journal. -/
def update (d : Duet) (i : Side) (position : Position) (s : Scope) (new : List Happening) : Duet :=
  { host := s.host
    recorder := (new.filterMap Happening.message?).foldl Recorder.receive d.recorder
    part := Function.update d.part i
      { orchestrator := s.orchestrator
        journal := s.journal
        position
        dir := position.dir?.or (d.part i).dir } }

section Update

variable (d : Duet) (i : Side) (position : Position) (s : Scope) (new : List Happening)

theorem part_update : (d.update i position s new).part i
    = { orchestrator := s.orchestrator, journal := s.journal, position,
        dir := position.dir?.or (d.part i).dir } :=
  Function.update_self ..

@[simp] theorem position_update :
    ((d.update i position s new).part i).position = position := by
  rw [part_update]

@[simp] theorem dir_update :
    ((d.update i position s new).part i).dir = position.dir?.or (d.part i).dir := by
  rw [part_update]

@[simp] theorem scope_update : (d.update i position s new).scope i = s := by
  rw [scope, part_update]
  rfl

theorem part_update_of_ne {k : Side} (h : k ≠ i) :
    (d.update i position s new).part k = d.part k :=
  Function.update_of_ne h _ _

end Update

end Duet

namespace Pairing

variable (p : Pairing)

/-- One of the runs. -/
def round (i : Side) : Round :=
  { p.commission i with before := { orchestrator := p.orchestrator i, host := p.host } }

/-- The runs, if they find other files. -/
def finding (t : FileTree) : Pairing := { p with host := { p.host with tree := t } }

/-- One of the runs on its own, on one of the names that it draws. -/
def solo (i : Side) (m : ℕ) : Round := (p.round i).named m

/-- Neither run has come yet. -/
def start : Duet := { host := p.host, part := fun i => { orchestrator := p.orchestrator i } }

/-- One of the runs takes a step. -/
inductive Step (d : Duet) : Duet → Prop
  | move (i : Side) {position : Position} {s : Scope} {new : List Happening}
      (h : Position.Move (p.commission i) (d.scope i) (d.part i).position position s)
      (hnew : s.journal = (d.part i).journal ++ new) : Step d (d.update i position s new)

/-- Any number of steps, of the runs in any order. -/
def Reaches : Duet → Duet → Prop := Relation.ReflTransGen p.Step

/-! ### Names and links -/

/-- Both orchestrators are free when their runs come. -/
def Free : Prop := ∀ i, (p.orchestrator i).busy = false

/-- A name that a run draws for its directory. -/
def name (i : Side) (n : ℕ) : Name :=
  encode ((p.orchestrator i).settings.workdirPrefix ++ (p.commission i).chance.suffixes n)

/-- A path leads to a free place on the host that the runs find. -/
def Leads (dir : Path) (w : Place) : Prop :=
  ∃ d n, w = d ++ [n] ∧ p.host.tree.resolve p.host.cwd false dir = .ok (.vacant d n)

/-- The paths that are drawn are fresh.  The runs may well draw the same ones. -/
structure Fresh : Prop where
  /-- The directory of one run does not take all of the names that are free for the other one. -/
  enough : ∀ i m w, (p.solo i.other m).Works w →
    (∃ n, n < WorkDir.maxAttempts ∧ ¬ WorkDir.Taken p.host ((p.round i).candidate n)) →
      ∃ n, n < WorkDir.maxAttempts ∧ ¬ WorkDir.Taken p.host ((p.round i).candidate n) ∧
        ¬ p.Leads ((p.round i).candidate n) w
  /-- The name of a directory that goes with its run is not drawn for the other one. -/
  again : p.Free → ∀ i m w, (p.solo i m).Works w → (p.solo i m).after.host.tree.get? w = none →
    ∀ n, ¬ p.Leads ((p.round i.other).candidate n) w

/-- What is granted of two runs that share a host. -/
structure Granted : Prop where
  /-- They find a proper tree. -/
  isProper : p.host.tree.IsProper
  /-- They make their directories in one directory. -/
  root_eq : (p.orchestrator .left).settings.tempRoot = (p.orchestrator .right).settings.tempRoot
  /-- Their processes depend on their calls and on the directory of the run only, and write nowhere
  else. -/
  secluded : ∀ i m, (p.solo i m).Secluded
  /-- They draw paths that are fresh. -/
  fresh : p.Fresh

/-- No name that is drawn has a slash, as it would if a prefix had one. -/
def Plain : Prop := ∀ i n, Path.IsName (p.name i n)

/-- No link leads a run to the directory of the other one: when it looks for its scene and for its
video, it comes upon no directory of the other one that is not its own. -/
def Unlinked : Prop :=
  p.Free → ∀ i m m' w, (p.solo i.other m').Works w → ¬ (p.solo i m).Works w →
    (p.solo i m).Overlooks w

variable {p}

/-! ### The directories -/

section Static

variable (htree : p.host.tree.IsProper) {i : Side} {m n : ℕ} {w w' : Place}
include htree

/-- The directory of a run is made at a free place. -/
theorem exists_leads (hw : (p.solo i m).Works w) : p.Leads ((p.round i).candidate m) w := by
  obtain ⟨dir, tree, hw⟩ := hw
  have ht : (p.solo i m).before.host.tree.IsTree := htree.isTree
  obtain ⟨d, n, rfl, -, -, hx⟩ := hw.exists_vacant ht
  obtain ⟨⟨k, rfl⟩, -⟩ := WorkDir.makeDir_of_createFrom hw.made
  exact ⟨d, n, rfl, hx⟩

omit htree in
/-- A path leads to one place. -/
theorem Leads.unique {dir : Path} (hw : p.Leads dir w) (hw' : p.Leads dir w') : w = w' := by
  obtain ⟨d, n, rfl, hx⟩ := hw
  obtain ⟨d', n', rfl, hx'⟩ := hw'
  rw [hx] at hx'
  cases hx'
  rfl

omit htree in
theorem Leads.not_taken {dir : Path} (hw : p.Leads dir w) : ¬ WorkDir.Taken p.host dir := by
  obtain ⟨d, n, rfl, hx⟩ := hw
  rw [WorkDir.Taken, FileTree.makeDir, hx]
  intro h
  cases h

/-- Nothing is at a place to which a path leads as to a free one, and its directory is there. -/
theorem Leads.free {dir : Path} (habs : dir.isAbsolute = true) (hw : p.Leads dir w) :
    ∃ d n, w = d ++ [n] ∧ p.host.tree.get? d = some .directory ∧
      ∀ q, w <+: q → p.host.tree.get? q = none := by
  obtain ⟨d, n, rfl, hx⟩ := hw
  have hwalk := (FileTree.resolve_eq_ok_iff.1 hx).2
  rw [if_pos habs] at hwalk
  obtain ⟨hd, hnone⟩ := FileTree.free_of_walk htree.isTree (FileTree.get?_root _) hwalk
  exact ⟨d, n, rfl, hd, fun q => htree.isTree.get?_eq_none_of_prefix hnone⟩

theorem Works.free (hw : (p.solo i m).Works w) : ∃ d n, w = d ++ [n] ∧
    p.host.tree.get? d = some .directory ∧ ∀ q, w <+: q → p.host.tree.get? q = none :=
  Leads.free htree (WorkDir.isAbsolute_candidate ..) (exists_leads htree hw)

/-- Two places that were free are the same, or neither is in the other. -/
theorem Works.eq_of_le {k : Side} (hw : (p.solo i m).Works w) (hw' : (p.solo k n).Works w')
    (hle : w <+: w') : w = w' := by
  obtain ⟨-, -, -, -, hfree⟩ := Works.free htree hw
  obtain ⟨d, n, rfl, hd, -⟩ := Works.free htree hw'
  rcases List.prefix_concat_iff.1 hle with heq | hle
  · exact heq
  · rw [hfree d hle] at hd
    cases hd

variable (hroot : (p.orchestrator .left).settings.tempRoot
  = (p.orchestrator .right).settings.tempRoot) (hplain : p.Plain)
include hroot hplain

/-- A name that a run draws passes by the directory of the other one, or is its name. -/
theorem passesBy_or_leads (hw : (p.solo i.other m).Works w) (n : ℕ) :
    p.host.tree.PassesBy p.host.cwd false ((p.round i).candidate n) w ∨
      p.Leads ((p.round i).candidate n) w := by
  have hleads := exists_leads htree hw
  have hsame : (p.orchestrator i.other).settings.tempRoot
      = (p.orchestrator i).settings.tempRoot := by
    cases i with
    | left => exact hroot.symm
    | right => exact hroot
  -- both names are in one directory
  have hother : (p.round i.other).candidate m
      = (WorkDir.parentOf p.host (p.orchestrator i).settings.tempRoot).join
        ⟨p.name i.other m⟩ := by
    rw [← hsame]
    rfl
  rw [hother] at hleads
  by_cases hname : p.name i.other m = p.name i n
  · rw [hname] at hleads
    exact .inr hleads
  · obtain ⟨d, n', rfl, hx⟩ := hleads
    exact .inl (FileTree.passesBy_sibling htree.isTree (Host.isAbsolute_absolute ..)
      (hplain i.other m) (hplain i n) hname hx)

end Static

/-! ### One run after the other -/

/-- A run goes on while the other one stands still. -/
theorem exists_reaches_of_goes {d : Duet} {i : Side} {x : Position × Scope}
    (h : Position.Goes (p.commission i) ((d.part i).position, d.scope i) x) :
    ∃ d', p.Reaches d d' ∧ (d'.part i).position = x.1 ∧ d'.scope i = x.2 ∧
      d'.part i.other = d.part i.other := by
  induction h with
  | refl => exact ⟨d, .refl, rfl, rfl, rfl⟩
  | @tail y z _ hmove ih =>
    obtain ⟨d₁, hreaches, hposition, hscope, hother⟩ := ih
    rw [← hposition, ← hscope] at hmove
    obtain ⟨new, hnew⟩ := hmove.exists_journal_eq
    refine ⟨d₁.update i z.1 z.2 new, .tail hreaches (.move i hmove hnew),
      Duet.position_update .., Duet.scope_update .., ?_⟩
    rw [Duet.part_update_of_ne d₁ i z.1 z.2 new i.other_ne, hother]

/-- If one run comes when the other one has returned, then it goes as it does with the files that
this one has left. -/
theorem exists_reaches_second (htree : p.host.tree.IsProper)
    (hsecluded : ∀ m, (p.solo .right m).Secluded) {t : FileTree} (ht : t.IsProper)
    (hafter : ∀ m, (p.solo .right m).after.host.tree = t)
    (hsecluded' : ∀ m, ((p.finding t).solo .left m).Secluded) :
    ∃ d o m, p.Reaches p.start d ∧ (d.part .left).position = .returned o ∧
      ((p.finding t).solo .left m).result.1 = .ended o := by
  obtain ⟨m, _, s, hgoes, hend⟩ := (p.round .right).exists_goes htree hsecluded
    ⟨rfl, htree⟩ fun _ => rfl
  obtain ⟨d, hfirst, -, hscope, hother⟩ := exists_reaches_of_goes (d := p.start) (i := .right)
    hgoes
  have hhost : d.host = s.host := congrArg Scope.host hscope
  have hleft : d.part .left = p.start.part .left := hother
  obtain ⟨m', o, s', hgoes', hend'⟩ := ((p.finding t).round .left).exists_goes ht
    hsecluded' ⟨hend.files, hend.isProper⟩ fun q => hafter m ▸ hend.same q
  rw [← hhost] at hgoes'
  obtain ⟨d', hsecond, hposition, -⟩ := exists_reaches_of_goes (d := d) (i := .left)
    (x := (.returned o, s')) (by rwa [Duet.scope, hleft])
  exact ⟨d', o, m', hfirst.trans hsecond, hposition, hend'.outcome⟩

end Pairing

end ScenePreview
