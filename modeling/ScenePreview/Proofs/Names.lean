import ScenePreview.Proofs.Seclusion

/-!
# Names that are drawn

A working directory gets the first name, of those that are drawn for it, that is not taken.  A name
may be taken by the directory of another run.  Here it is said what comes of this: the run gets the
directory that it would get without the others if it drew only the name that it gets.

## Main definitions

* `WorkDir.Taken`, `WorkDir.attempt` — a path where something is, and what comes of one name.

## Main results

* `WorkDir.createFrom_of_first`, `WorkDir.createFrom_of_taken` — the first name that is not taken
  is decisive.
* `FileTree.passesBy_sibling` — two names in one directory have nothing to do with each other.
* `WorkDir.exists_create_eq` — **beside the directories of others a run gets what it gets without
  them on one of its names.**
-/

namespace ScenePreview

/-! ### Names in one directory -/

/-- A name below a path is the last step. -/
theorem Path.stepsOf_join_name {p : Path} {n : Name} (hn : IsName n) :
    FileTree.stepsOf (p.join ⟨n⟩) = p.segments.filter (· ≠ []) ++ [n] := by
  have hsegments : (p.join ⟨n⟩).segments.filter (· ≠ []) = p.segments.filter (· ≠ []) ++ [n] := by
    have hlast : [n].filter (· ≠ []) = [n] := by simp [hn.ne_nil]
    rw [join, if_neg (by simp [hn.isAbsolute_eq])]
    split
    · next hjoin =>
      rcases hjoin with hempty | hslash
      · have hnone : p.segments.filter (· ≠ []) = [] := by
          rw [segments, hempty]
          rfl
        rw [hnone, hempty, List.nil_append, segments, segmentsFrom_of_notMem hn.notMem_slash]
        exact hlast
      · -- the empty segment after the last slash is no step
        obtain ⟨start, hstart⟩ := List.getLast?_eq_some_iff.1 hslash
        rw [segments, segments, hstart, List.append_assoc, List.singleton_append,
          segmentsFrom_append, segmentsFrom_append, segmentsFrom_of_notMem hn.notMem_slash,
          List.filter_append, List.filter_append]
        simp [hn.ne_nil, segmentsFrom]
    · rw [segments, segmentsFrom_append, segmentsFrom_of_notMem hn.notMem_slash,
        List.filter_append]
      exact congrArg _ hlast
  rw [FileTree.stepsOf, if_neg fun h => getLast?_join hn h.2, hsegments]

namespace FileTree

section Sibling

variable {t : FileTree} {links : Nat} {dir d : Place} {steps : List Name} {a b n : Name}

/-- One step that leads to a free name has that name, and starts where the name is free. -/
theorem eq_of_walk_name (ha : Path.IsName a)
    (h : walk t false links dir [a] = .ok (.vacant d n)) : dir = d ∧ n = a := by
  have hskip : ¬ (a = [] ∨ a = Path.here) := not_or.2 ⟨ha.ne_nil, ha.ne_here⟩
  by_cases hlen : maxName < a.length
  · rw [walk, if_neg hskip, if_neg ha.ne_up, if_pos hlen] at h
    cases h
  rw [walk_name hskip ha.ne_up hlen] at h
  split at h
  · rw [if_pos (.inl rfl)] at h
    cases h
    exact ⟨rfl, rfl⟩
  · rw [walk] at h
    cases h
  · rw [if_pos rfl] at h
    cases h
  · rw [if_pos ⟨rfl, rfl⟩] at h
    cases h

/-- One step sees nothing but where it leads. -/
theorem eq_of_mem_trail_name (hb : Path.IsName b) {q : Place}
    (hq : q ∈ trail t false links dir [b]) : q = dir ++ [b] := by
  rw [trail, if_neg (not_or.2 ⟨hb.ne_nil, hb.ne_here⟩), if_neg hb.ne_up] at hq
  split at hq
  · cases hq
  rcases List.mem_cons.1 hq with hq | hq
  · exact hq
  split at hq
  · rw [trail] at hq
    cases hq
  · rw [if_pos ⟨rfl, rfl⟩] at hq
    cases hq
  · cases hq

/-- Steps that lead to a free name see nothing before it but what is there, and so do the same steps
with another name at the end. -/
theorem mem_trail_concat (ha : Path.IsName a) (hb : Path.IsName b)
    (h : walk t false links dir (steps ++ [a]) = .ok (.vacant d n)) :
    n = a ∧ ∀ q ∈ trail t false links dir (steps ++ [b]),
      (∃ e, t.get? q = some e) ∨ q = d ++ [b] := by
  have hmore : ∀ (rest : List Name), ¬ (rest ++ [a] = [] ∨ rest ++ [a] = [[]]) := by
    rintro rest (h | h)
    · simp at h
    · have hlast := congrArg List.getLast? h
      rw [List.getLast?_concat] at hlast
      exact ha.ne_nil (Option.some.inj hlast)
  -- the name at the end does not matter for the steps before it
  fun_induction walk t true links dir steps with
  | case1 links dir =>
    obtain ⟨rfl, rfl⟩ := eq_of_walk_name ha h
    exact ⟨rfl, fun q hq => .inr (eq_of_mem_trail_name hb hq)⟩
  | case2 links dir m rest hm ih =>
    rw [List.cons_append, walk, if_pos hm] at h
    rw [List.cons_append, trail, if_pos hm]
    exact ih h
  | case3 links dir rest hm ih =>
    rw [List.cons_append, walk, if_neg hm, if_pos rfl] at h
    rw [List.cons_append, trail, if_neg hm, if_pos rfl]
    exact ih h
  | case4 links dir m rest hm hup hlen =>
    rw [List.cons_append, walk, if_neg hm, if_neg hup, if_pos hlen] at h
    cases h
  -- nothing is there, and a name is still to come
  | case5 links dir m rest hm hup hlen place hget hrest
  | case6 links dir m rest hm hup hlen place hget hrest =>
    rw [List.cons_append, walk_name hm hup hlen, hget] at h
    dsimp only at h
    rw [if_neg (hmore rest)] at h
    cases h
  | case7 links dir m rest hm hup hlen place hget ih =>
    rw [List.cons_append, walk_name hm hup hlen, hget] at h
    obtain ⟨hn, htrail⟩ := ih h
    refine ⟨hn, fun q hq => ?_⟩
    rw [List.cons_append, trail, if_neg hm, if_neg hup, if_neg hlen] at hq
    rcases List.mem_cons.1 hq with rfl | hq
    · exact .inl ⟨_, hget⟩
    · rw [hget] at hq
      exact htrail q hq
  -- a file or one link too many, and a name is still to come
  | case8 links dir m hm hup hlen place content executable hget
  | case9 links dir m rest hm hup hlen place content executable hget hrest
  | case11 dir m rest hm hup hlen place target hget hlast =>
    rw [List.cons_append, walk_name hm hup hlen, hget] at h
    dsimp only at h
    rw [if_neg (by simp)] at h
    cases h
  | case10 links dir m rest hm hup hlen place target hget hlast => simp at hlast
  | case12 dir m rest hm hup hlen place target hget hlast links ih =>
    rw [List.cons_append, walk_name hm hup hlen, hget] at h
    dsimp only at h
    rw [if_neg (by simp), ← List.append_assoc] at h
    obtain ⟨hn, htrail⟩ := ih h
    refine ⟨hn, fun q hq => ?_⟩
    rw [List.cons_append, trail, if_neg hm, if_neg hup, if_neg hlen] at hq
    rcases List.mem_cons.1 hq with rfl | hq
    · exact .inl ⟨_, hget⟩
    · rw [hget] at hq
      dsimp only at hq
      rw [if_neg (by simp), ← List.append_assoc] at hq
      exact htrail q hq

/-- **Two names in one directory have nothing to do with each other.**  Where one of them is free,
looking up the other one passes it by. -/
theorem passesBy_sibling (ht : t.IsTree) {cwd : Place} {p : Path} (habs : p.isAbsolute = true)
    (ha : Path.IsName a) (hb : Path.IsName b) (hne : a ≠ b)
    (hx : t.resolve cwd false (p.join ⟨a⟩) = .ok (.vacant d n)) :
    t.PassesBy cwd false (p.join ⟨b⟩) (d ++ [n]) := by
  have hwalk := (resolve_eq_ok_iff.1 hx).2
  rw [if_pos (Path.isAbsolute_join habs _), Path.stepsOf_join_name ha] at hwalk
  have hfree := (free_of_walk ht (get?_root t) hwalk).2
  obtain ⟨rfl, htrail⟩ := mem_trail_concat ha hb hwalk
  intro q hq hle
  rw [if_pos (Path.isAbsolute_join habs _), Path.stepsOf_join_name hb] at hq
  rcases htrail q hq with ⟨e, he⟩ | rfl
  · -- nothing is in what is free
    rw [ht.get?_eq_none_of_prefix hfree hle] at he
    cases he
  · have hsame : d ++ [n] = d ++ [b] := hle.eq_of_length (by simp)
    exact hne (List.cons.inj (List.append_cancel_left hsame)).1

end Sibling

end FileTree

/-! ### Trying names -/

namespace WorkDir

open FileTree (Clear SameOutside Extends)

variable {h h' : Host} {namePrefix : String} {root : Option Path} {suffixes : Nat → String}
  {p : Path}

/-- Something is where a path leads. -/
def Taken (h : Host) (p : Path) : Prop :=
  h.tree.makeDir h.cwd p = .error (.os .alreadyExists)

/-- What comes of one name. -/
def attempt (h : Host) (p : Path) : Except IoError (Path × FileTree) :=
  match h.tree.makeDir h.cwd p with
  | .ok t => .ok (p, t)
  | .error e => .error (errorAt e p)

/-- The first name that is not taken is decisive. -/
theorem createFrom_of_first {n attempts k : Nat} (hle : n ≤ k) (hlt : k < n + attempts)
    (htaken : ∀ j, n ≤ j → j < k → Taken h (candidate h namePrefix root (suffixes j)))
    (hfree : ¬ Taken h (candidate h namePrefix root (suffixes k))) :
    createFrom h namePrefix root suffixes n attempts
      = attempt h (candidate h namePrefix root (suffixes k)) := by
  induction attempts generalizing n with
  | zero => omega
  | succ attempts ih =>
    rw [createFrom]
    rcases Nat.eq_or_lt_of_le hle with rfl | hlater
    · rw [attempt]
      cases hmake : h.tree.makeDir h.cwd (candidate h namePrefix root (suffixes n)) with
      | ok t => rfl
      | error e =>
        have hother : e ≠ .os .alreadyExists := by
          rintro rfl
          exact hfree hmake
        split
        · next heq => cases heq
        · next heq => exact absurd (Except.error.inj heq) hother
        · next heq => rw [Except.error.inj heq]
    · have hnext : Taken h (candidate h namePrefix root (suffixes n)) :=
        htaken n (Nat.le_refl n) hlater
      rw [Taken] at hnext
      simp only [hnext]
      exact ih hlater (by omega) fun j hj => htaken j (by omega)

/-- There is an error if all names are taken. -/
theorem createFrom_of_taken {n attempts : Nat}
    (htaken : ∀ j, n ≤ j → j < n + attempts → Taken h (candidate h namePrefix root (suffixes j))) :
    createFrom h namePrefix root suffixes n attempts
      = .error (errorAt (.other "too many temporary files exist") (parentOf h root)) := by
  induction attempts generalizing n with
  | zero => rw [createFrom]
  | succ attempts ih =>
    have hnext : Taken h (candidate h namePrefix root (suffixes n)) :=
      htaken n (Nat.le_refl n) (by omega)
    rw [Taken] at hnext
    rw [createFrom]
    simp only [hnext]
    exact ih fun j hj hlt => htaken j (by omega) (by omega)

/-- A path is taken once a directory has been made there. -/
theorem taken_of_filled (hext : Extends h.tree h'.tree) (hcwd : h'.cwd = h.cwd) {d : Place}
    {n : Name} (hx : h.tree.resolve h.cwd false p = .ok (.vacant d n))
    (hthere : h'.tree.get? (d ++ [n]) = some .directory) : Taken h' p := by
  have hresolve := FileTree.resolve_of_extends hext (x := .vacant d n) ?_ hx
  · rw [Taken, FileTree.makeDir, hcwd, hresolve]
    rfl
  · intro d' n' hv
    cases hv
    exact hthere

section Beside

variable {W : Place → Prop} (hsame : SameOutside W h.tree h'.tree)
  (hfiles : h' = { h with tree := h'.tree })
include hsame hfiles

/-- What comes of a name that passes by the directories of others. -/
theorem attempt_congr (hp : ∀ w, W w → h.tree.PassesBy h.cwd false p w) :
    (Taken h' p ↔ Taken h p) ∧
    (∀ e, attempt h p = .error e → attempt h' p = .error e) ∧
    ∀ dir tree, attempt h p = .ok (dir, tree) →
      ∃ d n, Clear W (d ++ [n]) ∧ h.tree.resolve h.cwd false dir = .ok (.vacant d n) ∧
        tree = h.tree.insert (d ++ [n]) .directory ∧
        attempt h' p = .ok (dir, h'.tree.insert (d ++ [n]) .directory) := by
  have hcwd : h'.cwd = h.cwd := by rw [hfiles]
  have hresolve := FileTree.resolve_congr hsame hp
  rw [Taken, Taken, attempt, attempt, FileTree.makeDir, FileTree.makeDir, hcwd, ← hresolve]
  rcases hx : h.tree.resolve h.cwd false p with e | ⟨place, e⟩ | ⟨d, n⟩
  · exact ⟨Iff.rfl, fun _ => id, fun dir tree hdir => by cases hdir⟩
  · exact ⟨Iff.rfl, fun _ => id, fun dir tree hdir => by cases hdir⟩
  · refine ⟨⟨fun htaken => ?_, fun htaken => ?_⟩, fun e he => ?_, fun dir tree hdir => ?_⟩
    · cases htaken
    · cases htaken
    · cases he
    cases hdir
    exact ⟨d, n, FileTree.clear_of_vacant hp hx, hx, rfl, rfl⟩

/-- **Beside the directories of others a run gets what it gets without them on one of its names.**
Each name passes by these directories, or is taken there.  They do not take all the names that
the run has. -/
theorem exists_create_eq
    (hnames : ∀ n, n < maxAttempts →
      (∀ w, W w → h.tree.PassesBy h.cwd false (candidate h namePrefix root (suffixes n)) w) ∨
        Taken h' (candidate h namePrefix root (suffixes n)))
    (henough : (∃ n, n < maxAttempts ∧ ¬ Taken h (candidate h namePrefix root (suffixes n))) →
      ∃ n, n < maxAttempts ∧ ¬ Taken h' (candidate h namePrefix root (suffixes n))) :
    ∃ m, (∀ e, create h namePrefix root (fun _ => suffixes m) = .error e →
        create h' namePrefix root suffixes = .error e) ∧
      ∀ dir tree, create h namePrefix root (fun _ => suffixes m) = .ok (dir, tree) →
        ∃ d n, Clear W (d ++ [n]) ∧ h.tree.resolve h.cwd false dir = .ok (.vacant d n) ∧
          tree = h.tree.insert (d ++ [n]) .directory ∧
          create h' namePrefix root suffixes
            = .ok (dir, h'.tree.insert (d ++ [n]) .directory) := by
  have hcandidate : ∀ suffix, candidate h' namePrefix root suffix
      = candidate h namePrefix root suffix := by
    intro suffix
    rw [hfiles]
    rfl
  have hattempts : 0 < maxAttempts := by decide
  classical
  by_cases hfree : ∃ n, n < maxAttempts ∧ ¬ Taken h' (candidate h namePrefix root (suffixes n))
  · -- the first name that is free on both hosts
    obtain ⟨hlt, hfirst⟩ := Nat.find_spec hfree
    have hpasses := (hnames _ hlt).resolve_right hfirst
    obtain ⟨htaken, herror, hok⟩ := attempt_congr hsame hfiles hpasses
    have halone : create h namePrefix root (fun _ => suffixes (Nat.find hfree))
        = attempt h (candidate h namePrefix root (suffixes (Nat.find hfree))) :=
      createFrom_of_first (Nat.le_refl 0) (by omega) (fun j _ hj => absurd hj (Nat.not_lt_zero j))
        fun hh => hfirst (htaken.2 hh)
    have hjoint : create h' namePrefix root suffixes
        = attempt h' (candidate h namePrefix root (suffixes (Nat.find hfree))) := by
      rw [← hcandidate]
      refine createFrom_of_first (Nat.zero_le _) (by omega) (fun j _ hj => ?_) ?_
      · by_contra hnot
        rw [hcandidate] at hnot
        exact Nat.find_min hfree hj ⟨by omega, hnot⟩
      · rwa [hcandidate]
    refine ⟨Nat.find hfree, ?_⟩
    rw [halone, hjoint]
    exact ⟨herror, hok⟩
  · -- all names are taken, also without the others
    have htaken : ∀ n, n < maxAttempts →
        Taken h (candidate h namePrefix root (suffixes n)) ∧
          Taken h' (candidate h namePrefix root (suffixes n)) := by
      intro n hn
      constructor
      · by_contra hnot
        exact hfree (henough ⟨n, hn, hnot⟩)
      · by_contra hnot
        exact hfree ⟨n, hn, hnot⟩
    have halone : create h namePrefix root (fun _ => suffixes 0) = _ :=
      createFrom_of_taken fun _ _ _ => (htaken 0 hattempts).1
    have hjoint : create h' namePrefix root suffixes = _ :=
      createFrom_of_taken fun j _ hj => by
        rw [hcandidate]
        exact (htaken j (by omega)).2
    have hparent : parentOf h' root = parentOf h root := by
      rw [hfiles]
      rfl
    refine ⟨0, ?_⟩
    rw [halone, hjoint, hparent]
    exact ⟨fun _ => id, fun dir tree hdir => by cases hdir⟩

end Beside

end WorkDir

end ScenePreview
