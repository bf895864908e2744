import ScenePreview.Proofs.WorkDir

/-!
# Directories that are passed by

A look-up sees the places that its steps lead to, and no others.  So it passes by a directory that
none of its steps leads to, whatever is in that directory and whether it is there at all.  Here are
two trees that agree outside of such directories, and what is the same in both.

## Main definitions

* `FileTree.IsProper` — a tree that has each place once, and names for names.
* `FileTree.trail`, `FileTree.PassesBy` — the places that a look-up sees, and those that it does
  not see.
* `FileTree.Clear`, `FileTree.SameOutside` — places outside of some directories, and trees that
  agree there.
* `FileTree.Secludes` — a tree with other directories.
* `FileTree.graft` — a tree with what another one has below a place.

## Main results

* `FileTree.walk_congr`, `FileTree.resolve_congr` — **a path that passes by the directories leads
  to the same in both trees.**
* `Artifact.find_congr` — the same video is found.
* `FileTree.get?_graft`, `FileTree.IsProper.graft` — what is where after a graft.
-/

namespace ScenePreview

namespace FileTree

/-! ### Proper trees -/

/-- A tree that has each place once, and names for names. -/
structure IsProper (t : FileTree) : Prop where
  /-- All that is there is in a directory. -/
  isTree : t.IsTree
  /-- No place is listed twice. -/
  nodup : (t.entries.map Prod.fst).Nodup
  /-- Places are lists of names. -/
  isName : ∀ q ∈ t.entries, ∀ n ∈ q.1, Path.IsName n

instance (t : FileTree) : Decidable t.IsProper :=
  decidable_of_iff (t.IsTree ∧ (t.entries.map Prod.fst).Nodup ∧
      ∀ q ∈ t.entries, ∀ n ∈ q.1, Path.IsName n)
    ⟨fun h => ⟨h.1, h.2.1, h.2.2⟩, fun h => ⟨h.isTree, h.nodup, h.isName⟩⟩

/-- A place is listed exactly if something is there. -/
theorem exists_get?_iff {t : FileTree} {q : Place} (hq : q ≠ []) :
    (∃ e, t.get? q = some e) ↔ ∃ r ∈ t.entries, r.1 = q := by
  rw [get?_of_ne hq, ← Option.isSome_iff_exists, Option.isSome_map, List.find?_isSome]
  simp only [beq_iff_eq]

theorem IsProper.isName_of_get? {t : FileTree} (ht : t.IsProper) {q : Place} {e : Entry}
    (hq : t.get? q = some e) : ∀ n ∈ q, Path.IsName n := by
  by_cases hroot : q = []
  · rw [hroot]
    exact fun n hn => absurd hn List.not_mem_nil
  · obtain ⟨r, hr, rfl⟩ := (exists_get?_iff hroot).1 ⟨e, hq⟩
    exact ht.isName r hr

/-- The places of a tree with one more are those that it had, and the new one. -/
theorem places_insert {t : FileTree} {p : Place} (hp : ∀ q ∈ t.entries, q.1 ≠ p) (e : Entry) :
    t.insert p e = ⟨t.entries ++ [(p, e)]⟩ := by
  have hnone : ¬ t.entries.any (·.1 == p) := by
    rw [List.any_eq_true]
    rintro ⟨q, hq, hqp⟩
    exact hp q hq (beq_iff_eq.1 hqp)
  rw [insert, if_neg hnone]

/-- A directory can be made in a directory. -/
theorem IsProper.insert {t : FileTree} (ht : t.IsProper) {p : Place} {n : Name}
    (hn : Path.IsName n) (hp : t.get? p = some .directory) (hfree : t.get? (p ++ [n]) = none) :
    (t.insert (p ++ [n]) .directory).IsProper := by
  have hnew : ∀ q ∈ t.entries, q.1 ≠ p ++ [n] := by
    intro q hq heq
    obtain ⟨e, he⟩ := (exists_get?_iff (by simp)).2 ⟨q, hq, heq⟩
    rw [hfree] at he
    cases he
  have hentries := places_insert hnew .directory
  refine ⟨ht.isTree.insert hp hfree, ?_, ?_⟩
  · rw [hentries, List.map_append, List.nodup_append]
    refine ⟨ht.nodup, List.nodup_singleton _, ?_⟩
    intro a ha b hb
    obtain ⟨q, hq, rfl⟩ := List.mem_map.1 ha
    rw [List.map_singleton, List.mem_singleton] at hb
    rw [hb]
    exact hnew q hq
  · rw [hentries]
    intro q hq m hm
    rcases List.mem_append.1 hq with hq | hq
    · exact ht.isName q hq m hm
    · rw [List.mem_singleton.1 hq] at hm
      rcases List.mem_append.1 hm with hm | hm
      · exact ht.isName_of_get? hp m hm
      · exact List.mem_singleton.1 hm ▸ hn

/-- What is below a place can go with it. -/
theorem IsProper.erase {t : FileTree} (ht : t.IsProper) {p : Place} (hp : p ≠ []) :
    (t.erase p).IsProper := by
  refine ⟨ht.isTree.erase hp, ?_, fun q hq => ht.isName q (List.mem_of_mem_filter hq)⟩
  exact ht.nodup.sublist (List.filter_sublist.map _)

/-- A place in a directory has its last name there. -/
theorem childName_eq_some_iff {d q : Place} {n : Name} :
    (if q.dropLast == d then q.getLast? else none) = some n ↔ q = d ++ [n] := by
  constructor
  · intro h
    split at h
    · next hd =>
      obtain ⟨before, rfl⟩ := List.getLast?_eq_some_iff.1 h
      rw [← beq_iff_eq.1 hd, List.dropLast_concat]
    · cases h
  · rintro rfl
    rw [List.dropLast_concat, if_pos (beq_self_eq_true d), List.getLast?_concat]

/-- The names in a directory are those of the places in it. -/
theorem mem_children_iff {t : FileTree} {d : Place} {n : Name} :
    n ∈ t.children d ↔ ∃ e, t.get? (d ++ [n]) = some e := by
  rw [exists_get?_iff (by simp), children, List.mem_filterMap]
  exact exists_congr fun r => and_congr_right fun _ => childName_eq_some_iff

/-- The names in a directory are listed once, if the places are. -/
theorem nodup_children {t : FileTree} (ht : (t.entries.map Prod.fst).Nodup) (d : Place) :
    (t.children d).Nodup := by
  have hplaces : t.children d = (t.entries.map Prod.fst).filterMap
      fun q => if q.dropLast == d then q.getLast? else none := by
    rw [children, List.filterMap_map]
    rfl
  rw [hplaces]
  refine ht.filterMap fun q q' n hq hq' => ?_
  rw [childName_eq_some_iff.1 hq, childName_eq_some_iff.1 hq']

/-! ### Places outside of directories -/

/-- A place that is neither one of some nor below it. -/
def Clear (W : Place → Prop) (q : Place) : Prop := ∀ w, W w → ¬ w <+: q

/-- Trees that have the same at all places outside of some. -/
def SameOutside (W : Place → Prop) (t t' : FileTree) : Prop :=
  ∀ q, Clear W q → t.get? q = t'.get? q

/-! ### What a look-up sees -/

/-- The places that steps from a directory lead to, one after the other. -/
def trail (t : FileTree) (follow : Bool) (links : Nat) (dir : Place) (steps : List Name) :
    List Place :=
  match steps with
  | [] => []
  | n :: rest =>
    if n = [] ∨ n = Path.here then trail t follow links dir rest
    else if n = Path.up then trail t follow links dir.dropLast rest
    else if maxName < n.length then []
    else
      let place := dir ++ [n]
      place :: match t.get? place with
      | some .directory => trail t follow links place rest
      | some (.link target) =>
        if rest = [] ∧ !follow then []
        else match links with
          | 0 => []
          | links + 1 =>
            trail t follow links (if target.isAbsolute then [] else dir) (stepsOf target ++ rest)
      | _ => []
termination_by (links, steps.length)

section Trail

variable {W : Place → Prop} {t : FileTree} {follow : Bool} {links : Nat} {dir : Place} {n : Name}
  {rest : List Name} (hskip : ¬ (n = [] ∨ n = Path.here)) (hup : ¬ n = Path.up)
  (hlen : ¬ maxName < n.length)
include hskip hup hlen

theorem trail_name : dir ++ [n] ∈ trail t follow links dir (n :: rest) := by
  rw [trail, if_neg hskip, if_neg hup, if_neg hlen]
  exact List.mem_cons_self

/-- From a directory the trail goes on in it. -/
theorem clear_of_directory (hget : t.get? (dir ++ [n]) = some .directory)
    (htrail : ∀ q ∈ trail t follow links dir (n :: rest), Clear W q) :
    ∀ q ∈ trail t follow links (dir ++ [n]) rest, Clear W q := by
  rw [trail, if_neg hskip, if_neg hup, if_neg hlen] at htrail
  change ∀ q ∈ (dir ++ [n]) :: _, _ at htrail
  rw [hget] at htrail
  exact (List.forall_mem_cons.1 htrail).2

/-- From a link that is followed the trail goes on where the link leads. -/
theorem clear_of_link {target : Path} (hget : t.get? (dir ++ [n]) = some (.link target))
    (hlast : ¬ (rest = [] ∧ (!follow) = true))
    (htrail : ∀ q ∈ trail t follow (links + 1) dir (n :: rest), Clear W q) :
    ∀ q ∈ trail t follow links (if target.isAbsolute then [] else dir) (stepsOf target ++ rest),
      Clear W q := by
  rw [trail, if_neg hskip, if_neg hup, if_neg hlen] at htrail
  change ∀ q ∈ (dir ++ [n]) :: _, _ at htrail
  rw [hget] at htrail
  have hrest := (List.forall_mem_cons.1 htrail).2
  dsimp only at hrest
  rwa [if_neg hlast] at hrest

end Trail

/-- Looking up a path comes neither to a place nor to anything below it. -/
def PassesBy (t : FileTree) (cwd : Place) (follow : Bool) (p : Path) (w : Place) : Prop :=
  ∀ q ∈ trail t follow maxLinks (if p.isAbsolute then [] else cwd) (stepsOf p), ¬ w <+: q

section Walk

variable {W : Place → Prop} {t t' : FileTree} {follow : Bool} {links : Nat} {dir : Place}
  {steps : List Name} (htrail : ∀ q ∈ trail t follow links dir steps, Clear W q)
include htrail

/-- Steps that pass by the directories lead to the same in both trees. -/
theorem walk_congr (hsame : SameOutside W t t') :
    walk t follow links dir steps = walk t' follow links dir steps := by
  -- every place that is looked at is on the trail, and so the same in both trees
  fun_induction walk t follow links dir steps with
  | case1 links dir => rw [walk]
  | case2 links dir n rest hskip ih =>
    rw [trail, if_pos hskip] at htrail
    rw [walk, if_pos hskip]
    exact ih htrail
  | case3 links dir rest hskip ih =>
    rw [trail, if_neg hskip, if_pos rfl] at htrail
    rw [walk, if_neg hskip, if_pos rfl]
    exact ih htrail
  | case4 links dir n rest hskip hup hlen => rw [walk, if_neg hskip, if_neg hup, if_pos hlen]
  | case5 links dir n rest hskip hup hlen place hget hrest =>
    rw [walk_name hskip hup hlen, ← hsame _ (htrail _ (trail_name hskip hup hlen)), hget]
    exact (if_pos hrest).symm
  | case6 links dir n rest hskip hup hlen place hget hrest =>
    rw [walk_name hskip hup hlen, ← hsame _ (htrail _ (trail_name hskip hup hlen)), hget]
    exact (if_neg hrest).symm
  | case7 links dir n rest hskip hup hlen place hget ih =>
    rw [walk_name hskip hup hlen, ← hsame _ (htrail _ (trail_name hskip hup hlen)), hget]
    exact ih (clear_of_directory hskip hup hlen hget htrail)
  | case8 links dir n hskip hup hlen place content executable hget =>
    rw [walk_name hskip hup hlen, ← hsame _ (htrail _ (trail_name hskip hup hlen)), hget]
    rfl
  | case9 links dir n rest hskip hup hlen place content executable hget hrest =>
    rw [walk_name hskip hup hlen, ← hsame _ (htrail _ (trail_name hskip hup hlen)), hget]
    exact (if_neg hrest).symm
  | case10 links dir n rest hskip hup hlen place target hget hlast =>
    rw [walk_name hskip hup hlen, ← hsame _ (htrail _ (trail_name hskip hup hlen)), hget]
    exact (if_pos hlast).symm
  | case11 dir n rest hskip hup hlen place target hget hlast =>
    rw [walk_name hskip hup hlen, ← hsame _ (htrail _ (trail_name hskip hup hlen)), hget]
    exact (if_neg hlast).symm
  | case12 dir n rest hskip hup hlen place target hget hlast links ih =>
    rw [walk_name hskip hup hlen, ← hsame _ (htrail _ (trail_name hskip hup hlen)), hget]
    exact (ih (clear_of_link hskip hup hlen hget hlast htrail)).trans (if_neg hlast).symm

/-- A free place that such steps lead to is in none of the directories. -/
theorem clear_of_walk {d : Place} {n : Name}
    (h : walk t follow links dir steps = .ok (.vacant d n)) : Clear W (d ++ [n]) := by
  fun_induction walk t follow links dir steps with
  | case2 links dir n rest hskip ih =>
    rw [trail, if_pos hskip] at htrail
    exact ih htrail h
  | case3 links dir rest hskip ih =>
    rw [trail, if_neg hskip, if_pos rfl] at htrail
    exact ih htrail h
  | case5 links dir n rest hskip hup hlen place hget hrest =>
    cases h
    exact htrail _ (trail_name hskip hup hlen)
  | case7 links dir n rest hskip hup hlen place hget ih =>
    exact ih (clear_of_directory hskip hup hlen hget htrail) h
  | case12 dir n rest hskip hup hlen place target hget hlast links ih =>
    exact ih (clear_of_link hskip hup hlen hget hlast htrail) h
  | case1 => cases h
  | case4 => cases h
  | case6 => cases h
  | case8 => cases h
  | case9 => cases h
  | case10 => cases h
  | case11 => cases h

end Walk

/-- What steps lead to is there. -/
theorem get?_of_walk {t : FileTree} {follow : Bool} {links : Nat} {dir : Place}
    {steps : List Name} (ht : t.IsTree) (hdir : t.get? dir = some .directory) {place : Place}
    {e : Entry} (h : walk t follow links dir steps = .ok (.entry place e)) :
    t.get? place = some e := by
  fun_induction walk t follow links dir steps with
  | case1 links dir =>
    cases h
    exact hdir
  | case2 links dir n rest hskip ih => exact ih hdir h
  | case3 links dir rest hskip ih => exact ih (ht dir _ hdir) h
  | case7 links dir n rest hskip hup hlen place hget ih => exact ih hget h
  | case8 links dir n hskip hup hlen place content executable hget =>
    obtain ⟨rfl, rfl⟩ : place = _ ∧ _ = e := by simpa using h
    exact hget
  | case10 links dir n rest hskip hup hlen place target hget hlast =>
    obtain ⟨rfl, rfl⟩ : place = _ ∧ _ = e := by simpa using h
    exact hget
  | case12 dir n rest hskip hup hlen place target hget hlast links ih =>
    refine ih ?_ h
    split
    · exact get?_root t
    · exact hdir
  | case4 => cases h
  | case5 => cases h
  | case6 => cases h
  | case9 => cases h
  | case11 => cases h

theorem get?_of_resolve {t : FileTree} (ht : t.IsTree) {cwd : Place} {follow : Bool} {p : Path}
    (habs : p.isAbsolute = true) {place : Place} {e : Entry}
    (h : t.resolve cwd follow p = .ok (.entry place e)) : t.get? place = some e := by
  have hwalk := (resolve_eq_ok_iff.1 h).2
  rw [if_pos habs] at hwalk
  exact get?_of_walk ht (get?_root t) hwalk

section Resolve

variable {W : Place → Prop} {t t' : FileTree} {cwd : Place} {p : Path} {follow : Bool}

/-- A free place that a path leads to is in none of the directories that it passes by. -/
theorem clear_of_vacant (hp : ∀ w, W w → t.PassesBy cwd follow p w) {d : Place} {n : Name}
    (hx : t.resolve cwd follow p = .ok (.vacant d n)) : Clear W (d ++ [n]) :=
  clear_of_walk (fun q hq w hw => hp w hw q hq) (resolve_eq_ok_iff.1 hx).2

variable (hsame : SameOutside W t t')
include hsame

/-- **A path that passes by the directories leads to the same in both trees.** -/
theorem resolve_congr (hp : ∀ w, W w → t.PassesBy cwd follow p w) :
    t.resolve cwd follow p = t'.resolve cwd follow p := by
  unfold resolve
  rw [walk_congr (fun q hq w hw => hp w hw q hq) hsame]

theorem stat_congr (hp : ∀ w, W w → t.PassesBy cwd true p w) : t.stat cwd p = t'.stat cwd p := by
  rw [stat, stat, resolve_congr hsame hp]

theorem exists_congr (hp : ∀ w, W w → t.PassesBy cwd true p w) :
    t.exists cwd p = t'.exists cwd p := by
  rw [FileTree.exists, FileTree.exists, stat_congr hsame hp]

theorem isFile_congr (hp : ∀ w, W w → t.PassesBy cwd true p w) :
    t.isFile cwd p = t'.isFile cwd p := by
  rw [isFile, isFile, stat_congr hsame hp]

end Resolve

end FileTree

/-! ### Paths -/

namespace Path

variable {p : Path} {n : Name}

/-- A name below a path that does not end in a slash is one more segment. -/
theorem segments_join (hne : p.bytes ≠ []) (hlast : p.bytes.getLast? ≠ some slash)
    (hn : IsName n) : (p.join ⟨n⟩).segments = p.segments ++ [n] := by
  rw [join, if_neg (by simp [hn.isAbsolute_eq]), if_neg (not_or.2 ⟨hne, hlast⟩), segments,
    segmentsFrom_append, segmentsFrom_of_notMem hn.notMem_slash]
  rfl

theorem getLast?_join (hn : IsName n) : (p.join ⟨n⟩).bytes.getLast? ≠ some slash := by
  have hname : ∀ bs, (bs ++ n).getLast? ≠ some slash := by
    intro bs h
    rw [List.getLast?_append_of_ne_nil _ hn.ne_nil] at h
    exact hn.notMem_slash (List.mem_of_getLast? h)
  rw [join, if_neg (by simp [hn.isAbsolute_eq])]
  split
  · exact hname _
  · have hcons : p.bytes ++ slash :: n = (p.bytes ++ [slash]) ++ n := by simp
    rw [hcons]
    exact hname _

theorem stepsOf_join (hne : p.bytes ≠ []) (hlast : p.bytes.getLast? ≠ some slash)
    (hn : IsName n) : FileTree.stepsOf (p.join ⟨n⟩) = FileTree.stepsOf p ++ [n] := by
  have hfilter : (p.segments ++ [n]).filter (· ≠ []) = p.segments.filter (· ≠ []) ++ [n] := by
    rw [List.filter_append, List.filter_singleton]
    simp [hn.ne_nil]
  rw [FileTree.stepsOf, FileTree.stepsOf, segments_join hne hlast hn, hfilter,
    if_neg fun h => getLast?_join hn h.2, if_neg fun h => hlast h.2]

end Path

namespace FileTree

/-- A tree `t'` that is a tree `t` with other directories, at places where `t` has nothing. -/
structure Secludes (W : Place → Prop) (t t' : FileTree) : Prop where
  /-- Outside of the directories the trees agree. -/
  same : SameOutside W t t'
  /-- The first tree has nothing there. -/
  void : ∀ q e, t.get? q = some e → Clear W q
  /-- The second one has directories there, if anything. -/
  directory : ∀ w e, W w → t'.get? w = some e → e = .directory

/-! ### Directories that are listed -/

/-- The names in the directory that a path leads to. -/
theorem readDir_eq_ok_iff {t : FileTree} {cwd : Place} {p : Path} {names : List Name} :
    t.readDir cwd p = .ok names ↔
      ∃ d, t.stat cwd p = .ok (d, .directory) ∧ names = t.children d := by
  rw [readDir]
  rcases t.stat cwd p with e | ⟨d, - | - | -⟩
  · exact iff_of_false nofun nofun
  · constructor
    · intro h
      exact ⟨d, rfl, (Except.ok.inj h).symm⟩
    · rintro ⟨d', hd', rfl⟩
      cases hd'
      rfl
  · exact iff_of_false nofun nofun
  · exact iff_of_false nofun nofun

/-- After steps to a directory one more step goes on from there. -/
theorem walk_concat {t : FileTree} {links : Nat} {dir d : Place} {steps : List Name}
    (h : walk t true links dir steps = .ok (.entry d .directory)) (n : Name) :
    ∃ left, walk t true links dir (steps ++ [n]) = walk t true left d [n] := by
  fun_induction walk t true links dir steps with
  | case1 links dir =>
    cases h
    exact ⟨links, rfl⟩
  | case2 links dir m rest hskip ih =>
    obtain ⟨left, hleft⟩ := ih h
    refine ⟨left, ?_⟩
    rw [List.cons_append, walk, if_pos hskip, hleft]
  | case3 links dir rest hskip ih =>
    obtain ⟨left, hleft⟩ := ih h
    refine ⟨left, ?_⟩
    rw [List.cons_append, walk, if_neg hskip, if_pos rfl, hleft]
  | case7 links dir m rest hskip hup hlen place hget ih =>
    obtain ⟨left, hleft⟩ := ih h
    refine ⟨left, ?_⟩
    rw [List.cons_append, walk_name hskip hup hlen, hget, ← hleft]
  | case12 dir m rest hskip hup hlen place target hget hlast links ih =>
    obtain ⟨left, hleft⟩ := ih h
    refine ⟨left, ?_⟩
    rw [List.cons_append, walk_name hskip hup hlen, hget, ← hleft, List.append_assoc]
    exact if_neg (by simp)
  | case4 => cases h
  | case5 => cases h
  | case6 => cases h
  | case8 => simp at h
  | case9 => cases h
  | case10 => simp at h
  | case11 => cases h

/-- A directory in a directory is no file. -/
theorem isFile_of_directory {t : FileTree} {cwd d : Place} {p : Path} {n : Name}
    (hp : t.stat cwd p = .ok (d, .directory)) (habs : p.isAbsolute = true)
    (hlast : p.bytes.getLast? ≠ some Path.slash) (hn : Path.IsName n)
    (hget : t.get? (d ++ [n]) = some .directory) : t.isFile cwd (p.join ⟨n⟩) = false := by
  obtain ⟨⟨-, hne, -⟩, hwalk⟩ := resolve_eq_ok_iff.1 (stat_eq_ok_iff.1 hp)
  obtain ⟨left, hleft⟩ := walk_concat hwalk n
  rw [if_pos habs] at hleft
  by_contra hfile
  rw [Bool.not_eq_false] at hfile
  obtain ⟨place, content, executable, hstat⟩ := exists_file_of_isFile hfile
  have hsteps := (resolve_eq_ok_iff.1 (stat_eq_ok_iff.1 hstat)).2
  rw [if_pos (Path.isAbsolute_join habs _), Path.stepsOf_join hne hlast hn, hleft] at hsteps
  by_cases hlen : maxName < n.length
  · rw [walk, if_neg (not_or.2 ⟨hn.ne_nil, hn.ne_here⟩), if_neg hn.ne_up, if_pos hlen] at hsteps
    cases hsteps
  · rw [walk_name (not_or.2 ⟨hn.ne_nil, hn.ne_here⟩) hn.ne_up hlen, hget] at hsteps
    rw [walk] at hsteps
    cases hsteps

/-- Names in order are in the order of their bytes. -/
theorem pairwise_sortBytes (ns : List (List UInt8)) : (sortBytes ns).Pairwise (· ≤ ·) := by
  refine (List.pairwise_mergeSort ?_ ?_ ns).imp of_decide_eq_true
  · intro a b c hab hbc
    rw [decide_eq_true_eq] at *
    exact List.le_trans hab hbc
  · intro a b
    rw [Bool.or_eq_true, decide_eq_true_eq, decide_eq_true_eq]
    exact List.le_total a b

/-- Names in order do not depend on the order in which they come. -/
theorem sortBytes_of_perm {ns ns' : List (List UInt8)} (h : ns.Perm ns') :
    sortBytes ns = sortBytes ns' := by
  have hperm : (sortBytes ns).Perm (sortBytes ns') :=
    (List.mergeSort_perm ns _).trans (h.trans (List.mergeSort_perm ns' _).symm)
  exact hperm.eq_of_pairwise (fun a b _ _ hab hba => List.le_antisymm hab hba)
    (pairwise_sortBytes ns) (pairwise_sortBytes ns')

end FileTree

/-! ### Videos -/

namespace Artifact

open FileTree (Secludes Clear PassesBy)

variable {W : Place → Prop} {h h' : Host} {dir : Path} (hsecl : Secludes W h.tree h'.tree)
  (hcwd : h'.cwd = h.cwd) (ht : h.tree.IsProper) (ht' : h'.tree.IsProper)
  (habs : dir.isAbsolute = true) (hlast : dir.bytes.getLast? ≠ some Path.slash)
  (hdir : ∀ w, W w → h.tree.PassesBy h.cwd true dir w)
  (hvideos : ∀ names, h.tree.readDir h.cwd dir = .ok names → ∀ n ∈ names, ∀ w, W w →
    h.tree.PassesBy h.cwd true (dir.join ⟨n⟩) w)
include hsecl hcwd ht ht' habs hlast hdir hvideos

/-- A video in one of the trees is one in the other. -/
theorem isVideo_congr (n : Name) : IsVideo h dir n ↔ IsVideo h' dir n := by
  have hstat := FileTree.stat_congr hsecl.same hdir
  -- what the first tree has in the directory is the same in the second one
  have hplain : ∀ d e, h.tree.stat h.cwd dir = .ok (d, .directory) →
      h.tree.get? (d ++ [n]) = some e → (h'.tree.get? (d ++ [n]) = some e ∧
        h.isFile (dir.join ⟨n⟩) = h'.isFile (dir.join ⟨n⟩)) := by
    intro d e hd hget
    have hmem := FileTree.mem_children_iff.2 ⟨e, hget⟩
    have hpasses := hvideos _ (FileTree.readDir_eq_ok_iff.2 ⟨d, hd, rfl⟩) n hmem
    refine ⟨(hsecl.same _ (hsecl.void _ e hget)).symm.trans hget, ?_⟩
    rw [Host.isFile, Host.isFile, hcwd, FileTree.isFile_congr hsecl.same hpasses]
  constructor
  · rintro ⟨⟨names, hnames, hmem⟩, htext, hending, hfile⟩
    obtain ⟨d, hd, rfl⟩ := FileTree.readDir_eq_ok_iff.1 hnames
    obtain ⟨e, he⟩ := FileTree.mem_children_iff.1 hmem
    obtain ⟨hget, hisFile⟩ := hplain d e hd he
    refine ⟨⟨_, FileTree.readDir_eq_ok_iff.2 ⟨d, ?_, rfl⟩, ?_⟩, htext, hending, hisFile ▸ hfile⟩
    · rw [hcwd, ← hstat, hd]
    · exact FileTree.mem_children_iff.2 ⟨e, hget⟩
  · rintro ⟨⟨names, hnames, hmem⟩, htext, hending, hfile⟩
    obtain ⟨d, hd, rfl⟩ := FileTree.readDir_eq_ok_iff.1 hnames
    obtain ⟨e, he⟩ := FileTree.mem_children_iff.1 hmem
    have hname := ht'.isName_of_get? he n (by simp)
    have hd' : h.tree.stat h.cwd dir = .ok (d, .directory) := by rw [hstat, ← hcwd, hd]
    have hclear : Clear W (d ++ [n]) := by
      intro w hw hle
      rcases List.prefix_concat_iff.1 hle with rfl | hle
      · -- it is one of the other directories, and so no file
        rw [hsecl.directory _ e hw he] at he
        have hnot := FileTree.isFile_of_directory hd habs hlast hname he
        rw [Host.isFile, hnot] at hfile
        cases hfile
      · have hget := FileTree.get?_of_resolve ht.isTree habs (FileTree.stat_eq_ok_iff.1 hd')
        exact hsecl.void d .directory hget w hw hle
    have hget : h.tree.get? (d ++ [n]) = some e := (hsecl.same _ hclear).trans he
    obtain ⟨-, hisFile⟩ := hplain d e hd' hget
    refine ⟨⟨_, FileTree.readDir_eq_ok_iff.2 ⟨d, hd', rfl⟩, ?_⟩, htext, hending, hisFile ▸ hfile⟩
    exact FileTree.mem_children_iff.2 ⟨e, hget⟩

/-- The same video is found in both trees, with the same warnings. -/
theorem find_congr (stderr : String) : find h dir stderr = find h' dir stderr := by
  have hstat := FileTree.stat_congr hsecl.same hdir
  have hvideo := isVideo_congr hsecl hcwd ht ht' habs hlast hdir hvideos
  have hsearch : search h dir = search h' dir := by
    unfold search
    rw [hcwd, FileTree.readDir, FileTree.readDir, ← hstat]
    rcases hd : h.tree.stat h.cwd dir with e | ⟨d, - | - | -⟩
    · rfl
    · -- the same names in any order
      have hread : h.tree.readDir h.cwd dir = .ok (h.tree.children d) :=
        FileTree.readDir_eq_ok_iff.2 ⟨d, hd, rfl⟩
      have hread' : h'.tree.readDir h'.cwd dir = .ok (h'.tree.children d) :=
        FileTree.readDir_eq_ok_iff.2 ⟨d, by rw [hcwd, ← hstat, hd], rfl⟩
      have hperm : (candidates h dir (h.tree.children d)).Perm
          (candidates h' dir (h'.tree.children d)) := by
        refine (List.perm_ext_iff_of_nodup ((FileTree.nodup_children ht.nodup d).filter _)
          ((FileTree.nodup_children ht'.nodup d).filter _)).2 fun n => ?_
        exact (mem_candidates_iff hread n).trans
          ((hvideo n).trans (mem_candidates_iff hread' n).symm)
      change choose dir (candidates h dir (h.tree.children d))
        = choose dir (candidates h' dir (h'.tree.children d))
      rw [choose, choose, sorted, sorted, FileTree.sortBytes_of_perm hperm]
    · rfl
    · rfl
  rw [find, find, hsearch]

end Artifact

/-! ### Working directories -/

/-- The steps of a path are its segments, and nothing for a slash at the end. -/
theorem FileTree.mem_of_mem_stepsOf {p : Path} {n : Name} (hn : n ∈ stepsOf p) :
    n ∈ p.segments ∨ n = [] := by
  unfold stepsOf at hn
  dsimp only at hn
  split at hn
  · rcases List.mem_append.1 hn with hn | hn
    · exact .inl (List.mem_of_mem_filter hn)
    · exact .inr (List.mem_singleton.1 hn)
  · exact .inl (List.mem_of_mem_filter hn)

namespace Path

theorem slash_notMem_of_mem_segmentsFrom {acc bs : List UInt8} (hacc : slash ∉ acc) :
    ∀ n ∈ segmentsFrom acc bs, slash ∉ n := by
  induction bs generalizing acc with
  | nil => simpa [segmentsFrom] using hacc
  | cons b bs ih =>
    rw [segmentsFrom]
    split
    · intro n hn
      rcases List.mem_cons.1 hn with rfl | hn
      · simpa using hacc
      · exact ih List.not_mem_nil n hn
    · next hb =>
      refine ih ?_
      rw [List.mem_cons, not_or]
      exact ⟨Ne.symm hb, hacc⟩

theorem slash_notMem_of_mem_stepsOf {p : Path} : ∀ n ∈ FileTree.stepsOf p, slash ∉ n := by
  have hsegments : ∀ n ∈ p.segments, slash ∉ n :=
    slash_notMem_of_mem_segmentsFrom List.not_mem_nil
  intro n hn
  have hmem : n ∈ p.segments ∨ n = [] := FileTree.mem_of_mem_stepsOf hn
  rcases hmem with hmem | rfl
  · exact hsegments n hmem
  · exact List.not_mem_nil

end Path

/-- The free name that steps lead to is a name. -/
theorem FileTree.isName_of_walk {t : FileTree} {follow : Bool} {links : Nat} {dir : Place}
    {steps : List Name} (hsteps : ∀ n ∈ steps, Path.slash ∉ n) {d : Place} {n : Name}
    (h : walk t follow links dir steps = .ok (.vacant d n)) : Path.IsName n := by
  fun_induction walk t follow links dir steps with
  | case2 links dir n rest hskip ih =>
    exact ih (fun m hm => hsteps m (List.mem_cons_of_mem _ hm)) h
  | case3 links dir rest hskip ih =>
    exact ih (fun m hm => hsteps m (List.mem_cons_of_mem _ hm)) h
  | case5 links dir n rest hskip hup hlen place hget hrest =>
    cases h
    rw [not_or] at hskip
    exact ⟨hskip.1, hskip.2, hup, hsteps n List.mem_cons_self⟩
  | case7 links dir n rest hskip hup hlen place hget ih =>
    exact ih (fun m hm => hsteps m (List.mem_cons_of_mem _ hm)) h
  | case12 dir n rest hskip hup hlen place target hget hlast links ih =>
    refine ih (fun m hm => ?_) h
    rcases List.mem_append.1 hm with hm | hm
    · exact Path.slash_notMem_of_mem_stepsOf m hm
    · exact hsteps m (List.mem_cons_of_mem _ hm)
  | case1 => cases h
  | case4 => cases h
  | case6 => cases h
  | case8 => cases h
  | case9 => cases h
  | case10 => cases h
  | case11 => cases h

/-! ### Grafts -/

namespace FileTree

/-- A place strictly below another one. -/
def isBelow (w q : Place) : Bool := w.isPrefixOf q && w != q

theorem isBelow_iff {w q : Place} : isBelow w q = true ↔ w <+: q ∧ q ≠ w := by
  rw [isBelow, Bool.and_eq_true, List.isPrefixOf_iff_prefix, bne_iff_ne, ne_comm]

/-- The tree with what another one has below a place. -/
def graft (t : FileTree) (w : Place) (t' : FileTree) : FileTree :=
  ⟨t.entries.filter (fun q => !isBelow w q.1) ++ t'.entries.filter (fun q => isBelow w q.1)⟩

/-- What is found among the places that a test accepts. -/
theorem find?_filter_place {es : List (Place × Entry)} {f : Place → Bool} {q : Place} :
    (es.filter fun r => f r.1).find? (·.1 == q) = if f q then es.find? (·.1 == q) else none := by
  rw [List.find?_filter]
  split
  · next hf =>
    refine List.find?_congr fun r _ => ?_
    by_cases hr : r.1 = q <;> simp [hr, hf]
  · next hf =>
    rw [List.find?_eq_none]
    intro r _ hr
    by_cases hrq : r.1 = q <;> simp_all

/-- Below the place is what the other tree has there, and elsewhere what was there before. -/
theorem get?_graft (t : FileTree) (w : Place) (t' : FileTree) (q : Place) :
    (t.graft w t').get? q = if isBelow w q then t'.get? q else t.get? q := by
  by_cases hq : q = []
  · rw [hq, get?_root, get?_root, get?_root, ite_self]
  rw [get?_of_ne hq, get?_of_ne hq, get?_of_ne hq, graft, List.find?_append,
    find?_filter_place (f := fun r => !isBelow w r), find?_filter_place (f := isBelow w)]
  cases isBelow w q <;> simp

/-- What is right below a place is in the place, and all else below it in something below it. -/
theorem isBelow_dropLast {w q : Place} (h : isBelow w q = true) :
    q.dropLast = w ∨ isBelow w q.dropLast = true := by
  obtain ⟨hle, hne⟩ := isBelow_iff.1 h
  by_cases heq : q.dropLast = w
  · exact .inl heq
  · refine .inr (isBelow_iff.2 ⟨?_, heq⟩)
    rcases List.eq_nil_or_concat q with rfl | ⟨d, n, rfl⟩
    · exact hle
    · rw [List.concat_eq_append] at *
      rw [List.dropLast_concat]
      rcases List.prefix_concat_iff.1 hle with rfl | hle
      · exact absurd rfl hne
      · exact hle

theorem isBelow_of_dropLast {w q : Place} (h : isBelow w q.dropLast = true) :
    isBelow w q = true := by
  obtain ⟨hle, hne⟩ := isBelow_iff.1 h
  refine isBelow_iff.2 ⟨hle.trans (List.dropLast_prefix q), ?_⟩
  rintro rfl
  exact hne (List.dropLast_prefix q |>.eq_of_length_le hle.length_le)

/-- A proper tree stays one when what is below a directory comes from another proper tree. -/
theorem IsProper.graft {t t' : FileTree} {w : Place} (ht : t.IsProper) (ht' : t'.IsProper)
    (hw : t.get? w = some .directory) : (t.graft w t').IsProper := by
  refine ⟨?_, ?_, ?_⟩
  · intro q e hq
    rw [get?_graft] at hq ⊢
    by_cases hbelow : isBelow w q = true
    · rw [if_pos hbelow] at hq
      have hdir := ht'.isTree q e hq
      rcases isBelow_dropLast hbelow with hup | hup
      · rw [hup, if_neg (by simp [isBelow]), hw]
      · rw [if_pos hup, hdir]
    · rw [if_neg hbelow] at hq
      rw [if_neg fun hup => hbelow (isBelow_of_dropLast hup)]
      exact ht.isTree q e hq
  · rw [FileTree.graft, List.map_append, List.nodup_append]
    refine ⟨ht.nodup.sublist (List.filter_sublist.map _),
      ht'.nodup.sublist (List.filter_sublist.map _), ?_⟩
    rintro a ha b hb rfl
    obtain ⟨q, hq, rfl⟩ := List.mem_map.1 ha
    obtain ⟨r, hr, hrq⟩ := List.mem_map.1 hb
    have hqw := (List.mem_filter.1 hq).2
    have hrw := (List.mem_filter.1 hr).2
    rw [hrq] at hrw
    simp [hrw] at hqw
  · intro q hq
    rcases List.mem_append.1 hq with hq | hq
    · exact ht.isName q (List.mem_of_mem_filter hq)
    · exact ht'.isName q (List.mem_of_mem_filter hq)

end FileTree

end ScenePreview
