import Mathlib
import ScenePreview.FileTree.Edit

/-!
# Trees that grow

A look-up goes from directory to directory, and a step of it depends on one place only.  So what
a path leads to stays what it is when other places are filled, and a directory that is made at
the free name that a path leads to is found there.

## Main definitions

* `FileTree.IsTree` — all that is there is in a directory.
* `FileTree.Extends` — a tree that keeps all that another one has.
* `FileTree.Target.filled` — where a path leads when its free name has become a directory.

## Main results

* `FileTree.isTree_iff` — it can be decided whether a list of places is a tree.
* `FileTree.IsTree.get?_eq_none_of_prefix` — there is nothing below a free place.
* `FileTree.IsTree.insert`, `FileTree.IsTree.erase` — what keeps a tree a tree.
* `FileTree.resolve_of_extends` — **a path leads to the same entry in a larger tree.**
* `FileTree.makeDir_eq_ok` — what making a directory does.
-/

namespace ScenePreview.FileTree

/-! ### Trees -/

/-- All that is there is in a directory. -/
def IsTree (t : FileTree) : Prop :=
  ∀ p e, t.get? p = some e → t.get? p.dropLast = some .directory

/-- It is enough to look at the places of the list. -/
theorem isTree_iff (t : FileTree) :
    t.IsTree ↔ ∀ q ∈ t.entries, t.get? q.1.dropLast = some .directory := by
  constructor
  · intro ht q hq
    by_cases hroot : q.1 = []
    · rw [hroot]
      rfl
    · have hsome : (t.get? q.1).isSome := by
        rw [get?_of_ne hroot, Option.isSome_map, List.find?_isSome]
        exact ⟨q, hq, beq_self_eq_true q.1⟩
      obtain ⟨e, he⟩ := Option.isSome_iff_exists.1 hsome
      exact ht q.1 e he
  · intro h p e hp
    by_cases hroot : p = []
    · rw [hroot]
      rfl
    · rw [get?_of_ne hroot, Option.map_eq_some_iff] at hp
      obtain ⟨q, hq, -⟩ := hp
      have hqp := List.find?_some hq
      rw [← beq_iff_eq.1 hqp]
      exact h q (List.mem_of_find?_eq_some hq)

instance (t : FileTree) : Decidable t.IsTree := decidable_of_iff _ (isTree_iff t).symm

/-- There is nothing below a free place. -/
theorem IsTree.get?_eq_none_of_prefix {t : FileTree} (ht : t.IsTree) {p q : Place}
    (hp : t.get? p = none) (hpq : p <+: q) : t.get? q = none := by
  obtain ⟨r, rfl⟩ := hpq
  induction r using List.reverseRecOn with
  | nil => rwa [List.append_nil]
  | append_singleton r n ih =>
    -- what is there is in a directory, and there is none
    by_contra hne
    obtain ⟨e, he⟩ := Option.ne_none_iff_exists'.1 hne
    have hdir := ht _ e he
    rw [← List.append_assoc, List.dropLast_concat, ih] at hdir
    cases hdir

/-- A directory can be made in a directory. -/
theorem IsTree.insert {t : FileTree} (ht : t.IsTree) {p : Place} {n : Name}
    (hp : t.get? p = some .directory) (hfree : t.get? (p ++ [n]) = none) :
    (t.insert (p ++ [n]) .directory).IsTree := by
  have hne : p ++ [n] ≠ [] := List.append_ne_nil_of_right_ne_nil p (List.cons_ne_nil n [])
  intro q e hq
  by_cases hnew : q = p ++ [n]
  · have hself : p ≠ p ++ [n] := by simp
    rw [hnew, List.dropLast_concat, get?_insert_of_ne t hself, hp]
  · rw [get?_insert_of_ne t hnew] at hq
    have hdir := ht q e hq
    have hold : q.dropLast ≠ p ++ [n] := by
      intro h
      rw [h, hfree] at hdir
      cases hdir
    rw [get?_insert_of_ne t hold, hdir]

/-- What is at a place or below it goes, and all else stays. -/
theorem get?_erase_eq (t : FileTree) {p : Place} (hp : p ≠ []) (q : Place) :
    (t.erase p).get? q = if p <+: q then none else t.get? q := by
  by_cases hq : q = []
  · have hpq : ¬ p <+: q := by
      rw [hq, List.prefix_nil]
      exact hp
    rw [if_neg hpq, hq, get?_root, get?_root]
  · rw [get?_erase t p hq]
    exact if_congr List.isPrefixOf_iff_prefix rfl rfl

/-- What is below a place can go with it. -/
theorem IsTree.erase {t : FileTree} (ht : t.IsTree) {p : Place} (hp : p ≠ []) :
    (t.erase p).IsTree := by
  intro q e hq
  rw [get?_erase_eq t hp] at hq
  split at hq
  · cases hq
  · next hpq =>
    have hup : ¬ p <+: q.dropLast := fun h => hpq (h.trans (List.dropLast_prefix q))
    rw [get?_erase_eq t hp, if_neg hup]
    exact ht q e hq

/-! ### Larger trees -/

/-- Keeps all that another tree has. -/
def Extends (t t' : FileTree) : Prop := ∀ p e, t.get? p = some e → t'.get? p = some e

theorem Extends.refl (t : FileTree) : Extends t t := fun _ _ h => h

theorem Extends.trans {t t' t'' : FileTree} (h : Extends t t') (h' : Extends t' t'') :
    Extends t t'' := fun p e hp => h' p e (h p e hp)

/-- Where a path leads when its free name has become a directory. -/
def Target.filled : Target → Target
  | .entry p e => .entry p e
  | .vacant dir name => .entry (dir ++ [name]) .directory

section Walk

variable {t t' : FileTree} {follow : Bool} {links : Nat} {dir : Place} {steps : List Name}

/-- A step to a name depends on what has the name in the directory. -/
theorem walk_name {n : Name} (hskip : ¬ (n = [] ∨ n = Path.here)) (hup : ¬ n = Path.up)
    (hlen : ¬ maxName < n.length) (rest : List Name) :
    walk t follow links dir (n :: rest) =
      match t.get? (dir ++ [n]) with
      | none => if rest = [] ∨ rest = [[]] then .ok (.vacant dir n) else .error .notFound
      | some .directory => walk t follow links (dir ++ [n]) rest
      | some (.file content executable) =>
        if rest = [] then .ok (.entry (dir ++ [n]) (.file content executable))
        else .error .notADirectory
      | some (.link target) =>
        if rest = [] ∧ !follow then .ok (.entry (dir ++ [n]) (.link target))
        else match links with
          | 0 => .error .tooManyLinks
          | links + 1 =>
            walk t follow links (if target.isAbsolute then [] else dir)
              (stepsOf target ++ rest) := by
  rw [walk]
  exact (if_neg hskip).trans ((if_neg hup).trans (if_neg hlen))

/-- Steps lead to the same entry in a larger tree. -/
theorem walk_of_extends (h : Extends t t') {x : Target}
    (hfilled : ∀ d n, x = .vacant d n → t'.get? (d ++ [n]) = some .directory)
    (hx : walk t follow links dir steps = .ok x) :
    walk t' follow links dir steps = .ok x.filled := by
  fun_induction walk t follow links dir steps with
  | case1 links dir =>
    cases hx
    rw [walk]
    rfl
  | case2 links dir n rest hskip ih =>
    rw [walk, if_pos hskip]
    exact ih hx
  | case3 links dir rest hskip ih =>
    rw [walk, if_neg hskip, if_pos rfl]
    exact ih hx
  | case5 links dir n rest hskip hup hlen place hget hrest =>
    -- the name was free, and now it is that of a directory
    cases hx
    rw [walk_name hskip hup hlen, hfilled dir n rfl]
    rcases hrest with rfl | rfl <;> simp [walk, Target.filled]
  | case7 links dir n rest hskip hup hlen place hget ih =>
    rw [walk_name hskip hup hlen, h place _ hget]
    exact ih hx
  | case8 links dir n hskip hup hlen place content executable hget =>
    cases hx
    rw [walk_name hskip hup hlen, h place _ hget]
    rfl
  | case10 links dir n rest hskip hup hlen place target hget hlast =>
    cases hx
    rw [walk_name hskip hup hlen, h place _ hget]
    exact if_pos hlast
  | case12 dir n rest hskip hup hlen place target hget hlast links ih =>
    rw [walk_name hskip hup hlen, h place _ hget]
    refine (if_neg hlast).trans ?_
    exact ih hx
  | case4 => cases hx
  | case6 => cases hx
  | case9 => cases hx
  | case11 => cases hx

/-- Steps that lead to a free name lead to a free name of a directory. -/
theorem free_of_walk (ht : t.IsTree) (hdir : t.get? dir = some .directory) {d : Place} {n : Name}
    (hx : walk t follow links dir steps = .ok (.vacant d n)) :
    t.get? d = some .directory ∧ t.get? (d ++ [n]) = none := by
  fun_induction walk t follow links dir steps with
  | case2 links dir n rest hskip ih => exact ih hdir hx
  | case3 links dir rest hskip ih => exact ih (ht dir _ hdir) hx
  | case5 links dir n rest hskip hup hlen place hget hrest =>
    cases hx
    exact ⟨hdir, hget⟩
  | case7 links dir n rest hskip hup hlen place hget ih => exact ih hget hx
  | case12 dir n rest hskip hup hlen place target hget hlast links ih =>
    refine ih ?_ hx
    split
    · rfl
    · exact hdir
  | case1 => cases hx
  | case4 => cases hx
  | case6 => cases hx
  | case8 => cases hx
  | case9 => cases hx
  | case10 => cases hx
  | case11 => cases hx

end Walk

/-! ### Paths -/

section Paths

variable {t t' : FileTree} {cwd : Place} {p : Path}

/-- A path that the system takes leads to where its steps lead. -/
theorem resolve_eq_ok_iff {follow : Bool} {x : Target} :
    t.resolve cwd follow p = .ok x ↔
      (¬ p.bytes.contains 0 ∧ ¬ p.bytes = [] ∧ ¬ maxPath < p.bytes.length) ∧
        walk t follow maxLinks (if p.isAbsolute then [] else cwd) (stepsOf p) = .ok x := by
  unfold resolve
  split
  · next hzero => exact iff_of_false nofun fun h => h.1.1 hzero
  · next hzero =>
    split
    · next hempty => exact iff_of_false nofun fun h => h.1.2.1 hempty
    · next hempty =>
      split
      · next hlong => exact iff_of_false nofun fun h => h.1.2.2 hlong
      · next hlong =>
        rw [and_iff_right ⟨hzero, hempty, hlong⟩]
        split
        · next hx => rw [hx, Except.ok.injEq, Except.ok.injEq]
        · next hx => exact iff_of_false nofun fun h => nomatch hx.symm.trans h

/-- **A path leads to the same entry in a larger tree.**  If it leads to a free name that has
become a directory, then it leads to the directory. -/
theorem resolve_of_extends (h : Extends t t') {follow : Bool} {x : Target}
    (hfilled : ∀ d n, x = .vacant d n → t'.get? (d ++ [n]) = some .directory)
    (hx : t.resolve cwd follow p = .ok x) : t'.resolve cwd follow p = .ok x.filled := by
  obtain ⟨htaken, hwalk⟩ := resolve_eq_ok_iff.1 hx
  exact resolve_eq_ok_iff.2 ⟨htaken, walk_of_extends h hfilled hwalk⟩

/-- Only an entry is reported. -/
theorem entry_eq_ok_iff (r : Except IoError Target) {place : Place} {e : Entry} :
    (do match ← r with
      | .entry place e => return (place, e)
      | .vacant .. => throw (.os .notFound) : Except IoError (Place × Entry)) = .ok (place, e) ↔
      r = .ok (.entry place e) := by
  rcases r with e' | ⟨place', e'⟩ | ⟨dir, name⟩
  · exact iff_of_false nofun nofun
  · change Except.ok (place', e') = .ok (place, e) ↔ _
    simp
  · exact iff_of_false nofun nofun

theorem stat_eq_ok_iff {place : Place} {e : Entry} :
    t.stat cwd p = .ok (place, e) ↔ t.resolve cwd true p = .ok (.entry place e) :=
  entry_eq_ok_iff (t.resolve cwd true p)

theorem lstat_eq_ok_iff {place : Place} {e : Entry} :
    t.lstat cwd p = .ok (place, e) ↔ t.resolve cwd false p = .ok (.entry place e) :=
  entry_eq_ok_iff (t.resolve cwd false p)

/-- What a path leads to is the same in a larger tree. -/
theorem stat_of_extends (h : Extends t t') {r : Place × Entry} (hr : t.stat cwd p = .ok r) :
    t'.stat cwd p = .ok r := by
  refine stat_eq_ok_iff.2 (resolve_of_extends h ?_ (stat_eq_ok_iff.1 hr))
  intro d n hv
  cases hv

theorem exists_file_of_isFile (h : t.isFile cwd p = true) :
    ∃ place content executable, t.stat cwd p = .ok (place, .file content executable) := by
  unfold isFile at h
  split at h
  · next place content executable hfile => exact ⟨place, content, executable, hfile⟩
  · cases h

/-- A directory is made at the free name that a path leads to. -/
theorem makeDir_eq_ok (h : t.makeDir cwd p = .ok t') :
    ∃ d n, t.resolve cwd false p = .ok (.vacant d n) ∧ t' = t.insert (d ++ [n]) .directory := by
  rw [makeDir] at h
  rcases hx : t.resolve cwd false p with e' | ⟨place, e⟩ | ⟨d, n⟩ <;> rw [hx] at h
  · cases h
  · cases h
  · exact ⟨d, n, rfl, (Except.ok.inj h).symm⟩

/-- A directory that a path leads to is removed with all that is below it. -/
theorem removeDirAll_eq_erase {place : Place} (h : t.lstat cwd p = .ok (place, .directory)) :
    t.removeDirAll cwd p = t.erase place := by
  rw [removeDirAll, h]

end Paths

end ScenePreview.FileTree
