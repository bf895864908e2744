import ScenePreview.Config.Locate
import ScenePreview.Proofs.FileTree

/-!
# Look-ups and the contents of files

A look-up goes by directories and links.  What is in a file matters to whoever reads that file,
and to no one else: where a path leads, whether it leads anywhere and what its path without links
is stay the same when other files are written anew.

## Main definitions

* `FileTree.Rewritten` — a tree with other contents in some of its files.
* `FileTree.SameOr` — results of a look-up that are the same, or two contents of one file.

## Main results

* `FileTree.walk_rewritten` — **steps lead to the same place in both trees.**
* `FileTree.exists_rewritten`, `FileTree.canonicalize_rewritten` — what does not read files is
  the same.
* `Host.readText_rewritten` — so is the text of a file that was not written anew.
* `FileTree.stat_of_isAbsolute` — an absolute path leads to the same from everywhere.
-/

namespace ScenePreview

namespace FileTree

/-! ### Trees with other contents -/

/-- A tree that has a file wherever another one has a file, and is the same in all else.  The
files at the places `kept` are the same too. -/
def Rewritten (kept : Place → Prop) (t t' : FileTree) : Prop :=
  ∀ q, t'.get? q = t.get? q ∨ ¬ kept q ∧ ∃ content executable content' executable',
    t.get? q = some (.file content executable) ∧ t'.get? q = some (.file content' executable')

/-- Two results that are the same, or two contents of one file that is not at a place `kept`. -/
def SameOr {α ε : Type} (kept : Place → Prop) (make : Place → Entry → α)
    (r r' : Except ε α) : Prop :=
  r' = r ∨ ∃ place, ¬ kept place ∧ ∃ content executable content' executable',
    r = .ok (make place (.file content executable)) ∧
      r' = .ok (make place (.file content' executable'))

variable {kept : Place → Prop} {t t' : FileTree}

theorem Rewritten.get?_eq (h : Rewritten kept t t') {q : Place}
    (hfile : ∀ content executable, t.get? q ≠ some (.file content executable)) :
    t'.get? q = t.get? q := by
  rcases h q with heq | ⟨-, content, executable, -, -, hget, -⟩
  · exact heq
  · exact absurd hget (hfile content executable)

/-- Steps lead to the same place in a tree with other contents. -/
theorem walk_rewritten (h : Rewritten kept t t') (follow : Bool) (links : Nat) (dir : Place)
    (steps : List Name) :
    SameOr kept Target.entry (walk t follow links dir steps)
      (walk t' follow links dir steps) := by
  -- only the last step can come to a file, and there the contents may differ
  fun_induction walk t follow links dir steps with
  | case1 links dir =>
    rw [walk]
    exact .inl rfl
  | case2 links dir n rest hskip ih =>
    rw [walk, if_pos hskip]
    exact ih
  | case3 links dir rest hskip ih =>
    rw [walk, if_neg hskip, if_pos rfl]
    exact ih
  | case4 links dir n rest hskip hup hlen =>
    rw [walk, if_neg hskip, if_neg hup, if_pos hlen]
    exact .inl rfl
  | case5 links dir n rest hskip hup hlen place hget hrest =>
    have hget' := h.get?_eq (q := place) (by simp [hget])
    rw [walk_name hskip hup hlen, hget', hget]
    exact .inl (if_pos hrest)
  | case6 links dir n rest hskip hup hlen place hget hrest =>
    have hget' := h.get?_eq (q := place) (by simp [hget])
    rw [walk_name hskip hup hlen, hget', hget]
    exact .inl (if_neg hrest)
  | case7 links dir n rest hskip hup hlen place hget ih =>
    have hget' := h.get?_eq (q := place) (by simp [hget])
    rw [walk_name hskip hup hlen, hget', hget]
    exact ih
  | case8 links dir n hskip hup hlen place content executable hget =>
    rw [walk_name hskip hup hlen]
    rcases h place with hsame | ⟨hkept, c, x, content', executable', -, hget'⟩
    · rw [hsame, hget]
      exact .inl rfl
    · rw [hget']
      exact .inr ⟨place, hkept, content, executable, content', executable', rfl, rfl⟩
  | case9 links dir n rest hskip hup hlen place content executable hget hrest =>
    rw [walk_name hskip hup hlen]
    rcases h place with hsame | ⟨-, c, x, content', executable', -, hget'⟩
    · rw [hsame, hget]
      exact .inl (if_neg hrest)
    · rw [hget']
      exact .inl (if_neg hrest)
  | case10 links dir n rest hskip hup hlen place target hget hlast =>
    have hget' := h.get?_eq (q := place) (by simp [hget])
    rw [walk_name hskip hup hlen, hget', hget]
    exact .inl (if_pos hlast)
  | case11 dir n rest hskip hup hlen place target hget hlast =>
    have hget' := h.get?_eq (q := place) (by simp [hget])
    rw [walk_name hskip hup hlen, hget', hget]
    exact .inl (if_neg hlast)
  | case12 dir n rest hskip hup hlen place target hget hlast links ih =>
    have hget' := h.get?_eq (q := place) (by simp [hget])
    have hstep : walk t' follow (links + 1) dir (n :: rest) = walk t' follow links
        (if target.isAbsolute then [] else dir) (stepsOf target ++ rest) := by
      rw [walk_name hskip hup hlen, hget', hget]
      exact if_neg hlast
    rw [hstep]
    exact ih

/-! ### Paths -/

theorem resolve_rewritten (h : Rewritten kept t t') (cwd : Place) (follow : Bool) (p : Path) :
    SameOr kept Target.entry (t.resolve cwd follow p) (t'.resolve cwd follow p) := by
  unfold resolve
  split
  · exact .inl rfl
  · split
    · exact .inl rfl
    · split
      · exact .inl rfl
      · rcases walk_rewritten h follow maxLinks (if p.isAbsolute then [] else cwd) (stepsOf p)
          with hsame | ⟨place, hkept, c, x, c', x', hwalk, hwalk'⟩
        · rw [hsame]
          exact .inl rfl
        · rw [hwalk, hwalk']
          exact .inr ⟨place, hkept, c, x, c', x', rfl, rfl⟩

theorem stat_rewritten (h : Rewritten kept t t') (cwd : Place) (p : Path) :
    SameOr kept Prod.mk (t.stat cwd p) (t'.stat cwd p) := by
  unfold stat
  rcases resolve_rewritten h cwd true p with hsame | ⟨place, hkept, c, x, c', x', hr, hr'⟩
  · rw [hsame]
    exact .inl rfl
  · rw [hr, hr']
    exact .inr ⟨place, hkept, c, x, c', x', rfl, rfl⟩

theorem exists_rewritten (h : Rewritten kept t t') (cwd : Place) (p : Path) :
    t'.exists cwd p = t.exists cwd p := by
  unfold FileTree.exists
  rcases stat_rewritten h cwd p with hsame | ⟨place, -, c, x, c', x', hr, hr'⟩
  · rw [hsame]
  · rw [hr, hr']
    rfl

theorem canonicalize_rewritten (h : Rewritten kept t t') (cwd : Place) (p : Path) :
    t'.canonicalize cwd p = t.canonicalize cwd p := by
  unfold canonicalize
  rcases stat_rewritten h cwd p with hsame | ⟨place, -, c, x, c', x', hr, hr'⟩
  · rw [hsame]
  · rw [hr, hr']
    rfl

/-- A file at a place that is kept has the same content. -/
theorem readFile_rewritten (h : Rewritten kept t t') {cwd : Place} {p : Path}
    (hkept : ∀ place e, t.stat cwd p = .ok (place, e) → kept place) :
    t'.readFile cwd p = t.readFile cwd p := by
  unfold readFile
  rcases stat_rewritten h cwd p with hsame | ⟨place, hnot, c, x, c', x', hr, -⟩
  · rw [hsame]
  · exact absurd (hkept place _ hr) hnot

/-! ### Absolute paths -/

/-- An absolute path leads to the same from every directory. -/
theorem stat_of_isAbsolute (t : FileTree) {p : Path} (hp : p.isAbsolute = true)
    (cwd cwd' : Place) : t.stat cwd p = t.stat cwd' p := by
  unfold stat resolve
  rw [hp]
  rfl

end FileTree

namespace Host

open FileTree (Rewritten)

theorem readText_rewritten {kept : Place → Prop} (h : Host) {t' : FileTree}
    (ht : Rewritten kept h.tree t') {p : Path}
    (hkept : ∀ place e, h.tree.stat h.cwd p = .ok (place, e) → kept place) :
    Host.readText { h with tree := t' } p = h.readText p := by
  unfold readText
  rw [FileTree.readFile_rewritten ht hkept]

/-- The text of an absolute path is the same from every directory. -/
theorem readText_of_isAbsolute {h h' : Host} (htree : h'.tree = h.tree) {p : Path}
    (hp : p.isAbsolute = true) : h'.readText p = h.readText p := by
  unfold readText FileTree.readFile
  rw [htree, FileTree.stat_of_isAbsolute h.tree hp h'.cwd h.cwd]

end Host

end ScenePreview
