import ScenePreview.Path

/-!
# File trees

A file tree is a finite map from places to entries. A place is the list of names that lead to
it from the root, which is always a directory.

## Main definitions

* `Place`, `Entry`, `FileTree` — the map.
* `FileTree.get?`, `FileTree.insert`, `FileTree.erase` — its operations.
* `FileTree.children` — the names in a directory.

## Main results

* `FileTree.get?_insert_self`, `FileTree.get?_insert_of_ne`, `FileTree.get?_erase` — what is
  where after a change.
-/

namespace ScenePreview

/-- Where something is: the names that lead to it from the root. -/
abbrev Place := List Name

/-- What is at a place. -/
inductive Entry where
  /-- A directory. -/
  | directory
  /-- A file with its content, and whether it may be run. -/
  | file (content : List UInt8) (executable : Bool)
  /-- A symbolic link. -/
  | link (target : Path)
  deriving Repr, DecidableEq

/-- A file tree, as the list of its places other than the root. -/
structure FileTree where
  /-- The places with their entries. -/
  entries : List (Place × Entry) := []
  deriving Repr, DecidableEq

namespace FileTree

/-- What is at a place. -/
def get? (t : FileTree) (p : Place) : Option Entry :=
  if p = [] then some .directory else (t.entries.find? (·.1 == p)).map (·.2)

/-- The tree with an entry at a place, in the stead of what was there. -/
def insert (t : FileTree) (p : Place) (e : Entry) : FileTree :=
  if t.entries.any (·.1 == p) then
    ⟨t.entries.map fun q => if q.1 == p then (p, e) else q⟩
  else ⟨t.entries ++ [(p, e)]⟩

/-- The tree without a place and all that is below it. -/
def erase (t : FileTree) (p : Place) : FileTree :=
  ⟨t.entries.filter fun q => !p.isPrefixOf q.1⟩

/-- The names in a directory. -/
def children (t : FileTree) (p : Place) : List Name :=
  t.entries.filterMap fun q =>
    if q.1.dropLast == p then q.1.getLast? else none

/-- The places strictly below a place. -/
def below (t : FileTree) (p : Place) : List (Place × Entry) :=
  t.entries.filter fun q => p.isPrefixOf q.1 && p != q.1

/-! ### What is where after a change -/

/-- The root is always a directory. -/
@[simp] theorem get?_root (t : FileTree) : t.get? [] = some .directory := rfl

theorem get?_of_ne {p : Place} (hp : p ≠ []) (t : FileTree) :
    t.get? p = (t.entries.find? (·.1 == p)).map (·.2) := by
  rw [get?, if_neg hp]

/-- A place that was given an entry has it. -/
theorem get?_insert_self (t : FileTree) {p : Place} (hp : p ≠ []) (e : Entry) :
    (t.insert p e).get? p = some e := by
  rw [get?_of_ne hp, insert]
  split
  · next h =>
    obtain ⟨q, hq, hqp⟩ := List.any_eq_true.1 h
    rw [List.find?_map]
    cases hf : t.entries.find? ((fun r => r.1 == p) ∘ fun q => if q.1 == p then (p, e) else q) with
    | none =>
      have := List.find?_eq_none.1 hf q hq
      simp only [Function.comp, hqp, if_true, beq_self_eq_true, not_true_eq_false] at this
    | some r =>
      have hr := List.find?_some hf
      simp only [Function.comp] at hr
      by_cases h' : (r.1 == p) = true
      · simp [beq_iff_eq.1 h']
      · rw [if_neg h'] at hr
        exact absurd hr h'
  · next h =>
    rw [List.find?_append,
      List.find?_eq_none.2 fun q hq hqp => h (List.any_eq_true.2 ⟨q, hq, hqp⟩)]
    simp

/-- All other places keep theirs. -/
theorem get?_insert_of_ne (t : FileTree) {p q : Place} (h : q ≠ p) (e : Entry) :
    (t.insert p e).get? q = t.get? q := by
  by_cases hq : q = []
  · rw [hq, get?_root, get?_root]
  rw [get?_of_ne hq, get?_of_ne hq, insert]
  have hpq : (p == q) = false := by rw [beq_eq_false_iff_ne]; exact h.symm
  split
  · induction t.entries with
    | nil => rfl
    | cons r rs ih =>
      rw [List.map_cons, List.find?_cons, List.find?_cons]
      by_cases hr : (r.1 == p) = true
      · have hrq : (r.1 == q) = false := by rw [beq_iff_eq.1 hr]; exact hpq
        rw [if_pos hr, hpq, hrq]
        exact ih
      · rw [if_neg hr]
        split
        · rfl
        · exact ih
  · rw [List.find?_append]
    cases t.entries.find? (·.1 == q) with
    | some r => rfl
    | none => simp [hpq]

/-- Only what is at or below a place goes with it. -/
theorem get?_erase (t : FileTree) (p : Place) {q : Place} (hq : q ≠ []) :
    (t.erase p).get? q = if p.isPrefixOf q then none else t.get? q := by
  rw [get?_of_ne hq, get?_of_ne hq, erase]
  induction t.entries with
  | nil => split <;> rfl
  | cons r rs ih =>
    by_cases hr : (r.1 == q) = true
    · have hrq := beq_iff_eq.1 hr
      by_cases hp : p.isPrefixOf q = true
      · rw [List.filter_cons_of_neg (by simp [hrq, hp]), ih, if_pos hp, if_pos hp]
      · rw [List.filter_cons_of_pos (by simp [hrq, hp]), List.find?_cons, List.find?_cons, hr,
          if_neg hp]
    · rw [Bool.not_eq_true] at hr
      rw [List.filter_cons, List.find?_cons, hr]
      split
      · rw [List.find?_cons, hr]
        exact ih
      · exact ih

end FileTree

/-- The absolute path of a place. -/
def Place.toPath (p : Place) : Path :=
  ⟨if p = [] then [Path.slash] else p.flatMap (Path.slash :: ·)⟩

end ScenePreview
