import ScenePreview.Proofs.Seclusion

/-!
# Which video is found

A directory lists its names in any order, and among them may be all sorts of things whose names
end like that of a video: directories, links that lead nowhere, names that are no text.  Here it
is said which of them is found, what is reported if there are none or several, and that nothing of
this depends on the order.

## Main results

* `FileTree.get?_of_perm`, `FileTree.stat_of_perm` — a tree is known by what is where, in whatever
  order it is held.
* `Artifact.choose_cases` — of some names the first is chosen, in whatever order they come.
* `Artifact.find_cases` — the three ways in which a look for the video ends.
* `Artifact.find_first` — **the first video by name is found, with a warning if there are others.**
-/

namespace ScenePreview

open Text.Utf8

/-! ### Trees in another order -/

namespace FileTree

variable {t t' : FileTree} (hperm : t'.entries.Perm t.entries)
  (hnodup : (t.entries.map Prod.fst).Nodup)
include hperm hnodup

/-- What is at a place does not depend on the order of the places. -/
theorem get?_of_perm (q : Place) : t.get? q = t'.get? q := by
  by_cases hq : q = []
  · rw [hq, get?_root, get?_root]
  -- what is found in either order is in both, and only one entry has the place
  have hunique : ∀ r ∈ t.entries, ∀ r' ∈ t.entries, r.1 = q → r'.1 = q → r = r' := by
    intro r hr r' hr' hrq hrq'
    exact List.inj_on_of_nodup_map hnodup hr hr' (hrq.trans hrq'.symm)
  have hfind : t.entries.find? (·.1 == q) = t'.entries.find? (·.1 == q) := by
    cases hf : t.entries.find? (·.1 == q) with
    | none =>
      rw [List.find?_eq_none] at hf
      exact (List.find?_eq_none.2 fun r hr => hf r (hperm.mem_iff.1 hr)).symm
    | some r =>
      have hr := List.mem_of_find?_eq_some hf
      have hrq : r.1 = q := by simpa using List.find?_some hf
      cases hf' : t'.entries.find? (·.1 == q) with
      | none =>
        rw [List.find?_eq_none] at hf'
        exact absurd (beq_iff_eq.2 hrq) (hf' r (hperm.mem_iff.2 hr))
      | some r' =>
        have hr' := hperm.mem_iff.1 (List.mem_of_find?_eq_some hf')
        have hrq' : r'.1 = q := by simpa using List.find?_some hf'
        rw [hunique r hr r' hr' hrq hrq']
  rw [get?_of_ne hq, get?_of_ne hq, hfind]

/-- Nor does what a path leads to. -/
theorem stat_of_perm (cwd : Place) (p : Path) : t.stat cwd p = t'.stat cwd p := by
  have hsame : SameOutside (fun _ => False) t t' := fun q _ => get?_of_perm hperm hnodup q
  exact stat_congr hsame fun w hw => hw.elim

/-- A directory that can be read lists the same names, in another order. -/
theorem readDir_of_perm (cwd : Place) (p : Path) :
    (∃ e, t.readDir cwd p = .error e ∧ t'.readDir cwd p = .error e) ∨
    ∃ names names', t.readDir cwd p = .ok names ∧ t'.readDir cwd p = .ok names' ∧
      names'.Perm names := by
  rw [readDir, readDir, ← stat_of_perm hperm hnodup]
  rcases t.stat cwd p with e | ⟨d, - | - | -⟩
  · exact .inl ⟨e, rfl, rfl⟩
  · exact .inr ⟨t.children d, t'.children d, rfl, rfl, hperm.filterMap _⟩
  · exact .inl ⟨_, rfl, rfl⟩
  · exact .inl ⟨_, rfl, rfl⟩

end FileTree

namespace Artifact

/-! ### The choice among names -/

/-- Of some names the first is chosen, with a warning if there are others. -/
theorem choose_cases (dir : Path) (names : List Name) :
    (names = [] ∧ choose dir names = (.error "no file matching *.mp4", [])) ∨
    ∃ n ∈ names, (∀ m ∈ names, n ≤ m) ∧ choose dir names = (.ok ⟨dir.join ⟨n⟩⟩,
      if 2 ≤ names.length then [.severalVideos names.length (dir.join ⟨n⟩)] else []) := by
  have hperm : (sorted names).Perm names := List.mergeSort_perm names _
  have hordered : (sorted names).Pairwise (· ≤ ·) := FileTree.pairwise_sortBytes names
  have hlength : (sorted names).length = names.length := hperm.length_eq
  -- the head of the names in order is one of them, and none is before it
  have hfirst : ∀ n ns, sorted names = n :: ns → n ∈ names ∧ ∀ m ∈ names, n ≤ m := by
    intro n ns hsorted
    rw [hsorted] at hperm hordered
    refine ⟨hperm.mem_iff.1 List.mem_cons_self, fun m hm => ?_⟩
    rcases List.mem_cons.1 (hperm.mem_iff.2 hm) with rfl | hm
    · exact List.le_refl m
    · exact (List.pairwise_cons.1 hordered).1 m hm
  rw [choose]
  rcases hsorted : sorted names with - | ⟨n, - | ⟨n', ns⟩⟩ <;> rw [hsorted] at hlength
  · exact .inl ⟨List.eq_nil_of_length_eq_zero hlength.symm, rfl⟩
  · obtain ⟨hmem, hle⟩ := hfirst n [] hsorted
    refine .inr ⟨n, hmem, hle, ?_⟩
    rw [← hlength]
    rfl
  · obtain ⟨hmem, hle⟩ := hfirst n (n' :: ns) hsorted
    refine .inr ⟨n, hmem, hle, ?_⟩
    rw [← hlength, if_pos (by simp)]
    rfl

/-- The choice does not depend on the order of the names. -/
theorem choose_of_perm {names names' : List Name} (h : names'.Perm names) (dir : Path) :
    choose dir names' = choose dir names := by
  rw [choose, choose, sorted, sorted, FileTree.sortBytes_of_perm h]

/-! ### The look for the video -/

theorem find_of_unreadable {h : Host} {dir : Path} {e : IoError}
    (he : h.tree.readDir h.cwd dir = .error e) (stderr : String) :
    find h dir stderr =
      (.error (.artifactNotFound dir ("cannot read directory: " ++ e.message) stderr), []) := by
  rw [find, search, he]

/-- What is chosen among the videos of a directory is found in it. -/
theorem find_of_readable {h : Host} {dir : Path} {names : List Name}
    (hnames : h.tree.readDir h.cwd dir = .ok names) (stderr : String) :
    find h dir stderr =
      (match (choose dir (candidates h dir names)).1 with
        | .ok a => .ok a
        | .error reason => .error (.artifactNotFound dir reason stderr),
      (choose dir (candidates h dir names)).2) := by
  rw [find, search, hnames]
  dsimp only
  rcases choose dir (candidates h dir names) with ⟨reason | a, ws⟩ <;> rfl

/-- There are as many videos as candidates, if no place is listed twice. -/
theorem length_candidates {h : Host} (hnodup : (h.tree.entries.map Prod.fst).Nodup) {dir : Path}
    {names : List Name} (hnames : h.tree.readDir h.cwd dir = .ok names) :
    (candidates h dir names).length = {n | IsVideo h dir n}.ncard := by
  obtain ⟨d, -, rfl⟩ := FileTree.readDir_eq_ok_iff.1 hnames
  have honce : (candidates h dir (h.tree.children d)).Nodup :=
    (FileTree.nodup_children hnodup d).filter _
  have hset : {n | IsVideo h dir n} = ↑(candidates h dir (h.tree.children d)).toFinset := by
    ext n
    rw [Finset.mem_coe, List.mem_toFinset, mem_candidates_iff hnames]
    rfl
  rw [hset, Set.ncard_coe_finset, List.toFinset_card_of_nodup honce]

/-- The three ways in which a look for the video ends: the directory cannot be read, it has no
video, or the first of its videos by name is found. -/
theorem find_cases {h : Host} (hnodup : (h.tree.entries.map Prod.fst).Nodup) (dir : Path)
    (stderr : String) :
    (∃ e, h.tree.readDir h.cwd dir = .error e ∧ find h dir stderr =
      (.error (.artifactNotFound dir ("cannot read directory: " ++ e.message) stderr), [])) ∨
    ((∃ names, h.tree.readDir h.cwd dir = .ok names) ∧ (∀ n, ¬ IsVideo h dir n) ∧
      find h dir stderr =
        (.error (.artifactNotFound dir "no file matching *.mp4" stderr), [])) ∨
    ∃ n, IsVideo h dir n ∧ (∀ m, IsVideo h dir m → n ≤ m) ∧ find h dir stderr =
      (.ok ⟨dir.join ⟨n⟩⟩, if 2 ≤ {n | IsVideo h dir n}.ncard then
        [.severalVideos {n | IsVideo h dir n}.ncard (dir.join ⟨n⟩)] else []) := by
  cases hnames : h.tree.readDir h.cwd dir with
  | error e => exact .inl ⟨e, rfl, find_of_unreadable hnames stderr⟩
  | ok names =>
    have hmem := mem_candidates_iff hnames
    have hfind := find_of_readable hnames stderr
    right
    obtain ⟨hnil, hchoose⟩ | ⟨n, hn, hle, hchoose⟩ := choose_cases dir (candidates h dir names)
    · refine .inl ⟨⟨names, rfl⟩, fun n hn => ?_, ?_⟩
      · rw [← hmem, hnil] at hn
        cases hn
      · rw [hfind, hchoose]
    · refine .inr ⟨n, (hmem n).1 hn, fun m hm => hle m ((hmem m).2 hm), ?_⟩
      rw [hfind, hchoose, length_candidates hnodup hnames]

/-- The look for the video does not depend on the order in which the files are held. -/
theorem find_of_perm {h : Host} (hnodup : (h.tree.entries.map Prod.fst).Nodup) {tree : FileTree}
    (hperm : tree.entries.Perm h.tree.entries) (dir : Path) (stderr : String) :
    find { h with tree } dir stderr = find h dir stderr := by
  have hfile : ∀ p, Host.isFile { h with tree } p = h.isFile p := by
    intro p
    rw [Host.isFile, Host.isFile, FileTree.isFile, FileTree.isFile,
      FileTree.stat_of_perm hperm hnodup]
  have hcandidates : ∀ names, candidates { h with tree } dir names = candidates h dir names := by
    intro names
    rw [candidates, candidates]
    simp only [hfile]
  obtain ⟨e, he, he'⟩ | ⟨names, names', hnames, hnames', hlisted⟩ :=
    FileTree.readDir_of_perm hperm hnodup h.cwd dir
  · rw [find_of_unreadable he, find_of_unreadable (h := { h with tree }) he']
  · have hchoose : choose dir (candidates { h with tree } dir names')
        = choose dir (candidates h dir names) := by
      rw [hcandidates]
      exact choose_of_perm (hlisted.filter _) dir
    rw [find_of_readable hnames, find_of_readable (h := { h with tree }) hnames', hchoose]

section Outcomes

variable {h : Host} (hnodup : (h.tree.entries.map Prod.fst).Nodup) {dir : Path} {stderr : String}
include hnodup

/-- A video is found exactly if it is the first one by name. -/
theorem find_eq_ok_iff (a : Artifact) : (find h dir stderr).1 = .ok a ↔
    ∃ n, IsVideo h dir n ∧ (∀ m, IsVideo h dir m → n ≤ m) ∧ a.path = dir.join ⟨n⟩ := by
  obtain ⟨e, he, hfind⟩ | ⟨-, hnone, hfind⟩ | ⟨n, hn, hle, hfind⟩ := find_cases hnodup dir stderr
  · rw [hfind]
    refine iff_of_false nofun ?_
    rintro ⟨n, ⟨⟨names, hnames, -⟩, -⟩, -⟩
    rw [he] at hnames
    cases hnames
  · rw [hfind]
    refine iff_of_false nofun ?_
    rintro ⟨n, hn, -⟩
    exact hnone n hn
  · rw [hfind]
    constructor
    · intro ha
      cases ha
      exact ⟨n, hn, hle, rfl⟩
    · rintro ⟨m, hm, hleast, hpath⟩
      obtain rfl : n = m := List.le_antisymm (hle m hm) (hleast n hn)
      obtain ⟨path⟩ := a
      obtain rfl : path = dir.join ⟨n⟩ := hpath
      rfl

/-- No video is found exactly if the directory cannot be read or has none, and the failure says
which of the two it is. -/
theorem find_eq_error_iff (f : Failure) : (find h dir stderr).1 = .error f ↔
    (∃ e, h.tree.readDir h.cwd dir = .error e ∧
      f = .artifactNotFound dir ("cannot read directory: " ++ e.message) stderr) ∨
    ((∃ names, h.tree.readDir h.cwd dir = .ok names) ∧ (∀ n, ¬ IsVideo h dir n) ∧
      f = .artifactNotFound dir "no file matching *.mp4" stderr) := by
  obtain ⟨e, he, hfind⟩ | ⟨⟨names, hnames⟩, hnone, hfind⟩ | ⟨n, hn, hle, hfind⟩ :=
    find_cases hnodup dir stderr
  · rw [hfind, he]
    simp [eq_comm]
  · rw [hfind, hnames]
    simp [hnone, eq_comm]
  · obtain ⟨names, hnames, -⟩ := hn.listed
    rw [hfind, hnames]
    refine iff_of_false nofun ?_
    rintro (⟨e, he, -⟩ | ⟨-, hnone, -⟩)
    · cases he
    · exact hnone n hn

/-- Several videos are told by a warning, with their number and the one that is found. -/
theorem find_of_several (hseveral : 2 ≤ {n | IsVideo h dir n}.ncard) :
    ∃ a, find h dir stderr = (.ok a, [.severalVideos {n | IsVideo h dir n}.ncard a.path]) := by
  obtain ⟨n, hn⟩ : {n | IsVideo h dir n}.Nonempty :=
    Set.nonempty_of_ncard_ne_zero (by omega)
  obtain ⟨e, he, -⟩ | ⟨-, hnone, -⟩ | ⟨m, -, -, hfind⟩ := find_cases hnodup dir stderr
  · obtain ⟨names, hnames, -⟩ := hn.listed
    rw [he] at hnames
    cases hnames
  · exact absurd hn (hnone n)
  · exact ⟨⟨dir.join ⟨m⟩⟩, by rw [hfind, if_pos hseveral]⟩

/-- Otherwise there is no warning. -/
theorem warnings_find_of_lt (hfew : {n | IsVideo h dir n}.ncard < 2) :
    (find h dir stderr).2 = [] := by
  obtain ⟨e, -, hfind⟩ | ⟨-, -, hfind⟩ | ⟨n, -, -, hfind⟩ := find_cases hnodup dir stderr
  · rw [hfind]
  · rw [hfind]
  · rw [hfind, if_neg (by omega)]

end Outcomes

/-- **The first video by name is found, with a warning if there are others.**  The files are held in
any order, each place once.  What is found is the path of a video that no other comes before in the
order of bytes.  If nothing is found, then because the directory cannot be read or because there is
no video in it.  There is one warning if there are two videos or more, which tells their number and
the path that is found, and otherwise none.  All this stays the same if the files are held, and so
the names listed, in another order. -/
theorem find_first (h : Host) (hnodup : (h.tree.entries.map Prod.fst).Nodup) (dir : Path)
    (stderr : String) :
    let count := {n | IsVideo h dir n}.ncard
    (∀ a, (find h dir stderr).1 = .ok a ↔
      ∃ n, IsVideo h dir n ∧ (∀ m, IsVideo h dir m → n ≤ m) ∧ a.path = dir.join ⟨n⟩) ∧
    (∀ f, (find h dir stderr).1 = .error f ↔
      (∃ e, h.tree.readDir h.cwd dir = .error e ∧
        f = .artifactNotFound dir ("cannot read directory: " ++ e.message) stderr) ∨
      ((∃ names, h.tree.readDir h.cwd dir = .ok names) ∧ (∀ n, ¬ IsVideo h dir n) ∧
        f = .artifactNotFound dir "no file matching *.mp4" stderr)) ∧
    (2 ≤ count → ∃ a, find h dir stderr = (.ok a, [.severalVideos count a.path])) ∧
    (count < 2 → (find h dir stderr).2 = []) ∧
    ∀ tree : FileTree, tree.entries.Perm h.tree.entries →
      find { h with tree } dir stderr = find h dir stderr := by
  intro count
  exact ⟨find_eq_ok_iff hnodup, find_eq_error_iff hnodup, find_of_several hnodup,
    warnings_find_of_lt hnodup, fun tree hperm => find_of_perm hnodup hperm dir stderr⟩

/-- A directory with a file, a link to it, a file without a stem, a directory, a link that leads
nowhere, an ending in capitals and a name that is no text. -/
def crowdedTree : FileTree :=
  let inside (n : Name) : Place := [encode "v", n]
  ⟨[([encode "v"], .directory),
    (inside (encode "b.mp4"), .file [] false),
    (inside (encode "a.mp4"), .link (Path.ofString "b.mp4")),
    (inside (encode "d.mp4"), .directory),
    (inside (encode "-.mp4"), .link (Path.ofString "nowhere")),
    (inside (encode "A.MP4"), .file [] false),
    (inside (255 :: encode ".mp4"), .file [] false),
    (inside (encode ".mp4"), .file [] false)]⟩

/-- Three of the names in that directory count, and the first of them is the one without a stem,
in whatever order they are listed. -/
theorem find_first_crowded :
    let h : Host := { tree := crowdedTree }
    let dir := Path.ofString "/v"
    (h.tree.entries.map Prod.fst).Nodup ∧ {n | IsVideo h dir n}.ncard = 3 ∧
      (∃ n, IsVideo h dir n ∧ (∀ m, IsVideo h dir m → n ≤ m) ∧
        Path.ofString "/v/.mp4" = dir.join ⟨n⟩) ∧
      find { h with tree := ⟨crowdedTree.entries.reverse⟩ } dir ""
        = (.ok ⟨Path.ofString "/v/.mp4"⟩, [.severalVideos 3 (Path.ofString "/v/.mp4")]) := by
  intro h dir
  have hnodup : (h.tree.entries.map Prod.fst).Nodup := by decide +kernel
  have hfind : find h dir "" = (.ok ⟨Path.ofString "/v/.mp4"⟩,
      [.severalVideos 3 (Path.ofString "/v/.mp4")]) := by cbv
  obtain ⟨hok, -, hseveral, hfew, horder⟩ := find_first h hnodup dir ""
  have hcount : {n | IsVideo h dir n}.ncard = 3 := by
    by_cases h2 : 2 ≤ {n | IsVideo h dir n}.ncard
    · obtain ⟨a, ha⟩ := hseveral h2
      rw [hfind] at ha
      simp only [Prod.mk.injEq, List.cons.injEq, Warning.severalVideos.injEq] at ha
      exact ha.2.1.1.symm
    · have hnone := hfew (by omega)
      rw [hfind] at hnone
      cases hnone
  refine ⟨hnodup, hcount, (hok ⟨Path.ofString "/v/.mp4"⟩).1 (by rw [hfind]), ?_⟩
  exact (horder ⟨crowdedTree.entries.reverse⟩ (List.reverse_perm _)).trans hfind

end Artifact

end ScenePreview
