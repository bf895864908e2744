import ScenePreview.Proofs.Locator
import ScenePreview.Proofs.Seclusion

/-!
# Parents of paths

The parent of a path is cut out of its text, together with the slashes and `.` segments at the
end of what is left.  So it can have another text than the path that a name was put below, but for
the path of a place it is that very path.

## Main definitions

* `Path.trimmed` — an absolute path without what stands for nothing at its end.

## Main results

* `Path.parent?_join`, `Path.parent?_parent?_join` — **the parent of a name below a path, and the
  parent of that.**
* `Path.trimmed_toPath` — the path of a place has nothing to lose.
-/

namespace ScenePreview

namespace Path

/-! ### Segments and the text between them -/

/-- A path is what its segments spell. -/
theorem ofSegments_segments (p : Path) : ofSegments p.segments = p := by
  rw [ofSegments, segments_eq_splitOn, List.intercalate_splitOn]

theorem slash_notMem_of_mem_segments {p : Path} : ∀ s ∈ p.segments, slash ∉ s :=
  slash_notMem_of_mem_segmentsFrom List.not_mem_nil

/-- The first segment of an absolute path is what stands before its first slash. -/
theorem segments_of_isAbsolute {p : Path} (h : p.isAbsolute = true) :
    p.segments = [] :: p.segments.tail := by
  obtain ⟨bs, hbs⟩ := List.head?_eq_some_iff.1 (beq_iff_eq.1 h)
  rw [segments, hbs]
  rfl

/-! ### Paths without what stands for nothing at their end -/

/-- An absolute path without the slashes and `.` segments at its end. -/
def trimmed (p : Path) : Path :=
  let kept := p.segments.tail.rdropWhile isFiller
  if kept = [] then ⟨[slash]⟩ else ofSegments ([] :: kept)

theorem IsName.isFiller_eq {n : Name} (hn : IsName n) : isFiller n = false := by
  simp [isFiller, hn.ne_nil, hn.ne_here]

theorem isAbsolute_trimmed (p : Path) : p.trimmed.isAbsolute = true := by
  unfold trimmed
  dsimp only
  split
  · rfl
  · next hkept =>
    obtain ⟨s, ss, hss⟩ := List.exists_cons_of_ne_nil hkept
    rw [hss, ofSegments, List.intercalate_cons_cons]
    rfl

/-- A path that ends in a name has nothing to lose. -/
theorem trimmed_of_segments {p : Path} (h : p.isAbsolute = true) {before : List Name} {n : Name}
    (hn : isFiller n = false) (hp : p.segments.tail = before ++ [n]) : p.trimmed = p := by
  have hkept : p.segments.tail.rdropWhile isFiller = p.segments.tail := by
    rw [hp, List.rdropWhile_concat_neg _ _ _ (by simp [hn])]
  have hne : p.segments.tail ≠ [] := by simp [hp]
  unfold trimmed
  simp only [hkept, if_neg hne]
  rw [← segments_of_isAbsolute h, ofSegments_segments]

/-! ### A name below a path -/

/-- The segments of a name below a path are those of the path, less an empty one for a slash at
its end, and the name. -/
theorem exists_segments_join_eq {p : Path} (hp : p.isAbsolute = true) {n : Name} (hn : IsName n) :
    ∃ before, (p.join ⟨n⟩).segments = [] :: (before ++ [n]) ∧
      before.rdropWhile isFiller = p.segments.tail.rdropWhile isFiller := by
  have hne : p.bytes ≠ [] := by
    intro hnil
    rw [isAbsolute, hnil] at hp
    cases hp
  by_cases hslash : p.bytes.getLast? = some slash
  · obtain ⟨start, hstart⟩ := List.getLast?_eq_some_iff.1 hslash
    have hjoin : (p.join ⟨n⟩).bytes = start ++ slash :: n := by
      rw [join, if_neg (by simp [hn.isAbsolute_eq]), if_pos (.inr hslash), hstart]
      simp
    have hsegments : p.segments = segmentsFrom [] start ++ [[]] := by
      rw [segments, hstart, segmentsFrom_append]
      rfl
    have hjoined : (p.join ⟨n⟩).segments = segmentsFrom [] start ++ [n] := by
      rw [segments, hjoin, segmentsFrom_append, segmentsFrom_of_notMem hn.notMem_slash]
      rfl
    -- the part before the last slash starts with an empty segment too
    obtain ⟨s, before, hbefore⟩ : ∃ s before, segmentsFrom [] start = s :: before := by
      rw [segmentsFrom_eq_splitOn]
      cases hsplit : start.splitOn slash with
      | nil => exact absurd hsplit (List.splitOn_ne_nil _ _)
      | cons s before => exact ⟨_, before, rfl⟩
    have hs : s = [] := by
      have habsolute := segments_of_isAbsolute (isAbsolute_join hp ⟨n⟩)
      rw [hjoined, hbefore, List.cons_append] at habsolute
      exact (List.cons.inj habsolute).1
    refine ⟨before, by rw [hjoined, hbefore, hs, List.cons_append], ?_⟩
    rw [hsegments, hbefore, List.cons_append, List.tail_cons,
      List.rdropWhile_concat_pos _ _ _ (by rfl)]
  · have hjoined := segments_join hne hslash hn
    refine ⟨p.segments.tail, ?_, rfl⟩
    rw [hjoined]
    conv_lhs => rw [segments_of_isAbsolute hp]
    rfl

/-- The parent of a name below a path is the path without what stands for nothing at its end. -/
theorem parent?_join {p : Path} (hp : p.isAbsolute = true) {n : Name} (hn : IsName n) :
    (p.join ⟨n⟩).parent? = some p.trimmed := by
  obtain ⟨before, hsegments, hkept⟩ := exists_segments_join_eq hp hn
  have hdrop : (before ++ [n]).reverse.dropWhile isFiller = n :: before.reverse := by
    rw [List.reverse_append, List.reverse_singleton, List.singleton_append,
      List.dropWhile_cons_of_neg (by simp [hn.isFiller_eq])]
  have hparent : (p.join ⟨n⟩).parentSegments?
      = some ([] :: p.segments.tail.rdropWhile isFiller) := by
    rw [parentSegments?, hsegments]
    simp only [hdrop]
    rw [← hkept]
    rfl
  rw [parent?, hparent, trimmed]
  simp

theorem trimmed_join {p : Path} (hp : p.isAbsolute = true) {n : Name} (hn : IsName n) :
    (p.join ⟨n⟩).trimmed = p.join ⟨n⟩ := by
  obtain ⟨before, hsegments, -⟩ := exists_segments_join_eq hp hn
  have htail : (p.join ⟨n⟩).segments.tail = before ++ [n] := by rw [hsegments, List.tail_cons]
  exact trimmed_of_segments (isAbsolute_join hp _) hn.isFiller_eq htail

/-- Two steps up from two names below a path lead back to it. -/
theorem parent?_parent?_join {p : Path} (hp : p.isAbsolute = true) {n m : Name} (hn : IsName n)
    (hm : IsName m) : ((p.join ⟨n⟩).join ⟨m⟩).parent?.bind parent? = some p.trimmed := by
  rw [parent?_join (isAbsolute_join hp _) hm, trimmed_join hp hn, Option.bind_some,
    parent?_join hp hn]

end Path

/-! ### Paths of places -/

theorem Place.toPath_concat {p : Place} (hp : ∀ n ∈ p, Path.IsName n) (n : Name)
    (hn : Path.IsName n) : Place.toPath (p ++ [n]) = p.toPath.join ⟨n⟩ := by
  rw [Path.join, if_neg (by simp [hn.isAbsolute_eq])]
  rcases List.eq_nil_or_concat' p with rfl | ⟨before, m, rfl⟩
  · simp [Place.toPath]
  · have hm : Path.IsName m := hp m (by simp)
    have hlast : (Place.toPath (before ++ [m])).bytes.getLast? ≠ some Path.slash := by
      have hbytes : (Place.toPath (before ++ [m])).bytes
          = before.flatMap (Path.slash :: ·) ++ [Path.slash] ++ m := by
        simp [Place.toPath]
      rw [hbytes, List.getLast?_append_of_ne_nil _ hm.ne_nil]
      exact fun h => hm.notMem_slash (List.mem_of_getLast? h)
    have hne : (Place.toPath (before ++ [m])).bytes ≠ [] := by simp [Place.toPath]
    rw [if_neg (not_or.2 ⟨hne, hlast⟩)]
    simp [Place.toPath]

/-- The path of a place has nothing to lose at its end. -/
theorem Path.trimmed_toPath {p : Place} (hp : ∀ n ∈ p, Path.IsName n) :
    p.toPath.trimmed = p.toPath := by
  rcases List.eq_nil_or_concat' p with rfl | ⟨before, n, rfl⟩
  · decide
  · have hn : Path.IsName n := hp n (by simp)
    have hbefore : ∀ m ∈ before, Path.IsName m := fun m hm => hp m (by simp [hm])
    rw [Place.toPath_concat hbefore n hn]
    exact Path.trimmed_join (Place.isAbsolute_toPath before) hn

end ScenePreview
