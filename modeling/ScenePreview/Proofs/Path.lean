import ScenePreview.Proofs.Utf8
import ScenePreview.Render
import ScenePreview.WorkDir

/-!
# Names below directories

A path is text, and its components are found in it again each time they are asked for.  Here is
what they are for a name below a directory, whatever the text of the directory is: it may be
empty, end in slashes or hold anything else.

## Main definitions

* `Path.IsName` — the texts that are a component on their own.
* `Path.StartsPlain` — the texts that no text before them can run into.

## Main results

* `Path.segmentsFrom_append` — a slash parts the segments.
* `Path.fileName?_join` — a name below a directory is the file name.
* `Path.exists_display_child` — a name below a directory is shown after the directory.
* `Path.isAbsolute_join` — what is below an absolute path is absolute.
* `Render.sceneName_scenePath`, `Render.artifactDir_scenePath` — what the renderer is told of
  the scene, and where it leaves the video.
-/

namespace ScenePreview

open Text.Utf8

namespace Path

/-! ### Segments -/

/-- A slash parts the segments before it from those after it. -/
theorem segmentsFrom_append (acc bs bs' : List UInt8) :
    segmentsFrom acc (bs ++ slash :: bs') = segmentsFrom acc bs ++ segmentsFrom [] bs' := by
  induction bs generalizing acc with
  | nil => simp [segmentsFrom]
  | cons b bs ih =>
    rw [List.cons_append, segmentsFrom, segmentsFrom]
    by_cases hb : b = slash
    · rw [if_pos hb, if_pos hb, ih, List.cons_append]
    · rw [if_neg hb, if_neg hb, ih]

theorem segmentsFrom_of_notMem {bs : List UInt8} (h : slash ∉ bs) (acc : List UInt8) :
    segmentsFrom acc bs = [acc.reverse ++ bs] := by
  induction bs generalizing acc with
  | nil => rw [segmentsFrom, List.append_nil]
  | cons b bs ih =>
    rw [List.mem_cons, not_or] at h
    rw [segmentsFrom, if_neg (Ne.symm h.1), ih h.2, List.reverse_cons, List.append_assoc,
      List.singleton_append]

theorem segmentsFrom_eq_splitOn (acc bs : List UInt8) :
    segmentsFrom acc bs = (bs.splitOn slash).modifyHead (acc.reverse ++ ·) := by
  induction bs generalizing acc with
  | nil => simp [segmentsFrom]
  | cons b bs ih =>
    rw [segmentsFrom, ih, ih, List.splitOn_cons_eq_if_modifyHead]
    by_cases hb : b = slash
    · rw [if_pos hb, if_pos (beq_iff_eq.2 hb)]
      cases bs.splitOn slash <;> simp
    · rw [if_neg hb, if_neg (by simpa using hb)]
      cases bs.splitOn slash <;> simp

theorem segments_eq_splitOn (p : Path) : p.segments = p.bytes.splitOn slash := by
  rw [segments, segmentsFrom_eq_splitOn]
  cases p.bytes.splitOn slash <;> simp

/-! ### A name below a directory -/

/-- The texts that are a component on their own. -/
structure IsName (n : Name) : Prop where
  /-- Nothing is no name. -/
  ne_nil : n ≠ []
  /-- `.` is no name. -/
  ne_here : n ≠ Path.here
  /-- `..` is no name. -/
  ne_up : n ≠ Path.up
  /-- A name has no slash. -/
  notMem_slash : slash ∉ n

instance (n : Name) : Decidable (IsName n) :=
  decidable_of_iff (n ≠ [] ∧ n ≠ Path.here ∧ n ≠ Path.up ∧ slash ∉ n)
    ⟨fun h => ⟨h.1, h.2.1, h.2.2.1, h.2.2.2⟩,
      fun h => ⟨h.ne_nil, h.ne_here, h.ne_up, h.notMem_slash⟩⟩

theorem IsName.isAbsolute_eq {n : Name} (h : IsName n) : (Path.mk n).isAbsolute = false := by
  rw [isAbsolute, beq_eq_false_iff_ne]
  intro hhead
  exact h.notMem_slash (List.mem_of_mem_head? hhead)

theorem IsName.ofSegment? {n : Name} (h : IsName n) : Component.ofSegment? n = some (.name n) := by
  rw [Component.ofSegment?, if_neg (not_or.2 ⟨h.ne_nil, h.ne_here⟩), if_neg h.ne_up]

/-- The last segment of a name below a directory is the name. -/
theorem exists_segments_join (p : Path) {n : Name} (h : IsName n) :
    ∃ before, (p.join ⟨n⟩).segments = before ++ [n] := by
  have hn : segmentsFrom [] n = [n] := segmentsFrom_of_notMem h.notMem_slash []
  rw [join, if_neg (by simp [h.isAbsolute_eq])]
  by_cases hp : p.bytes = [] ∨ p.bytes.getLast? = some slash
  · rw [if_pos hp]
    rcases hp with hnil | hlast
    · refine ⟨[], ?_⟩
      rw [segments, hnil, List.nil_append, hn, List.nil_append]
    · -- the directory has its own slash at the end
      obtain ⟨before, hbefore⟩ := List.getLast?_eq_some_iff.1 hlast
      refine ⟨segmentsFrom [] before, ?_⟩
      rw [segments, hbefore, List.append_assoc, List.singleton_append, segmentsFrom_append, hn]
  · rw [if_neg hp]
    refine ⟨segmentsFrom [] p.bytes, ?_⟩
    rw [segments, segmentsFrom_append, hn]

/-- A name below a directory is the file name. -/
theorem fileName?_join (p : Path) {n : Name} (h : IsName n) :
    (p.join ⟨n⟩).fileName? = some n := by
  obtain ⟨before, hsegments⟩ := exists_segments_join p h
  have hlast : (p.join ⟨n⟩).components.getLast? = some (.name n) := by
    rw [components, hsegments, List.filterMap_append, List.filterMap_cons_some h.ofSegment?,
      List.filterMap_nil, ← List.append_assoc, List.getLast?_append_cons]
    rfl
  rw [fileName?, hlast]

theorem stem_join (p : Path) {n : Name} (h : IsName n) : (p.join ⟨n⟩).stem = (splitName n).1 := by
  rw [stem, fileName?_join p h]
  rfl

/-! ### The text of a name below a directory -/

/-- A text whose first character is one of ASCII, but no slash. -/
def StartsPlain (s : String) : Prop :=
  ∃ c, s.toList.head? = some c ∧ c.toNat < 0x80 ∧ c ≠ '/'

/-- Such a text starts with a byte that is a character of its own. -/
theorem StartsPlain.exists_encode {s : String} (h : StartsPlain s) :
    ∃ b bs, encode s = b :: bs ∧ b.toNat < 0x80 ∧ b ≠ slash := by
  obtain ⟨c, hhead, hc, hslash⟩ := h
  obtain ⟨cs, hs⟩ := List.head?_eq_some_iff.1 hhead
  have hbyte : (UInt8.ofNat c.toNat).toNat = c.toNat := by
    rw [UInt8.toNat_ofNat']
    omega
  have hchar : String.utf8EncodeChar c = [UInt8.ofNat c.toNat] := by
    have hone := encodeChar_of_one (hbyte.trans_lt hc)
    rwa [hbyte, Char.ofNat_toNat] at hone
  refine ⟨UInt8.ofNat c.toNat, encodeChars cs, ?_, hbyte.trans_lt hc, fun h => hslash ?_⟩
  · rw [encode, hs, encodeChars, List.flatMap_cons, hchar]
    rfl
  · rw [← Char.ofNat_toNat c, ← hbyte, h]
    decide

/-- A name below a directory is shown after the text of the directory. -/
theorem exists_display_child (p : Path) {s : String} (h : StartsPlain s) :
    ∃ gap, (gap = "" ∨ gap = "/") ∧ (p.child s).display = p.display ++ gap ++ s := by
  obtain ⟨b, bs, hs, hb, hslash⟩ := h.exists_encode
  have hrelative : (ofString s).isAbsolute = false := by
    rw [isAbsolute, ofString, hs]
    simpa using hslash
  have hread : lossyChars (b :: bs) = s.toList := by
    rw [← hs, encode, lossyChars_encodeChars]
  rw [child, join, if_neg (by simp [hrelative]), ofString, hs]
  by_cases hp : p.bytes = [] ∨ p.bytes.getLast? = some slash
  · rw [if_pos hp]
    refine ⟨"", .inl rfl, ?_⟩
    rw [display, display, lossy, lossy, lossyChars_append_cons hb, hread, String.ofList_append,
      String.ofList_toList, String.append_empty]
  · rw [if_neg hp]
    refine ⟨"/", .inr rfl, ?_⟩
    have hmark : lossyChars (slash :: b :: bs) = '/' :: s.toList := by
      rw [lossyChars_of_char (head_one _ (by decide)), hread]
      rfl
    rw [display, display, lossy, lossy, lossyChars_append_cons (by decide), hmark,
      String.ofList_append, String.append_assoc]
    refine congrArg _ ?_
    rw [← String.toList_inj]
    simp

/-! ### Absolute paths -/

/-- What is below an absolute path is absolute, as is every path that takes its place. -/
theorem isAbsolute_join {p : Path} (h : p.isAbsolute = true) (q : Path) :
    (p.join q).isAbsolute = true := by
  have hhead : p.bytes.head? = some slash := beq_iff_eq.1 h
  obtain ⟨rest, hrest⟩ := List.head?_eq_some_iff.1 hhead
  rw [join]
  by_cases hq : q.isAbsolute = true
  · rwa [if_pos hq]
  · rw [if_neg hq]
    split
    · rw [isAbsolute, hrest]
      rfl
    · rw [isAbsolute, hrest]
      rfl

end Path

/-! ### The scene -/

theorem isName_sceneFile : Path.IsName (encode Slice.sceneFile) := by
  decide +kernel

/-- The renderer is told the plain name of the scene file. -/
theorem Render.sceneName_scenePath (dir : Path) :
    Render.sceneName (WorkDir.scenePath dir) = "temp_scene.py" := by
  rw [Render.sceneName, WorkDir.scenePath, Path.child, Path.ofString,
    Path.fileName?_join dir isName_sceneFile]
  exact lossy_encode Slice.sceneFile

/-- The directory in which the video of a run is looked for. -/
theorem Render.artifactDir_scenePath (dir : Path) :
    Render.artifactDir dir (WorkDir.scenePath dir) =
      (((dir.child "media").child "videos").child "temp_scene").child "480p15" := by
  have hstem : (WorkDir.scenePath dir).stem = encode "temp_scene" := by
    rw [WorkDir.scenePath, Path.child, Path.ofString, Path.stem_join dir isName_sceneFile]
    decide +kernel
  rw [Render.artifactDir, hstem]
  rfl

theorem Render.isAbsolute_artifactDir {dir : Path} (h : dir.isAbsolute = true) (scene : Path) :
    (Render.artifactDir dir scene).isAbsolute = true := by
  have hvideos := Path.isAbsolute_join (Path.isAbsolute_join h (Path.ofString "media"))
    (Path.ofString "videos")
  exact Path.isAbsolute_join (Path.isAbsolute_join hvideos _) _

end ScenePreview
