import ScenePreview.Proofs.Calls
import ScenePreview.Proofs.Parent

/-!
# File names, stems and extensions

The last component of a path is found in its text, whatever slashes and `.` segments stand around
it, and the last dot parts it into a stem and an extension.  The renderer is told the one, and what
it leaves is looked for in a directory that is named for the other.  Here it is said what both are,
and that they belong together.

## Main definitions

* `Path.IsStem` — the part of a name before its last dot.

## Main results

* `Text.Utf8.mem_encodeChars_iff` — a byte of its own stands for a character of its own.
* `Path.splitName_append`, `Path.splitName_of_notMem` — the two ways to part a name.
* `Path.extension?_eq_some_iff` — the extension of a path.
* `Path.isName_of_fileName?` — a file name has no slash and is no `.` or `..`.
* `Path.join_assoc` — what is below a path that is below another.
* `Render.searches_where_told` — **the video is looked for where a renderer that knows the plain
  name leaves it.**
-/

namespace ScenePreview

open Text.Utf8

/-! ### Bytes that are characters of their own -/

namespace Text.Utf8

theorem encodeChars_append (cs ds : List Char) :
    encodeChars (cs ++ ds) = encodeChars cs ++ encodeChars ds :=
  List.flatMap_append

theorem encode_append (s t : String) : encode (s ++ t) = encode s ++ encode t := by
  rw [encode, String.toList_append, encodeChars_append]
  rfl

theorem encode_eq_nil_iff (s : String) : encode s = [] ↔ s = "" := by
  constructor
  · intro h
    rw [← lossy_encode s, h, lossy, lossyChars_nil, String.ofList_nil]
  · rintro rfl
    rfl

/-- A byte below `0x80` in a character is all of it. -/
theorem encodeChar_of_mem {c : Char} {b : UInt8} (hb : b.toNat < 0x80)
    (h : b ∈ String.utf8EncodeChar c) : String.utf8EncodeChar c = [b] := by
  have hs := shape_encodeChar c
  generalize String.utf8EncodeChar c = bytes at h hs
  cases hs with
  | one hone =>
    rw [List.mem_singleton] at h
    rw [h]
  | two hlead h2 =>
    rw [isTail_iff] at h2
    simp only [List.mem_cons, List.not_mem_nil, or_false] at h
    rcases h with rfl | rfl <;> omega
  | three hlead h2 h3 =>
    rw [isSecondOf3_iff] at h2
    rw [isTail_iff] at h3
    simp only [List.mem_cons, List.not_mem_nil, or_false] at h
    rcases h with rfl | rfl | rfl <;> omega
  | four hlead h2 h3 h4 =>
    rw [isSecondOf4_iff] at h2
    rw [isTail_iff] at h3 h4
    simp only [List.mem_cons, List.not_mem_nil, or_false] at h
    rcases h with rfl | rfl | rfl | rfl <;> omega

theorem mem_encodeChars_iff {b : UInt8} (hb : b.toNat < 0x80) (cs : List Char) :
    b ∈ encodeChars cs ↔ Char.ofNat b.toNat ∈ cs := by
  rw [encodeChars, List.mem_flatMap]
  constructor
  · rintro ⟨c, hc, hmem⟩
    have hchar := (encodeChar_of_mem hb hmem).trans (encodeChar_of_one hb).symm
    rwa [← encodeChar_injective hchar]
  · intro hc
    refine ⟨_, hc, ?_⟩
    rw [encodeChar_of_one hb]
    exact List.mem_singleton_self b

end Text.Utf8

namespace Path

theorem slash_mem_encode_iff (s : String) : slash ∈ encode s ↔ '/' ∈ s.toList :=
  mem_encodeChars_iff (by decide) s.toList

theorem dot_mem_encodeChars_iff (cs : List Char) : dot ∈ encodeChars cs ↔ '.' ∈ cs :=
  mem_encodeChars_iff (by decide) cs

/-! ### Parting a name -/

theorem splitName_append {stem extension : Name} (hstem : stem ≠ []) (hdot : dot ∉ extension) :
    splitName (stem ++ dot :: extension) = (stem, some extension) := by
  have hall : ∀ b ∈ extension.reverse, (b != dot) = true := by
    intro b hb
    rw [bne_iff_ne]
    rintro rfl
    exact hdot (List.mem_reverse.1 hb)
  have hreverse : (stem ++ dot :: extension).reverse
      = extension.reverse ++ dot :: stem.reverse := by simp
  have hafter : (stem ++ dot :: extension).reverse.takeWhile (· != dot) = extension.reverse := by
    rw [hreverse, List.takeWhile_append_of_pos hall, List.takeWhile_cons_of_neg (by simp),
      List.append_nil]
  have hbefore : (stem ++ dot :: extension).reverse.dropWhile (· != dot)
      = dot :: stem.reverse := by
    rw [hreverse, List.dropWhile_append_of_pos hall, List.dropWhile_cons_of_neg (by simp)]
  rw [splitName]
  simp only [hafter, hbefore, List.drop_one, List.tail_cons, List.reverse_reverse]
  rw [if_neg (by simpa using hstem)]

/-- A name without a dot after its first byte has no extension. -/
theorem splitName_of_notMem {n : Name} (h : dot ∉ n.tail) : splitName n = (n, none) := by
  have hbefore : (n.reverse.dropWhile (· != dot)).drop 1 = [] := by
    cases n with
    | nil => rfl
    | cons b bs =>
      have hall : ∀ x ∈ bs.reverse, (x != dot) = true := by
        intro x hx
        rw [bne_iff_ne]
        rintro rfl
        exact h (List.mem_reverse.1 hx)
      rw [List.reverse_cons, List.dropWhile_append_of_pos hall, List.dropWhile_cons]
      split <;> rfl
  rw [splitName]
  simp only [hbefore, if_true]

theorem exists_last_of_mem {α : Type} {a : α} {xs : List α} (h : a ∈ xs) :
    ∃ before after, xs = before ++ a :: after ∧ a ∉ after := by
  obtain ⟨after, before, hsplit, hnot⟩ := List.eq_append_cons_of_mem (List.mem_reverse.2 h)
  refine ⟨before.reverse, after.reverse, ?_, by simpa using hnot⟩
  rw [← List.reverse_reverse xs, hsplit]
  simp

/-- An element that stands somewhere after the first one parts a list where it stands last. -/
theorem exists_parts_of_mem_tail {α : Type} {a : α} {xs : List α} (h : a ∈ xs.tail) :
    ∃ stem extension, xs = stem ++ a :: extension ∧ stem ≠ [] ∧ a ∉ extension := by
  cases xs with
  | nil => cases h
  | cons x xs =>
    obtain ⟨before, after, hxs, hnot⟩ := exists_last_of_mem h
    refine ⟨x :: before, after, ?_, List.cons_ne_nil _ _, hnot⟩
    rw [List.cons_append, ← hxs]
    rfl

/-- The extension of a path is what follows the last dot of its file name, if something stands
before that dot. -/
theorem extension?_eq_some_iff {p : Path} {extension : Name} :
    p.extension? = some extension ↔ dot ∉ extension ∧
      ∃ stem, stem ≠ [] ∧ p.fileName? = some (stem ++ dot :: extension) := by
  constructor
  · intro h
    obtain ⟨n, hn, hsplit⟩ := Option.bind_eq_some_iff.1 h
    by_cases htail : dot ∈ n.tail
    · obtain ⟨stem, extension', rfl, hstem, hdot⟩ := exists_parts_of_mem_tail htail
      rw [splitName_append hstem hdot, Option.some.injEq] at hsplit
      subst hsplit
      exact ⟨hdot, stem, hstem, hn⟩
    · rw [splitName_of_notMem htail] at hsplit
      cases hsplit
  · rintro ⟨hdot, stem, hstem, hn⟩
    rw [extension?, hn, Option.bind_some, splitName_append hstem hdot]

/-- `stem` is `name` less its extension: what stands before the last dot, or all of it if there is
no dot after the first character. -/
inductive IsStem (stem : String) : String → Prop where
  /-- There is no extension. -/
  | whole (h : '.' ∉ stem.toList.tail) : IsStem stem stem
  /-- The last dot parts the name. -/
  | parted {extension : String} (hstem : stem ≠ "") (hdot : '.' ∉ extension.toList) :
      IsStem stem (stem ++ "." ++ extension)

theorem exists_isStem (name : String) : ∃ stem, IsStem stem name := by
  by_cases h : '.' ∈ name.toList.tail
  · obtain ⟨cs, ds, hname, hcs, hds⟩ := exists_parts_of_mem_tail h
    have hne : String.ofList cs ≠ "" := by
      rw [ne_eq, ← String.toList_inj]
      simpa using hcs
    have hparts : name = String.ofList cs ++ "." ++ String.ofList ds := by
      rw [← String.toList_inj, hname]
      simp
    rw [hparts]
    exact ⟨_, .parted hne (by simpa using hds)⟩
  · exact ⟨name, .whole h⟩

theorem dot_notMem_tail_encode {s : String} (h : '.' ∉ s.toList.tail) : dot ∉ (encode s).tail := by
  rw [encode]
  cases hs : s.toList with
  | nil => exact List.not_mem_nil
  | cons c cs =>
    rw [hs, List.tail_cons, ← dot_mem_encodeChars_iff] at h
    obtain ⟨b, bs, hc⟩ := exists_encodeChar_eq_cons c
    have hbytes : (encodeChars (c :: cs)).tail = bs ++ encodeChars cs := by
      rw [encodeChars, List.flatMap_cons, hc]
      rfl
    rw [hbytes, List.mem_append, not_or]
    refine ⟨fun hmem => ?_, h⟩
    -- a dot in a character is all of it, so nothing follows its first byte
    have hall := encodeChar_of_mem (c := c) (b := dot) (by decide)
      (by rw [hc]; exact List.mem_cons_of_mem b hmem)
    rw [hc, List.cons.injEq] at hall
    rw [hall.2] at hmem
    cases hmem

theorem IsStem.splitName_encode {stem name : String} (h : IsStem stem name) :
    (splitName (encode name)).1 = encode stem := by
  cases h with
  | whole hdot => rw [splitName_of_notMem (dot_notMem_tail_encode hdot)]
  | @parted extension hstem hdot =>
    have hbytes : encode (stem ++ "." ++ extension) = encode stem ++ dot :: encode extension := by
      rw [encode_append, encode_append, List.append_assoc]
      rfl
    have hne : encode stem ≠ [] := by rwa [ne_eq, encode_eq_nil_iff]
    have hnot : dot ∉ encode extension := by rwa [encode, dot_mem_encodeChars_iff]
    rw [hbytes, splitName_append hne hnot]

theorem IsStem.ne_empty {stem name : String} (h : IsStem stem name) (hname : name ≠ "") :
    stem ≠ "" := by
  cases h with
  | whole _ => exact hname
  | parted hstem _ => exact hstem

theorem IsStem.subset {stem name : String} (h : IsStem stem name) :
    stem.toList ⊆ name.toList := by
  cases h with
  | whole _ => exact List.Subset.refl _
  | parted _ _ =>
    rw [String.toList_append, String.toList_append, List.append_assoc]
    exact List.subset_append_left _ _

/-! ### The file name -/

theorem fileName?_eq_some_iff {p : Path} {n : Name} :
    p.fileName? = some n ↔ p.components.getLast? = some (.name n) := by
  unfold fileName?
  split
  · next m hm => simp [hm]
  · next hnot =>
    refine iff_of_false nofun ?_
    intro h
    exact hnot n h

theorem Component.ofSegment?_eq_name {s n : Name} (h : ofSegment? s = some (.name n)) :
    s = n ∧ n ≠ [] ∧ n ≠ Path.here ∧ n ≠ Path.up := by
  unfold ofSegment? at h
  split at h
  · cases h
  · next hfiller =>
    split at h
    · cases h
    · next hup =>
      cases h
      exact ⟨rfl, fun hn => hfiller (.inl hn), fun hn => hfiller (.inr hn), hup⟩

/-- A file name is a component on its own. -/
theorem isName_of_fileName? {p : Path} {n : Name} (h : p.fileName? = some n) : IsName n := by
  have hmem := List.mem_of_getLast? (fileName?_eq_some_iff.1 h)
  rw [components, List.mem_append] at hmem
  rcases hmem with horigin | hsegment
  · -- what a path starts from is no name
    unfold origin at horigin
    split at horigin
    · simp at horigin
    · split at horigin <;> simp at horigin
  · obtain ⟨s, hs, hname⟩ := List.mem_filterMap.1 hsegment
    obtain ⟨rfl, hne, hhere, hup⟩ := Component.ofSegment?_eq_name hname
    exact ⟨hne, hhere, hup, slash_notMem_of_mem_segments s hs⟩

@[simp] theorem nil_join (q : Path) : (Path.mk []).join q = q := by
  rw [join]
  split
  · rfl
  · rw [if_pos (.inl rfl), List.nil_append]

/-- A name is the file name of the path that it spells. -/
theorem IsName.fileName?_eq {n : Name} (h : IsName n) : (Path.mk n).fileName? = some n := by
  have hjoin := fileName?_join ⟨[]⟩ h
  rwa [nil_join] at hjoin

/-! ### Paths below paths -/

/-- What stands between a path and another one below it. -/
def gap (p : Path) : List UInt8 :=
  if p.bytes = [] ∨ p.bytes.getLast? = some slash then [] else [slash]

theorem join_eq_gap {p q : Path} (h : q.isAbsolute = false) :
    p.join q = ⟨p.bytes ++ p.gap ++ q.bytes⟩ := by
  rw [join, if_neg (by simp [h]), gap]
  split <;> simp

theorem gap_eq_nil {p : Path} (h : p.bytes = [] ∨ p.bytes.getLast? = some slash) : p.gap = [] :=
  if_pos h

theorem gap_eq_slash {p : Path} (hne : p.bytes ≠ []) (hlast : p.bytes.getLast? ≠ some slash) :
    p.gap = [slash] :=
  if_neg (not_or.2 ⟨hne, hlast⟩)

/-- What follows a path that is below another does not depend on that one. -/
theorem gap_join (p : Path) {q : Path} (h : q.isAbsolute = false) : (p.join q).gap = q.gap := by
  rw [join_eq_gap h]
  by_cases hq : q.bytes = []
  · -- a path below which nothing is put ends in a slash, or is empty itself
    have hend : p.bytes ++ p.gap = [] ∨ (p.bytes ++ p.gap).getLast? = some slash := by
      unfold gap
      split
      · next hp => simpa using hp
      · exact .inr (by simp)
    rw [hq, List.append_nil, gap_eq_nil hend, gap_eq_nil (.inl hq)]
  · have hne : p.bytes ++ p.gap ++ q.bytes ≠ [] := by simp [hq]
    have hlast : (p.bytes ++ p.gap ++ q.bytes).getLast? = q.bytes.getLast? :=
      List.getLast?_append_of_ne_nil _ hq
    by_cases hslash : q.bytes.getLast? = some slash
    · rw [gap_eq_nil (.inr (hlast.trans hslash)), gap_eq_nil (.inr hslash)]
    · rw [gap_eq_slash hne (by rwa [hlast]), gap_eq_slash hq hslash]

theorem isAbsolute_join_eq {q r : Path} (hq : q.isAbsolute = false) (hr : r.isAbsolute = false) :
    (q.join r).isAbsolute = false := by
  by_cases hnil : q.bytes = []
  · have hempty : q = ⟨[]⟩ := by rw [← hnil]
    rw [hempty, nil_join, hr]
  · obtain ⟨b, bs, hbs⟩ := List.exists_cons_of_ne_nil hnil
    rw [join_eq_gap hr, isAbsolute, hbs]
    rw [isAbsolute, hbs] at hq
    exact hq

/-- What is below a path that is below another is below that one. -/
theorem join_assoc (p q r : Path) : (p.join q).join r = p.join (q.join r) := by
  by_cases hr : r.isAbsolute = true
  · simp only [join, hr, if_true]
  · rw [Bool.not_eq_true] at hr
    by_cases hq : q.isAbsolute = true
    · have hpq : p.join q = q := if_pos hq
      have hpqr : p.join (q.join r) = q.join r := if_pos (isAbsolute_join hq r)
      rw [hpq, hpqr]
    · rw [Bool.not_eq_true] at hq
      rw [join_eq_gap hr, gap_join p hq, join_eq_gap hq, join_eq_gap (isAbsolute_join_eq hq hr),
        join_eq_gap hr]
      simp only [List.append_assoc]

end Path

/-! ### What the renderer is told, and where its video is looked for -/

namespace Render

/-- The directory of the video is the same below every working directory. -/
theorem artifactDir_eq_join (workdir scene : Path) :
    artifactDir workdir scene = workdir.join (artifactDir ⟨[]⟩ scene) := by
  simp only [artifactDir, Path.child, Path.join_assoc, Path.nil_join]

/-- The path from the working directory to the video, as text. -/
theorem artifactDir_nil {scene : Path} {stem : String} (hstem : scene.stem = encode stem)
    (hne : stem ≠ "") (hslash : '/' ∉ stem.toList) :
    artifactDir ⟨[]⟩ scene = Path.ofString ("media/videos/" ++ stem ++ "/480p15") := by
  have hvideos : ((Path.mk []).child "media").child "videos" = Path.ofString "media/videos" := by
    decide +kernel
  have hbytes : encode stem ≠ [] := by rwa [ne_eq, encode_eq_nil_iff]
  have hnot : Path.slash ∉ encode stem := by rwa [Path.slash_mem_encode_iff]
  have hrelative : (Path.mk (encode stem)).isAbsolute = false := by
    rw [Path.isAbsolute, beq_eq_false_iff_ne]
    intro hhead
    exact hnot (List.mem_of_mem_head? hhead)
  have hgap : (Path.mk (encode stem)).gap = [Path.slash] :=
    Path.gap_eq_slash hbytes fun hlast => hnot (List.mem_of_getLast? hlast)
  have hquality : (Path.ofString quality).isAbsolute = false := by decide +kernel
  have hbefore : encode "media/videos" ++ (Path.ofString "media/videos").gap
      = encode "media/videos/" := by decide +kernel
  have hafter : Path.slash :: encode quality = encode "/480p15" := by decide +kernel
  calc artifactDir ⟨[]⟩ scene
    _ = ((Path.ofString "media/videos").join ⟨encode stem⟩).join (Path.ofString quality) := by
      rw [artifactDir, hvideos, hstem]
      rfl
    _ = ⟨encode "media/videos" ++ (Path.ofString "media/videos").gap ++ encode stem
        ++ [Path.slash] ++ encode quality⟩ := by
      rw [Path.join_eq_gap hquality, Path.gap_join _ hrelative, hgap, Path.join_eq_gap hrelative]
      rfl
    _ = Path.ofString ("media/videos/" ++ stem ++ "/480p15") := by
      rw [hbefore, List.append_assoc, List.singleton_append, hafter, Path.ofString, encode_append,
        encode_append]

/-- **The video is looked for where a renderer that knows the plain name leaves it.**  Whatever
the text of a scene path is, if its last component is a name then the last argument of the renderer
is that name, and there is no slash in it.  The directory in which the video is looked for is the
one for a scene whose path is just that argument: from the working directory it is reached over
`media`, `videos`, the argument up to its last dot, and the name of the quality. -/
theorem searches_where_told (settings : Settings) (environment : Option String) (workdir : Path)
    {scene : Path} {name : String}
    (hname : scene.components.getLast? = some (.name (encode name))) :
    (invocation settings scene environment).argv.getLast? = some name ∧
    '/' ∉ name.toList ∧
    artifactDir workdir scene = artifactDir workdir (Path.ofString name) ∧
    ∃ stem, Path.IsStem stem name ∧ (Path.ofString name).stem = encode stem ∧
      artifactDir workdir scene = workdir.child ("media/videos/" ++ stem ++ "/480p15") := by
  have hfile : scene.fileName? = some (encode name) := Path.fileName?_eq_some_iff.2 hname
  have hisName : Path.IsName (encode name) := Path.isName_of_fileName? hfile
  have hslash : '/' ∉ name.toList := by
    rw [← Path.slash_mem_encode_iff]
    exact hisName.notMem_slash
  have halone : (Path.ofString name).fileName? = some (encode name) := hisName.fileName?_eq
  have hstems : scene.stem = (Path.ofString name).stem := by
    rw [Path.stem, Path.stem, hfile, halone]
  obtain ⟨stem, hstem⟩ := Path.exists_isStem name
  have hbytes : (Path.ofString name).stem = encode stem := by
    rw [Path.stem, halone, Option.map_some, Option.getD_some, hstem.splitName_encode]
  have hnonempty : stem ≠ "" :=
    hstem.ne_empty fun h => hisName.ne_nil ((encode_eq_nil_iff name).2 h)
  refine ⟨?_, hslash, ?_, stem, hstem, hbytes, ?_⟩
  · rw [argv_invocation_name, List.getLast?_append_cons, sceneName, hfile, Option.getD_some,
      lossy_encode]
    rfl
  · rw [artifactDir, artifactDir, hstems]
  · rw [artifactDir_eq_join, artifactDir_nil (hstems.trans hbytes) hnonempty
      fun h => hslash (hstem.subset h)]
    rfl

/-- A hidden file with several dots, below repeated slashes and before a `.` and more slashes. -/
theorem searches_where_told_hidden :
    let scene := Path.ofString "/a//b/./.scène.tar.py/.//"
    scene.components.getLast? = some (.name (encode ".scène.tar.py")) ∧
      (invocation {} scene (some "envA")).argv.getLast? = some ".scène.tar.py" ∧
      Path.IsStem ".scène.tar" ".scène.tar.py" ∧
      artifactDir (Path.ofString "/w/") scene =
        Path.ofString "/w/media/videos/.scène.tar/480p15" := by
  intro scene
  have hname : scene.components.getLast? = some (.name (encode ".scène.tar.py")) := by
    decide +kernel
  obtain ⟨htold, -, -, stem, hstem, hbytes, hdir⟩ :=
    searches_where_told {} (some "envA") (Path.ofString "/w/") hname
  obtain rfl : stem = ".scène.tar" := by
    rw [← lossy_encode stem, ← hbytes]
    cbv
  refine ⟨hname, htold, hstem, hdir.trans ?_⟩
  decide +kernel

end Render

end ScenePreview
