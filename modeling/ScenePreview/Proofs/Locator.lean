import ScenePreview.Proofs.Path

/-!
# Locators

A locator is text for other programs, which find the names of a path in it again: they part it at
its slashes and take each percent sign with its two digits for a byte.  Here it is said that they
find the components of the path, whatever bytes these are made of.

## Main definitions

* `Path.Component.name?`, `Path.names` — the names of a path.
* `Locator.unescape?`, `Locator.names?` — the names that a locator leads through.
* `Locator.IsVisible` — the characters that a locator is made of.

## Main results

* `Path.components_join` — the components of a name below an absolute path.
* `Locator.unescape?_flatMap` — a name is found again in its written form.
* `Locator.splitOn_ofAbsolute` — the parts of a locator between its slashes.
* `Locator.names?_ofAbsolute` — a locator leads through the names of its path.
* `Artifact.locator_recovers` — **a locator is plain text, and the path is found again in it.**
-/

namespace ScenePreview

namespace Path

/-- The name that a component stands for; the root stands for none. -/
def Component.name? : Component → Option Name
  | .root => none
  | .here => some Path.here
  | .up => some Path.up
  | .name n => some n

/-- The names that a path leads through. -/
def names (p : Path) : List Name := p.components.filterMap Component.name?

/-! ### Components of absolute paths -/

theorem origin_of_isAbsolute {p : Path} (h : p.isAbsolute = true) : p.origin = [.root] :=
  if_pos h

theorem components_of_isAbsolute {p : Path} (h : p.isAbsolute = true) :
    p.components = .root :: p.segments.filterMap Component.ofSegment? := by
  rw [components, origin_of_isAbsolute h, List.singleton_append]

/-- The component that a name stands for. -/
def Component.ofName (n : Name) : Component := if n = Path.up then .up else .name n

@[simp] theorem Component.name?_ofName (n : Name) : (ofName n).name? = some n := by
  rw [ofName]
  split
  · next hup => rw [hup]; rfl
  · rfl

/-- The components that segments stand for are those of the segments that are no filler. -/
theorem filterMap_ofSegment? (ss : List Name) :
    ss.filterMap Component.ofSegment? =
      (ss.filter fun s => s ≠ [] ∧ s ≠ Path.here).map Component.ofName := by
  induction ss with
  | nil => rfl
  | cons s ss ih =>
    by_cases hs : s = [] ∨ s = Path.here
    · have hskip : Component.ofSegment? s = none := if_pos hs
      have hfiller : ¬ decide (s ≠ [] ∧ s ≠ Path.here) = true := by
        rw [decide_eq_true_eq]
        exact fun h => hs.elim h.1 h.2
      rw [List.filterMap_cons_none hskip, ih, List.filter_cons, if_neg hfiller]
    · have hkeep : Component.ofSegment? s = some (.ofName s) := by
        rw [Component.ofSegment?, if_neg hs, Component.ofName]
        split <;> rfl
      rw [List.filterMap_cons_some hkeep, ih, List.filter_cons,
        if_pos (decide_eq_true (not_or.1 hs)), List.map_cons]

/-- The names of an absolute path are what stands between its slashes, without what is empty or
names the directory itself. -/
theorem names_of_isAbsolute {p : Path} (h : p.isAbsolute = true) :
    p.names = (p.bytes.splitOn slash).filter fun s => s ≠ [] ∧ s ≠ Path.here := by
  have hroot : Component.name? .root = none := rfl
  rw [names, components_of_isAbsolute h, List.filterMap_cons_none hroot, filterMap_ofSegment?,
    List.filterMap_map, segments_eq_splitOn]
  exact (List.filterMap_congr fun s _ => Component.name?_ofName s).trans List.filterMap_some

/-- An absolute path has its names for components, after the root. -/
theorem components_eq_names {p : Path} (h : p.isAbsolute = true) :
    p.components = .root :: p.names.map Component.ofName := by
  rw [components_of_isAbsolute h, filterMap_ofSegment?, names_of_isAbsolute h,
    segments_eq_splitOn]

/-- A name below an absolute path is one more component. -/
theorem components_join {p : Path} (hp : p.isAbsolute = true) {n : Name} (hn : IsName n) :
    (p.join ⟨n⟩).components = p.components ++ [.name n] := by
  have hlast : segmentsFrom [] n = [n] := segmentsFrom_of_notMem hn.notMem_slash []
  have hne : p.bytes ≠ [] := by
    intro hnil
    rw [isAbsolute, hnil] at hp
    cases hp
  -- an empty segment before the name counts for nothing
  have hsegments : (p.join ⟨n⟩).segments.filterMap Component.ofSegment?
      = p.segments.filterMap Component.ofSegment? ++ [.name n] := by
    rw [join, if_neg (by simp [hn.isAbsolute_eq])]
    by_cases hslash : p.bytes.getLast? = some slash
    · obtain ⟨before, hbefore⟩ := List.getLast?_eq_some_iff.1 hslash
      have hempty : segmentsFrom [] ([] : List UInt8) = [[]] := rfl
      have hnothing : Component.ofSegment? [] = none := rfl
      rw [if_pos (.inr hslash), segments, segments, hbefore, List.append_assoc,
        List.singleton_append, segmentsFrom_append, segmentsFrom_append, hlast, hempty,
        List.filterMap_append, List.filterMap_append, List.filterMap_cons_some hn.ofSegment?,
        List.filterMap_cons_none hnothing, List.filterMap_nil, List.append_nil]
    · rw [if_neg (not_or.2 ⟨hne, hslash⟩), segments, segments, segmentsFrom_append, hlast,
        List.filterMap_append, List.filterMap_cons_some hn.ofSegment?, List.filterMap_nil]
  rw [components_of_isAbsolute (isAbsolute_join hp _), components_of_isAbsolute hp, hsegments,
    List.cons_append]

/-- The names of a path are not empty. -/
theorem ne_nil_of_mem_names {p : Path} {n : Name} (h : n ∈ p.names) : n ≠ [] := by
  obtain ⟨c, hc, hn⟩ := List.mem_filterMap.1 h
  rw [components, List.mem_append, List.mem_filterMap] at hc
  rcases hc with horigin | ⟨segment, -, hsegment⟩
  · rw [origin] at horigin
    split at horigin
    · cases List.mem_singleton.1 horigin
      cases hn
    · split at horigin
      · cases List.mem_singleton.1 horigin
        cases hn
        exact List.cons_ne_nil _ _
      · cases horigin
  · rw [Component.ofSegment?] at hsegment
    split at hsegment
    · cases hsegment
    · next hskip =>
      split at hsegment
      · cases hsegment
        cases hn
        exact List.cons_ne_nil _ _
      · cases hsegment
        cases hn
        exact fun hnil => hskip (.inl hnil)

end Path

namespace Locator

/-! ### Names -/

/-- The bytes that a part of a locator stands for: a percent sign and two digits for a byte, any
other character of ASCII for itself. -/
def unescape? : List Char → Option (List UInt8)
  | [] => some []
  | c :: cs =>
    if c = '%' then
      match cs with
      | hi :: lo :: rest => do
        let hi ← Text.hexValue? hi
        let lo ← Text.hexValue? lo
        return UInt8.ofNat (16 * hi + lo) :: (← unescape? rest)
      | _ => none
    else if c.toNat < 128 then (unescape? cs).map (UInt8.ofNat c.toNat :: ·)
    else none

/-- The names that a locator leads through: what stands between the slashes after the first two,
as far as there is anything. -/
def names? (s : String) : Option (List Name) :=
  if "file://".toList <+: s.toList then
    (((s.toList.drop "file://".length).splitOn '/').filter (· ≠ [])).mapM unescape?
  else none

theorem unescape?_of_ne {c : Char} (h : c ≠ '%') (cs : List Char) :
    unescape? (c :: cs) =
      if c.toNat < 128 then (unescape? cs).map (UInt8.ofNat c.toNat :: ·) else none := by
  rw [unescape?.eq_def]
  exact if_neg h

theorem hexValue?_toUpper_hexChar (d : Fin 16) :
    Text.hexValue? (Text.hexChar d).toUpper = some d := by
  decide +revert

theorem toUpper_hexChar_ne_slash (d : Fin 16) : (Text.hexChar d).toUpper ≠ '/' := by
  decide +revert

/-- The characters that a locator is made of: those of ASCII that can be seen. -/
def IsVisible (c : Char) : Prop := 0x21 ≤ c.toNat ∧ c.toNat ≤ 0x7E

instance (c : Char) : Decidable (IsVisible c) :=
  inferInstanceAs (Decidable (0x21 ≤ c.toNat ∧ c.toNat ≤ 0x7E))

theorem isVisible_toUpper_hexChar (d : Fin 16) : IsVisible (Text.hexChar d).toUpper := by
  decide +revert

/-- What is not escaped is a visible character of ASCII other than the marks. -/
theorem char_of_not_isEscaped {b : UInt8} (h : isEscaped b = false) :
    (Char.ofNat b.toNat).toNat = b.toNat ∧ IsVisible (Char.ofNat b.toNat) ∧ b ≠ 0x25 ∧
      b ≠ 0x2F := by
  simp only [isEscaped, Bool.or_eq_false_iff, decide_eq_false_iff_not, UInt8.le_iff_toNat_le,
    List.contains_eq_mem, List.mem_cons, not_or] at h
  obtain ⟨⟨hlow, hhigh⟩, -, -, hpercent, hslash, -⟩ := h
  simp only [UInt8.reduceToNat, not_le] at hlow hhigh
  have hnat : (Char.ofNat b.toNat).toNat = b.toNat := by
    refine Text.Utf8.toNat_val_ofNat ?_
    simp only [Nat.isValidChar]
    omega
  refine ⟨hnat, ?_, hpercent, hslash⟩
  rw [IsVisible, hnat]
  omega

/-- A byte is found again in its written form. -/
theorem unescape?_escapeByte (b : UInt8) (cs : List Char) :
    unescape? (escapeByte b ++ cs) = (unescape? cs).map (b :: ·) := by
  cases h : isEscaped b with
  | true =>
    have hb : UInt8.ofNat (16 * (Fin.ofNat 16 (b.toNat / 16)).val + (Fin.ofNat 16 b.toNat).val)
        = b := by
      have hlt : b.toNat < 256 := b.toNat_lt
      have hval : 16 * (b.toNat / 16 % 16) + b.toNat % 16 = b.toNat := by omega
      simp only [Fin.val_ofNat, hval, UInt8.ofNat_toNat]
    rw [escapeByte, if_pos h]
    change unescape? ('%' :: (Text.hexChar _).toUpper :: (Text.hexChar _).toUpper :: cs) = _
    rw [unescape?, if_pos rfl]
    simp only [hexValue?_toUpper_hexChar, Option.bind_eq_bind, Option.bind_some, hb]
    cases unescape? cs <;> rfl
  | false =>
    obtain ⟨hnat, hvisible, hpercent, -⟩ := char_of_not_isEscaped h
    have hlt : b.toNat < 128 := by
      rw [IsVisible, hnat] at hvisible
      omega
    have hne : Char.ofNat b.toNat ≠ '%' := by
      intro hc
      rw [hc] at hnat
      exact hpercent (UInt8.toNat_inj.1 hnat.symm)
    rw [escapeByte, if_neg (by simp [h]), List.singleton_append, unescape?_of_ne hne, hnat,
      if_pos hlt, UInt8.ofNat_toNat]

/-- A name is found again in its written form. -/
theorem unescape?_flatMap (n : Name) : unescape? (n.flatMap escapeByte) = some n := by
  induction n with
  | nil => rfl
  | cons b n ih => rw [List.flatMap_cons, unescape?_escapeByte, ih, Option.map_some]

theorem slash_notMem_escapeByte (b : UInt8) : '/' ∉ escapeByte b := by
  cases h : isEscaped b with
  | true =>
    rw [escapeByte, if_pos h]
    change '/' ∉ ['%', (Text.hexChar _).toUpper, (Text.hexChar _).toUpper]
    simp only [List.mem_cons, List.not_mem_nil, or_false, not_or]
    exact ⟨by decide, (toUpper_hexChar_ne_slash _).symm, (toUpper_hexChar_ne_slash _).symm⟩
  | false =>
    obtain ⟨hnat, -, -, hslash⟩ := char_of_not_isEscaped h
    rw [escapeByte, if_neg (by simp [h]), List.mem_singleton]
    intro hc
    rw [← hc] at hnat
    exact hslash (UInt8.toNat_inj.1 hnat.symm)

/-- A byte is written in visible characters. -/
theorem isVisible_of_mem_escapeByte {b : UInt8} {c : Char} (hc : c ∈ escapeByte b) :
    IsVisible c := by
  cases h : isEscaped b with
  | true =>
    rw [escapeByte, if_pos h] at hc
    change c ∈ ['%', (Text.hexChar _).toUpper, (Text.hexChar _).toUpper] at hc
    simp only [List.mem_cons, List.not_mem_nil, or_false] at hc
    rcases hc with rfl | rfl | rfl
    · decide
    · exact isVisible_toUpper_hexChar _
    · exact isVisible_toUpper_hexChar _
  | false =>
    obtain ⟨-, hvisible, -⟩ := char_of_not_isEscaped h
    rw [escapeByte, if_neg (by simp [h]), List.mem_singleton] at hc
    rwa [hc]

/-! ### Paths -/

theorem flatMap_escapeComponent (cs : List Path.Component) :
    cs.flatMap escapeComponent =
      (cs.filterMap Path.Component.name?).flatMap fun n => '/' :: n.flatMap escapeByte := by
  induction cs with
  | nil => rfl
  | cons c cs ih =>
    rw [List.flatMap_cons, ih]
    cases c <;> rfl

/-- Slashes before all parts are slashes between them, with nothing before the first. -/
theorem flatMap_slash (parts : List (List Char)) :
    parts.flatMap ('/' :: ·) = ['/'].intercalate ([] :: parts) := by
  induction parts with
  | nil => rfl
  | cons part parts ih =>
    rw [List.flatMap_cons, ih]
    cases parts <;> simp [List.intercalate]

/-- The parts of a locator between its slashes. -/
theorem splitOn_flatMap {parts : List (List Char)} (h : ∀ part ∈ parts, '/' ∉ part) :
    (parts.flatMap ('/' :: ·)).splitOn '/' = [] :: parts := by
  rw [flatMap_slash]
  refine List.splitOn_intercalate '/' ?_ (List.cons_ne_nil _ _)
  rw [List.forall_mem_cons]
  exact ⟨List.not_mem_nil, h⟩

/-- The text of a locator after its first two slashes. -/
theorem toList_ofAbsolute (p : Path) :
    (ofAbsolute p).toList = "file://".toList ++
      if p.names = [] then ['/']
      else (p.names.map fun n => n.flatMap escapeByte).flatMap ('/' :: ·) := by
  have hbody : p.components.flatMap escapeComponent
      = (p.names.map fun n => n.flatMap escapeByte).flatMap ('/' :: ·) := by
    rw [flatMap_escapeComponent, List.flatMap_map]
    rfl
  have hnil : p.components.flatMap escapeComponent = [] ↔ p.names = [] := by
    rw [hbody]
    cases p.names <;> simp only [List.map_nil, List.map_cons, List.flatMap_nil,
      List.flatMap_cons, List.cons_append, reduceCtorEq]
  exact String.toList_ofList.trans (congrArg ("file://".toList ++ ·) (if_congr hnil rfl hbody))

/-- The names are found again between the slashes. -/
theorem mapM_unescape? (ns : List Name) :
    (ns.map fun n => n.flatMap escapeByte).mapM unescape? = some ns := by
  induction ns with
  | nil => rfl
  | cons n ns ih => simp [unescape?_flatMap, ih]

/-- A locator is written in visible characters. -/
theorem isVisible_of_mem_ofAbsolute {p : Path} {c : Char} (hc : c ∈ (ofAbsolute p).toList) :
    IsVisible c := by
  have hmarks : ∀ c ∈ "file://".toList, IsVisible c := by simp [IsVisible]
  rw [toList_ofAbsolute, List.mem_append] at hc
  rcases hc with hc | hc
  · exact hmarks c hc
  split at hc
  · rw [List.mem_singleton.1 hc]
    decide
  · obtain ⟨part, hpart, hin⟩ := List.mem_flatMap.1 hc
    obtain ⟨n, -, rfl⟩ := List.mem_map.1 hpart
    rcases List.mem_cons.1 hin with rfl | hin
    · decide
    · obtain ⟨b, -, hb⟩ := List.mem_flatMap.1 hin
      exact isVisible_of_mem_escapeByte hb

/-- The parts of a locator between the slashes after its first two: nothing, then the written
names, or nothing once more for the root. -/
theorem splitOn_ofAbsolute (p : Path) :
    ((ofAbsolute p).toList.drop "file://".length).splitOn '/' =
      [] :: if p.names = [] then [[]] else p.names.map fun n => n.flatMap escapeByte := by
  have hlength : "file://".length = "file://".toList.length := rfl
  rw [toList_ofAbsolute, hlength, List.drop_left]
  by_cases hnames : p.names = []
  · rw [if_pos hnames, if_pos hnames]
    decide
  · rw [if_neg hnames, if_neg hnames]
    refine splitOn_flatMap fun part hpart hmem => ?_
    obtain ⟨n, -, rfl⟩ := List.mem_map.1 hpart
    obtain ⟨b, -, hb⟩ := List.mem_flatMap.1 hmem
    exact slash_notMem_escapeByte b hb

/-- A locator leads through the names of its path.  It starts with three slashes, also for the
root. -/
theorem names?_ofAbsolute (p : Path) :
    "file:///".toList <+: (ofAbsolute p).toList ∧ names? (ofAbsolute p) = some p.names := by
  have hmarks : "file:///".toList = "file://".toList ++ ['/'] := by decide
  have hstart : "file://".toList <+: (ofAbsolute p).toList := by
    rw [toList_ofAbsolute]
    exact List.prefix_append _ _
  refine ⟨?_, ?_⟩
  · rw [toList_ofAbsolute, hmarks, List.prefix_append_right_inj]
    cases hnames : p.names with
    | nil => exact List.prefix_refl _
    | cons n ns =>
      rw [if_neg (List.cons_ne_nil n ns), List.map_cons, List.flatMap_cons, List.cons_append]
      exact List.prefix_append ['/'] _
  · rw [names?, if_pos hstart, splitOn_ofAbsolute]
    by_cases hnames : p.names = []
    · rw [if_pos hnames, hnames]
      rfl
    · -- no name is empty, and so no part but the first
      have hfull : ∀ part ∈ p.names.map fun n => n.flatMap escapeByte, part ≠ [] := by
        intro part hpart hnil
        obtain ⟨n, hn, rfl⟩ := List.mem_map.1 hpart
        have hback := unescape?_flatMap n
        rw [hnil] at hback
        exact Path.ne_nil_of_mem_names hn (Option.some.inj hback).symm
      rw [if_neg hnames, List.filter_cons_of_neg (by simp),
        List.filter_eq_self.2 (by simpa using hfull), mapM_unescape?]

/-- The parts of a locator stand for the names of its path, after nothing. -/
theorem mapM_unescape?_ofAbsolute (p : Path) :
    (((ofAbsolute p).toList.drop "file://".length).splitOn '/').mapM unescape? =
      some ([] :: if p.names = [] then [[]] else p.names) := by
  have hempty : unescape? [] = some [] := rfl
  rw [splitOn_ofAbsolute, List.mapM_cons, hempty]
  by_cases hnames : p.names = []
  · rw [if_pos hnames, if_pos hnames]
    rfl
  · rw [if_neg hnames, if_neg hnames, mapM_unescape?]
    rfl

/-- Absolute paths have the same locator exactly if they have the same components. -/
theorem ofAbsolute_eq_iff {p q : Path} (hp : p.isAbsolute = true) (hq : q.isAbsolute = true) :
    ofAbsolute p = ofAbsolute q ↔ p.components = q.components := by
  constructor
  · intro heq
    have hnames : some p.names = some q.names := by
      rw [← (names?_ofAbsolute p).2, ← (names?_ofAbsolute q).2, heq]
    rw [Path.components_eq_names hp, Path.components_eq_names hq, Option.some.inj hnames]
  · intro heq
    unfold ofAbsolute
    rw [heq]

end Locator

namespace Artifact

theorem locator_of_isAbsolute {a : Artifact} (h : a.path.isAbsolute = true) :
    a.locator = Locator.ofAbsolute a.path := if_pos h

/-- **A locator is plain text, and the path is found again in it.**  The locator of an absolute
path starts with three slashes after its scheme and has visible characters of ASCII only.  What
stands between its slashes, taken for bytes, is nothing and then the names of the path, or nothing
again for the root.  The names are all that the text of the path has between slashes, apart from
nothing and `.`.  So two locators are the same exactly if the paths have the same components. -/
theorem locator_recovers (a b : Artifact) (ha : a.path.isAbsolute = true)
    (hb : b.path.isAbsolute = true) :
    "file:///".toList <+: a.locator.toList ∧
    (∀ c ∈ a.locator.toList, 0x21 ≤ c.toNat ∧ c.toNat ≤ 0x7E) ∧
    ((a.locator.toList.drop "file://".length).splitOn '/').mapM Locator.unescape? =
      some ([] :: if a.path.names = [] then [[]] else a.path.names) ∧
    a.path.names = ((a.path.bytes.splitOn Path.slash).filter fun s => s ≠ [] ∧ s ≠ Path.here) ∧
    (a.locator = b.locator ↔ a.path.components = b.path.components) := by
  rw [locator_of_isAbsolute ha, locator_of_isAbsolute hb]
  exact ⟨(Locator.names?_ofAbsolute a.path).1, fun c => Locator.isVisible_of_mem_ofAbsolute,
    Locator.mapM_unescape?_ofAbsolute a.path, Path.names_of_isAbsolute ha,
    Locator.ofAbsolute_eq_iff ha hb⟩

/-- Two spellings of a path whose names hold a blank, a percent sign, a mark and a byte that is no
text. -/
theorem locator_recovers_marks :
    let a : Artifact := ⟨⟨Text.Utf8.encode "//a b/./%2F/../?" ++ [255, 47]⟩⟩
    let b : Artifact := ⟨⟨Text.Utf8.encode "/a b/%2F/..//?" ++ [255, 47, 46]⟩⟩
    a.path.isAbsolute = true ∧ b.path.isAbsolute = true ∧ a.path ≠ b.path ∧
      b.locator = "file:///a%20b/%252F/../%3F%FF" ∧ a.locator = b.locator := by
  intro a b
  have ha : a.path.isAbsolute = true := by decide +kernel
  have hb : b.path.isAbsolute = true := by decide +kernel
  have hcomponents : a.path.components = b.path.components := by decide +kernel
  exact ⟨ha, hb, by decide +kernel, by decide +kernel,
    (locator_recovers a b ha hb).2.2.2.2.2 hcomponents⟩

end Artifact

end ScenePreview
