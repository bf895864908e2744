import ScenePreview.Proofs.Display
import ScenePreview.Proofs.RunRecord

/-!
# Objects in any layout

A program that reads events, notices and artifacts gets objects whose members come in any order,
with others between them that it knows nothing of.  Here it is said that such an object is read
as what its known members say, and that it is refused if one of these is missing or is there
twice.  That holds for all readers that look up their members by key, and so it is proved once.

## Main definitions

* `Json.members`, `Json.valuesOf` — the members of an object, and the values of those with a key.
* `Json.Decodes` — what a decoder makes of the fields of something, in whatever layout.
* `Event.Tolerates` — the values that may stand beside the members of an event.

## Main results

* `Json.required?_eq_some_iff` — a member is found exactly if it is there once.
* `Json.required?_of_mem`, `Json.required?_of_repeated`, `Json.required?_of_missing` — a field
  among others, one that is there again, and one that was left out.
* `Json.Decodes.of_required` — **a reader that looks up its members by key decodes any layout.**
* `Event.decodes_fields`, `Notice.decodes_fields`, `Artifact.decodes_fields` — the three readers.
* `Json.decodes_layouts` — **events, notices and artifacts are read in any layout, and refused
  with a known member missing or repeated.**
-/

namespace ScenePreview

namespace Json

/-! ### Members by their keys -/

/-- The members of an object with the given fields. -/
def members (fs : List (String × Json)) : Members := fs.map fun (k, v) => (some k, v)

theorem ofFields_eq (fs : List (String × Json)) : ofFields fs = .object (members fs) := rfl

theorem mem_members_iff {fs : List (String × Json)} {m : Option String × Json} :
    m ∈ members fs ↔ ∃ f ∈ fs, m = (some f.1, f.2) := by
  simp only [members, List.mem_map, eq_comm]

/-- The values of the fields with a key. -/
def valuesOf (fs : List (String × Json)) (k : String) : List Json :=
  (fs.filter (·.1 == k)).map Prod.snd

theorem valuesOf_append (fs fs' : List (String × Json)) (k : String) :
    valuesOf (fs ++ fs') k = valuesOf fs k ++ valuesOf fs' k := by
  rw [valuesOf, List.filter_append, List.map_append]
  rfl

theorem valuesOf_cons_self (k : String) (v : Json) (fs : List (String × Json)) :
    valuesOf ((k, v) :: fs) k = v :: valuesOf fs k := by
  rw [valuesOf, List.filter_cons, if_pos (beq_self_eq_true k)]
  rfl

theorem valuesOf_of_notMem {fs : List (String × Json)} {k : String}
    (h : k ∉ fs.map Prod.fst) : valuesOf fs k = [] := by
  rw [valuesOf, List.map_eq_nil_iff, List.filter_eq_nil_iff]
  intro f hf hk
  exact h (beq_iff_eq.1 hk ▸ List.mem_map_of_mem hf)

/-- The values with a key come in another order if the fields do. -/
theorem valuesOf_perm {fs fs' : List (String × Json)} (h : fs.Perm fs') (k : String) :
    (valuesOf fs k).Perm (valuesOf fs' k) := (h.filter _).map _

theorem mem_valuesOf {fs : List (String × Json)} {k : String} {v : Json} (h : (k, v) ∈ fs) :
    v ∈ valuesOf fs k :=
  List.mem_map.2 ⟨(k, v), List.mem_filter.2 ⟨h, beq_self_eq_true k⟩, rfl⟩

/-- Fields with different keys have one value each. -/
theorem valuesOf_of_mem {fs : List (String × Json)} (hnodup : (fs.map Prod.fst).Nodup)
    {k : String} {v : Json} (h : (k, v) ∈ fs) : valuesOf fs k = [v] := by
  induction fs with
  | nil => cases h
  | cons f fs ih =>
    rw [List.map_cons, List.nodup_cons] at hnodup
    rcases List.mem_cons.1 h with rfl | h
    · rw [valuesOf_cons_self, valuesOf_of_notMem hnodup.1]
    · have hne : ¬ (f.1 == k) = true := by
        rw [beq_iff_eq]
        rintro rfl
        exact hnodup.1 (List.mem_map.2 ⟨_, h, rfl⟩)
      rw [valuesOf, List.filter_cons, if_neg hne]
      exact ih hnodup.2 h

/-- A member is found exactly if it is there once. -/
theorem required?_eq_some_iff {fs : List (String × Json)} {k : String} {v : Json} :
    required? (members fs) k = some v ↔ valuesOf fs k = [v] := by
  have hfilter : (members fs).filter (·.1 == some k) = members (fs.filter (·.1 == k)) := by
    rw [members, members, List.filter_map]
    rfl
  rw [required?, field?, hfilter, valuesOf]
  generalize fs.filter (fun f => f.1 == k) = found
  rcases found with - | ⟨f, - | ⟨f', rest⟩⟩
  · simp [members]
  · simp [members]
  · simp [members]

/-- Otherwise it is refused. -/
theorem required?_eq_none {fs : List (String × Json)} {k : String}
    (h : (valuesOf fs k).length ≠ 1) : required? (members fs) k = none := by
  cases hr : required? (members fs) k with
  | none => rfl
  | some v =>
    rw [required?_eq_some_iff.1 hr] at h
    exact absurd rfl h

/-- What is found for a key is what any member with the key holds. -/
theorem eq_of_required? {fs : List (String × Json)} {k : String} {v w : Json}
    (hr : required? (members fs) k = some w) (hmem : (k, v) ∈ fs) : w = v := by
  have hv := mem_valuesOf hmem
  rw [required?_eq_some_iff.1 hr, List.mem_singleton] at hv
  exact hv.symm

/-! ### Fields among others -/

section Among

variable {fields extra ms : List (String × Json)} {k : String}

/-- A field is found in any order and among any others, if these have other keys. -/
theorem required?_of_mem (hnodup : (fields.map Prod.fst).Nodup) {f : String × Json}
    (hf : f ∈ fields) (hextra : f.1 ∉ extra.map Prod.fst) (hperm : ms.Perm (fields ++ extra)) :
    required? (members ms) f.1 = some f.2 := by
  have hvalues := valuesOf_perm hperm f.1
  rw [valuesOf_append, valuesOf_of_mem hnodup hf, valuesOf_of_notMem hextra,
    List.append_nil] at hvalues
  exact required?_eq_some_iff.2 (List.perm_singleton.1 hvalues)

/-- One that is there again is not found. -/
theorem required?_of_repeated (hk : k ∈ fields.map Prod.fst) {v : Json}
    (hperm : ms.Perm (fields ++ (k, v) :: extra)) : required? (members ms) k = none := by
  obtain ⟨⟨k, w⟩, hf, rfl⟩ := List.mem_map.1 hk
  have hfirst := List.length_pos_of_mem (mem_valuesOf hf)
  refine required?_eq_none ?_
  rw [(valuesOf_perm hperm k).length_eq, valuesOf_append, valuesOf_cons_self, List.length_append,
    List.length_cons]
  omega

/-- One that was left out is not found. -/
theorem required?_of_missing (hextra : k ∉ extra.map Prod.fst)
    (hperm : ms.Perm (fields.filter (·.1 ≠ k) ++ extra)) : required? (members ms) k = none := by
  have hfields : k ∉ (fields.filter (·.1 ≠ k)).map Prod.fst := by
    intro hmem
    obtain ⟨f, hf, hfk⟩ := List.mem_map.1 hmem
    simpa [hfk] using (List.mem_filter.1 hf).2
  refine required?_eq_none ?_
  rw [(valuesOf_perm hperm k).length_eq, valuesOf_append, valuesOf_of_notMem hfields,
    valuesOf_of_notMem hextra]
  exact Nat.zero_ne_one

end Among

/-! ### Whole objects -/

theorem membersAreSpelled_iff {ms : Members} : MembersAreSpelled ms ↔ ∀ m ∈ ms, m.2.IsSpelled := by
  refine ⟨fun h m hm => h.of_mem hm, fun h => ?_⟩
  induction ms with
  | nil => trivial
  | cons m ms ih =>
    exact ⟨h m List.mem_cons_self, ih fun m hm => h m (List.mem_cons_of_mem _ hm)⟩

theorem isSpelled_ofFields {fs : List (String × Json)} (h : ∀ f ∈ fs, f.2.IsSpelled) :
    (ofFields fs).IsSpelled := by
  rw [ofFields_eq, IsSpelled, membersAreSpelled_iff]
  intro m hm
  obtain ⟨f, hf, rfl⟩ := mem_members_iff.1 hm
  exact h f hf

theorem membersAreWhole_iff {ms : Members} :
    membersAreWhole ms = true ↔ ∀ m ∈ ms, m.1.isSome = true ∧ m.2.isWhole = true := by
  induction ms with
  | nil => simp [membersAreWhole]
  | cons m ms ih => rw [membersAreWhole, Bool.and_eq_true, Bool.and_eq_true, ih,
      List.forall_mem_cons]

theorem depthMembers_lt {ms : Members} {n : Nat} (hn : 0 < n) (h : ∀ m ∈ ms, m.2.depth < n) :
    depthMembers ms < n := by
  induction ms with
  | nil => exact hn
  | cons m ms ih =>
    rw [depthMembers]
    exact max_lt (h m List.mem_cons_self) (ih fun m hm => h m (List.mem_cons_of_mem _ hm))

theorem keysAreText_members (fs : List (String × Json)) : keysAreText (members fs) = true := by
  simp [keysAreText, members]

/-! ### Decoders -/

variable {α : Type} {decode : String → Option α} {Admits : Json → Prop}
  {fields : List (String × Json)} {a : α}

/-- What a decoder makes of the fields of something, however the object that holds them is laid
out and spelled.  Beside the fields there may be others, with values that the decoder admits. -/
structure Decodes (decode : String → Option α) (Admits : Json → Prop)
    (fields : List (String × Json)) (a : α) : Prop where
  /-- The fields are found in any order and among any others. -/
  read : ∀ extra ms text, (∀ f ∈ extra, f.1 ∉ fields.map Prod.fst ∧ Admits f.2) →
    ms.Perm (fields ++ extra) → parse? text = some (ofFields ms) → decode text = some a
  /-- So they are in what is written for such an object. -/
  compact : ∀ extra ms,
    (∀ f ∈ extra, f.1 ∉ fields.map Prod.fst ∧ Admits f.2 ∧ f.2.IsSpelled) →
    ms.Perm (fields ++ extra) → decode (ofFields ms).render = some a
  /-- A field that is there again is refused, with whatever value and whatever else there is. -/
  repeated : ∀ k ∈ fields.map Prod.fst, ∀ v extra ms text,
    ms.Perm (fields ++ (k, v) :: extra) → parse? text = some (ofFields ms) → decode text = none
  /-- A field that is missing is refused, whatever else there is. -/
  missing : ∀ k ∈ fields.map Prod.fst, ∀ extra ms text, k ∉ extra.map Prod.fst →
    ms.Perm (fields.filter (·.1 ≠ k) ++ extra) → parse? text = some (ofFields ms) →
    decode text = none

/-- What is written for the fields alone is read. -/
theorem Decodes.render (h : Decodes decode Admits fields a) :
    decode (ofFields fields).render = some a :=
  h.compact [] fields nofun (by rw [List.append_nil])

/-- **A reader that looks up its members by key decodes any layout.** -/
theorem Decodes.of_required (read : Json → Option α)
    (hdecode : ∀ text, decode text = (parse? text).bind read)
    (hnodup : (fields.map Prod.fst).Nodup) (hspelled : ∀ f ∈ fields, f.2.IsSpelled)
    (hread : ∀ ms, (∀ f ∈ fields, required? (members ms) f.1 = some f.2) →
      (∀ f ∈ ms, f ∈ fields ∨ Admits f.2) → read (ofFields ms) = some a)
    (hrefuse : ∀ ms, ∀ k ∈ fields.map Prod.fst, required? (members ms) k = none →
      (∀ f ∈ fields, f.1 ≠ k → f ∈ ms) → read (ofFields ms) = none) :
    Decodes decode Admits fields a := by
  have hlayout : ∀ extra ms, (∀ f ∈ extra, f.1 ∉ fields.map Prod.fst ∧ Admits f.2) →
      ms.Perm (fields ++ extra) → read (ofFields ms) = some a := by
    intro extra ms hextra hperm
    refine hread ms (fun f hf => ?_) fun f hf => ?_
    · -- the key of a field is that of no other member
      refine required?_of_mem hnodup hf (fun hmem => ?_) hperm
      obtain ⟨g, hg, hgf⟩ := List.mem_map.1 hmem
      exact (hextra g hg).1 (hgf ▸ List.mem_map_of_mem hf)
    · rcases List.mem_append.1 (hperm.mem_iff.1 hf) with hf | hf
      · exact .inl hf
      · exact .inr (hextra f hf).2
  constructor
  case read =>
    intro extra ms text hextra hperm htext
    rw [hdecode, htext, Option.bind_some, hlayout extra ms hextra hperm]
  case compact =>
    intro extra ms hextra hperm
    have hall : (ofFields ms).IsSpelled := by
      refine isSpelled_ofFields fun f hf => ?_
      rcases List.mem_append.1 (hperm.mem_iff.1 hf) with hf | hf
      · exact hspelled f hf
      · exact (hextra f hf).2.2
    have hadmits : ∀ f ∈ extra, f.1 ∉ fields.map Prod.fst ∧ Admits f.2 := fun f hf =>
      ⟨(hextra f hf).1, (hextra f hf).2.1⟩
    rw [hdecode, parse?_render hall, Option.bind_some, hlayout extra ms hadmits hperm]
  case repeated =>
    intro k hk v extra ms text hperm htext
    rw [hdecode, htext, Option.bind_some]
    refine hrefuse ms k hk (required?_of_repeated hk hperm) fun f hf _ => ?_
    exact hperm.mem_iff.2 (List.mem_append_left _ hf)
  case missing =>
    intro k hk extra ms text hextra hperm htext
    rw [hdecode, htext, Option.bind_some]
    refine hrefuse ms k hk (required?_of_missing hextra hperm) fun f hf hne => ?_
    exact hperm.mem_iff.2 (List.mem_append_left _ (List.mem_filter.2 ⟨hf, by simpa using hne⟩))

end Json

/-! ### Events -/

namespace Event

open Json (members required?)

/-- The fields of an event, its `type` first. -/
def fields (e : Event) : List (String × Json) :=
  ("type", .text e.tag) :: e.payload.map fun (k, v) => (k, .text v)

/-- The values that may stand beside the members of an event: their strings are text, their
numbers in range, and they do not nest too deep. -/
def Tolerates (v : Json) : Prop := v.isWhole = true ∧ v.depth < maxDepth

theorem tolerates_text (s : String) : Tolerates (.text s) :=
  ⟨rfl, by simp [Json.text, Json.depth, maxDepth]⟩

/-- The fields of an event are texts. -/
theorem exists_text_of_mem_fields {e : Event} {f : String × Json} (hf : f ∈ e.fields) :
    ∃ s, f.2 = .text s := by
  rcases List.mem_cons.1 hf with rfl | hf
  · exact ⟨_, rfl⟩
  · obtain ⟨x, -, rfl⟩ := List.mem_map.1 hf
    exact ⟨_, rfl⟩

/-- An object within the limits is read by its `type`. -/
theorem ofJson?_ofFields {ms : List (String × Json)} (h : ∀ f ∈ ms, Tolerates f.2) :
    ofJson? (Json.ofFields ms) =
      ((required? (members ms) "type").bind Json.asText?).bind (ofMembers? · (members ms)) := by
  have hwhole : Json.isWhole (.object (members ms)) = true := by
    rw [Json.isWhole, Json.membersAreWhole_iff]
    intro m hm
    obtain ⟨f, hf, rfl⟩ := Json.mem_members_iff.1 hm
    exact ⟨rfl, (h f hf).1⟩
  have hdepth : ¬ maxDepth < Json.depth (.object (members ms)) := by
    rw [Json.depth, Nat.not_lt, Nat.succ_le_iff]
    refine Json.depthMembers_lt (by decide) fun m hm => ?_
    obtain ⟨f, hf, rfl⟩ := Json.mem_members_iff.1 hm
    exact (h f hf).2
  rw [Json.ofFields_eq, ofJson?, hwhole, if_neg (by simpa using hdepth)]

/-- The members of an event tell which one it is. -/
theorem ofMembers?_of_fields {e : Event} {ms : Json.Members}
    (h : ∀ f ∈ e.fields, required? ms f.1 = some f.2) : ofMembers? e.tag ms = some e := by
  cases e with
  | loading => rfl
  | logCleared => rfl
  | log text =>
    have hmessage := h ("message", .text text) (by simp [fields, payload])
    change ((required? ms "message").bind Json.asText?).map log = _
    rw [hmessage]
    rfl
  | artifactReady uri =>
    have huri := h ("uri", .text uri) (by simp [fields, payload])
    change ((required? ms "uri").bind Json.asText?).map artifactReady = _
    rw [huri]
    rfl

/-- Without one of the members that it has beside its `type`, an event is not read. -/
theorem ofMembers?_of_none {e : Event} {ms : Json.Members} {k : String}
    (hk : k ∈ e.fields.map Prod.fst) (htype : k ≠ "type") (h : required? ms k = none) :
    ofMembers? e.tag ms = none := by
  cases e with
  | loading => exact absurd (List.mem_singleton.1 hk) htype
  | logCleared => exact absurd (List.mem_singleton.1 hk) htype
  | log text =>
    have hmessage : k = "message" := by simpa [fields, payload, htype] using hk
    change ((required? ms "message").bind Json.asText?).map log = _
    rw [← hmessage, h]
    rfl
  | artifactReady uri =>
    have huri : k = "uri" := by simpa [fields, payload, htype] using hk
    change ((required? ms "uri").bind Json.asText?).map artifactReady = _
    rw [← huri, h]
    rfl

/-- An object without a member that the event needs is refused, within the limits or not. -/
theorem ofJson?_of_none {e : Event} {ms : List (String × Json)} {k : String}
    (hk : k ∈ e.fields.map Prod.fst) (h : required? (members ms) k = none)
    (hrest : ∀ f ∈ e.fields, f.1 ≠ k → f ∈ ms) : ofJson? (Json.ofFields ms) = none := by
  rw [Json.ofFields_eq, ofJson?]
  split
  · rfl
  · change ((required? (members ms) "type").bind Json.asText?).bind (ofMembers? · (members ms)) = _
    by_cases htype : k = "type"
    · rw [← htype, h]
      rfl
    · -- the `type` of the object, if it is found, is that of the event
      cases hfound : required? (members ms) "type" with
      | none => rfl
      | some w =>
        have hmem : ("type", Json.text e.tag) ∈ ms :=
          hrest ("type", .text e.tag) List.mem_cons_self (Ne.symm htype)
        rw [Json.eq_of_required? hfound hmem]
        exact ofMembers?_of_none hk htype h

/-- Events are decoded in any layout. -/
theorem decodes_fields (e : Event) : Json.Decodes parse? Tolerates e.fields e := by
  refine Json.Decodes.of_required ofJson? (fun text => rfl) ?_ ?_ ?_ ?_
  · cases e <;> simp [fields, payload]
  · intro f hf
    obtain ⟨s, hs⟩ := exists_text_of_mem_fields hf
    rw [hs]
    trivial
  · intro ms hfields hadmits
    have htolerates : ∀ f ∈ ms, Tolerates f.2 := by
      intro f hf
      rcases hadmits f hf with hf | hf
      · obtain ⟨s, hs⟩ := exists_text_of_mem_fields hf
        rw [hs]
        exact tolerates_text s
      · exact hf
    rw [ofJson?_ofFields htolerates, hfields ("type", .text e.tag) List.mem_cons_self]
    exact ofMembers?_of_fields hfields
  · intro ms k hk h hrest
    exact ofJson?_of_none hk h hrest

end Event

/-! ### Notices and artifacts -/

namespace Notice

open Json (members required?)

/-- The fields of a notice. -/
def fields (n : Notice) : List (String × Json) :=
  [("level", .text n.level.tag), ("message", .text n.text)]

/-- An object is read by its level and its message. -/
theorem ofJson?_ofFields (ms : List (String × Json)) :
    ofJson? (Json.ofFields ms) = (required? (members ms) "level").bind fun level =>
      (Level.ofJson? level).bind fun level =>
        (required? (members ms) "message").bind fun text =>
          text.asText?.map (Notice.mk level) := by
  rw [Json.ofFields_eq, ofJson?, Json.keysAreText_members]
  simp only [Option.map_eq_bind]
  rfl

theorem ofJson?_tag (l : Level) : Level.ofJson? (.text l.tag) = some l := by
  cases l <;> rfl

/-- Notices are decoded in any layout. -/
theorem decodes_fields (n : Notice) : Json.Decodes parse? (fun _ => True) n.fields n := by
  refine Json.Decodes.of_required ofJson? (fun text => rfl) ?_ ?_ ?_ ?_
  · simp [fields]
  · simp [fields, Json.text, Json.IsSpelled]
  · intro ms hfields _
    have hlevel := hfields ("level", .text n.level.tag) (by simp [fields])
    have hmessage := hfields ("message", .text n.text) (by simp [fields])
    rw [ofJson?_ofFields, hlevel, hmessage, Option.bind_some, ofJson?_tag]
    rfl
  · intro ms k hk h _
    have hkey : k = "level" ∨ k = "message" := by simpa [fields] using hk
    rw [ofJson?_ofFields]
    rcases hkey with rfl | rfl
    · rw [h, Option.bind_none]
    · simp only [h, Option.bind_none, Option.bind_fun_none]

end Notice

namespace Artifact

open Json (members required?)

/-- An object is read by its path. -/
theorem ofJson?_ofFields (ms : List (String × Json)) :
    ofJson? (Json.ofFields ms) =
      (required? (members ms) "path").bind fun path => (Path.ofJson? path).map mk := by
  rw [Json.ofFields_eq, ofJson?, Json.keysAreText_members]
  simp only [Option.map_eq_bind]
  rfl

/-- Artifacts are decoded in any layout. -/
theorem decodes_fields {a : Artifact} {s : String} (h : a.path.toString? = some s) :
    Json.Decodes parse? (fun _ => True) [("path", .text s)] a := by
  refine Json.Decodes.of_required ofJson? (fun text => rfl) ?_ ?_ ?_ ?_
  · simp
  · simp [Json.text, Json.IsSpelled]
  · intro ms hfields _
    have hpath := hfields ("path", .text s) List.mem_cons_self
    rw [ofJson?_ofFields, hpath, Option.bind_some, Path.ofJson?, Json.asText?_text,
      Option.map_some, Option.map_some, ← Path.toString?_eq_some_iff.1 h]
  · intro ms k hk h _
    obtain rfl : k = "path" := by simpa using hk
    rw [ofJson?_ofFields, h]
    rfl

end Artifact

/-- **Events, notices and artifacts are read in any layout, and refused with a known member missing
or repeated.**  What is written for an event, a notice, or an artifact whose path is text, is read
as the same.  So is every object that has the same members in another order, with others between
them that have unknown keys; beside the members of an event these must be within the limits.  An
object is refused if it has a known member twice or lacks one. -/
theorem Json.decodes_layouts :
    (∀ e : Event, e.toJson = ofFields e.fields ∧ Event.parse? e.render = some e ∧
      Decodes Event.parse? Event.Tolerates e.fields e) ∧
    (∀ n : Notice, n.toJson = ofFields n.fields ∧ Notice.parse? n.render = some n ∧
      Decodes Notice.parse? (fun _ => True) n.fields n) ∧
    ∀ (a : Artifact) (s : String), a.path.toString? = some s →
      a.toJson = .ok (ofFields [("path", .text s)]) ∧
      Artifact.parse? (ofFields [("path", .text s)]).render = some a ∧
      Decodes Artifact.parse? (fun _ => True) [("path", .text s)] a := by
  refine ⟨fun e => ?_, fun n => ?_, fun a s h => ?_⟩
  · exact ⟨rfl, e.decodes_fields.render, e.decodes_fields⟩
  · exact ⟨rfl, n.decodes_fields.render, n.decodes_fields⟩
  · have hjson : a.toJson = .ok (ofFields [("path", .text s)]) := by
      rw [Artifact.toJson, Path.toJson, h]
      rfl
    exact ⟨hjson, (Artifact.decodes_fields h).render, Artifact.decodes_fields h⟩

/-- An event with its members in reverse, after an unknown one that is there twice and holds a
`type` of its own; an event with its own `type` there twice; and an artifact. -/
theorem Json.decodes_layouts_reversed :
    let e := Event.log "a\n"
    let deep : Json := .array [.object [(some "type", .null)],
      .number ⟨true, ['1'], ['5'], some (false, ['9'])⟩]
    let ms := [("uri", .text "x"), ("uri", deep)] ++ e.fields.reverse
    let a : Artifact := ⟨Path.ofString "/é"⟩
    (ofFields ms).render = "\x7b\"uri\":\"x\",\"uri\":[\x7b\"type\":null\x7d,-1.5e9]," ++
      "\"message\":\"a\\n\",\"type\":\"addLog\"\x7d" ∧
    Event.parse? (ofFields ms).render = some e ∧
    Event.parse? (ofFields (e.fields ++ [("type", .null)])).render = none ∧
    a.path.toString? = some "/é" ∧
    Artifact.parse? (ofFields [("path", .text "/é")]).render = some a := by
  intro e deep ms a
  have hpath : a.path.toString? = some "/é" := Path.toString?_eq_some_iff.2 rfl
  have hperm : ms.Perm (e.fields ++ [("uri", .text "x"), ("uri", deep)]) :=
    List.perm_append_comm.trans ((List.reverse_perm _).append_right _)
  have hdeep : Event.Tolerates deep ∧ deep.IsSpelled := by
    refine ⟨⟨by decide +kernel, by decide⟩, ⟨trivial, trivial⟩, ?_, trivial⟩
    constructor <;> simp
  have htwice : (ofFields (e.fields ++ [("type", .null)])).IsSpelled :=
    ⟨trivial, trivial, trivial, trivial⟩
  refine ⟨by decide +kernel, ?_, ?_, hpath, (decodes_layouts.2.2 a "/é" hpath).2.1⟩
  · refine (decodes_layouts.1 e).2.2.compact _ ms (fun f hf => ?_) hperm
    rcases List.mem_pair.1 hf with rfl | rfl
    · exact ⟨by simp [e, Event.fields, Event.payload], Event.tolerates_text _, trivial⟩
    · exact ⟨by simp [e, Event.fields, Event.payload], hdeep⟩
  · exact (decodes_layouts.1 e).2.2.repeated "type" List.mem_cons_self .null [] _ _ (.refl _)
      (parse?_render htwice)

end ScenePreview
