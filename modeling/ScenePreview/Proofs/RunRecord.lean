import ScenePreview.Proofs.Json
import ScenePreview.Proofs.Timestamp
import ScenePreview.Proofs.Utf8
import ScenePreview.Run.Json

/-!
# Reading back run records

A run record is written in one way and read in many: from an object or an array, with its keys in
any order, its identifier in four spellings and its times at any offset.  Here it is said that the
one way loses nothing, so that it is a normal form of all the others.

## Main definitions

* `Json.Spells` — a value that is written for something and is read as it.
* `Run.HasPlainYears`, `Run.IsPortable` — the records that can be written and read back.

## Main results

* `Uuid.parse?_render` — an identifier is read as it was written.
* `Run.exists_render` — so is a record.
* `Run.render_parse?` — **what was written is read back, tells records apart, and is a normal form
  of all that can be read.**
-/

namespace ScenePreview

/-! ### Identifiers -/

namespace Uuid

theorem unhyphenate?_hyphenate {n : Nat} {ns : List Nat} {cs : List Char}
    (h : cs.length = (n :: ns).sum) :
    unhyphenate? (n :: ns) (hyphenate (n :: ns) cs) = some cs := by
  induction ns generalizing n cs with
  | nil =>
    rw [hyphenate, unhyphenate?, if_pos (by simpa using h)]
  | cons k ns ih =>
    rw [List.sum_cons] at h
    have htake : (cs.take n).length = n := List.length_take_of_le (by omega)
    have hrest : (cs.drop n).length = (k :: ns).sum := by
      rw [List.length_drop]
      omega
    have hdrop : (cs.take n ++ '-' :: hyphenate (k :: ns) (cs.drop n)).drop n
        = '-' :: hyphenate (k :: ns) (cs.drop n) := by
      rw [List.drop_append_of_le_length htake.ge, List.drop_of_length_le htake.le, List.nil_append]
    have hfront : (cs.take n ++ '-' :: hyphenate (k :: ns) (cs.drop n)).take n = cs.take n := by
      rw [List.take_append_of_le_length htake.ge, List.take_of_length_le htake.le]
    rw [hyphenate, unhyphenate?]
    · rw [hdrop, hfront]
      change (unhyphenate? (k :: ns) (hyphenate (k :: ns) (cs.drop n))).map (cs.take n ++ ·) = _
      rw [ih hrest, Option.map_some, List.take_append_drop]
    · simp
    · simp

theorem length_hyphenate {n : Nat} {ns : List Nat} {cs : List Char}
    (h : cs.length = (n :: ns).sum) :
    (hyphenate (n :: ns) cs).length = cs.length + ns.length := by
  induction ns generalizing n cs with
  | nil => rfl
  | cons k ns ih =>
    rw [List.sum_cons] at h
    have hrest : (cs.drop n).length = (k :: ns).sum := by
      rw [List.length_drop]
      omega
    rw [hyphenate]
    · rw [List.length_append, List.length_cons, ih hrest, List.length_take, List.length_drop,
        List.length_cons]
      omega
    · simp

/-- An identifier is read as it was written. -/
theorem parse?_render (u : Uuid) : parse? u.render = some u := by
  have hlen : (u.digits.map Text.hexChar).length = groups.sum := by
    rw [List.length_map, u.length_digits]
    rfl
  have hlength : (hyphenate groups (u.digits.map Text.hexChar)).length = 36 := by
    rw [groups, length_hyphenate hlen, hlen]
    rfl
  have hcore : core? (hyphenate groups (u.digits.map Text.hexChar))
      = some (u.digits.map Text.hexChar) := by
    rw [core?, if_neg (by omega), if_pos hlength]
    exact unhyphenate?_hyphenate hlen
  rw [parse?, render, String.toList_ofList, hcore, Option.bind_some, ofHex?,
    Text.mapM_hexValue?_hexChar, Option.bind_some, dif_pos u.length_digits]

end Uuid

/-! ### Values that are read as what they were written for -/

namespace Json

variable {α : Type} {read : Json → Option α} {v : Json} {a : α} {o : Option α}

/-- A value that can be written, is not `null`, and is read as something. -/
structure Spells (read : Json → Option α) (v : Json) (a : α) : Prop where
  /-- It can be written. -/
  isSpelled : v.IsSpelled
  /-- It is not what stands for nothing. -/
  ne_null : v ≠ .null
  /-- It is read. -/
  read_eq : read v = some a

theorem spells_text {s : String} (h : read (.text s) = some a) : Spells read (.text s) a :=
  ⟨trivial, by simp [text], h⟩

/-- A value that may be absent and is there is read as it is. -/
theorem Spells.optional? (h : Spells read v a) :
    Json.optional? read (some v) = some (some a) := by
  have hne := h.ne_null
  cases v with
  | null => exact absurd rfl hne
  | _ => rw [Json.optional?, h.read_eq] <;> simp

/-- What may be absent is read as it was written, `null` for nothing. -/
theorem optional?_ofOption {write : α → Json} (h : ∀ a ∈ o, Spells read (write a) a) :
    (ofOption (o.map write)).IsSpelled ∧
      Json.optional? read (some (ofOption (o.map write))) = some o := by
  cases o with
  | none => exact ⟨trivial, rfl⟩
  | some a => exact ⟨(h a rfl).isSpelled, (h a rfl).optional?⟩

/-- What is read where something may be absent is read from some value. -/
theorem exists_of_optional? {x : Option Json} (h : Json.optional? read x = some (some a)) :
    ∃ v, read v = some a := by
  unfold Json.optional? at h
  split at h
  · cases h
  · cases h
  · obtain ⟨b, hb, heq⟩ := Option.map_eq_some_iff.1 h
    exact ⟨_, hb.trans heq⟩

/-- The same for what cannot always be written. -/
theorem exists_optionToJson {write : α → Except WriteError Json}
    (h : ∀ a ∈ o, ∃ v, write a = .ok v ∧ Spells read v a) :
    ∃ v, Run.optionToJson write o = .ok v ∧ v.IsSpelled ∧
      Json.optional? read (some v) = some o := by
  cases o with
  | none => exact ⟨.null, rfl, trivial, rfl⟩
  | some a =>
    obtain ⟨v, hwrite, hv⟩ := h a rfl
    exact ⟨v, hwrite, hv.isSpelled, hv.optional?⟩

end Json

/-! ### The parts of a record -/

/-- A path that is text. -/
def Path.IsText (p : Path) : Prop := p.toString?.isSome

instance (p : Path) : Decidable p.IsText := inferInstanceAs (Decidable (p.toString?.isSome = true))

@[simp] theorem Json.asText?_text (s : String) : (Json.text s).asText? = some s := rfl

@[simp] theorem Json.asWord?_text (s : String) : (Json.text s).asWord? = some s := rfl

theorem Path.toString?_eq_some_iff {p : Path} {s : String} :
    p.toString? = some s ↔ p = ofString s := by
  rw [toString?, Text.Utf8.decode?_eq_some_iff]
  cases p
  simp [ofString]

theorem Path.isText_ofString (s : String) : (Path.ofString s).IsText := by
  rw [IsText, toString?_eq_some_iff.2 rfl, Option.isSome_some]

theorem Path.exists_toJson {p : Path} (h : p.IsText) :
    ∃ v, p.toJson = .ok v ∧ v.Spells Path.ofJson? p := by
  obtain ⟨s, hs⟩ := Option.isSome_iff_exists.1 h
  refine ⟨.text s, by rw [toJson, hs], Json.spells_text ?_⟩
  rw [ofJson?, Json.asText?_text, Option.map_some, toString?_eq_some_iff.1 hs]

theorem Path.isText_of_ofJson? {v : Json} {p : Path} (h : Path.ofJson? v = some p) : p.IsText := by
  obtain ⟨s, -, rfl⟩ := Option.map_eq_some_iff.1 h
  exact isText_ofString s

theorem Artifact.exists_toJson {a : Artifact} (h : a.path.IsText) :
    ∃ v, a.toJson = .ok v ∧ v.Spells Artifact.ofJson? a := by
  obtain ⟨v, hv, hpath⟩ := Path.exists_toJson h
  refine ⟨Json.ofFields [("path", v)], by rw [toJson, hv]; rfl, ⟨hpath.isSpelled, trivial⟩,
    Json.noConfusion, ?_⟩
  change (Path.ofJson? v).bind (fun path => some ⟨path⟩) = some a
  rw [hpath.read_eq]
  rfl

theorem Artifact.isText_of_ofJson? {v : Json} {a : Artifact} (h : Artifact.ofJson? v = some a) :
    a.path.IsText := by
  unfold ofJson? at h
  split at h
  · split at h
    · cases h
    · simp only [Option.bind_eq_bind, Option.bind_eq_some_iff, Option.pure_def,
        Option.some.injEq] at h
      obtain ⟨w, -, p, hp, rfl⟩ := h
      exact Path.isText_of_ofJson? hp
  · obtain ⟨p, hp, rfl⟩ := Option.map_eq_some_iff.1 h
    exact Path.isText_of_ofJson? hp
  · cases h

theorem Uuid.ofJson?_render (u : Uuid) : Uuid.ofJson? (.text u.render) = some u := by
  rw [ofJson?, Json.asText?_text, Option.bind_some, parse?_render]

theorem RunState.ofJson?_toJson (s : RunState) : RunState.ofJson? s.toJson = some s := by
  rw [toJson, ofJson?, Json.asWord?_text, Option.bind_some]
  cases s <;> rfl

theorem Timestamp.ofJson?_render {t : Timestamp} (h : t.HasPlainYear) :
    Timestamp.ofJson? (.text t.render) = some t := by
  rw [ofJson?, Json.asText?_text, Option.bind_some, parse?_render h]

/-! ### Records -/

namespace Run

/-- A record whose years have four digits and no sign. -/
structure HasPlainYears (r : Run) : Prop where
  /-- The year in which the run started. -/
  startedAt : r.startedAt.HasPlainYear
  /-- The year in which it ended, if it did. -/
  completedAt : ∀ t ∈ r.completedAt, t.HasPlainYear

/-- A record that can be written and read back: its years are plain and its paths are text. -/
structure IsPortable (r : Run) : Prop extends r.HasPlainYears where
  /-- The working directory, if there is one. -/
  workdir : ∀ p ∈ r.workdir, p.IsText
  /-- The video, if there is one. -/
  artifact : ∀ a ∈ r.artifact, a.path.IsText

/-- The object of a record is read field by field. -/
theorem ofJson?_ofFields (id state startedAt completedAt workdir artifact error : Json) :
    ofJson? (Json.ofFields [("id", id), ("state", state), ("started_at", startedAt),
      ("completed_at", completedAt), ("workdir", workdir), ("artifact", artifact),
      ("error", error)]) =
    ofFields? id state startedAt (some completedAt) (some workdir) (some artifact) (some error) :=
  rfl

/-- A portable record is written, and what is written is read as the record. -/
theorem exists_render {r : Run} (h : r.IsPortable) :
    ∃ text, r.render = .ok text ∧ parse? text = some r := by
  -- the four fields that may be absent; the others are words and always there
  obtain ⟨workdir, hworkdir, hworkdirSpelled, hworkdirRead⟩ :=
    Json.exists_optionToJson fun p hp => Path.exists_toJson (h.workdir p hp)
  obtain ⟨artifact, hartifact, hartifactSpelled, hartifactRead⟩ :=
    Json.exists_optionToJson fun a ha => Artifact.exists_toJson (h.artifact a ha)
  obtain ⟨hcompletedSpelled, hcompletedRead⟩ := Json.optional?_ofOption fun t ht =>
    Json.spells_text (Timestamp.ofJson?_render (h.completedAt t ht))
  obtain ⟨herrorSpelled, herrorRead⟩ := Json.optional?_ofOption fun s (_ : s ∈ r.error) =>
    Json.spells_text (Json.asText?_text s)
  have hjson : r.toJson = .ok (Json.ofFields [("id", .text r.id.render), ("state", r.state.toJson),
      ("started_at", .text r.startedAt.render),
      ("completed_at", .ofOption (r.completedAt.map fun t => .text t.render)),
      ("workdir", workdir), ("artifact", artifact), ("error", .ofOption (r.error.map .text))]) := by
    rw [toJson, hworkdir, hartifact]
    rfl
  refine ⟨_, by rw [render, hjson, Except.map], ?_⟩
  rw [parse?, Json.parse?_render]
  · rw [Option.bind_some, ofJson?_ofFields, ofFields?, Uuid.ofJson?_render,
      RunState.ofJson?_toJson, Timestamp.ofJson?_render h.startedAt, hcompletedRead, hworkdirRead,
      hartifactRead, herrorRead]
    rfl
  · exact ⟨trivial, trivial, trivial, hcompletedSpelled, hworkdirSpelled, hartifactSpelled,
      herrorSpelled, trivial⟩

/-- A record that was read comes from seven values, of which four may be absent. -/
theorem exists_ofFields? {v : Json} {r : Run} (h : ofJson? v = some r) :
    ∃ id state startedAt completedAt workdir artifact error,
      ofFields? id state startedAt completedAt workdir artifact error = some r := by
  unfold ofJson? at h
  split at h
  · split at h
    · cases h
    · simp only [Option.bind_eq_bind, Option.bind_eq_some_iff] at h
      obtain ⟨id, -, state, -, startedAt, -, completedAt, -, workdir, -, artifact, -, error, -,
        h⟩ := h
      exact ⟨_, _, _, _, _, _, _, h⟩
  · exact ⟨_, _, _, _, _, _, _, h⟩
  · cases h

theorem paths_of_ofFields? {id state startedAt : Json}
    {completedAt workdir artifact error : Option Json} {r : Run}
    (h : ofFields? id state startedAt completedAt workdir artifact error = some r) :
    Json.optional? Path.ofJson? workdir = some r.workdir ∧
      Json.optional? Artifact.ofJson? artifact = some r.artifact := by
  simp only [ofFields?, Option.bind_eq_bind, Option.bind_eq_some_iff, Option.pure_def,
    Option.some.injEq] at h
  obtain ⟨_, -, _, -, _, -, _, -, _, hworkdir, _, hartifact, _, -, rfl⟩ := h
  exact ⟨hworkdir, hartifact⟩

/-- The paths of a record that was read are text. -/
theorem isPortable_of_parse? {text : String} {r : Run} (h : parse? text = some r)
    (hyears : r.HasPlainYears) : r.IsPortable := by
  obtain ⟨v, -, hv⟩ := Option.bind_eq_some_iff.1 h
  obtain ⟨_, _, _, _, workdir, artifact, _, hfields⟩ := exists_ofFields? hv
  obtain ⟨hworkdir, hartifact⟩ := paths_of_ofFields? hfields
  -- a path that was read was read from a string
  refine { hyears with workdir := fun p hp => ?_, artifact := fun a ha => ?_ }
  · rw [Option.mem_def.1 hp] at hworkdir
    obtain ⟨w, hw⟩ := Json.exists_of_optional? hworkdir
    exact Path.isText_of_ofJson? hw
  · rw [Option.mem_def.1 ha] at hartifact
    obtain ⟨w, hw⟩ := Json.exists_of_optional? hartifact
    exact Artifact.isText_of_ofJson? hw

/-- **What was written of a portable record is read as the record**, so no two records are written
alike, and what is read from any text is written in a form that is read and written again as
it is. -/
theorem render_parse? :
    (∀ r : Run, r.IsPortable → ∃ text, r.render = .ok text ∧ parse? text = some r) ∧
    (∀ r r' : Run, r.IsPortable → r'.IsPortable → r.render = r'.render → r = r') ∧
    ∀ (text : String) (r : Run), parse? text = some r → r.HasPlainYears →
      ∃ canon, r.render = .ok canon ∧ (parse? canon).map render = some (.ok canon) := by
  refine ⟨fun r => exists_render, fun r r' h h' heq => ?_, fun text r hread hyears => ?_⟩
  · obtain ⟨text, htext, hparse⟩ := exists_render h
    obtain ⟨text', htext', hparse'⟩ := exists_render h'
    obtain rfl : text = text' := Except.ok.inj (htext.symm.trans (heq.trans htext'))
    exact Option.some.inj (hparse.symm.trans hparse')
  · obtain ⟨canon, hcanon, hparse⟩ := exists_render (isPortable_of_parse? hread hyears)
    exact ⟨canon, hcanon, by rw [hparse, Option.map_some, hcanon]⟩

/-- A leap second east of UTC with twelve digits after it, an identifier in braces and upper case,
a word as an object, an artifact as an array and a text with escapes. -/
theorem render_parse?_leapSecond :
    let text := "[\"\x7bFFFFFFFF-FFFF-FFFF-FFFF-FFFFFFFFFFFF\x7d\", \x7b\"failed\": null\x7d,
      \"2017-01-01t08:59:60.500000000999+09:00\", null, \"/\\u00e9\", [\"/v.mp4\"], \"a\\\"\\n\"]"
    let r : Run := {
      id := ⟨List.replicate 32 15, rfl⟩
      state := .failed
      startedAt := ⟨⟨⟨2016, 12, 31⟩, 23, 59, 60, 500000000⟩, by decide⟩
      workdir := some (Path.ofString "/é")
      artifact := some ⟨Path.ofString "/v.mp4"⟩
      error := some "a\"\n" }
    parse? text = some r ∧ r.HasPlainYears ∧ r.IsPortable ∧
      (∃ written, r.render = .ok written ∧ parse? written = some r) ∧
      ∃ canon, r.render = .ok canon ∧ (parse? canon).map render = some (.ok canon) := by
  intro text r
  have hread : parse? text = some r := by decide +kernel
  have hyears : r.HasPlainYears := ⟨by decide, fun t ht => (Option.not_mem_none t ht).elim⟩
  have hportable : r.IsPortable := isPortable_of_parse? hread hyears
  exact ⟨hread, hyears, hportable, render_parse?.1 r hportable,
    render_parse?.2.2 text r hread hyears⟩

end Run

end ScenePreview
