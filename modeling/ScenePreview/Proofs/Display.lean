import ScenePreview.Display.JsonLines
import ScenePreview.Display.Recorder
import ScenePreview.Proofs.Json
import ScenePreview.Proofs.Utf8

/-!
# What displays keep of messages

A recorder keeps events and notices apart, each in order.  A display for other programs writes
both into one stream of lines, and the program that reads the stream has nothing but the bytes to
tell where a message ends and of which kind it is.  Here it is said that this is enough.

## Main definitions

* `Message.event?`, `Message.notice?` — the events and the notices among messages.
* `JsonLines.receiveAll` — a display for other programs after a list of messages.
* `JsonLines.Carries` — what a reader makes of the line of a message.

## Main results

* `Recorder.events_ofMessages`, `Recorder.notices_ofMessages` — what a recorder has kept.
* `JsonLines.carries_line` — a line is read as its message, and as nothing else.
* `JsonLines.receiveAll_lines` — **the bytes are one readable line for each message.**
-/

namespace ScenePreview

open Text.Utf8

/-- The event of a message that is one. -/
def Message.event? : Message → Option Event
  | .event e => some e
  | .notice _ => none

/-- The notice of a message that is one. -/
def Message.notice? : Message → Option Notice
  | .event _ => none
  | .notice n => some n

/-- A message is known by its event and its notice. -/
theorem Message.ext_views {m m' : Message} (hevent : m.event? = m'.event?)
    (hnotice : m.notice? = m'.notice?) : m = m' := by
  cases m <;> cases m' <;> simp_all [event?, notice?]

/-! ### A display that remembers -/

namespace Recorder

theorem foldl_receive (r : Recorder) (ms : List Message) :
    ms.foldl receive r =
      ⟨r.events ++ ms.filterMap Message.event?, r.notices ++ ms.filterMap Message.notice?⟩ := by
  induction ms generalizing r with
  | nil => simp
  | cons m ms ih =>
    cases m <;> simp [ih, receive, List.filterMap_cons, Message.event?, Message.notice?]

/-- A recorder keeps all events in order. -/
theorem events_ofMessages (ms : List Message) :
    (ofMessages ms).events = ms.filterMap Message.event? := by
  rw [ofMessages, foldl_receive]
  rfl

/-- A recorder keeps all notices in order. -/
theorem notices_ofMessages (ms : List Message) :
    (ofMessages ms).notices = ms.filterMap Message.notice? := by
  rw [ofMessages, foldl_receive]
  rfl

/-- The locators that were shown by some messages. -/
theorem artifacts_ofMessages (ms : List Message) :
    (ofMessages ms).artifacts = ms.filterMap fun m => m.event?.bind shown? := by
  rw [artifacts, events_ofMessages, List.filterMap_filterMap]

end Recorder

/-! ### A display for other programs -/

namespace JsonLines

/-- The display after a list of messages, and the warnings that they gave. -/
def receiveAll (d : JsonLines) : List Message → JsonLines × List Warning
  | [] => (d, [])
  | m :: ms =>
    let first := d.receive m
    let rest := receiveAll first.1 ms
    (rest.1, first.2 ++ rest.2)

/-- A message without a warning is written whole. -/
theorem written_receive {d : JsonLines} {m : Message} (h : (d.receive m).2 = []) :
    (d.receive m).1.written = d.written ++ lineBytes m := by
  unfold receive at h ⊢
  split at h
  · rfl
  · dsimp only at h
    split at h
    · next n _ hle => exact congrArg _ (List.take_of_length_le hle)
    · cases h

/-- So are all messages, one after the other. -/
theorem written_receiveAll {d : JsonLines} {ms : List Message} (h : (d.receiveAll ms).2 = []) :
    (d.receiveAll ms).1.written = d.written ++ ms.flatMap lineBytes := by
  induction ms generalizing d with
  | nil => simp [receiveAll]
  | cons m ms ih =>
    obtain ⟨hfirst, hrest⟩ := List.append_eq_nil_iff.1 h
    rw [receiveAll, ih hrest, written_receive hfirst, List.append_assoc, List.flatMap_cons]

/-! ### Lines -/

/-- The object of a message holds no numbers. -/
theorem isSpelled_toJson (m : Message) : (toJson m).IsSpelled := by
  rcases m with (- | - | - | -) | n <;>
    simp [toJson, eventFields, Json.ofFields, Json.text, Json.IsSpelled, Json.MembersAreSpelled]

theorem parse?_line (m : Message) : Json.parse? (line m) = some (toJson m) :=
  Json.parse?_render (isSpelled_toJson m)

/-- The object of a message is read as its event, if it has one. -/
theorem eventOfJson?_toJson (m : Message) : Event.ofJson? (toJson m) = m.event? := by
  rcases m with (- | - | - | -) | ⟨- | -, -⟩ <;> rfl

/-- The object of a message is read as its notice, if it has one. -/
theorem noticeOfJson?_toJson (m : Message) : Notice.ofJson? (toJson m) = m.notice? := by
  rcases m with (- | - | - | -) | ⟨- | -, -⟩ <;> rfl

/-- What a reader makes of the line of a message: it has no controls and is a text, which is read
as the event of the message and not as a notice, or the other way round. -/
structure Carries (m : Message) (bytes : List UInt8) : Prop where
  /-- No byte is a control. -/
  printed : ∀ b ∈ bytes, 0x20 ≤ b.toNat
  /-- The bytes are a text, which is read as the message and as nothing else. -/
  read : ∃ text, decode? bytes = some text ∧ Event.parse? text = m.event? ∧
    Notice.parse? text = m.notice?

/-- A line is read as its message, and as nothing else. -/
theorem carries_line (m : Message) : Carries m (encode (line m)) := by
  refine ⟨fun b hb => ?_, line m, decode?_eq_some_iff.2 rfl, ?_, ?_⟩
  · rw [encode, line, Json.render, String.toList_ofList] at hb
    obtain ⟨c, hc, hb⟩ := List.mem_flatMap.1 hb
    exact le_toNat_of_mem_encodeChar
      (Json.isPrinted_of_mem_renderChars (isSpelled_toJson m) hc) hb
  · rw [Event.parse?, parse?_line, Option.bind_some, eventOfJson?_toJson]
  · rw [Notice.parse?, parse?_line, Option.bind_some, noticeOfJson?_toJson]

/-- A line carries one message only. -/
theorem Carries.unique {m m' : Message} {bytes : List UInt8} (h : Carries m bytes)
    (h' : Carries m' bytes) : m = m' := by
  obtain ⟨text, htext, hevent, hnotice⟩ := h.read
  obtain ⟨text', htext', hevent', hnotice'⟩ := h'.read
  obtain rfl : text = text' := Option.some.inj (htext.symm.trans htext')
  exact Message.ext_views (hevent.symm.trans hevent') (hnotice.symm.trans hnotice')

/-- The lines of messages are cut where they end. -/
theorem splitOn_flatMap_lineBytes (ms : List Message) :
    (ms.flatMap lineBytes).splitOn 10 = ms.map (fun m => encode (line m)) ++ [[]] := by
  have hjoin : ms.flatMap lineBytes
      = [10].intercalate (ms.map (fun m => encode (line m)) ++ [[]]) := by
    induction ms with
    | nil => rfl
    | cons m ms ih =>
      rw [List.flatMap_cons, ih, List.map_cons, List.cons_append]
      generalize ms.map (fun m => encode (line m)) = ls
      cases ls <;> simp [List.intercalate, lineBytes]
  rw [hjoin, List.splitOn_intercalate]
  · -- the end of a line is a control, and so in none of them
    intro l hl hmem
    rcases List.mem_append.1 hl with hl | hl
    · obtain ⟨m, -, rfl⟩ := List.mem_map.1 hl
      exact absurd ((carries_line m).printed 10 hmem) (by decide)
    · rw [List.mem_singleton.1 hl] at hmem
      cases hmem
  · simp

/-- Lines that carry two lists of messages carry one and the same. -/
theorem eq_of_carries {ms ms' : List Message} {lines : List (List UInt8)}
    (h : List.Forall₂ Carries ms lines) (h' : List.Forall₂ Carries ms' lines) : ms = ms' := by
  induction h generalizing ms' with
  | nil =>
    cases h'
    rfl
  | cons hfirst _ ih =>
    cases h' with
    | cons hfirst' hrest' => rw [hfirst.unique hfirst', ih hrest']

/-- **The bytes are one readable line for each message**, in order, with nothing after the last,
as long as the writer takes them.  So no two lists of messages leave the same bytes. -/
theorem receiveAll_lines (room : Option Nat) (ms : List Message)
    (h : (receiveAll ⟨[], room⟩ ms).2 = []) :
    (∃ lines, (receiveAll ⟨[], room⟩ ms).1.written.splitOn 10 = lines ++ [[]] ∧
      List.Forall₂ Carries ms lines) ∧
    ∀ room' ms', (receiveAll ⟨[], room'⟩ ms').2 = [] →
      (receiveAll ⟨[], room'⟩ ms').1.written = (receiveAll ⟨[], room⟩ ms).1.written → ms' = ms := by
  have hlines : ∀ room ms, (receiveAll ⟨[], room⟩ ms).2 = [] →
      (receiveAll ⟨[], room⟩ ms).1.written.splitOn 10
        = ms.map (fun m => encode (line m)) ++ [[]] := by
    intro room ms h
    rw [written_receiveAll h, List.nil_append, splitOn_flatMap_lineBytes]
  have hcarries : ∀ ms, List.Forall₂ Carries ms (ms.map fun m => encode (line m)) := fun ms =>
    List.forall₂_map_right_iff.2 (List.forall₂_same.2 fun m _ => carries_line m)
  refine ⟨⟨_, hlines room ms h, hcarries ms⟩, fun room' ms' h' hwritten => ?_⟩
  -- the bytes are cut into lines in one way, and each line carries one message
  have hsplit := hlines room' ms' h'
  rw [hwritten, hlines room ms h] at hsplit
  exact eq_of_carries (hcarries ms') (List.append_cancel_right hsplit ▸ hcarries ms)

/-- Messages with line ends, quotes, controls and characters of several bytes, on a writer that
takes no byte more than they need. -/
theorem receiveAll_lines_controls :
    let ms := [Message.loading, .log "a\n\"\\\u0001é😀", .error "\r\n", .artifactReady "\t"]
    (receiveAll ⟨[], some 164⟩ ms).2 = [] ∧
      ∃ lines, (receiveAll ⟨[], some 164⟩ ms).1.written.splitOn 10 = lines ++ [[]] ∧
        List.Forall₂ Carries ms lines := by
  intro ms
  have h : (receiveAll ⟨[], some 164⟩ ms).2 = [] := by decide +kernel
  exact ⟨h, (receiveAll_lines _ _ h).1⟩

end JsonLines

end ScenePreview
