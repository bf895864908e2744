import ScenePreview.Proofs.Display

/-!
# Writers that become full

A line goes to the writer of a display in pieces, which may end anywhere: within an escape,
between two bytes of a character, or right before the line break.  A writer that has room for a
part of a piece takes that part first and fails when it is asked again; then the rest of the line
is given up, and the display goes on with the next message.  Here such a writer is followed piece
by piece, and it is said that all of this depends on nothing but where the lines end.

## Main definitions

* `Writer`, `Writer.fed` — a writer that becomes full, and what it takes of some bytes.
* `Writer.attempt`, `Writer.writeAll` — one attempt to write, and as many as a piece needs.
* `Writer.writePieces`, `Writer.writeLine`, `Writer.writeLines` — the pieces of a line, and the
  lines of messages.

## Main results

* `Writer.writeAll_eq`, `Writer.writePieces_eq` — what is written of pieces.
* `Writer.fst_writeLines`, `Writer.getElem?_snd_writeLines` — what is written of lines, and which
  of them give a warning.
* `Writer.receiveAll_display` — the display does what its writer does, however lines are cut.
* `JsonLines.writeLines_limited` — **a full writer has the front part of the stream, and a line
  gives a warning exactly if it ends beyond that part.**
-/

namespace ScenePreview

/-- A writer that takes a number of bytes and then fails. -/
structure Writer where
  /-- The bytes that it has taken. -/
  taken : List UInt8 := []
  /-- How many more it takes. -/
  room : Nat
  /-- What it says when it is full. -/
  error : String
  deriving Repr, DecidableEq

namespace Writer

/-- The writer with as much of some bytes as it has room for. -/
def fed (w : Writer) (bs : List UInt8) : Writer :=
  { w with taken := w.taken ++ bs.take w.room, room := w.room - bs.length }

/-- One attempt to write some bytes, which tells how many of them were taken. A full writer takes
none and fails. -/
def attempt (w : Writer) (bs : List UInt8) : Except String Nat × Writer :=
  if w.room = 0 then (.error w.error, w) else (.ok (min w.room bs.length), w.fed bs)

/-- Writes a piece, in as many attempts as it takes. -/
def writeAll (w : Writer) (bs : List UInt8) : Except String Unit × Writer :=
  match bs with
  | [] => (.ok (), w)
  | b :: bs =>
    match w.attempt (b :: bs) with
    | (.error e, w') => (.error e, w')
    | (.ok 0, w') => (.error "failed to write whole buffer", w')
    | (.ok (n + 1), w') => writeAll w' (bs.drop n)
termination_by bs.length
decreasing_by
  rw [List.length_drop, List.length_cons]
  omega

/-- Writes pieces one after the other, up to the first that fails. -/
def writePieces (w : Writer) : List (List UInt8) → Except String Unit × Writer
  | [] => (.ok (), w)
  | piece :: pieces =>
    match w.writeAll piece with
    | (.error e, w') => (.error e, w')
    | (.ok (), w') => w'.writePieces pieces

/-- Writes the pieces of a line, with a warning if one fails. -/
def writeLine (w : Writer) (pieces : List (List UInt8)) : Writer × List Warning :=
  match w.writePieces pieces with
  | (.ok (), w') => (w', [])
  | (.error e, w') => (w', [.displayWrite e])

/-- Writes lines one after the other, and tells the warnings of each. -/
def writeLines (w : Writer) : List (List (List UInt8)) → Writer × List (List Warning)
  | [] => (w, [])
  | pieces :: lines =>
    let first := w.writeLine pieces
    let rest := first.1.writeLines lines
    (rest.1, first.2 :: rest.2)

/-! ### Bytes -/

@[simp] theorem error_fed (w : Writer) (bs : List UInt8) : (w.fed bs).error = w.error := rfl

@[simp] theorem room_fed (w : Writer) (bs : List UInt8) :
    (w.fed bs).room = w.room - bs.length := rfl

@[simp] theorem fed_nil (w : Writer) : w.fed [] = w := by
  rw [fed, List.take_nil, List.append_nil]
  rfl

theorem fed_fed (w : Writer) (bs bs' : List UInt8) : (w.fed bs).fed bs' = w.fed (bs ++ bs') := by
  simp only [fed, List.take_append, List.length_append, List.append_assoc, Nat.sub_add_eq]

/-- A full writer takes nothing. -/
theorem fed_of_full {w : Writer} (h : w.room = 0) (bs : List UInt8) : w.fed bs = w := by
  obtain ⟨taken, room, error⟩ := w
  obtain rfl : room = 0 := h
  rw [fed, List.take_zero, List.append_nil, Nat.zero_sub]

/-- What comes after bytes that there is no room for changes nothing. -/
theorem fed_append_of_le {w : Writer} {bs : List UInt8} (h : w.room ≤ bs.length)
    (bs' : List UInt8) : w.fed (bs ++ bs') = w.fed bs := by
  rw [← fed_fed, fed_of_full (Nat.sub_eq_zero_of_le h)]

/-- What is left after an attempt is nothing, or there is no room for it. -/
theorem fed_drop (w : Writer) (bs : List UInt8) :
    (w.fed bs).fed (bs.drop (min w.room bs.length)) = w.fed bs := by
  rcases Nat.le_total bs.length w.room with hle | hle
  · rw [Nat.min_eq_right hle, List.drop_length, fed_nil]
  · exact fed_of_full (Nat.sub_eq_zero_of_le hle) _

/-! ### Pieces -/

section Attempt

variable {w w' : Writer} {bs : List UInt8}

theorem eq_of_attempt_error {e : String} (h : w.attempt bs = (.error e, w')) :
    w.room = 0 ∧ e = w.error ∧ w' = w := by
  rw [attempt] at h
  split at h
  · next hfull =>
    cases h
    exact ⟨hfull, rfl, rfl⟩
  · cases h

theorem eq_of_attempt_ok {n : Nat} (h : w.attempt bs = (.ok n, w')) :
    0 < w.room ∧ n = min w.room bs.length ∧ w' = w.fed bs := by
  rw [attempt] at h
  split at h
  · cases h
  · next hroom =>
    cases h
    exact ⟨Nat.pos_of_ne_zero hroom, rfl, rfl⟩

end Attempt

/-- A piece is written as far as there is room, and fails if that is not enough. -/
theorem writeAll_eq (w : Writer) (bs : List UInt8) : w.writeAll bs =
    (if bs.length ≤ w.room then .ok () else .error w.error, w.fed bs) := by
  fun_induction writeAll w bs with
  | case1 w => rw [fed_nil, List.length_nil, if_pos (Nat.zero_le _)]
  | case2 w b bs e w' hattempt =>
    obtain ⟨hfull, rfl, rfl⟩ := eq_of_attempt_error hattempt
    rw [fed_of_full hfull, List.length_cons, if_neg (by omega)]
  | case3 w b bs w' hattempt =>
    -- a writer that is not full takes at least one byte
    obtain ⟨hroom, hzero, -⟩ := eq_of_attempt_ok hattempt
    rw [List.length_cons] at hzero
    omega
  | case4 w b bs n w' hattempt ih =>
    obtain ⟨hroom, hn, rfl⟩ := eq_of_attempt_ok hattempt
    have hdrop : bs.drop n = (b :: bs).drop (min w.room (b :: bs).length) := by
      rw [← hn, List.drop_succ_cons]
    -- what is left fits exactly if the whole did
    have hfits : (bs.drop n).length ≤ (w.fed (b :: bs)).room ↔ (b :: bs).length ≤ w.room := by
      rw [List.length_cons] at hn
      rw [room_fed, List.length_drop, List.length_cons]
      omega
    rw [ih, if_congr hfits rfl rfl, hdrop, fed_drop]
    rfl

/-- Pieces are written as far as there is room, wherever they end, and fail if that is not
enough. -/
theorem writePieces_eq (w : Writer) (pieces : List (List UInt8)) : w.writePieces pieces =
    (if pieces.flatten.length ≤ w.room then .ok () else .error w.error,
      w.fed pieces.flatten) := by
  induction pieces generalizing w with
  | nil => rw [writePieces, List.flatten_nil, fed_nil, List.length_nil, if_pos (Nat.zero_le _)]
  | cons piece pieces ih =>
    rw [writePieces, writeAll_eq, List.flatten_cons, ← fed_fed, List.length_append]
    by_cases hpiece : piece.length ≤ w.room
    · have hfits : pieces.flatten.length ≤ (w.fed piece).room ↔
          piece.length + pieces.flatten.length ≤ w.room := by
        rw [room_fed]
        omega
      rw [if_pos hpiece]
      change (w.fed piece).writePieces pieces = _
      rw [ih, if_congr hfits rfl rfl]
      rfl
    · -- the writer is full, and what follows is not written
      have hfull : (w.fed piece).room = 0 := Nat.sub_eq_zero_of_le (Nat.le_of_not_le hpiece)
      rw [if_neg hpiece, if_neg (by omega), fed_of_full hfull]

theorem writeLine_eq (w : Writer) (pieces : List (List UInt8)) : w.writeLine pieces =
    (w.fed pieces.flatten,
      if pieces.flatten.length ≤ w.room then [] else [.displayWrite w.error]) := by
  rw [writeLine, writePieces_eq]
  split_ifs <;> rfl

/-! ### Lines -/

/-- Lines are written as far as there is room. -/
theorem fst_writeLines (w : Writer) (lines : List (List (List UInt8))) :
    (w.writeLines lines).1 = w.fed (lines.map List.flatten).flatten := by
  induction lines generalizing w with
  | nil => exact (fed_nil w).symm
  | cons pieces lines ih =>
    rw [writeLines, ih, writeLine_eq, List.map_cons, List.flatten_cons, fed_fed]

/-- From a line on that does not fit, the writer stays as it is. -/
theorem fst_writeLines_take_of_lt (w : Writer) {lines : List (List (List UInt8))} {i j : Nat}
    (hij : i ≤ j) (h : w.room < ((lines.map List.flatten).take i).flatten.length) :
    (w.writeLines (lines.take j)).1 = (w.writeLines (lines.take i)).1 := by
  obtain ⟨more, hmore⟩ :=
    (List.take_prefix_take_left (l := lines.map List.flatten) hij).flatten
  rw [fst_writeLines, fst_writeLines, List.map_take, List.map_take, ← hmore]
  exact fed_append_of_le (Nat.le_of_lt h) more

/-- Lines that are not empty have a first byte. -/
theorem length_flatten_take_pos {lines : List (List UInt8)} (hne : ∀ line ∈ lines, line ≠ [])
    {i : Nat} (hi : i < lines.length) : 0 < (lines.take (i + 1)).flatten.length := by
  cases lines with
  | nil => cases hi
  | cons line lines =>
    have hline := List.length_pos_of_ne_nil (hne line List.mem_cons_self)
    rw [List.take_succ_cons, List.flatten_cons, List.length_append]
    omega

/-- A line gives a warning exactly if there is no room for all up to its end. -/
theorem getElem?_snd_writeLines (w : Writer) {lines : List (List (List UInt8))}
    (hne : ∀ line ∈ lines.map List.flatten, line ≠ []) {i : Nat} (hi : i < lines.length) :
    (w.writeLines lines).2[i]? =
      some (if ((lines.map List.flatten).take (i + 1)).flatten.length ≤ w.room then []
        else [.displayWrite w.error]) := by
  induction lines generalizing w i with
  | nil => cases hi
  | cons pieces lines ih =>
    rw [writeLines, writeLine_eq, List.map_cons, List.take_succ_cons, List.flatten_cons,
      List.length_append]
    cases i with
    | zero =>
      rw [List.getElem?_cons_zero, List.take_zero, List.flatten_nil, List.length_nil, Nat.add_zero]
    | succ i =>
      have hlines : ∀ line ∈ lines.map List.flatten, line ≠ [] := fun line hline =>
        hne line (List.mem_cons_of_mem _ hline)
      have hlt : i < lines.length := Nat.lt_of_succ_lt_succ hi
      have hrest := ih (w.fed pieces.flatten) hlines hlt
      -- a line that is not empty does not fit when the one before it does not
      have hpos : 0 < ((lines.map List.flatten).take (i + 1)).flatten.length :=
        length_flatten_take_pos hlines (by rwa [List.length_map])
      rw [List.getElem?_cons_succ, hrest, room_fed, error_fed]
      exact congrArg some (if_congr (by omega) rfl rfl)

theorem length_snd_writeLines (w : Writer) (lines : List (List (List UInt8))) :
    (w.writeLines lines).2.length = lines.length := by
  induction lines generalizing w with
  | nil => rfl
  | cons pieces lines ih => rw [writeLines, List.length_cons, ih, List.length_cons]

/-! ### The display -/

/-- The display that has a writer with room for so many bytes. -/
def display (w : Writer) : JsonLines := ⟨w.taken, some w.room⟩

/-- The display does with a line what its writer does with the pieces of the line, wherever these
end. -/
theorem receive_display {w : Writer} (herror : w.error = JsonLines.fullError) {m : Message}
    {pieces : List (List UInt8)} (hline : pieces.flatten = JsonLines.lineBytes m) :
    w.display.receive m = ((w.writeLine pieces).1.display, (w.writeLine pieces).2) := by
  rw [writeLine_eq, hline, herror]
  rfl

/-- So it does with the lines of all messages. -/
theorem receiveAll_display {w : Writer} (herror : w.error = JsonLines.fullError)
    {ms : List Message} {lines : List (List (List UInt8))}
    (hlines : lines.map List.flatten = ms.map JsonLines.lineBytes) :
    w.display.receiveAll ms =
      ((w.writeLines lines).1.display, (w.writeLines lines).2.flatten) := by
  induction ms generalizing w lines with
  | nil =>
    obtain rfl : lines = [] := List.map_eq_nil_iff.1 hlines
    rfl
  | cons m ms ih =>
    obtain ⟨pieces, lines, rfl, hline, hlines⟩ := List.map_eq_cons_iff.1 hlines
    have herror' : (w.writeLine pieces).1.error = JsonLines.fullError := by
      rw [writeLine_eq, error_fed, herror]
    rw [JsonLines.receiveAll, receive_display herror hline]
    dsimp only
    rw [ih herror' hlines]
    rfl

end Writer

namespace JsonLines

/-- A display without a limit gives no warnings. -/
theorem snd_receiveAll_of_none {d : JsonLines} (h : d.room = none) (ms : List Message) :
    (d.receiveAll ms).2 = [] := by
  induction ms generalizing d with
  | nil => rfl
  | cons m ms ih =>
    have hfirst : d.receive m = ({ d with written := d.written ++ lineBytes m }, []) := by
      rw [receive, h]
    rw [receiveAll, hfirst]
    exact ih h

/-- It writes all lines. -/
theorem written_receiveAll_of_none (ms : List Message) :
    (receiveAll {} ms).1.written = (ms.map lineBytes).flatten := by
  rw [written_receiveAll (snd_receiveAll_of_none rfl ms), List.nil_append, List.flatMap_def]

theorem lineBytes_ne_nil (m : Message) : lineBytes m ≠ [] := by
  simp [lineBytes]

/-- **A full writer has the front part of the stream, and a line gives a warning exactly if it ends
beyond that part.**  The lines of some messages are cut into pieces anywhere and go to a writer
that takes a limited number of bytes.  It has then taken that many of the bytes that a display
without a limit writes, or all of them.  A line that ends within the limit there gives no warning,
and any other gives one, with the error of the writer.  So from the first line on that gives one
all do, and nothing more is written.  The display itself does just this. -/
theorem writeLines_limited (limit : Nat) (error : String) (ms : List Message)
    (lines : List (List (List UInt8)))
    (hlines : lines.map List.flatten = ms.map lineBytes) :
    let whole := (receiveAll {} ms).1.written
    let ending (i : Nat) := (receiveAll {} (ms.take (i + 1))).1.written.length
    let start : Writer := ⟨[], limit, error⟩
    let result := start.writeLines lines
    result.1.taken = whole.take (min limit whole.length) ∧
    result.2.length = ms.length ∧
    (∀ i < ms.length,
      result.2[i]? = some (if ending i ≤ limit then [] else [.displayWrite error])) ∧
    (∀ i j, i ≤ j → j < ms.length → limit < ending i →
      result.2[j]? = some [.displayWrite error] ∧
      (start.writeLines (lines.take (j + 1))).1 = (start.writeLines (lines.take (i + 1))).1) ∧
    (error = fullError →
      receiveAll ⟨[], some limit⟩ ms =
        (⟨result.1.taken, some result.1.room⟩, result.2.flatten)) := by
  intro whole ending start result
  have hlength : lines.length = ms.length := by
    rw [← List.length_map List.flatten, hlines, List.length_map]
  have hwhole : whole = (lines.map List.flatten).flatten := by
    rw [hlines]
    exact written_receiveAll_of_none ms
  have hending : ∀ i, ending i = ((lines.map List.flatten).take (i + 1)).flatten.length := by
    intro i
    rw [hlines, ← List.map_take]
    exact congrArg List.length (written_receiveAll_of_none (ms.take (i + 1)))
  have hne : ∀ line ∈ lines.map List.flatten, line ≠ [] := by
    rw [hlines]
    intro line hline
    obtain ⟨m, -, rfl⟩ := List.mem_map.1 hline
    exact lineBytes_ne_nil m
  have hwarnings : ∀ i < ms.length,
      result.2[i]? = some (if ending i ≤ limit then [] else [.displayWrite error]) := by
    intro i hi
    rw [hending]
    exact start.getElem?_snd_writeLines hne (hlength ▸ hi)
  refine ⟨?_, ?_, hwarnings, ?_, ?_⟩
  · rw [hwhole, ← List.take_eq_take_min]
    exact congrArg Writer.taken (start.fst_writeLines lines)
  · exact (start.length_snd_writeLines lines).trans hlength
  · intro i j hij hj hlimit
    have hmono : ending i ≤ ending j := by
      rw [hending, hending]
      exact (List.take_prefix_take_left (Nat.succ_le_succ hij)).flatten.length_le
    constructor
    · rw [hwarnings j hj, if_neg (Nat.not_le.2 (Nat.lt_of_lt_of_le hlimit hmono))]
    · rw [hending] at hlimit
      exact start.fst_writeLines_take_of_lt (Nat.succ_le_succ hij) hlimit
  · rintro rfl
    exact Writer.receiveAll_display (w := start) rfl hlines

/-- A limit within an escape of the second of three lines, which are written byte by byte. -/
theorem writeLines_limited_escape :
    let ms := [Message.loading, .log "\n", .loading]
    let lines := ms.map fun m => (lineBytes m).map fun b => [b]
    let result := Writer.writeLines ⟨[], 36, "no room"⟩ lines
    lines.map List.flatten = ms.map lineBytes ∧
      result.1.taken = Text.Utf8.encode
        "\x7b\"type\":\"showLoading\"\x7d\n\x7b\"message\":\"\\" ∧
      result.2[0]? = some [] ∧ result.2[1]? = some [.displayWrite "no room"] ∧
      result.2[2]? = some [.displayWrite "no room"] := by
  intro ms lines result
  have hlines : lines.map List.flatten = ms.map lineBytes := by decide +kernel
  obtain ⟨htaken, -, hwarnings, hlater, -⟩ := writeLines_limited 36 "no room" ms lines hlines
  have hfirst : (receiveAll {} (ms.take 1)).1.written.length ≤ 36 := by decide +kernel
  have hsecond : 36 < (receiveAll {} (ms.take 2)).1.written.length := by decide +kernel
  refine ⟨hlines, ?_, ?_, ?_, ?_⟩
  · rw [htaken]
    decide +kernel
  · rw [hwarnings 0 (by decide), if_pos hfirst]
  · rw [hwarnings 1 (by decide), if_neg (Nat.not_le.2 hsecond)]
  · exact (hlater 1 2 (by decide) (by decide) hsecond).1

end JsonLines

end ScenePreview
