import ScenePreview.Json.Reader
import ScenePreview.Json.Writer
import ScenePreview.Proofs.Scan

/-!
# Reading back what was written

The writer puts no blanks between the parts of a value and escapes what may not stand in a
string.  The reader takes blanks and more escapes than are written.  Here it is said that the
reader gives back the value that was written, and that no control is ever written.

## Main definitions

* `Json.Piece.StandsFor` — a piece that is read as a character.
* `Json.Number.IsSpelled`, `Json.IsSpelled` — the numbers and values that can be written.
* `Json.IsPrinted` — a character that is no control.

## Main results

* `Json.exists_pieces?_flatMap` — a string is read as it was written.
* `Json.scanNumber_renderChars` — so is a number.
* `Json.value_renderChars` — so is a value, whatever follows it.
* `Json.parse?_render` — **a value that was written is read as itself.**
* `Json.isPrinted_of_mem_renderChars` — what is written holds no control.
-/

namespace ScenePreview.Json

open Text (Scan Stops)

/-! ### Strings -/

/-- A piece of a string that is read as a character, whatever follows it. -/
def Piece.StandsFor (p : Piece) (c : Char) : Prop :=
  ∀ ps, joinPieces? (p :: ps) = (joinPieces? ps).map (c :: ·)

theorem Piece.standsFor_char (c : Char) : (Piece.char c).StandsFor c := fun ps => by
  rw [joinPieces?]

/-- A code that is no half of a surrogate pair stands for its character. -/
theorem Piece.standsFor_code {n : Nat} (h : n < 0xD800) :
    (Piece.code n).StandsFor (Char.ofNat n) := by
  have hlead : isLead n = false := by
    simp only [isLead, Bool.and_eq_false_iff, decide_eq_false_iff_not]
    omega
  have htrail : isTrail n = false := by
    simp only [isTrail, Bool.and_eq_false_iff, decide_eq_false_iff_not]
    omega
  intro ps
  rcases ps with - | ⟨c | lo, ps⟩ <;> simp [joinPieces?, hlead, htrail]

/-- An escape of one letter is read as the character that it stands for. -/
theorem pieces?_escape {e c : Char} (hu : e ≠ 'u') (he : unescape? e = some c) (cs : List Char) :
    pieces? ('\\' :: e :: cs) = (pieces? cs).map fun r => (.char c :: r.1, r.2) := by
  rw [pieces?]
  · rw [he]
    cases pieces? cs <;> rfl
  · intro a b c d cs heq
    exact absurd heq hu

/-- A character that is no mark and no control is read as itself. -/
theorem pieces?_char {c : Char} (hquote : c ≠ '"') (hslash : c ≠ '\\') (hc : 0x20 ≤ c.toNat)
    (cs : List Char) :
    pieces? (c :: cs) = (pieces? cs).map fun r => (.char c :: r.1, r.2) := by
  rw [pieces?.eq_def]
  split
  · next h => cases h
  · next h => exact absurd (List.cons.inj h).1 hquote
  · next h => exact absurd (List.cons.inj h).1 hslash
  · next h => exact absurd (List.cons.inj h).1 hslash
  · next h =>
    obtain ⟨rfl, rfl⟩ := List.cons.inj h
    rw [if_neg (not_or.2 ⟨by omega, hslash⟩)]
    cases pieces? cs <;> rfl

/-- A code in four digits is read as the code. -/
theorem pieces?_code {n : Nat} (hn : n < 16 ^ 4) (cs : List Char) :
    pieces? ('\\' :: 'u' :: (Text.hexPadded 4 n ++ cs)) =
      (pieces? cs).map fun r => (.code n :: r.1, r.2) := by
  obtain ⟨ds, hchars, hlen, hvalue⟩ := Text.exists_hexPadded hn
  obtain ⟨a, b, c, d, rfl⟩ := List.length_eq_four.1 hlen
  rw [hchars]
  change pieces? ('\\' :: 'u' :: Text.hexChar a :: Text.hexChar b :: Text.hexChar c ::
    Text.hexChar d :: cs) = _
  rw [pieces?]
  have hmap := Text.mapM_hexValue?_hexChar [a, b, c, d]
  simp only [List.map_cons, List.map_nil] at hmap
  rw [hmap]
  change (pieces? cs).bind (fun r => some (Piece.code (Text.ofHexDigits [a, b, c, d]) :: r.1, r.2))
    = _
  rw [hvalue]
  cases pieces? cs <;> rfl

/-- A character of a string is written as an escape of one letter, as its code, or as itself. -/
theorem escapeChar_cases (c : Char) :
    (∃ e ∈ ['"', '\\', 'b', 'f', 'n', 'r', 't'],
      unescape? e = some c ∧ escapeChar c = ['\\', e]) ∨
    (c.toNat < 0x20 ∧ escapeChar c = '\\' :: 'u' :: Text.hexPadded 4 c.toNat) ∨
    (c ≠ '"' ∧ c ≠ '\\' ∧ 0x20 ≤ c.toNat ∧ escapeChar c = [c]) := by
  -- seven characters have a letter of their own
  by_cases hquote : c = '"'
  · exact .inl ⟨'"', by decide, by rw [hquote]; rfl, by rw [hquote]; rfl⟩
  by_cases hslash : c = '\\'
  · exact .inl ⟨'\\', by decide, by rw [hslash]; rfl, by rw [hslash]; rfl⟩
  by_cases hb : c = '\x08'
  · exact .inl ⟨'b', by decide, by rw [hb]; rfl, by rw [hb]; rfl⟩
  by_cases hf : c = '\x0c'
  · exact .inl ⟨'f', by decide, by rw [hf]; rfl, by rw [hf]; rfl⟩
  by_cases hn : c = '\n'
  · exact .inl ⟨'n', by decide, by rw [hn]; rfl, by rw [hn]; rfl⟩
  by_cases hr : c = '\r'
  · exact .inl ⟨'r', by decide, by rw [hr]; rfl, by rw [hr]; rfl⟩
  by_cases ht : c = '\t'
  · exact .inl ⟨'t', by decide, by rw [ht]; rfl, by rw [ht]; rfl⟩
  have hescape : escapeChar c =
      if c.toNat < 0x20 then '\\' :: 'u' :: Text.hexPadded 4 c.toNat else [c] := by
    rw [escapeChar, if_neg hquote, if_neg hslash, if_neg hb, if_neg hf, if_neg hn, if_neg hr,
      if_neg ht]
  by_cases hcontrol : c.toNat < 0x20
  · exact .inr (.inl ⟨hcontrol, by rw [hescape, if_pos hcontrol]⟩)
  · exact .inr (.inr ⟨hquote, hslash, by omega, by rw [hescape, if_neg hcontrol]⟩)

/-- A character of a string is read as a piece that stands for it. -/
theorem exists_pieces?_escapeChar (c : Char) :
    ∃ p : Piece, p.StandsFor c ∧ ∀ cs,
      pieces? (escapeChar c ++ cs) = (pieces? cs).map fun r => (p :: r.1, r.2) := by
  obtain ⟨e, he, hread, hc⟩ | ⟨hcontrol, hc⟩ | ⟨hquote, hslash, hle, hc⟩ := escapeChar_cases c
  · have hu : e ≠ 'u' := by
      rintro rfl
      exact absurd he (by decide)
    exact ⟨.char c, Piece.standsFor_char c, fun cs => hc ▸ pieces?_escape hu hread cs⟩
  · refine ⟨.code c.toNat, ?_, fun cs => hc ▸ pieces?_code (by omega) cs⟩
    have hstands := Piece.standsFor_code (n := c.toNat) (by omega)
    rwa [Char.ofNat_toNat] at hstands
  · exact ⟨.char c, Piece.standsFor_char c, fun cs => hc ▸ pieces?_char hquote hslash hle cs⟩

/-- A string is read as it was written, up to its closing quote. -/
theorem exists_pieces?_flatMap (cs rest : List Char) :
    ∃ ps, pieces? (cs.flatMap escapeChar ++ '"' :: rest) = some (ps, rest) ∧
      joinPieces? ps = some cs := by
  induction cs with
  | nil => exact ⟨[], rfl, rfl⟩
  | cons c cs ih =>
    obtain ⟨ps, hps, hjoin⟩ := ih
    obtain ⟨p, hp, hpiece⟩ := exists_pieces?_escapeChar c
    refine ⟨p :: ps, ?_, ?_⟩
    · rw [List.flatMap_cons, List.append_assoc, hpiece, hps, Option.map_some]
    · rw [hp, hjoin, Option.map_some]

/-- A string is read as it was written, also one that is no text. -/
theorem exists_stringBody (k : Option String) :
    ∃ body, renderString k = '"' :: body ∧
      ∀ rest, stringBody (body ++ rest) = some (k, rest) := by
  cases k with
  | none => exact ⟨_, rfl, fun rest => rfl⟩
  | some s =>
    refine ⟨s.toList.flatMap escapeChar ++ ['"'], rfl, fun rest => ?_⟩
    obtain ⟨ps, hps, hjoin⟩ := exists_pieces?_flatMap s.toList rest
    rw [List.append_assoc, List.singleton_append, stringBody, hps, Option.map_some]
    change some ((joinPieces? ps).map String.ofList, rest) = _
    rw [hjoin, Option.map_some, String.ofList_toList]

/-! ### Numbers -/

/-- The characters that a number can go on with. -/
def isNumberPart (c : Char) : Bool := c.isDigit || c == '.' || c == 'e' || c == 'E'

/-- A number as numbers are written: digits before the point, with no zero before others, digits
only after it, and digits in the exponent. -/
structure Number.IsSpelled (n : Number) : Prop where
  /-- There are digits before the point. -/
  integer_ne_nil : n.integer ≠ []
  /-- They are digits. -/
  integer_digits : ∀ c ∈ n.integer, c.isDigit = true
  /-- No zero stands before others. -/
  integer_head : ¬ (n.integer.head? = some '0' ∧ 1 < n.integer.length)
  /-- Digits stand after the point. -/
  fraction_digits : ∀ c ∈ n.fraction, c.isDigit = true
  /-- The exponent, if there is one, has digits. -/
  exponent_ne_nil : ∀ e ∈ n.exponent, e.2 ≠ []
  /-- They are digits. -/
  exponent_digits : ∀ e ∈ n.exponent, ∀ c ∈ e.2, c.isDigit = true

theorem digitsSome_append {ds rest : List Char} (hne : ds ≠ [])
    (hds : ∀ c ∈ ds, c.isDigit = true) (hrest : Stops Char.isDigit rest) :
    digitsSome (ds ++ rest) = some (ds, rest) := by
  have hmany : digitsMany (ds ++ rest) = some (ds, rest) := by
    rw [digitsMany, List.takeWhile_append_of_pos hds, List.dropWhile_append_of_pos hds,
      Text.takeWhile_of_stops hrest, Text.dropWhile_of_stops hrest, List.append_nil]
  rw [digitsSome, Scan.bind_of_eq hmany, if_neg hne]
  rfl

theorem integerDigits_append {ds rest : List Char} (hne : ds ≠ [])
    (hds : ∀ c ∈ ds, c.isDigit = true) (hhead : ¬ (ds.head? = some '0' ∧ 1 < ds.length))
    (hrest : Stops Char.isDigit rest) : integerDigits (ds ++ rest) = some (ds, rest) := by
  rw [integerDigits, Scan.bind_of_eq (digitsSome_append hne hds hrest), if_neg hhead]
  rfl

/-- The characters of a fraction with its point, if there is one. -/
def fractionChars (ds : List Char) : List Char := if ds = [] then [] else '.' :: ds

/-- The characters of an exponent, if there is one. -/
def exponentChars : Option (Bool × List Char) → List Char
  | none => []
  | some (true, ds) => 'e' :: '-' :: ds
  | some (false, ds) => 'e' :: ds

theorem Number.renderChars_eq (n : Number) :
    n.renderChars = (if n.negative then ['-'] else []) ++
      (n.integer ++ (fractionChars n.fraction ++ exponentChars n.exponent)) := by
  rw [Number.renderChars, fractionChars, List.append_assoc, List.append_assoc]
  rfl

theorem stops_of_isNumberPart {q : Char → Bool} {rest : List Char} (h : Stops isNumberPart rest)
    (hq : ∀ c, isNumberPart c = false → q c = false) : Stops q rest :=
  fun c hc => hq c (h c hc)

/-- What follows the digits after the point is no digit and no point. -/
theorem stops_exponentChars {e : Option (Bool × List Char)} {rest : List Char} {q : Char → Bool}
    (hrest : Stops q rest) (he : q 'e' = false) : Stops q (exponentChars e ++ rest) := by
  rcases e with - | ⟨- | -, ds⟩
  · exact hrest
  · simpa [exponentChars] using he
  · simpa [exponentChars] using he

theorem stops_fractionChars {ds rest : List Char} {q : Char → Bool} (hrest : Stops q rest)
    (hpoint : q '.' = false) : Stops q (fractionChars ds ++ rest) := by
  unfold fractionChars
  split
  · exact hrest
  · simpa using hpoint

theorem fractionDigits_of_stops {cs : List Char} (h : Stops (· == '.') cs) :
    fractionDigits cs = some ([], cs) := by
  unfold fractionDigits
  rw [Scan.bind_of_eq (Scan.peek_apply _)]
  cases cs with
  | nil => rfl
  | cons c cs =>
    have hc : c ≠ '.' := by simpa using h
    simp only [List.head?_cons, Option.some.injEq, hc, imp_self]
    rfl

theorem fractionDigits_append {ds rest : List Char} (hds : ∀ c ∈ ds, c.isDigit = true)
    (hrest : Stops Char.isDigit rest) (hpoint : Stops (· == '.') rest) :
    fractionDigits (fractionChars ds ++ rest) = some (ds, rest) := by
  by_cases hne : ds = []
  · rw [fractionChars, if_pos hne, List.nil_append, hne, fractionDigits_of_stops hpoint]
  · rw [fractionChars, if_neg hne]
    change (Scan.char '.' >>= fun _ => digitsSome) ('.' :: (ds ++ rest)) = _
    rw [Scan.bind_of_eq (Scan.char_cons _ _), digitsSome_append hne hds hrest]

theorem exponentSign_of_stops {cs : List Char} (h : Stops (fun c => c == '-' || c == '+') cs) :
    exponentSign cs = some (false, cs) := by
  unfold exponentSign
  rw [Scan.bind_of_eq (Scan.peek_apply _)]
  cases cs with
  | nil => rfl
  | cons c cs =>
    have hc : c ≠ '-' ∧ c ≠ '+' := by simpa using h
    simp only [List.head?_cons, Option.some.injEq, hc.1, hc.2, imp_self]
    rfl

theorem stops_digits {ds : List Char} (hds : ∀ c ∈ ds, c.isDigit = true) (hne : ds ≠ [])
    {q : Char → Bool} (hq : ∀ c, c.isDigit = true → q c = false) (rest : List Char) :
    Stops q (ds ++ rest) := by
  cases ds with
  | nil => exact absurd rfl hne
  | cons d ds => simpa using hq d (hds d List.mem_cons_self)

/-- A digit is no mark. -/
theorem ne_of_isDigit {c d : Char} (hc : c.isDigit = true) (hd : d.isDigit = false) : c ≠ d := by
  rintro rfl
  rw [hc] at hd
  cases hd

theorem exponentPart_append {e : Option (Bool × List Char)} {rest : List Char}
    (hne : ∀ x ∈ e, x.2 ≠ []) (hds : ∀ x ∈ e, ∀ c ∈ x.2, c.isDigit = true)
    (hrest : Stops isNumberPart rest) :
    exponentPart (exponentChars e ++ rest) = some (e, rest) := by
  have hstops : Stops Char.isDigit rest := by
    refine stops_of_isNumberPart hrest fun c hc => ?_
    simp only [isNumberPart, Bool.or_eq_false_iff] at hc
    exact hc.1.1.1
  unfold exponentPart
  rw [Scan.bind_of_eq (Scan.peek_apply _)]
  rcases e with - | ⟨- | -, ds⟩
  · rw [exponentChars, List.nil_append]
    cases rest with
    | nil => rfl
    | cons c cs =>
      have hc : isNumberPart c = false := by simpa using hrest
      simp only [isNumberPart, Bool.or_eq_false_iff, beq_eq_false_iff_ne] at hc
      dsimp only [List.head?_cons]
      rw [if_neg (not_or.2 ⟨hc.1.2, hc.2⟩)]
      rfl
  · have hd := hds _ rfl
    have hn := hne _ rfl
    change (Scan.char 'e' >>= fun _ => exponentSign >>= fun negative =>
      digitsSome >>= fun ds => pure (some (negative, ds))) ('e' :: (ds ++ rest)) = _
    have hsign : exponentSign (ds ++ rest) = some (false, ds ++ rest) := by
      refine exponentSign_of_stops (stops_digits hd hn (fun c hc => ?_) rest)
      simp [ne_of_isDigit hc (d := '-') rfl, ne_of_isDigit hc (d := '+') rfl]
    rw [Scan.bind_of_eq (Scan.char_cons _ _), Scan.bind_of_eq hsign,
      Scan.bind_of_eq (digitsSome_append hn hd hstops)]
    rfl
  · have hd := hds _ rfl
    have hn := hne _ rfl
    have hsign : exponentSign ('-' :: (ds ++ rest)) = some (true, ds ++ rest) := rfl
    change (Scan.char 'e' >>= fun _ => exponentSign >>= fun negative =>
      digitsSome >>= fun ds => pure (some (negative, ds))) ('e' :: '-' :: (ds ++ rest)) = _
    rw [Scan.bind_of_eq (Scan.char_cons _ _), Scan.bind_of_eq hsign,
      Scan.bind_of_eq (digitsSome_append hn hd hstops)]
    rfl

/-- Reads a number after its sign. -/
def unsignedNumber (negative : Bool) : Scan Number := do
  let integer ← integerDigits
  let fraction ← fractionDigits
  let exponent ← exponentPart
  return ⟨negative, integer, fraction, exponent⟩

theorem scanNumber_of_stops {cs : List Char} (h : Stops (· == '-') cs) :
    scanNumber cs = unsignedNumber false cs := by
  have hhead : (cs.head? == some '-') = false := by
    cases cs with
    | nil => rfl
    | cons c cs => simpa using h
  unfold scanNumber
  rw [Scan.bind_of_eq (Scan.peek_apply _)]
  simp only [hhead]
  rfl

/-- A number is read as it was written, if what follows does not belong to it. -/
theorem scanNumber_renderChars {n : Number} (hn : n.IsSpelled) {rest : List Char}
    (hrest : Stops isNumberPart rest) : scanNumber (n.renderChars ++ rest) = some (n, rest) := by
  have hpart : ∀ c, isNumberPart c = false → c.isDigit = false ∧ (c == '.') = false := by
    intro c hc
    simp only [isNumberPart, Bool.or_eq_false_iff] at hc
    exact ⟨hc.1.1.1, hc.1.1.2⟩
  -- each part is read up to what follows it, so the last one comes first
  have hexponent := exponentPart_append hn.exponent_ne_nil hn.exponent_digits hrest
  have hstops : Stops Char.isDigit (exponentChars n.exponent ++ rest) :=
    stops_exponentChars (stops_of_isNumberPart hrest fun c hc => (hpart c hc).1) rfl
  have hfraction := fractionDigits_append hn.fraction_digits hstops
    (stops_exponentChars (stops_of_isNumberPart hrest fun c hc => (hpart c hc).2) rfl)
  have hpoint :
      Stops Char.isDigit (fractionChars n.fraction ++ (exponentChars n.exponent ++ rest)) :=
    stops_fractionChars hstops rfl
  have hinteger :=
    integerDigits_append hn.integer_ne_nil hn.integer_digits hn.integer_head hpoint
  have hunsigned : unsignedNumber n.negative
      (n.integer ++ (fractionChars n.fraction ++ (exponentChars n.exponent ++ rest)))
        = some (n, rest) := by
    rw [unsignedNumber, Scan.bind_of_eq hinteger, Scan.bind_of_eq hfraction,
      Scan.bind_of_eq hexponent]
    rfl
  rw [Number.renderChars_eq, List.append_assoc, List.append_assoc, List.append_assoc]
  cases hneg : n.negative with
  | true =>
    rw [hneg] at hunsigned
    exact hunsigned
  | false =>
    rw [hneg] at hunsigned
    rw [if_neg Bool.false_ne_true, List.nil_append, scanNumber_of_stops ?_, hunsigned]
    refine stops_digits hn.integer_digits hn.integer_ne_nil (fun c hc => ?_) _
    simp [ne_of_isDigit hc (d := '-') rfl]

/-! ### Items -/

theorem spaces_of_stops {cs : List Char} (h : Stops isSpace cs) : spaces cs = some ((), cs) :=
  Scan.skipWhile_of_stops h

section Items

variable {α : Type} {close : Char} {item : Scan α} {write : α → List Char} {as : List α}

/-- Items are read up to the closing character if each of them is read up to what follows it. -/
theorem itemsUntil_intercalate (hcomma : close ≠ ',') (hspace : isSpace close = false)
    (hitem : ∀ a ∈ as, ∀ cs, (∃ c cs', cs = c :: cs' ∧ (c = ',' ∨ c = close)) →
      item (write a ++ cs) = some (a, cs))
    (hne : as ≠ []) {fuel : Nat} (hfuel : as.length ≤ fuel) (rest : List Char) :
    itemsUntil close item fuel ([','].intercalate (as.map write) ++ close :: rest)
      = some (as, rest) := by
  induction as generalizing fuel with
  | nil => exact absurd rfl hne
  | cons a as ih =>
    cases fuel with
    | zero => cases hfuel
    | succ fuel =>
      -- after an item, the closing character ends the list and a comma goes on with it
      have hfirst := hitem a List.mem_cons_self
      cases as with
      | nil =>
        have hread := hfirst (close :: rest) ⟨close, rest, rfl, .inr rfl⟩
        have hspaces : spaces (close :: rest) = some ((), close :: rest) :=
          spaces_of_stops (by simpa using hspace)
        rw [List.map_singleton, List.intercalate_singleton, itemsUntil, Scan.bind_of_eq hread,
          Scan.bind_of_eq hspaces, Scan.bind_of_eq (Scan.peek_apply _)]
        simp only [List.head?_cons, Option.some.injEq, hcomma, imp_self]
        rw [Scan.bind_of_eq (Scan.char_cons _ _)]
        rfl
      | cons b bs =>
        have hrest := ih (fun a ha => hitem a (List.mem_cons_of_mem _ ha)) (List.cons_ne_nil _ _)
          (Nat.le_of_succ_le_succ hfuel)
        have htext : [','].intercalate ((a :: b :: bs).map write) ++ close :: rest
            = write a ++ ',' :: ([','].intercalate ((b :: bs).map write) ++ close :: rest) := by
          simp [List.intercalate]
        have hread := hfirst (',' :: ([','].intercalate ((b :: bs).map write) ++ close :: rest))
          ⟨',', _, rfl, .inl rfl⟩
        rw [htext, itemsUntil, Scan.bind_of_eq hread]
        change (Scan.char ',' >>= fun _ => itemsUntil close item fuel >>= fun as =>
          pure (a :: as)) (',' :: ([','].intercalate ((b :: bs).map write) ++ close :: rest)) = _
        rw [Scan.bind_of_eq (Scan.char_cons _ _), Scan.bind_of_eq hrest]
        rfl

/-- There are no more items than characters, if each of them is written with some. -/
theorem length_le_intercalate (hwrite : ∀ a ∈ as, write a ≠ []) :
    as.length ≤ ([','].intercalate (as.map write)).length := by
  induction as with
  | nil => exact Nat.zero_le _
  | cons a as ih =>
    have hpos := List.length_pos_of_ne_nil (hwrite a List.mem_cons_self)
    have hrest := ih fun b hb => hwrite b (List.mem_cons_of_mem _ hb)
    cases as with
    | nil =>
      rw [List.map_singleton, List.intercalate_singleton]
      exact hpos
    | cons b bs =>
      have htext : [','].intercalate ((a :: b :: bs).map write)
          = write a ++ ',' :: [','].intercalate ((b :: bs).map write) := by
        simp [List.intercalate]
      rw [htext, List.length_append, List.length_cons (a := ','), List.length_cons]
      omega

/-- The same for any number of items. -/
theorem listUntil_intercalate (hcomma : close ≠ ',') (hspace : isSpace close = false)
    (hitem : ∀ a ∈ as, ∀ cs, (∃ c cs', cs = c :: cs' ∧ (c = ',' ∨ c = close)) →
      item (write a ++ cs) = some (a, cs))
    (hwrite : ∀ a ∈ as, ∃ c cs, write a = c :: cs ∧ isSpace c = false ∧ c ≠ close)
    (rest : List Char) :
    listUntil close item ([','].intercalate (as.map write) ++ close :: rest) = some (as, rest) := by
  cases as with
  | nil =>
    have hspaces : spaces (close :: rest) = some ((), close :: rest) :=
      spaces_of_stops (by simpa using hspace)
    change listUntil close item (close :: rest) = _
    rw [listUntil, Scan.bind_of_eq hspaces, Scan.bind_of_eq (Scan.peek_apply _), List.head?_cons,
      if_pos rfl, Scan.bind_of_eq (Scan.char_cons _ _)]
    rfl
  | cons a as =>
    obtain ⟨c, cs, hc, hcspace, hcclose⟩ := hwrite a List.mem_cons_self
    obtain ⟨more, hmore⟩ : ∃ more, [','].intercalate ((a :: as).map write) ++ close :: rest
        = c :: more := by
      cases as with
      | nil => exact ⟨_, by rw [List.map_singleton, List.intercalate_singleton, hc]; rfl⟩
      | cons b bs => exact ⟨_, by simp [List.intercalate, hc]; rfl⟩
    have hspaces : spaces (c :: more) = some ((), c :: more) :=
      spaces_of_stops (by simpa using hcspace)
    have hlength : (a :: as).length ≤ (c :: more).length + 1 := by
      have hle : (a :: as).length ≤ ([','].intercalate ((a :: as).map write)).length := by
        refine length_le_intercalate fun b hb => ?_
        obtain ⟨d, ds, hd, -⟩ := hwrite b hb
        exact hd ▸ List.cons_ne_nil d ds
      rw [← hmore, List.length_append]
      omega
    have hread := itemsUntil_intercalate hcomma hspace hitem (List.cons_ne_nil _ _) hlength rest
    rw [hmore] at hread ⊢
    rw [listUntil, Scan.bind_of_eq hspaces, Scan.bind_of_eq (Scan.peek_apply _), List.head?_cons,
      if_neg (by simpa using hcclose), Scan.bind_of_eq (Scan.rest_apply _), hread]

end Items

/-! ### Values -/

mutual

/-- A value whose numbers are all written as numbers are. -/
def IsSpelled : Json → Prop
  | .number n => n.IsSpelled
  | .array items => AreSpelled items
  | .object members => MembersAreSpelled members
  | _ => True

/-- Items whose numbers are all written as numbers are. -/
def AreSpelled : List Json → Prop
  | [] => True
  | v :: vs => IsSpelled v ∧ AreSpelled vs

/-- Members whose numbers are all written as numbers are. -/
def MembersAreSpelled : List (Option String × Json) → Prop
  | [] => True
  | (_, v) :: ms => IsSpelled v ∧ MembersAreSpelled ms

end

theorem AreSpelled.of_mem {vs : List Json} (h : AreSpelled vs) {v : Json} (hv : v ∈ vs) :
    v.IsSpelled := by
  induction vs with
  | nil => cases hv
  | cons w ws ih =>
    rcases List.mem_cons.1 hv with rfl | hv
    · exact h.1
    · exact ih h.2 hv

theorem MembersAreSpelled.of_mem {ms : Members} (h : MembersAreSpelled ms)
    {m : Option String × Json} (hm : m ∈ ms) : m.2.IsSpelled := by
  induction ms with
  | nil => cases hm
  | cons w ws ih =>
    rcases List.mem_cons.1 hm with rfl | hm
    · exact h.1
    · exact ih h.2 hm

theorem depth_le_depthItems {vs : List Json} {v : Json} (hv : v ∈ vs) :
    v.depth ≤ depthItems vs := by
  induction vs with
  | nil => cases hv
  | cons w ws ih =>
    rw [depthItems]
    rcases List.mem_cons.1 hv with rfl | hv
    · exact le_max_left _ _
    · exact (ih hv).trans (le_max_right _ _)

theorem depth_le_depthMembers {ms : Members} {m : Option String × Json} (hm : m ∈ ms) :
    m.2.depth ≤ depthMembers ms := by
  induction ms with
  | nil => cases hm
  | cons w ws ih =>
    rw [depthMembers]
    rcases List.mem_cons.1 hm with rfl | hm
    · exact le_max_left _ _
    · exact (ih hm).trans (le_max_right _ _)

/-- A key, the colon and a value. -/
def renderMember (m : Option String × Json) : List Char :=
  renderString m.1 ++ ':' :: renderChars m.2

theorem renderItems_eq_intercalate (vs : List Json) :
    renderItems vs = [','].intercalate (vs.map renderChars) := by
  induction vs with
  | nil => rfl
  | cons v vs ih =>
    cases vs with
    | nil => rw [renderItems, List.map_singleton, List.intercalate_singleton]
    | cons w ws =>
      rw [renderItems, ih]
      · simp [List.intercalate]
      · exact List.cons_ne_nil w ws

theorem renderMembers_eq_intercalate (ms : Members) :
    renderMembers ms = [','].intercalate (ms.map renderMember) := by
  induction ms with
  | nil => rfl
  | cons m ms ih =>
    cases ms with
    | nil => rw [renderMembers, List.map_singleton, List.intercalate_singleton]; rfl
    | cons w ws =>
      rw [renderMembers, ih]
      · simp [List.intercalate, renderMember]
      · exact List.cons_ne_nil w ws

/-- The first character of a number is a minus sign or a digit. -/
theorem Number.exists_renderChars_cons {n : Number} (hn : n.IsSpelled) :
    ∃ c cs, n.renderChars = c :: cs ∧ (c = '-' ∨ c.isDigit = true) := by
  rw [Number.renderChars_eq]
  cases n.negative with
  | true => exact ⟨'-', _, rfl, .inl rfl⟩
  | false =>
    obtain ⟨d, ds, hds⟩ := List.exists_cons_of_ne_nil hn.integer_ne_nil
    rw [hds]
    exact ⟨d, _, rfl, .inr (hn.integer_digits d (hds ▸ List.mem_cons_self))⟩

/-- A value is written with a character that is no space and closes nothing. -/
theorem exists_renderChars_cons {v : Json} (hv : v.IsSpelled) :
    ∃ c cs, v.renderChars = c :: cs ∧ isSpace c = false ∧ c ≠ ']' := by
  cases v with
  | null => exact ⟨'n', _, rfl, rfl, by decide⟩
  | bool b => cases b <;> exact ⟨_, _, rfl, rfl, by decide⟩
  | string s =>
    obtain ⟨body, hbody, -⟩ := exists_stringBody s
    exact ⟨'"', body, by rw [renderChars, hbody], rfl, by decide⟩
  | array items => exact ⟨'[', _, rfl, rfl, by decide⟩
  | object members => exact ⟨'{', _, rfl, rfl, by decide⟩
  | number n =>
    obtain ⟨c, cs, hcs, hc⟩ := Number.exists_renderChars_cons hv
    refine ⟨c, cs, hcs, ?_⟩
    rcases hc with rfl | hc
    · exact ⟨rfl, by decide⟩
    · refine ⟨?_, ne_of_isDigit hc rfl⟩
      simp [isSpace, ne_of_isDigit hc (d := ' ') rfl, ne_of_isDigit hc (d := '\n') rfl,
        ne_of_isDigit hc (d := '\t') rfl, ne_of_isDigit hc (d := '\r') rfl]

theorem member_renderMember {read : Scan Json} {m : Option String × Json} {rest : List Char}
    (hread : read (renderChars m.2 ++ rest) = some (m.2, rest)) :
    member read (renderMember m ++ rest) = some (m, rest) := by
  obtain ⟨body, hbody, hstring⟩ := exists_stringBody m.1
  have hspaces : ∀ cs, spaces ('"' :: cs) = some ((), '"' :: cs) := fun cs =>
    spaces_of_stops (by simp [isSpace])
  have hcolon : ∀ cs, spaces (':' :: cs) = some ((), ':' :: cs) := fun cs =>
    spaces_of_stops (by simp [isSpace])
  rw [renderMember, hbody, List.append_assoc, List.cons_append, List.cons_append, member,
    Scan.bind_of_eq (hspaces _), Scan.bind_of_eq (Scan.char_cons _ _),
    Scan.bind_of_eq (hstring _), Scan.bind_of_eq (hcolon _),
    Scan.bind_of_eq (Scan.char_cons _ _), Scan.bind_of_eq hread]
  rfl

/-- What follows an item is no part of a number. -/
theorem stops_of_separator {close : Char} (hclose : isNumberPart close = false) {cs : List Char}
    (h : ∃ c cs', cs = c :: cs' ∧ (c = ',' ∨ c = close)) : Stops isNumberPart cs := by
  obtain ⟨c, cs', rfl, rfl | rfl⟩ := h
  · simp [isNumberPart]
  · simpa using hclose

/-- A number is read where a value is looked for. -/
theorem value_number {n : Number} {c : Char} {cs rest : List Char}
    (hc : c = '-' ∨ c.isDigit = true) (hread : scanNumber (c :: cs) = some (n, rest))
    (bound : Nat) : value (bound + 1) (c :: cs) = some (.number n, rest) := by
  -- nothing else begins with a minus sign or a digit
  have hne : ∀ d, d.isDigit = false → d ≠ '-' → c ≠ d := by
    rintro d hd hminus rfl
    rcases hc with hc | hc
    · exact hminus hc
    · exact ne_of_isDigit hc hd rfl
  have hspaces : spaces (c :: cs) = some ((), c :: cs) := by
    refine spaces_of_stops ?_
    simp [isSpace, hne ' ' rfl (by decide), hne '\n' rfl (by decide), hne '\t' rfl (by decide),
      hne '\r' rfl (by decide)]
  rw [value, Scan.bind_of_eq hspaces, Scan.bind_of_eq (Scan.peek_apply _)]
  simp only [List.head?_cons, Option.some.injEq, hne 'n' rfl (by decide),
    hne 't' rfl (by decide), hne 'f' rfl (by decide), hne '"' rfl (by decide),
    hne '[' rfl (by decide), hne '{' rfl (by decide), imp_self]
  rw [Scan.bind_of_eq hread]
  rfl

/-- A value is read as it was written, if what follows does not belong to it. -/
theorem value_renderChars {v : Json} {bound : Nat} (hdepth : v.depth < bound) (hv : v.IsSpelled)
    {rest : List Char} (hrest : Stops isNumberPart rest) :
    value bound (v.renderChars ++ rest) = some (v, rest) := by
  -- on the bound, since items are read with a smaller one than their list
  induction bound generalizing v rest with
  | zero => exact absurd hdepth (Nat.not_lt_zero _)
  | succ bound ih =>
    cases v with
    | null => rfl
    | bool b => cases b <;> rfl
    | number n =>
      obtain ⟨c, cs, hcs, hc⟩ := Number.exists_renderChars_cons hv
      have hread := scanNumber_renderChars hv hrest
      rw [hcs] at hread
      rw [renderChars, hcs]
      exact value_number hc hread bound
    | string s =>
      obtain ⟨body, hbody, hstring⟩ := exists_stringBody s
      rw [renderChars, hbody]
      change (stringBody >>= fun s => pure (Json.string s)) (body ++ rest) = _
      rw [Scan.bind_of_eq (hstring rest)]
      rfl
    | array items =>
      have hitems : listUntil ']' (value bound) (renderItems items ++ ']' :: rest)
          = some (items, rest) := by
        rw [renderItems_eq_intercalate]
        refine listUntil_intercalate (by decide) rfl (fun v hmem cs hcs => ?_) (fun v hmem => ?_)
          rest
        · refine ih ?_ (AreSpelled.of_mem hv hmem) (stops_of_separator rfl hcs)
          exact (depth_le_depthItems hmem).trans_lt (Nat.lt_of_succ_lt_succ hdepth)
        · exact exists_renderChars_cons (AreSpelled.of_mem hv hmem)
      rw [renderChars, List.append_assoc]
      change (listUntil ']' (value bound) >>= fun items => pure (Json.array items))
        (renderItems items ++ ']' :: rest) = _
      rw [Scan.bind_of_eq hitems]
      rfl
    | object members =>
      have hmembers : listUntil '}' (member (value bound)) (renderMembers members ++ '}' :: rest)
          = some (members, rest) := by
        rw [renderMembers_eq_intercalate]
        refine listUntil_intercalate (by decide) rfl (fun m hmem cs hcs => ?_) (fun m hmem => ?_)
          rest
        · refine member_renderMember (ih ?_ (MembersAreSpelled.of_mem hv hmem)
            (stops_of_separator rfl hcs))
          exact (depth_le_depthMembers hmem).trans_lt (Nat.lt_of_succ_lt_succ hdepth)
        · obtain ⟨body, hbody, -⟩ := exists_stringBody m.1
          exact ⟨'"', _, by rw [renderMember, hbody]; rfl, rfl, by decide⟩
      rw [renderChars, List.append_assoc]
      change (listUntil '}' (member (value bound)) >>= fun members => pure (Json.object members))
        (renderMembers members ++ '}' :: rest) = _
      rw [Scan.bind_of_eq hmembers]
      rfl

mutual

/-- A value nests no deeper than it has characters. -/
theorem depth_le_length : ∀ v : Json, v.depth ≤ v.renderChars.length
  | .null => Nat.zero_le _
  | .bool _ => Nat.zero_le _
  | .number _ => Nat.zero_le _
  | .string _ => Nat.zero_le _
  | .array items => by
    have h := depthItems_le_length items
    simp only [depth, renderChars, List.length_append, List.length_cons, List.length_nil]
    omega
  | .object members => by
    have h := depthMembers_le_length members
    simp only [depth, renderChars, List.length_append, List.length_cons, List.length_nil]
    omega

theorem depthItems_le_length : ∀ vs : List Json, depthItems vs ≤ (renderItems vs).length
  | [] => Nat.zero_le _
  | [v] => by
    have h := depth_le_length v
    simp only [depthItems, renderItems]
    omega
  | v :: w :: vs => by
    have h := depth_le_length v
    have hs := depthItems_le_length (w :: vs)
    rw [depthItems, renderItems, List.length_append, List.length_cons]
    · omega
    · exact List.cons_ne_nil w vs

theorem depthMembers_le_length : ∀ ms : Members, depthMembers ms ≤ (renderMembers ms).length
  | [] => Nat.zero_le _
  | [(k, v)] => by
    have h := depth_le_length v
    simp only [depthMembers, renderMembers, List.length_append, List.length_cons]
    omega
  | (k, v) :: m :: ms => by
    have h := depth_le_length v
    have hs := depthMembers_le_length (m :: ms)
    rw [depthMembers, renderMembers]
    · simp only [List.length_append, List.length_cons]
      omega
    · exact List.cons_ne_nil m ms

end

/-- **A value that was written is read as itself.** -/
theorem parse?_render {v : Json} (hv : v.IsSpelled) : parse? v.render = some v := by
  have hread : value (v.renderChars.length + 1) (v.renderChars ++ []) = some (v, []) :=
    value_renderChars (Nat.lt_succ_of_le (depth_le_length v)) hv (Text.stops_nil _)
  rw [List.append_nil] at hread
  rw [parse?, render, String.toList_ofList, Scan.all?, Scan.bind_of_eq hread]
  rfl

/-! ### Controls -/

/-- A character that is no control below the blank. -/
def IsPrinted (c : Char) : Prop := 0x20 ≤ c.toNat

instance (c : Char) : Decidable (IsPrinted c) := inferInstanceAs (Decidable (0x20 ≤ c.toNat))

theorem isPrinted_of_isDigit {c : Char} (h : c.isDigit = true) : IsPrinted c := by
  have hle := (Char.isDigit_iff_toNat.1 h).1
  exact le_trans (by decide) hle

theorem isPrinted_hexChar (d : Fin 16) : IsPrinted (Text.hexChar d) := by
  decide +revert

/-- A character of a string is written without controls. -/
theorem isPrinted_of_mem_escapeChar {c d : Char} (h : d ∈ escapeChar c) : IsPrinted d := by
  obtain ⟨e, he, -, hc⟩ | ⟨hcontrol, hc⟩ | ⟨-, -, hle, hc⟩ := escapeChar_cases c
  · have hletters : ∀ e ∈ ['"', '\\', 'b', 'f', 'n', 'r', 't'], IsPrinted e := by
      simp [IsPrinted]
    rw [hc] at h
    rcases List.mem_cons.1 h with rfl | h
    · decide
    · exact List.mem_singleton.1 h ▸ hletters e he
  · have hcode : c.toNat < 16 ^ 4 := by omega
    obtain ⟨ds, hchars, -⟩ := Text.exists_hexPadded hcode
    rw [hc, hchars] at h
    rcases List.mem_cons.1 h with rfl | h
    · decide
    rcases List.mem_cons.1 h with rfl | h
    · decide
    obtain ⟨e, -, rfl⟩ := List.mem_map.1 h
    exact isPrinted_hexChar e
  · rw [hc] at h
    exact List.mem_singleton.1 h ▸ hle

theorem isPrinted_of_mem_renderString {k : Option String} {c : Char} (h : c ∈ renderString k) :
    IsPrinted c := by
  cases k with
  | none =>
    have hall : ∀ d ∈ renderString none, IsPrinted d := by simp [IsPrinted, renderString]
    exact hall c h
  | some s =>
    rw [renderString, List.cons_append, List.mem_cons, List.mem_append, List.mem_flatMap,
      List.mem_singleton] at h
    obtain rfl | ⟨d, -, hd⟩ | rfl := h
    · decide
    · exact isPrinted_of_mem_escapeChar hd
    · decide

theorem Number.isPrinted_of_mem_renderChars {n : Number} (hn : n.IsSpelled) {c : Char}
    (h : c ∈ n.renderChars) : IsPrinted c := by
  rw [Number.renderChars_eq, List.mem_append, List.mem_append, List.mem_append] at h
  obtain h | h | h | h := h
  · have hminus : c = '-' := by
      split at h
      · exact List.mem_singleton.1 h
      · cases h
    exact hminus ▸ by decide
  · exact isPrinted_of_isDigit (hn.integer_digits c h)
  · unfold fractionChars at h
    split at h
    · cases h
    · rcases List.mem_cons.1 h with rfl | h
      · decide
      · exact isPrinted_of_isDigit (hn.fraction_digits c h)
  · have hdigits := hn.exponent_digits
    rcases he : n.exponent with - | ⟨- | -, ds⟩
    · rw [he] at h
      cases h
    · rw [he] at h
      rcases List.mem_cons.1 h with rfl | h
      · decide
      · exact isPrinted_of_isDigit (hdigits _ he c h)
    · rw [he] at h
      rcases List.mem_cons.1 h with rfl | h
      · decide
      rcases List.mem_cons.1 h with rfl | h
      · decide
      · exact isPrinted_of_isDigit (hdigits _ he c h)

mutual

/-- A value is written without controls. -/
theorem isPrinted_of_mem_renderChars : ∀ {v : Json}, v.IsSpelled → ∀ {c : Char},
    c ∈ v.renderChars → IsPrinted c
  | .null, _, c, h => by
    simp only [renderChars, List.mem_cons, List.not_mem_nil, or_false] at h
    rcases h with rfl | rfl | rfl | rfl <;> decide
  | .bool true, _, c, h => by
    simp only [renderChars, List.mem_cons, List.not_mem_nil, or_false] at h
    rcases h with rfl | rfl | rfl | rfl <;> decide
  | .bool false, _, c, h => by
    simp only [renderChars, List.mem_cons, List.not_mem_nil, or_false] at h
    rcases h with rfl | rfl | rfl | rfl | rfl <;> decide
  | .number _, hv, _, h => Number.isPrinted_of_mem_renderChars hv h
  | .string _, _, _, h => isPrinted_of_mem_renderString h
  | .array items, hv, c, h => by
    rw [renderChars, List.cons_append, List.mem_cons, List.mem_append, List.mem_singleton] at h
    obtain rfl | h | rfl := h
    · decide
    · exact isPrinted_of_mem_renderItems hv h
    · decide
  | .object members, hv, c, h => by
    rw [renderChars, List.cons_append, List.mem_cons, List.mem_append, List.mem_singleton] at h
    obtain rfl | h | rfl := h
    · decide
    · exact isPrinted_of_mem_renderMembers hv h
    · decide

theorem isPrinted_of_mem_renderItems : ∀ {vs : List Json}, AreSpelled vs → ∀ {c : Char},
    c ∈ renderItems vs → IsPrinted c
  | [], _, _, h => absurd h List.not_mem_nil
  | [_], hv, _, h => isPrinted_of_mem_renderChars hv.1 h
  | v :: w :: vs, hv, c, h => by
    rw [renderItems, List.mem_append, List.mem_cons] at h
    · obtain h | rfl | h := h
      · exact isPrinted_of_mem_renderChars hv.1 h
      · decide
      · exact isPrinted_of_mem_renderItems hv.2 h
    · exact List.cons_ne_nil w vs

theorem isPrinted_of_mem_renderMembers : ∀ {ms : Members}, MembersAreSpelled ms → ∀ {c : Char},
    c ∈ renderMembers ms → IsPrinted c
  | [], _, _, h => absurd h List.not_mem_nil
  | [(k, v)], hv, c, h => by
    rw [renderMembers, List.mem_append, List.mem_cons] at h
    obtain h | rfl | h := h
    · exact isPrinted_of_mem_renderString h
    · decide
    · exact isPrinted_of_mem_renderChars hv.1 h
  | (k, v) :: m :: ms, hv, c, h => by
    rw [renderMembers, List.mem_append, List.mem_append, List.mem_cons, List.mem_cons] at h
    · obtain (h | rfl | h) | rfl | h := h
      · exact isPrinted_of_mem_renderString h
      · decide
      · exact isPrinted_of_mem_renderChars hv.1 h
      · decide
      · exact isPrinted_of_mem_renderMembers hv.2 h
    · exact List.cons_ne_nil m ms

end

end ScenePreview.Json
