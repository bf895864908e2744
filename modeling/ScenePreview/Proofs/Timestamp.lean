import ScenePreview.Proofs.Scan
import ScenePreview.Timestamp

/-!
# Reading back points in time

A point in time is written with numbers of a fixed width and with no more digits after the second
than it needs.  The reader takes blanks, shorter numbers and any offset.  Here it is said that the
reader gives back the point in time that was written, to the nanosecond.

## Main definitions

* `Timestamp.HasPlainYear` — the points in time whose year has four digits and no sign.

## Main results

* `Timestamp.scanFraction_renderFraction` — the fraction of a second is read as it was written.
* `Timestamp.parse?_render` — **so is a point in time with a plain year.**
-/

namespace ScenePreview

open Text (Scan Stops)

/-! ### Numbers of a fixed width -/

namespace Text

theorem not_isBlank_of_isDigit {c : Char} (h : c.isDigit = true) : isBlank c = false := by
  obtain ⟨hlow, hhigh⟩ := Char.isDigit_iff_toNat.1 h
  have hzero : '0'.toNat = 48 := rfl
  have hnine : '9'.toNat = 57 := rfl
  rw [hzero] at hlow
  rw [hnine] at hhigh
  simp only [isBlank, Bool.or_eq_false_iff, Bool.and_eq_false_iff, decide_eq_false_iff_not,
    beq_eq_false_iff_ne]
  omega

theorem stops_isBlank_padded {width n : Nat} (hwidth : 0 < width) (hn : n < 10 ^ width)
    (rest : List Char) : Stops isBlank (padded width n ++ rest) := by
  obtain ⟨hlen, hdigits, -⟩ := padded_spec hwidth hn
  obtain ⟨d, ds, hds⟩ := List.exists_cons_of_length_pos (hlen ▸ hwidth)
  rw [hds, List.cons_append, stops_cons]
  exact not_isBlank_of_isDigit (hdigits d (hds ▸ List.mem_cons_self))

theorem Scan.digits_padded {width n : Nat} (hwidth : 0 < width) (hn : n < 10 ^ width)
    (rest : List Char) :
    Scan.digits width (padded width n ++ rest) = some (padded width n, rest) := by
  obtain ⟨hlen, hdigits, -⟩ := padded_spec hwidth hn
  refine Scan.digits_append ?_ hdigits (.inl hlen)
  exact List.ne_nil_of_length_pos (by omega)

/-- A number is read as it was written, up to its width. -/
theorem Scan.number_padded {width n : Nat} (hwidth : 0 < width) (hn : n < 10 ^ width)
    (rest : List Char) : Scan.number width (padded width n ++ rest) = some (n, rest) := by
  have hvalue := (padded_spec hwidth hn).2.2
  rw [Scan.number, Scan.bind_of_eq (Scan.blanks_of_stops (stops_isBlank_padded hwidth hn rest)),
    Scan.bind_of_eq (Scan.digits_padded hwidth hn rest), hvalue]
  rfl

end Text

/-! ### Points in time -/

namespace Date

theorem daysInMonth_le (year : Int) (month : Nat) : daysInMonth year month ≤ 31 := by
  unfold daysInMonth
  split_ifs <;> decide

end Date

theorem Moment.minutesEarlier_zero {m : Moment} (h : m.IsValid) : m.minutesEarlier 0 = m := by
  obtain ⟨-, hhour, hminute, -⟩ := h
  have hearly : ¬ (m.hour : Int) * 60 + m.minute - 0 < 0 := by omega
  have hlate : ¬ 1440 ≤ (m.hour : Int) * 60 + m.minute - 0 := by omega
  have hh : (((m.hour : Int) * 60 + m.minute - 0) / 60).toNat = m.hour := by omega
  have hm : (((m.hour : Int) * 60 + m.minute - 0) % 60).toNat = m.minute := by omega
  simp only [minutesEarlier, if_neg hearly, if_neg hlate, hh, hm]

namespace Timestamp

theorem separator_cons {c : Char} (hc : Text.isBlank c = false) (rest : List Char) :
    separator c (c :: rest) = some ((), rest) := by
  have hblanks : Scan.blanks (c :: rest) = some ((), c :: rest) :=
    Scan.blanks_of_stops (by simpa using hc)
  rw [separator, Scan.bind_of_eq hblanks, Scan.char_cons]

/-- A year from 0 to 9999 is read as it was written. -/
theorem scanYear_renderYear {year : Int} (h : 0 ≤ year ∧ year ≤ 9999) (rest : List Char) :
    scanYear (renderYear year ++ rest) = some (year, rest) := by
  have hn : year.toNat < 10 ^ 4 := by omega
  obtain ⟨hlen, hdigits, hvalue⟩ := Text.padded_spec (by decide : 0 < 4) hn
  have hread := Scan.digits_padded (by decide : 0 < 4) hn rest
  have hblanks := Scan.blanks_of_stops (Text.stops_isBlank_padded (by decide : 0 < 4) hn rest)
  rw [renderYear, if_pos h, scanYear, Scan.bind_of_eq hblanks,
    Scan.bind_of_eq (Scan.peek_apply _)]
  -- the first character is a digit, so it is no sign
  have hpos : 0 < (Text.padded 4 year.toNat).length := by omega
  obtain ⟨d, ds, hds⟩ := List.exists_cons_of_length_pos hpos
  have hd := hdigits d (hds ▸ List.mem_cons_self)
  have hne : d ≠ '-' ∧ d ≠ '+' := by
    constructor <;> (rintro rfl; exact absurd hd (by decide))
  have hhead : (Text.padded 4 year.toNat ++ rest).head? = some d := by
    rw [hds]
    rfl
  rw [hhead]
  simp only [Option.some.injEq, hne.1, hne.2, imp_self]
  rw [Scan.bind_of_eq hread, hvalue, Int.toNat_of_nonneg h.1]
  rfl

/-- Digits of a fraction are read as it was written, however many of the nine they are. -/
theorem scanFraction_point {width k : Nat} (hwidth : 0 < width) (hle : width ≤ 9)
    (hk : k < 10 ^ width) {rest : List Char} (hrest : Stops Char.isDigit rest) :
    scanFraction ('.' :: (Text.padded width k ++ rest)) = some (k * 10 ^ (9 - width), rest) := by
  obtain ⟨hlen, hdigits, hvalue⟩ := Text.padded_spec hwidth hk
  have hread : Scan.digits 9 (Text.padded width k ++ rest) = some (Text.padded width k, rest) :=
    Scan.digits_append (List.ne_nil_of_length_pos (by omega)) hdigits (.inr ⟨by omega, hrest⟩)
  change (Scan.char '.' >>= fun _ => Scan.digits 9 >>= fun ds =>
    Scan.skipWhile Char.isDigit >>= fun _ =>
      pure (Text.ofDigits ds * Nat.pow 10 (9 - ds.length)))
        ('.' :: (Text.padded width k ++ rest)) = _
  rw [Scan.bind_of_eq (Scan.char_cons _ _), Scan.bind_of_eq hread,
    Scan.bind_of_eq (Scan.skipWhile_of_stops hrest), hvalue, hlen]
  rfl

/-- The fraction of a second is read as it was written. -/
theorem scanFraction_renderFraction {nano : Nat} (hnano : nano < 1000000000) (rest : List Char) :
    scanFraction (renderFraction nano ++ 'Z' :: rest) = some (nano, 'Z' :: rest) := by
  have hstops : Stops Char.isDigit ('Z' :: rest) := by simp
  unfold renderFraction
  split_ifs with hzero hmilli hmicro
  · rw [hzero]
    rfl
  · rw [List.cons_append, scanFraction_point (by decide) (by decide) (by omega) hstops]
    congr 2
    omega
  · rw [List.cons_append, scanFraction_point (by decide) (by decide) (by omega) hstops]
    congr 2
    omega
  · rw [List.cons_append, scanFraction_point (by decide) (by decide) (by omega) hstops]
    congr 2
    omega

/-- A point in time whose year has four digits and no sign. -/
def HasPlainYear (t : Timestamp) : Prop := 0 ≤ t.utc.date.year ∧ t.utc.date.year ≤ 9999

instance (t : Timestamp) : Decidable t.HasPlainYear :=
  inferInstanceAs (Decidable (0 ≤ t.utc.date.year ∧ t.utc.date.year ≤ 9999))

theorem scanDate_append {d : Date} (hd : d.IsValid) (hyear : 0 ≤ d.year ∧ d.year ≤ 9999)
    (rest : List Char) :
    scanDate (renderYear d.year ++ '-' :: (Text.padded 2 d.month ++
      '-' :: (Text.padded 2 d.day ++ rest))) = some (d, rest) := by
  obtain ⟨-, -, -, hmonth, -, hday⟩ := hd
  have hmonth' : d.month < 10 ^ 2 := by omega
  have hday' : d.day < 10 ^ 2 := by
    have := Date.daysInMonth_le d.year d.month
    omega
  rw [scanDate, Scan.bind_of_eq (scanYear_renderYear hyear _),
    Scan.bind_of_eq (separator_cons rfl _),
    Scan.bind_of_eq (Scan.number_padded (by decide) hmonth' _),
    Scan.bind_of_eq (separator_cons rfl _),
    Scan.bind_of_eq (Scan.number_padded (by decide) hday' _)]
  rfl

theorem ofUtc?_utc (t : Timestamp) : ofUtc? t.utc = some t := dif_pos t.valid

/-- A point in time with a plain year is read as it was written, with nothing left. -/
theorem scan_renderChars {t : Timestamp} (h : t.HasPlainYear) :
    scan t.renderChars = some (t, []) := by
  have hvalid := t.valid
  obtain ⟨hdate, hhour, hminute, hsecond, hnano⟩ := hvalid
  have htext : t.renderChars = renderYear t.utc.date.year ++ '-' :: (Text.padded 2 t.utc.date.month
      ++ '-' :: (Text.padded 2 t.utc.date.day ++ 'T' :: (Text.padded 2 t.utc.hour
      ++ ':' :: (Text.padded 2 t.utc.minute ++ ':' :: (Text.padded 2 t.utc.second
      ++ (renderFraction t.utc.nano ++ ['Z'])))))) := by
    simp [renderChars]
  have hoffset : scanOffset ['Z'] = some (0, []) := rfl
  have hend : Scan.blanks [] = some ((), []) := rfl
  rw [htext, scan, Scan.bind_of_eq (scanDate_append hdate h _),
    Scan.bind_of_eq (Scan.satisfy_cons rfl _),
    Scan.bind_of_eq (Scan.number_padded (by decide) (by omega) _),
    Scan.bind_of_eq (separator_cons rfl _),
    Scan.bind_of_eq (Scan.number_padded (by decide) (by omega) _),
    Scan.bind_of_eq (separator_cons rfl _),
    Scan.bind_of_eq (Scan.number_padded (by decide) (by omega) _),
    Scan.bind_of_eq (scanFraction_renderFraction hnano []), Scan.bind_of_eq hoffset,
    Scan.bind_of_eq hend]
  rw [if_pos t.valid, Moment.minutesEarlier_zero t.valid, ofUtc?_utc]
  rfl

/-- **A point in time with a plain year is read as it was written**, to the nanosecond. -/
theorem parse?_render {t : Timestamp} (h : t.HasPlainYear) : parse? t.render = some t := by
  rw [parse?, render, String.toList_ofList, Scan.all?, scan_renderChars h]

end Timestamp

end ScenePreview
