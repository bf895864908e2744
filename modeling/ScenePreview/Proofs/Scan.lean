import Mathlib
import ScenePreview.Text.Hex
import ScenePreview.Text.Scan

/-!
# Scanning what was written

What a scanner does on a text that begins with what it looks for.  A number that was written with
a fixed width, and a digit in base sixteen, are read as what they are.

## Main definitions

* `Stops` — what a scanner that skips characters does not skip.

## Main results

* `Scan.bind_of_eq` — one scanner after the other.
* `Scan.digits_append` — digits are read up to where they stop.
* `padded_spec` — a padded number has its width, and its digits stand for it.
* `exists_hexPadded` — the same in base sixteen.
-/

namespace ScenePreview.Text

/-! ### Scanners -/

/-- The first character, if there is one, fails a test. -/
def Stops (q : Char → Bool) (cs : List Char) : Prop := ∀ c ∈ cs.head?, q c = false

@[simp] theorem stops_nil (q : Char → Bool) : Stops q [] := by
  simp [Stops]

@[simp] theorem stops_cons (q : Char → Bool) (c : Char) (cs : List Char) :
    Stops q (c :: cs) ↔ q c = false := by
  simp [Stops]

theorem dropWhile_of_stops {q : Char → Bool} {cs : List Char} (h : Stops q cs) :
    cs.dropWhile q = cs := by
  cases cs with
  | nil => rfl
  | cons c cs => rw [List.dropWhile_cons_of_neg (by simpa using h)]

theorem takeWhile_of_stops {q : Char → Bool} {cs : List Char} (h : Stops q cs) :
    cs.takeWhile q = [] := by
  cases cs with
  | nil => rfl
  | cons c cs => rw [List.takeWhile_cons_of_neg (by simpa using h)]

namespace Scan

variable {α β : Type} {p : Scan α} {f : α → Scan β} {a : α} {cs rest : List Char}

/-- One scanner after the other. -/
theorem bind_of_eq (h : p cs = some (a, rest)) : (p >>= f) cs = f a rest := by
  change (p cs).bind (fun r => f r.1 r.2) = _
  rw [h]
  rfl

@[simp] theorem peek_apply (cs : List Char) : peek cs = some (cs.head?, cs) := rfl

@[simp] theorem rest_apply (cs : List Char) : Scan.rest cs = some (cs, cs) := rfl

@[simp] theorem char_cons (c : Char) (cs : List Char) : char c (c :: cs) = some ((), cs) :=
  if_pos rfl

theorem satisfy_cons {q : Char → Bool} {c : Char} (h : q c = true) (cs : List Char) :
    satisfy q (c :: cs) = some (c, cs) := if_pos h

theorem skipWhile_of_stops {q : Char → Bool} (h : Stops q cs) :
    skipWhile q cs = some ((), cs) := by
  rw [skipWhile, dropWhile_of_stops h]

theorem blanks_of_stops (h : Stops isBlank cs) : blanks cs = some ((), cs) := skipWhile_of_stops h

/-- Digits are read up to where they stop, or as many as are asked for. -/
theorem digits_append {n : Nat} {ds : List Char} (hne : ds ≠ []) (hds : ∀ c ∈ ds, c.isDigit = true)
    (hlen : ds.length = n ∨ ds.length ≤ n ∧ Stops Char.isDigit rest) :
    digits n (ds ++ rest) = some (ds, rest) := by
  have htake : ((ds ++ rest).take n).takeWhile Char.isDigit = ds := by
    rcases hlen with rfl | ⟨hle, hstops⟩
    · rw [List.take_left, List.takeWhile_eq_self_iff.2 hds]
    · obtain ⟨k, rfl⟩ := Nat.exists_eq_add_of_le hle
      have hnone : (rest.take k).takeWhile Char.isDigit = [] := by
        refine takeWhile_of_stops fun c hc => hstops c ?_
        cases k with
        | zero => cases hc
        | succ k => rwa [List.head?_take, if_neg (Nat.succ_ne_zero k)] at hc
      rw [List.take_length_add_append, List.takeWhile_append_of_pos hds, hnone, List.append_nil]
  unfold digits
  rw [htake]
  cases ds with
  | nil => exact absurd rfl hne
  | cons d ds => simp

end Scan

/-! ### Digits -/

/-- A number with its zeros has its width, and its digits stand for it. -/
theorem padded_spec {width n : Nat} (hwidth : 0 < width) (hn : n < 10 ^ width) :
    (padded width n).length = width ∧ (∀ c ∈ padded width n, c.isDigit = true) ∧
      ofDigits (padded width n) = n := by
  have hlen : (digits n).length ≤ width :=
    (Nat.length_toDigits_le_iff (by decide) hwidth).2 hn
  refine ⟨?_, ?_, ?_⟩
  · rw [padded, List.length_append, List.length_replicate]
    omega
  · intro c hc
    rw [padded, List.mem_append, List.mem_replicate] at hc
    rcases hc with ⟨-, rfl⟩ | hc
    · rfl
    · exact Nat.isDigit_of_mem_toDigits (by decide) (by decide) hc
  · -- zeros on the left count for nothing
    change Nat.ofDigitChars 10 (padded width n) 0 = n
    rw [padded, Nat.ofDigitChars_append, Nat.ofDigitChars_replicate_zero, Nat.mul_zero]
    exact Nat.ofDigitChars_toDigits (by decide) (by decide)

@[simp] theorem hexValue?_hexChar (d : Fin 16) : hexValue? (hexChar d) = some d := by
  decide +revert

theorem mapM_hexValue?_hexChar (ds : List (Fin 16)) :
    (ds.map hexChar).mapM hexValue? = some ds := by
  induction ds with
  | nil => rfl
  | cons d ds ih => simp [ih]

/-- The digits of a number in base sixteen stand for it. -/
theorem exists_hexPadded {width n : Nat} (hn : n < 16 ^ width) :
    ∃ ds : List (Fin 16), hexPadded width n = ds.map hexChar ∧ ds.length = width ∧
      ofHexDigits ds = n := by
  induction width generalizing n with
  | zero => exact ⟨[], rfl, rfl, by simp at hn; exact hn.symm⟩
  | succ width ih =>
    obtain ⟨ds, hchars, hlen, hvalue⟩ := ih (n := n / 16) (by rw [Nat.pow_succ] at hn; omega)
    refine ⟨ds ++ [Fin.ofNat 16 n], ?_, ?_, ?_⟩
    · rw [hexPadded, hchars, List.map_append]
      rfl
    · rw [List.length_append, hlen]
      rfl
    · rw [ofHexDigits, List.foldl_append, ← ofHexDigits, hvalue]
      change 16 * (n / 16) + n % 16 = n
      omega

end ScenePreview.Text
