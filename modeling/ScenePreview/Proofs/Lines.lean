import Mathlib
import ScenePreview.Text.Blank

/-!
# Trimmed text and lines

Blanks are taken off both ends of a text, and a text is cut into lines.  A line feed is a blank
itself, and so is the carriage return that may stand before it.  So it makes no difference to a
trimmed line whether that carriage return was counted as part of it.

## Main definitions

* `Text.IsTrimmed` — characters without a blank at either end.
* `Text.HasVisible` — characters of which one is not blank.
* `Text.IsLastVisible` — the last of some lines that is not blank.

## Main results

* `Text.exists_eq_append_trimChars` — trimming takes off blanks and nothing else.
* `Text.trim_trim` — trimming twice is trimming once.
* `Text.hasVisible_iff_exists_line` — a text is blank exactly if all of its lines are.
* `Text.find?_trimmed_lines` — what a search for the last line that is not blank finds.
-/

namespace ScenePreview.Text

/-! ### Trimmed text -/

/-- Characters without a blank at either end. -/
structure IsTrimmed (cs : List Char) : Prop where
  /-- The first one is not blank. -/
  head : ∀ c, cs.head? = some c → isBlank c = false
  /-- The last one is not blank. -/
  last : ∀ c, cs.getLast? = some c → isBlank c = false

theorem trimEndChars_eq_rdropWhile (cs : List Char) : trimEndChars cs = cs.rdropWhile isBlank := rfl

theorem isTrimmed_trimChars (cs : List Char) : IsTrimmed (trimChars cs) := by
  constructor
  · intro c hc
    -- the first character is that of the text without its leading blanks
    have hstart : trimChars cs <+: trimStartChars cs := List.rdropWhile_prefix isBlank _
    obtain ⟨rest, hrest⟩ := List.head?_eq_some_iff.1 hc
    have hhead : (cs.dropWhile isBlank).head? = some c := by
      obtain ⟨after, hafter⟩ := hstart
      rw [hrest] at hafter
      rw [show cs.dropWhile isBlank = trimStartChars cs from rfl, ← hafter]
      rfl
    have hnot := List.head?_dropWhile_not isBlank cs
    rw [hhead] at hnot
    simpa using hnot
  · intro c hc
    have hlast : (cs.dropWhile isBlank).rdropWhile isBlank ≠ [] := by
      intro hnil
      have : trimChars cs = [] := hnil
      simp [this] at hc
    have hnot := List.rdropWhile_last_not isBlank _ hlast
    have hc' : ((cs.dropWhile isBlank).rdropWhile isBlank).getLast hlast = c := by
      have hget := List.getLast?_eq_some_getLast hlast
      exact Option.some.inj (hget.symm.trans hc)
    rw [hc'] at hnot
    simpa using hnot

/-- Trimmed characters stay as they are. -/
theorem IsTrimmed.trimChars_eq {cs : List Char} (h : IsTrimmed cs) : trimChars cs = cs := by
  have hstart : trimStartChars cs = cs := by
    rw [trimStartChars]
    cases cs with
    | nil => rfl
    | cons c cs => rw [List.dropWhile_cons_of_neg (by simp [h.head c rfl])]
  rw [trimChars, hstart, trimEndChars_eq_rdropWhile]
  rcases List.eq_nil_or_concat' cs with rfl | ⟨before, c, rfl⟩
  · rfl
  · exact List.rdropWhile_concat_neg _ _ _ (by simp [h.last c])

theorem trim_trim (s : String) : trim (trim s) = trim s := by
  have h := (isTrimmed_trimChars s.toList).trimChars_eq
  rw [trim, trim, String.toList_ofList, h]

theorem isTrimmed_trim (s : String) : IsTrimmed (trim s).toList := by
  rw [trim, String.toList_ofList]
  exact isTrimmed_trimChars s.toList

/-- Trimming takes off blanks at both ends, and nothing else. -/
theorem exists_eq_append_trimChars (cs : List Char) :
    ∃ before after, cs = before ++ trimChars cs ++ after ∧
      (∀ c ∈ before, isBlank c = true) ∧ ∀ c ∈ after, isBlank c = true := by
  refine ⟨cs.takeWhile isBlank, (cs.dropWhile isBlank).rtakeWhile isBlank, ?_,
    fun c => List.mem_takeWhile_imp, fun c => List.mem_rtakeWhile_imp⟩
  calc cs
    _ = cs.takeWhile isBlank ++ cs.dropWhile isBlank := List.takeWhile_append_dropWhile.symm
    _ = _ := by
      rw [List.append_assoc]
      exact congrArg _ (List.rdropWhile_append_rtakeWhile ..).symm

/-- A blank at the end makes no difference to trimmed text. -/
theorem trimChars_concat {c : Char} (hc : isBlank c = true) (cs : List Char) :
    trimChars (cs ++ [c]) = trimChars cs := by
  simp only [trimChars, trimStartChars, trimEndChars_eq_rdropWhile, List.dropWhile_append]
  by_cases hcs : (cs.dropWhile isBlank).isEmpty = true
  · rw [if_pos hcs, List.dropWhile_cons_of_pos hc, List.isEmpty_iff.1 hcs]
    rfl
  · rw [if_neg hcs, List.rdropWhile_concat_pos _ _ _ hc]

/-! ### Blank text -/

/-- Characters of which one is not blank. -/
def HasVisible (cs : List Char) : Prop := ∃ c ∈ cs, isBlank c = false

instance (cs : List Char) : Decidable (HasVisible cs) :=
  inferInstanceAs (Decidable (∃ c ∈ cs, isBlank c = false))

@[simp] theorem not_hasVisible_nil : ¬ HasVisible [] := by
  simp [HasVisible]

theorem not_hasVisible_iff (cs : List Char) :
    ¬ HasVisible cs ↔ ∀ c ∈ cs, isBlank c = true := by
  simp [HasVisible]

theorem HasVisible.mono {cs cs' : List Char} (h : HasVisible cs) (hsub : cs ⊆ cs') :
    HasVisible cs' := by
  obtain ⟨c, hc, hvisible⟩ := h
  exact ⟨c, hsub hc, hvisible⟩

/-- Nothing is left of a blank text, and something of any other. -/
theorem trimChars_eq_nil_iff (cs : List Char) : trimChars cs = [] ↔ ¬ HasVisible cs := by
  obtain ⟨before, after, heq, hbefore, hafter⟩ := exists_eq_append_trimChars cs
  rw [not_hasVisible_iff]
  constructor
  · intro hnil c hc
    rw [heq, hnil, List.append_nil] at hc
    rcases List.mem_append.1 hc with hc | hc
    · exact hbefore c hc
    · exact hafter c hc
  · intro hblank
    refine List.eq_nil_iff_forall_not_mem.2 fun c hc => ?_
    -- the first character that is left would not be blank
    obtain ⟨d, ds, hd⟩ := List.exists_cons_of_ne_nil (List.ne_nil_of_mem hc)
    have hnot := (isTrimmed_trimChars cs).head d (by rw [hd]; rfl)
    rw [hblank d (by rw [heq, hd]; simp)] at hnot
    cases hnot

theorem trim_eq_empty_iff (s : String) : trim s = "" ↔ ¬ HasVisible s.toList := by
  rw [← trimChars_eq_nil_iff, trim, ← String.toList_inj, String.toList_ofList]
  rfl

/-! ### Pieces of a text -/

section Pieces

variable {α : Type} {sep l : List α} {ls : List (List α)}

/-- A piece of a text that was put together is a part of it. -/
theorem infix_intercalate (h : l ∈ ls) : l <:+: sep.intercalate ls := by
  induction ls with
  | nil => cases h
  | cons l' ls ih =>
    by_cases hnil : ls = []
    · obtain rfl : l = l' := by simpa [hnil] using h
      rw [hnil, List.intercalate_singleton]
    · rw [List.intercalate_cons_of_ne_nil hnil]
      rcases List.mem_cons.1 h with rfl | h
      · rw [List.append_assoc]
        exact (List.prefix_append ..).isInfix
      · exact (ih h).trans (List.suffix_append ..).isInfix

/-- What is in a text that was put together is in a piece of it, or stands between two. -/
theorem mem_of_mem_intercalate {a : α} (h : a ∈ sep.intercalate ls) :
    a ∈ sep ∨ ∃ l ∈ ls, a ∈ l := by
  induction ls with
  | nil => simp at h
  | cons l ls ih =>
    by_cases hnil : ls = []
    · rw [hnil, List.intercalate_singleton] at h
      exact .inr ⟨l, List.mem_cons_self, h⟩
    · rw [List.intercalate_cons_of_ne_nil hnil, List.mem_append, List.mem_append] at h
      rcases h with (h | h) | h
      · exact .inr ⟨l, List.mem_cons_self, h⟩
      · exact .inl h
      · rcases ih h with h | ⟨l', hl', h⟩
        · exact .inl h
        · exact .inr ⟨l', List.mem_cons_of_mem _ hl', h⟩

theorem notMem_of_mem_splitOn [DecidableEq α] {a : α} {xs : List α} (h : l ∈ xs.splitOn a) :
    a ∉ l := by
  induction xs generalizing l with
  | nil =>
    obtain rfl : l = [] := by simpa using h
    exact List.not_mem_nil
  | cons x xs ih =>
    rw [List.splitOn_cons_eq_if_modifyHead] at h
    by_cases hx : x = a
    · rw [if_pos (beq_iff_eq.2 hx)] at h
      rcases List.mem_cons.1 h with rfl | h
      · exact List.not_mem_nil
      · exact ih h
    · -- the first piece has one character more
      rw [if_neg (by simpa using hx)] at h
      obtain ⟨part, parts, hparts⟩ := List.exists_cons_of_ne_nil (List.splitOn_ne_nil a xs)
      rw [hparts, List.modifyHead_cons] at h
      rw [hparts] at ih
      rcases List.mem_cons.1 h with rfl | h
      · exact List.not_mem_cons_of_ne_of_not_mem (Ne.symm hx) (ih List.mem_cons_self)
      · exact ih (List.mem_cons_of_mem _ h)

theorem infix_of_mem_splitOn [DecidableEq α] {a : α} {xs : List α} (h : l ∈ xs.splitOn a) :
    l <:+: xs := by
  have hinfix : l <:+: [a].intercalate (xs.splitOn a) := infix_intercalate h
  rwa [List.intercalate_splitOn] at hinfix

end Pieces

/-! ### Lines -/

theorem isBlank_newline : isBlank '\n' = true := by decide

/-- A text is blank exactly if all of its lines are. -/
theorem hasVisible_iff_exists_line (cs : List Char) :
    HasVisible cs ↔ ∃ line ∈ cs.splitOn '\n', HasVisible line := by
  constructor
  · rintro ⟨c, hc, hvisible⟩
    have hcut : ['\n'].intercalate (cs.splitOn '\n') = cs := List.intercalate_splitOn '\n'
    rw [← hcut] at hc
    rcases mem_of_mem_intercalate hc with hc | ⟨line, hline, hc⟩
    · -- the line feed is blank itself
      rw [List.mem_singleton.1 hc, isBlank_newline] at hvisible
      cases hvisible
    · exact ⟨line, hline, c, hc, hvisible⟩
  · rintro ⟨line, hline, hvisible⟩
    exact hvisible.mono (infix_of_mem_splitOn hline).subset

/-- The last of some lines that is not blank. -/
def IsLastVisible (lines : List (List Char)) (line : List Char) : Prop :=
  ∃ before after, lines = before ++ line :: after ∧ HasVisible line ∧
    ∀ l ∈ after, ¬ HasVisible l

/-- If some lines are not all blank, then one is the last that is not. -/
theorem exists_isLastVisible {lines : List (List Char)} (h : ∃ line ∈ lines, HasVisible line) :
    ∃ line, IsLastVisible lines line := by
  induction lines with
  | nil =>
    obtain ⟨line, hline, -⟩ := h
    cases hline
  | cons l lines ih =>
    by_cases hlater : ∃ line ∈ lines, HasVisible line
    · obtain ⟨line, before, after, rfl, hvisible⟩ := ih hlater
      exact ⟨line, l :: before, after, rfl, hvisible⟩
    · obtain ⟨line, hline, hvisible⟩ := h
      rcases List.mem_cons.1 hline with rfl | hline
      · exact ⟨line, [], lines, rfl, hvisible, fun l hl h => hlater ⟨l, hl, h⟩⟩
      · exact absurd ⟨line, hline, hvisible⟩ hlater

/-- A search from the end among trimmed lines finds the last one that is not blank. -/
theorem IsLastVisible.find?_eq {lines : List (List Char)} {line : List Char}
    (h : IsLastVisible lines line) :
    (lines.reverse.map trimChars).find? (· ≠ []) = some (trimChars line) := by
  obtain ⟨before, after, rfl, hvisible, hafter⟩ := h
  have hblank : (after.reverse.map trimChars).find? (· ≠ []) = none := by
    simpa [trimChars_eq_nil_iff] using hafter
  have hline : trimChars line ≠ [] := fun hnil => (trimChars_eq_nil_iff line).1 hnil hvisible
  simp only [List.reverse_append, List.reverse_cons, List.map_append, List.find?_append, hblank]
  simp [hline]

theorem trimChars_reverse_dropReturn (acc : List Char) :
    trimChars (dropReturn acc).reverse = trimChars acc.reverse := by
  unfold dropReturn
  split
  · next cs => rw [List.reverse_cons, trimChars_concat (by decide)]
  · rfl

/-- A search among trimmed lines does not see carriage returns, nor whether the text ends in a
line feed. -/
theorem find?_trimmed_linesFrom (acc cs : List Char) :
    ((linesFrom acc cs).reverse.map trimChars).find? (· ≠ []) =
      ((cs.splitOnPPrepend (· == '\n') acc).reverse.map trimChars).find? (· ≠ []) := by
  induction cs generalizing acc with
  | nil =>
    cases acc with
    | nil => rfl
    | cons c acc => rfl
  | cons c cs ih =>
    rw [linesFrom]
    by_cases hc : c = '\n'
    · rw [if_pos hc, List.splitOnPPrepend_cons_pos (p := (· == '\n')) (beq_iff_eq.2 hc),
        ← List.splitOnPPrepend_nil_right]
      simp only [List.reverse_cons, List.map_append, List.find?_append, ih, List.map_cons,
        trimChars_reverse_dropReturn]
    · rw [if_neg hc, List.splitOnPPrepend_cons_neg (p := (· == '\n')) (beq_eq_false_iff_ne.2 hc),
        ih]

theorem find?_trimmed_lines (cs : List Char) :
    ((linesFrom [] cs).reverse.map trimChars).find? (· ≠ []) =
      ((cs.splitOn '\n').reverse.map trimChars).find? (· ≠ []) := by
  rw [find?_trimmed_linesFrom, List.splitOnPPrepend_nil_right, List.splitOn_eq_splitOnP]

end ScenePreview.Text
