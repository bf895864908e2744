import ScenePreview.Proofs.Summary
import ScenePreview.Proofs.Utf8
import ScenePreview.WorkDir

/-!
# Messages of one line

The message of a failure is put together from texts of its own and from texts that come from
elsewhere: command lines, paths, errors of the system and what a tool wrote.  Of what a tool wrote
it shows a summary, and a path within an error of the system is quoted; both are one line for
whatever they are made of.  The rest is taken over as it is.

## Main definitions

* `Text.IsOneLine` — a text without a line feed.
* `Failure.IsPlain` — a failure whose message is one line.

## Main results

* `Text.isOneLine_quoted` — quoted bytes are one line, whatever they are.
* `WorkDir.isOneLine_of_createFrom` — why there is no working directory is said in one line.
* `Failure.isOneLine_message_iff` — **what has to be one line for the message to be one.**
-/

namespace ScenePreview

/-! ### Texts of one line -/

namespace Text

/-- A text without a line feed. -/
def IsOneLine (s : String) : Prop := '\n' ∉ s.toList

instance (s : String) : Decidable (IsOneLine s) := inferInstanceAs (Decidable (_ ∉ _))

@[simp] theorem isOneLine_append (s t : String) :
    IsOneLine (s ++ t) ↔ IsOneLine s ∧ IsOneLine t := by
  simp [IsOneLine]

@[simp] theorem isOneLine_ofList (cs : List Char) : IsOneLine (String.ofList cs) ↔ '\n' ∉ cs := by
  rw [IsOneLine, String.toList_ofList]

theorem isOneLine_intercalate {separator : String} (hseparator : IsOneLine separator)
    {parts : List String} (h : ∀ part ∈ parts, IsOneLine part) :
    IsOneLine (separator.intercalate parts) := by
  rw [IsOneLine, String.toList_intercalate]
  intro hmem
  rcases mem_of_mem_intercalate hmem with hmem | ⟨cs, hcs, hmem⟩
  · exact hseparator hmem
  · obtain ⟨part, hpart, rfl⟩ := List.mem_map.1 hcs
    exact h part hpart hmem

/-! ### Numbers -/

theorem newline_notMem_toDigits {base : Nat} (hbase : 1 < base) (n : Nat) :
    '\n' ∉ Nat.toDigits base n := by
  induction n using Nat.strongRecOn with
  | ind n ih =>
    rw [Nat.toDigits_eq_if hbase]
    split_ifs with hn
    · simp
    · have hrest : '\n' ∉ Nat.toDigits base (n / base) :=
        ih (n / base) (Nat.div_lt_self (by omega) hbase)
      simpa using hrest

theorem isOneLine_decimal (n : Nat) : IsOneLine (decimal n) := by
  rw [decimal, isOneLine_ofList]
  exact newline_notMem_toDigits (by decide) n

theorem isOneLine_signedDecimal (i : Int) : IsOneLine (signedDecimal i) := by
  cases i with
  | ofNat n => exact isOneLine_decimal n
  | negSucc n =>
    rw [signedDecimal, isOneLine_append]
    exact ⟨by decide, isOneLine_decimal (n + 1)⟩

/-! ### Quoted text -/

theorem newline_notMem_quoteChar (c : Char) : '\n' ∉ quoteChar c := by
  unfold quoteChar
  split_ifs with _ _ _ hnewline hmark
  · decide
  · decide
  · decide
  · decide
  · simpa using Ne.symm hnewline
  · have hdigits : '\n' ∉ hexDigits c.toNat := newline_notMem_toDigits (by decide) c.toNat
    simpa using hdigits
  · simpa using Ne.symm hnewline

theorem newline_notMem_quoteByte (b : UInt8) : '\n' ∉ quoteByte b := by
  have hdigit : ∀ d : Fin 16, (hexChar d).toUpper ≠ '\n' := by decide
  simp [quoteByte, hexByte, (hdigit _).symm]

/-- Quoted bytes have no line feed, whatever they are. -/
theorem newline_notMem_quoteBytes (bytes : List UInt8) : '\n' ∉ quoteBytes bytes := by
  induction bytes using Utf8.headInduction with
  | nil => simp [quoteBytes]
  | @char b bs c rest h ih =>
    rw [quoteBytes]
    split <;> simp_all [newline_notMem_quoteChar]
  | @flaw b bs rest h ih =>
    rw [quoteBytes]
    split <;> simp_all [newline_notMem_quoteByte]
  | @cutOff b bs h =>
    rw [quoteBytes]
    split <;> simp_all [newline_notMem_quoteByte]

theorem isOneLine_quoted (bytes : List UInt8) : IsOneLine (quoted bytes) := by
  rw [quoted, isOneLine_ofList]
  have hbytes : '\n' ∉ quoteBytes bytes := newline_notMem_quoteBytes bytes
  simpa using hbytes

end Text

open Text

theorem isOneLine_summary (stderr : String) : IsOneLine (summary stderr) :=
  newline_notMem_summary stderr

theorem isOneLine_outputNote (stderr : String) : IsOneLine (outputNote stderr) := by
  unfold outputNote
  split_ifs
  · decide
  · rw [isOneLine_append, isOneLine_append]
    exact ⟨⟨by decide, isOneLine_summary stderr⟩, by decide⟩

/-! ### Errors of the system -/

theorem OsError.isOneLine_message (e : OsError) : IsOneLine e.message := by
  rw [message, isOneLine_append, isOneLine_append, isOneLine_append]
  refine ⟨⟨⟨?_, by decide⟩, isOneLine_decimal e.code⟩, by decide⟩
  cases e <;> decide

/-- Two actions after each other report what one of them does. -/
theorem IoError.isOneLine_of_bind {α β : Type} {x : Except IoError α} {f : α → Except IoError β}
    {e : IoError} (h : x >>= f = .error e) (hx : ∀ e, x = .error e → IsOneLine e.message)
    (hf : ∀ a e, f a = .error e → IsOneLine e.message) : IsOneLine e.message := by
  cases x with
  | error e' =>
    cases h
    exact hx _ rfl
  | ok a => exact hf a e h

namespace FileTree

variable {t : FileTree} {cwd : Place} {p : Path}

theorem isOneLine_of_resolve {follow : Bool} (e : IoError)
    (h : t.resolve cwd follow p = .error e) : IsOneLine e.message := by
  unfold resolve at h
  split at h
  · cases h
    decide
  · split at h
    · cases h
      exact OsError.isOneLine_message _
    · split at h
      · cases h
        exact OsError.isOneLine_message _
      · split at h
        · cases h
        · cases h
          exact OsError.isOneLine_message _

theorem isOneLine_of_stat (e : IoError) (h : t.stat cwd p = .error e) : IsOneLine e.message := by
  refine IoError.isOneLine_of_bind h isOneLine_of_resolve fun target e hthrow => ?_
  cases target with
  | entry place entry => cases hthrow
  | vacant dir name =>
    cases hthrow
    exact OsError.isOneLine_message _

theorem isOneLine_of_readDir (e : IoError) (h : t.readDir cwd p = .error e) :
    IsOneLine e.message := by
  refine IoError.isOneLine_of_bind h isOneLine_of_stat fun found e hthrow => ?_
  split at hthrow
  · cases hthrow
  · cases hthrow
    exact OsError.isOneLine_message _

theorem isOneLine_of_makeDir (e : IoError) (h : t.makeDir cwd p = .error e) :
    IsOneLine e.message := by
  refine IoError.isOneLine_of_bind h isOneLine_of_resolve fun target e hthrow => ?_
  cases target with
  | entry place entry =>
    cases hthrow
    exact OsError.isOneLine_message _
  | vacant dir name => cases hthrow

end FileTree

namespace WorkDir

theorem isOneLine_errorAt {e : IoError} (h : IsOneLine e.message) (p : Path) :
    IsOneLine (errorAt e p).message := by
  unfold errorAt IoError.message
  rw [isOneLine_append, isOneLine_append]
  exact ⟨⟨h, by decide⟩, isOneLine_quoted p.bytes⟩

/-- Why there is no working directory is said in one line: the path is quoted. -/
theorem isOneLine_of_createFrom {h : Host} {namePrefix : String} {root : Option Path}
    {suffixes : Nat → String} {n attempts : Nat} {e : IoError}
    (hc : createFrom h namePrefix root suffixes n attempts = .error e) : IsOneLine e.message := by
  induction attempts generalizing n with
  | zero =>
    cases hc
    exact isOneLine_errorAt (by decide) _
  | succ attempts ih =>
    rw [createFrom] at hc
    split at hc
    · cases hc
    · exact ih hc
    · next hmake =>
      cases hc
      exact isOneLine_errorAt (FileTree.isOneLine_of_makeDir _ hmake) _

end WorkDir

/-! ### Failures -/

namespace Failure

/-- A failure whose message is one line.  What the message takes over as it is has to be one
line; what it takes from the output of a tool need not be. -/
def IsPlain : Failure → Prop
  | .launch _ command reason => IsOneLine command ∧ IsOneLine reason
  | .artifactNotFound dir reason _ => IsOneLine dir.display ∧ IsOneLine reason
  | .workingDirectory cause => IsOneLine cause.message
  | .sliceExtraction _ | .render .. | .runInFlight => True

/-- **What has to be one line for the message to be one.** -/
theorem isOneLine_message_iff (f : Failure) : IsOneLine f.message ↔ f.IsPlain := by
  cases f with
  | launch stage command reason =>
    have htitle : IsOneLine stage.title := by cases stage <;> decide
    have hopening : IsOneLine "Failed to start " := by decide
    have hcommand : IsOneLine " process with command \"" := by decide
    have hreason : IsOneLine "\": " := by decide
    have hadvice : IsOneLine ". Check if the tool or environment launcher is on your PATH." := by
      decide
    unfold message
    simp only [isOneLine_append, htitle, hopening, hcommand, hreason, hadvice, true_and, and_true,
      IsPlain]
  | sliceExtraction stderr =>
    have hopening : IsOneLine "Slice extraction failed: " := by decide
    unfold message
    simp only [isOneLine_append, hopening, isOneLine_summary, and_true, IsPlain]
  | render exitCode stderr =>
    have hopening : IsOneLine "Rendering failed with exit code " := by decide
    have hcolon : IsOneLine ": " := by decide
    unfold message
    simp only [isOneLine_append, hopening, hcolon, isOneLine_signedDecimal, isOneLine_summary,
      and_true, IsPlain]
  | artifactNotFound dir reason stderr =>
    have hopening : IsOneLine "Rendering finished, but no video file was found in " := by decide
    have hcolon : IsOneLine ": " := by decide
    unfold message
    simp only [isOneLine_append, hopening, hcolon, isOneLine_outputNote, true_and, and_true,
      IsPlain]
  | workingDirectory cause =>
    have hopening : IsOneLine "Failed to create working directory: " := by decide
    unfold message
    simp only [isOneLine_append, hopening, true_and, IsPlain]
  | runInFlight => exact iff_of_true (by decide) trivial

end Failure

end ScenePreview
