import Mathlib
import ScenePreview.CommandLine.Arguments

/-!
# Commands and the words that spell them

Words are read from left to right, and the script, which has no name, is held back until another
word or the end shows that its text is complete.  Here it is said that nothing depends on where a
word stands: whatever the texts are that a command is given, and in whatever order their words
stand, the command is read as it was spelled.

## Main definitions

* `Grammar.Spells` — the words by which a grammar takes an argument with a text.
* `Arguments.Reads` — a reader after arguments with their texts.
* `ToolWording`, `RenderWording`, `PlanWording` — what is said to a command, and the words that say
  it.

## Main results

* `Arguments.Reads.step`, `Arguments.Reads.run` — one word, and any words.
* `Arguments.value?_of_perm` — a text is found wherever its word stands.
* `Command.parse_spelled` — **a command is read as it was spelled, in any order of its words.**
-/

namespace ScenePreview

/-! ### Words -/

/-- The words by which a grammar takes an argument with a text. -/
inductive Grammar.Spells (g : Grammar) : Argument → String → String → Prop where
  /-- A name with the text attached to it. -/
  | named (name : String) {a : Argument} {v : String} (hlong : g.long.lookup name = some a)
      (hname : '=' ∉ name.toList) (htakes : a.takesValue = true) (hscript : a ≠ .file)
      (hcheck : a.check v = .ok ()) : Spells g a v ("--" ++ name ++ "=" ++ v)
  /-- A name alone. -/
  | switch (hlong : g.long.lookup "stdin" = some .stdin) : Spells g .stdin "" "--stdin"
  /-- The text of the script, which is not taken for a name. -/
  | script {v : String} (hscript : g.positional = some .file) (hne : v ≠ "")
      (hhyphen : v.toList.head? ≠ some '-') : Spells g .file v v

namespace Arguments

variable {g : Grammar} {s : Arguments} {a : Argument} {v word : String}
  {ps : List (Argument × String)}

theorem step_of_hyphens (htrailing : s.trailing = false) {c : Char} {cs : List Char}
    (hword : word.toList = '-' :: '-' :: c :: cs) : s.step g word = s.long g (c :: cs) := by
  simp only [step, htrailing, hword, Bool.false_eq_true, if_false]

/-- A word without a hyphen in front is the script, unless a value is expected. -/
theorem step_of_script (htrailing : s.trailing = false) (hexpecting : s.expecting = false)
    (hword : word.toList.head? ≠ some '-') : s.step g word = s.positional g word := by
  rw [step, if_neg (by simp [htrailing])]
  split
  · next h => simp [h] at hword
  · next h => simp [h] at hword
  · next h => simp [h] at hword
  · split
    · next hexpects =>
      rw [hexpecting] at hexpects
      cases hexpects
    · rfl

/-- The name ends at the first equals sign, and any others belong to the text. -/
theorem long_of_attached {name : String} (hlong : g.long.lookup name = some a)
    (hname : '=' ∉ name.toList) (htakes : a.takesValue = true) :
    s.long g (name.toList ++ '=' :: v.toList) = s.option a (some v) := by
  have hall : ∀ c ∈ name.toList, decide (c ≠ '=') = true := by
    intro c hc
    rw [decide_eq_true_eq]
    rintro rfl
    exact hname hc
  have htake : (name.toList ++ '=' :: v.toList).takeWhile (· ≠ '=') = name.toList := by
    rw [List.takeWhile_append_of_pos hall, List.takeWhile_cons_of_neg (by simp), List.append_nil]
  have hdrop : (name.toList ++ '=' :: v.toList).dropWhile (· ≠ '=') = '=' :: v.toList := by
    rw [List.dropWhile_append_of_pos hall, List.dropWhile_cons_of_neg (by simp)]
  simp only [long, htake, hdrop, String.ofList_toList, hlong, htakes, if_true]

/-! ### Readers -/

/-- A reader that has looked at all texts so far. -/
def settled (ps : List (Argument × String)) : Arguments :=
  { given := ps, positionalRead := ps.any (·.1 == .file) }

/-- A reader after arguments with their texts.  It has looked at all of them, or it still holds
back the last one, which is the script. -/
inductive Reads : List (Argument × String) → Arguments → Prop where
  /-- All texts have been looked at. -/
  | settled (ps : List (Argument × String)) : Reads ps (settled ps)
  /-- The script is held back. -/
  | heldBack (ps : List (Argument × String)) {v : String} (hne : v ≠ "") :
      Reads (ps ++ [(.file, v)])
        { given := ps, pending := some (.file, some v), positionalRead := true }

theorem any_eq_false_iff : ps.any (·.1 == a) = false ↔ a ∉ ps.map Prod.fst := by
  simp only [List.any_eq_false, beq_iff_eq, List.mem_map, not_exists, not_and]

theorem accept_of_new (hnew : a ∉ s.given.map Prod.fst) (hcheck : a.check v = .ok ()) :
    s.accept a (some v) = .ok { s with given := s.given ++ [(a, v)] } := by
  have hhas : s.has a = false := any_eq_false_iff.2 hnew
  simp only [accept, hhas, Bool.false_eq_true, if_false, hcheck]
  rfl

theorem accept_settled (hnew : a ∉ ps.map Prod.fst) (hscript : a ≠ .file)
    (hcheck : a.check v = .ok ()) :
    (settled ps).accept a (some v) = .ok (settled (ps ++ [(a, v)])) := by
  rw [accept_of_new hnew hcheck, settled, settled]
  simp [hscript]

/-- What is held back is looked at, and is as good as the rest. -/
theorem Reads.settle_eq (h : Reads ps s) (hnodup : (ps.map Prod.fst).Nodup) :
    s.settle = .ok (.settled ps) := by
  cases h with
  | settled => rfl
  | @heldBack ps v hne =>
    have hnew : .file ∉ ps.map Prod.fst := by
      rw [List.map_append, List.nodup_append] at hnodup
      intro hmem
      exact hnodup.2.2 _ hmem _ (List.mem_singleton_self _) rfl
    have hcheck : Argument.file.check v = .ok () := if_neg hne
    have haccept := accept_of_new (s := { given := ps, positionalRead := true }) hnew hcheck
    simp only [settle, haccept, Arguments.settled]
    simp

theorem Reads.waits_for_nothing (h : Reads ps s) : s.trailing = false ∧ s.expecting = false := by
  cases h <;> exact ⟨rfl, rfl⟩

theorem Reads.positionalRead_eq (h : Reads ps s) (hnew : .file ∉ ps.map Prod.fst) :
    s.positionalRead = false := by
  cases h with
  | settled => exact any_eq_false_iff.2 hnew
  | heldBack => simp at hnew

/-- One word: the reader has its text, after all others. -/
theorem Reads.step (h : Reads ps s) (hword : g.Spells a v word)
    (hnodup : (ps.map Prod.fst).Nodup) (hnew : a ∉ ps.map Prod.fst) :
    ∃ s', s.step g word = .ok s' ∧ Reads (ps ++ [(a, v)]) s' := by
  obtain ⟨htrailing, hexpecting⟩ := h.waits_for_nothing
  have hsettle := h.settle_eq hnodup
  cases hword with
  | named name hlong hname htakes hscript hcheck =>
    refine ⟨_, ?_, .settled _⟩
    have htext : ("--" ++ name ++ "=" ++ v).toList
        = '-' :: '-' :: (name.toList ++ '=' :: v.toList) := by simp
    obtain ⟨c, cs, hcs⟩ := List.exists_cons_of_ne_nil
      (by simp : name.toList ++ '=' :: v.toList ≠ [])
    rw [step_of_hyphens htrailing (htext.trans (by rw [hcs])), ← hcs,
      long_of_attached hlong hname htakes, option, hsettle]
    exact accept_settled hnew hscript hcheck
  | switch hlong =>
    refine ⟨_, ?_, .settled _⟩
    have hname : s.long g "stdin".toList = s.flag .stdin := by
      simp [long, hlong, Argument.takesValue]
    rw [step_of_hyphens htrailing rfl]
    refine hname.trans ?_
    rw [flag, hsettle]
    exact accept_settled hnew (by decide) rfl
  | script hscript hne hhyphen =>
    refine ⟨_, ?_, .heldBack ps hne⟩
    rw [step_of_script htrailing hexpecting hhyphen, positional, hscript]
    simp only [h.positionalRead_eq hnew, hsettle]
    rfl

/-- Any words: the reader has their texts, in their order. -/
theorem Reads.run {words : List String} {qs : List (Argument × String)} (h : Reads ps s)
    (hwords : List.Forall₂ (fun w p => g.Spells p.1 p.2 w) words qs)
    (hnodup : ((ps ++ qs).map Prod.fst).Nodup) :
    ∃ s', words.foldlM (fun (s : Arguments) w => s.step g w) s = .ok s' ∧
      Reads (ps ++ qs) s' := by
  induction hwords generalizing ps s with
  | nil =>
    rw [List.append_nil]
    exact ⟨s, rfl, h⟩
  | @cons word p words qs hword hrest ih =>
    rw [List.append_cons] at hnodup ⊢
    have hsofar : ((ps ++ [p]).map Prod.fst).Nodup := by
      rw [List.map_append] at hnodup
      exact (List.nodup_append.1 hnodup).1
    rw [List.map_append, List.nodup_append] at hsofar
    have hnew : p.1 ∉ ps.map Prod.fst := fun hmem =>
      hsofar.2.2 _ hmem _ (List.mem_singleton_self _) rfl
    obtain ⟨s₁, hstep, h₁⟩ := h.step hword hsofar.1 hnew
    obtain ⟨s', hrun, h'⟩ := ih h₁ hnodup
    refine ⟨s', ?_, h'⟩
    rw [List.foldlM_cons, hstep]
    exact hrun

theorem read_of_spells {words : List String}
    (hwords : List.Forall₂ (fun w p => g.Spells p.1 p.2 w) words ps)
    (hnodup : (ps.map Prod.fst).Nodup) : read g words = .ok (settled ps) := by
  obtain ⟨s, hrun, h⟩ := (Reads.settled []).run hwords hnodup
  have hinit : settled [] = {} := rfl
  rw [hinit] at hrun
  rw [read, hrun]
  exact h.settle_eq hnodup

/-! ### Texts -/

/-- Where no argument is repeated, its text is found wherever it stands. -/
theorem value?_eq_some_iff (hnodup : (s.given.map Prod.fst).Nodup) :
    s.value? a = some v ↔ (a, v) ∈ s.given := by
  have hkey : ∀ p, s.given.find? (·.1 == a) = some p → p.1 = a := by
    intro p hp
    have h := List.find?_some hp
    exact beq_iff_eq.1 h
  rw [value?, Option.map_eq_some_iff]
  constructor
  · rintro ⟨p, hp, rfl⟩
    obtain rfl := hkey p hp
    exact List.mem_of_find?_eq_some hp
  · intro hmem
    have hsome : (s.given.find? (·.1 == a)).isSome = true :=
      List.find?_isSome.2 ⟨(a, v), hmem, beq_self_eq_true a⟩
    obtain ⟨p, hp⟩ := Option.isSome_iff_exists.1 hsome
    have hsame : p = (a, v) :=
      List.inj_on_of_nodup_map hnodup (List.mem_of_find?_eq_some hp) hmem (hkey p hp)
    exact ⟨p, hp, by rw [hsame]⟩

theorem has_eq_isSome (s : Arguments) (a : Argument) : s.has a = (s.value? a).isSome := by
  rw [has, value?, Option.isSome_map, List.isSome_find?]

/-- The arguments of a list that have a text, with their texts. -/
def entries (as : List Argument) (text : Argument → Option String) :
    List (Argument × String) :=
  as.filterMap fun a => (text a).map fun v => (a, v)

variable {as : List Argument} {text : Argument → Option String}

theorem mem_entries_iff : (a, v) ∈ entries as text ↔ a ∈ as ∧ text a = some v := by
  simp only [entries, List.mem_filterMap, Option.map_eq_some_iff, Prod.mk.injEq]
  constructor
  · rintro ⟨a, hmem, v, htext, rfl, rfl⟩
    exact ⟨hmem, htext⟩
  · rintro ⟨hmem, htext⟩
    exact ⟨a, hmem, v, htext, rfl, rfl⟩

theorem nodup_entries (has : as.Nodup) : ((entries as text).map Prod.fst).Nodup := by
  have hsub : ((entries as text).map Prod.fst).Sublist as := by
    induction as with
    | nil => exact List.Sublist.refl _
    | cons a as ih =>
      have hrest := ih (List.nodup_cons.1 has).2
      rw [entries, List.filterMap_cons]
      cases text a with
      | none => exact hrest.cons a
      | some v => exact hrest.cons_cons a
  exact has.sublist hsub

end Arguments

/-! ### Wordings -/

namespace Argument

/-- The word that gives an argument its text. -/
def word : Argument → String → String
  | .file, v => v
  | .line, v => "--line=" ++ v
  | .stdin, _ => "--stdin"
  | .language, v => "--language=" ++ v
  | .format, v => "--format=" ++ v
  | .environment, v => "--env=" ++ v
  | .transformer, v => "--transformer=" ++ v
  | .help, _ => "--help"
  | .version, _ => "--version"

/-- The words of the arguments that have a text, each with its text. -/
def words (as : List Argument) (text : Argument → Option String) : List String :=
  as.filterMap fun a => (text a).map a.word

theorem words_eq_map (as : List Argument) (text : Argument → Option String) :
    words as text = (Arguments.entries as text).map fun p => p.1.word p.2 := by
  simp only [words, Arguments.entries, List.map_filterMap, Option.map_map]
  rfl

theorem erase_words {as : List Argument} {text : Argument → Option String} {a : Argument}
    {v : String} (h : text a = some v) :
    (words (a :: as) text).erase (a.word v) = words as text := by
  rw [words, List.filterMap_cons, h]
  exact List.erase_cons_head _ _

theorem lineNumber?_of_digits {s : String} {n : Nat} (hdigits : Text.ofDigits? s.toList = some n)
    (hn : n < 4294967296) : lineNumber? s = some (UInt32.ofNat n) := by
  unfold lineNumber?
  -- a sign is no digit
  split
  · next h => simp [h, Text.ofDigits?] at hdigits
  · next h => simp [h, Text.ofDigits?] at hdigits
  · simp [hdigits, hn]

/-- A number is read as it is written. -/
theorem lineNumber?_toString (n : UInt32) : lineNumber? (toString n.toNat) = some n := by
  have hall : ∀ c ∈ Nat.toDigits 10 n.toNat, c.isDigit = true := fun c hc =>
    Nat.isDigit_of_mem_toDigits (by decide) (by decide) hc
  have hvalue : Text.ofDigits (Nat.toDigits 10 n.toNat) = n.toNat :=
    Nat.ofDigitChars_toDigits (by decide) (by decide)
  have hdigits : Text.ofDigits? (toString n.toNat).toList = some n.toNat := by
    rw [Nat.toString_eq_repr, Nat.toList_repr, Text.ofDigits?,
      if_pos ⟨Nat.toDigits_ne_nil, List.all_eq_true.2 hall⟩, hvalue]
  rw [lineNumber?_of_digits hdigits n.toNat_lt, UInt32.ofNat_toNat]

end Argument

/-- What is said about tools.  The transformer is a path, which is not empty. -/
structure ToolWording where
  /-- The environment. -/
  environment : Option String
  /-- The transformer. -/
  transformer : Option String
  transformer_ne : ∀ t ∈ transformer, t ≠ ""

namespace ToolWording

/-- The texts of the arguments. -/
def text (t : ToolWording) : Argument → Option String
  | .environment => t.environment
  | .transformer => t.transformer
  | _ => none

/-- What is meant; a variable may name the environment. -/
def options (t : ToolWording) (envVar : Option String) : ToolOptions where
  environment := t.environment.or envVar
  transformer := t.transformer.map Path.ofString

end ToolWording

/-- What is said to `render`.  The script is a path, which is not empty and not taken for a
name. -/
structure RenderWording where
  /-- The script. -/
  file : Option String
  file_ne : ∀ f ∈ file, f ≠ "" ∧ f.toList.head? ≠ some '-'
  /-- The line. -/
  line : UInt32
  /-- Whether the script is on standard input. -/
  stdin : Bool
  /-- The language. -/
  language : Option String
  /-- How progress and results are shown. -/
  format : Option Format
  /-- The tools. -/
  tools : ToolWording

namespace RenderWording

/-- The texts of the arguments. -/
def text (r : RenderWording) : Argument → Option String
  | .file => r.file
  | .line => some (toString r.line.toNat)
  | .stdin => if r.stdin then some "" else none
  | .language => r.language
  | .format => r.format.map Format.tag
  | a => r.tools.text a

/-- The words, in one order. -/
def words (r : RenderWording) : List String :=
  Argument.words [.line, .file, .stdin, .language, .format, .environment, .transformer] r.text

/-- What is meant. -/
def command (r : RenderWording) (envVar : Option String) : RenderCommand where
  file := r.file.map Path.ofString
  line := r.line
  stdin := r.stdin
  language := r.language
  format := r.format.getD .console
  tools := r.tools.options envVar

end RenderWording

/-- What is said to `plan`. -/
structure PlanWording where
  /-- The line. -/
  line : UInt32
  /-- The tools. -/
  tools : ToolWording

namespace PlanWording

/-- The texts of the arguments. -/
def text (p : PlanWording) : Argument → Option String
  | .line => some (toString p.line.toNat)
  | a => p.tools.text a

/-- The words, in one order. -/
def words (p : PlanWording) : List String :=
  Argument.words [.line, .environment, .transformer] p.text

end PlanWording

/-! ### Reading wordings -/

namespace Arguments

variable {g : Grammar} {as : List Argument} {text : Argument → Option String}

/-- Words in any order give each argument its text. -/
theorem value?_of_perm {words : List String} (has : as.Nodup)
    (hspells : ∀ a ∈ as, ∀ v, text a = some v → g.Spells a v (a.word v))
    (hperm : words.Perm (Argument.words as text)) :
    ∃ s, read g words = .ok s ∧ ∀ a, s.value? a = if a ∈ as then text a else none := by
  rw [Argument.words_eq_map] at hperm
  have hall : List.Forall₂ (fun w p => g.Spells p.1 p.2 w)
      ((entries as text).map fun p => p.1.word p.2) (entries as text) := by
    rw [List.forall₂_map_left_iff, List.forall₂_same]
    intro p hp
    obtain ⟨hmem, htext⟩ := mem_entries_iff.1 hp
    exact hspells _ hmem _ htext
  -- the words bring their arguments along into another order
  obtain ⟨ps, hwords, hps⟩ := List.perm_comp_forall₂ hperm hall
  have hnodup : (ps.map Prod.fst).Nodup := (hps.map Prod.fst).nodup_iff.2 (nodup_entries has)
  refine ⟨settled ps, read_of_spells hwords hnodup, fun a => ?_⟩
  ext v
  rw [value?_eq_some_iff hnodup, settled, hps.mem_iff, mem_entries_iff]
  split
  · next hmem => simp [hmem]
  · next hmem => simp [hmem]

variable {s : Arguments}

theorem line_of_value? {n : UInt32} (h : s.value? .line = some (toString n.toNat)) :
    s.line = .ok n := by
  rw [line, h, Option.bind_some, Argument.lineNumber?_toString]

/-- Without the word for the line the rest is still read, but there is no line. -/
theorem line_of_erase {words : List String} {v : String} (has : (.line :: as).Nodup)
    (hspells : ∀ a ∈ as, ∀ v, text a = some v → g.Spells a v (a.word v))
    (hline : text .line = some v) (hperm : words.Perm (Argument.words (.line :: as) text)) :
    ∃ s, read g (words.erase (Argument.word .line v)) = .ok s ∧
      s.line = .error .missingRequiredArgument := by
  have hrest := hperm.erase (Argument.word .line v)
  rw [Argument.erase_words hline] at hrest
  obtain ⟨hnew, has⟩ := List.nodup_cons.1 has
  obtain ⟨s, hread, hvalue⟩ := value?_of_perm has hspells hrest
  refine ⟨s, hread, ?_⟩
  rw [line, hvalue .line, if_neg hnew, Option.bind_none]

theorem tools_of_value? {t : ToolWording} (henvironment : s.value? .environment = t.environment)
    (htransformer : s.value? .transformer = t.transformer) (envVar : Option String) :
    s.tools envVar = t.options envVar := by
  rw [tools, henvironment, htransformer, ToolWording.options, Option.orElse_eq_orElse,
    Option.orElse_eq_or]

end Arguments

theorem Format.ofTag?_tag (f : Format) : ofTag? f.tag = some f := by
  cases f <;> decide

theorem Grammar.spells_line {g : Grammar} (hlong : g.long.lookup "line" = some .line)
    (n : UInt32) : g.Spells .line (toString n.toNat) (Argument.word .line (toString n.toNat)) := by
  have hcheck : Argument.line.check (toString n.toNat) = .ok () := by
    simp only [Argument.check, Argument.lineNumber?_toString, Option.isSome_some, if_true]
  exact .named "line" hlong (by decide) rfl (by decide) hcheck

theorem ToolWording.spells {g : Grammar} (t : ToolWording)
    (henv : g.long.lookup "env" = some .environment)
    (htransformer : g.long.lookup "transformer" = some .transformer) {a : Argument} {v : String}
    (h : t.text a = some v) : g.Spells a v (a.word v) := by
  cases a with
  | environment => exact .named "env" henv (by decide) rfl (by decide) rfl
  | transformer =>
    have hcheck : Argument.transformer.check v = .ok () := if_neg (t.transformer_ne v h)
    exact .named "transformer" htransformer (by decide) rfl (by decide) hcheck
  | file | line | stdin | language | format | help | version => cases h

theorem RenderWording.spells (r : RenderWording) {a : Argument} {v : String}
    (h : r.text a = some v) : Grammar.render.Spells a v (a.word v) := by
  cases a with
  | file => exact .script rfl (r.file_ne v h).1 (r.file_ne v h).2
  | line =>
    cases h
    exact Grammar.spells_line rfl r.line
  | stdin =>
    have htext : v = "" := by
      simp only [text] at h
      split at h
      · exact (Option.some.inj h).symm
      · cases h
    subst htext
    exact .switch rfl
  | language => exact .named "language" rfl (by decide) rfl (by decide) rfl
  | format =>
    obtain ⟨f, -, rfl⟩ := Option.map_eq_some_iff.1 h
    have hcheck : Argument.format.check f.tag = .ok () := by
      simp only [Argument.check, Format.ofTag?_tag, Option.isSome_some, if_true]
    exact .named "format" rfl (by decide) rfl (by decide) hcheck
  | environment | transformer | help | version => exact r.tools.spells rfl rfl h

theorem PlanWording.spells (p : PlanWording) {a : Argument} {v : String}
    (h : p.text a = some v) : Grammar.plan.Spells a v (a.word v) := by
  cases a with
  | line =>
    cases h
    exact Grammar.spells_line rfl p.line
  | file | stdin | language | format | environment | transformer | help | version =>
    exact p.tools.spells rfl rfl h

namespace Command

variable {envVar : Option String} {words : List String}

/-- `render` is read as it was spelled. -/
theorem parseRender_of_perm {r : RenderWording} (hperm : words.Perm r.words) :
    parseRender envVar words = .ok (.render (r.command envVar)) := by
  obtain ⟨s, hread, hvalue⟩ :=
    Arguments.value?_of_perm (by decide) (fun _ _ _ h => r.spells h) hperm
  have hline : s.line = .ok r.line := Arguments.line_of_value? (hvalue .line)
  have htools : s.tools envVar = r.tools.options envVar :=
    Arguments.tools_of_value? (hvalue .environment) (hvalue .transformer) envVar
  have hstdin : s.has .stdin = r.stdin := by
    rw [Arguments.has_eq_isSome, hvalue .stdin]
    cases h : r.stdin <;> simp [RenderWording.text, h]
  have hformat : ((s.value? .format).bind Format.ofTag?).getD .console =
      r.format.getD .console := by
    rw [hvalue .format]
    cases h : r.format <;> simp [RenderWording.text, h, Format.ofTag?_tag]
  have hfile : s.value? .file = r.file := hvalue .file
  have hlanguage : s.value? .language = r.language := hvalue .language
  rw [parseRender, hread, RenderWording.command]
  simp only [bind, Except.bind, hline, htools, hstdin, hformat, hfile, hlanguage]
  rfl

/-- `plan` is read as it was spelled. -/
theorem parsePlan_of_perm {p : PlanWording} (hperm : words.Perm p.words) :
    parsePlan envVar words = .ok (.plan p.line (p.tools.options envVar)) := by
  obtain ⟨s, hread, hvalue⟩ :=
    Arguments.value?_of_perm (by decide) (fun _ _ _ h => p.spells h) hperm
  have hline : s.line = .ok p.line := Arguments.line_of_value? (hvalue .line)
  have htools : s.tools envVar = p.tools.options envVar :=
    Arguments.tools_of_value? (hvalue .environment) (hvalue .transformer) envVar
  rw [parsePlan, hread]
  simp only [bind, Except.bind, hline, htools]
  rfl

/-- **A command is read as it was spelled.**  Whatever the texts are, and in whatever order their
words stand, `render` and `plan` are read as what is meant; without the word for the line, which
is required, they are refused. -/
theorem parse_spelled (envVar : Option String) :
    (∀ (r : RenderWording) (words : List String), words.Perm r.words →
      parse envVar ("render" :: words) = .ok (.render (r.command envVar)) ∧
      parse envVar ("render" :: words.erase (Argument.word .line (toString r.line.toNat))) =
        .error .missingRequiredArgument) ∧
    (∀ (p : PlanWording) (words : List String), words.Perm p.words →
      parse envVar ("plan" :: words) = .ok (.plan p.line (p.tools.options envVar)) ∧
      parse envVar ("plan" :: words.erase (Argument.word .line (toString p.line.toNat))) =
        .error .missingRequiredArgument) := by
  refine ⟨fun r words hperm => ⟨parseRender_of_perm hperm, ?_⟩,
    fun p words hperm => ⟨parsePlan_of_perm hperm, ?_⟩⟩
  · obtain ⟨s, hread, hmissing⟩ :=
      Arguments.line_of_erase (by decide) (fun _ _ _ h => r.spells h) rfl hperm
    show parseRender envVar _ = _
    rw [parseRender, hread]
    simp only [bind, Except.bind, hmissing]
  · obtain ⟨s, hread, hmissing⟩ :=
      Arguments.line_of_erase (by decide) (fun _ _ _ h => p.spells h) rfl hperm
    show parsePlan envVar _ = _
    rw [parsePlan, hread]
    simp only [bind, Except.bind, hmissing]

/-- Texts that look like other words, hold an equals sign or are empty, out of order. -/
theorem parse_spelled_lookalikes :
    let t : ToolWording := ⟨some "--line=7", some "-a=b c", by simp⟩
    let r : RenderWording :=
      ⟨some "render", by simp, 4294967295, true, some "", some .jsonl, t⟩
    let words := ["--env=--line=7", "render", "--transformer=-a=b c", "--stdin",
      "--line=4294967295", "--language=", "--format=jsonl"]
    (words.Perm r.words ∧
      parse (some "base") ("render" :: words) = .ok (.render (r.command (some "base"))) ∧
      parse (some "base") ("render" :: words.erase "--line=4294967295") =
        .error .missingRequiredArgument) ∧
    (["--transformer=-a=b c", "--line=0", "--env=--line=7"].Perm (PlanWording.words ⟨0, t⟩) ∧
      parse none ["plan", "--transformer=-a=b c", "--line=0", "--env=--line=7"] =
        .ok (.plan 0 (t.options none))) := by
  intro t r words
  have hrender : words.Perm r.words := by decide
  have hplan : ["--transformer=-a=b c", "--line=0", "--env=--line=7"].Perm
      (PlanWording.words ⟨0, t⟩) := by decide
  have h := (parse_spelled (some "base")).1 r words hrender
  have hline : Argument.word .line (toString r.line.toNat) = "--line=4294967295" := by decide
  rw [hline] at h
  exact ⟨⟨hrender, h.1, h.2⟩, hplan, ((parse_spelled none).2 ⟨0, t⟩ _ hplan).1⟩

end Command

end ScenePreview
