/-
**Parsing undoes rendering.**

A command line is a keyword in any case, an optional `?`, and arguments separated by commas, with
blanks around everything.  However it is written, the parser finds the command, the query flag and
the arguments, each at its own position.

Main definitions:

* `Afm.PaddedArgument`, `Afm.Rendering` — the ways to write an argument and a command line.

Main results:

* `Afm.map_trim_splitOn` — trimming the arguments as a whole does not change what each of them is;
* `Afm.Rendering.parseLine_line` — the parser undoes the rendering.
-/

import RedPitayaAfm.Protocol

set_option relaxedAutoImplicit false
set_option autoImplicit false

namespace Afm

/-! ### Trimming -/

/-- Every character is one that `trim` removes. -/
def IsBlank (s : Text) : Prop := ∀ c ∈ s, isBlank c = true

/-- The end of a text without trailing blanks. -/
def trimRight (s : Text) : Text := (s.reverse.dropWhile isBlank).reverse

theorem trim_eq (s : Text) : trim s = trimRight (s.dropWhile isBlank) := rfl

@[simp] theorem trimRight_nil : trimRight [] = [] := rfl

theorem trimRight_cons (c : Char) (s : Text) :
    trimRight (c :: s) = if trimRight s = [] ∧ isBlank c = true then [] else c :: trimRight s := by
  unfold trimRight
  rw [List.reverse_cons, List.dropWhile_append]
  by_cases hempty : s.reverse.dropWhile isBlank = []
  · by_cases hc : isBlank c = true
    · simp [hempty, hc]
    · simp [hempty, hc]
  · simp [hempty]

theorem trimRight_blank {r : Text} (hr : IsBlank r) : trimRight r = [] := by
  induction r with
  | nil => rfl
  | cons c r ih =>
      have hc : isBlank c = true := hr c (List.mem_cons_self ..)
      rw [trimRight_cons, ih fun d hd => hr d (List.mem_cons_of_mem _ hd), if_pos ⟨rfl, hc⟩]

theorem trimRight_append_blank (s : Text) {r : Text} (hr : IsBlank r) :
    trimRight (s ++ r) = trimRight s := by
  induction s with
  | nil => exact trimRight_blank hr
  | cons c s ih => rw [List.cons_append, trimRight_cons, trimRight_cons, ih]

/-- A text without blanks stays in front of what is trimmed. -/
theorem trimRight_append {k : Text} (hk : ∀ c ∈ k, isBlank c = false) (s : Text) :
    trimRight (k ++ s) = k ++ trimRight s := by
  induction k with
  | nil => rfl
  | cons c k ih =>
      have hc : ¬(trimRight (k ++ s) = [] ∧ isBlank c = true) := by
        rintro ⟨-, hblank⟩
        rw [hk c (List.mem_cons_self ..)] at hblank
        cases hblank
      rw [List.cons_append, trimRight_cons, if_neg hc, ih fun d hd => hk d (List.mem_cons_of_mem _ hd)]
      rfl

theorem exists_trimRight (s : Text) : ∃ r, IsBlank r ∧ s = trimRight s ++ r := by
  induction s with
  | nil => exact ⟨[], by simp [IsBlank], rfl⟩
  | cons c s ih =>
      obtain ⟨r, hr, hs⟩ := ih
      by_cases hc : trimRight s = [] ∧ isBlank c = true
      · refine ⟨c :: s, ?_, by rw [trimRight_cons, if_pos hc]; rfl⟩
        rw [hs, hc.1]
        intro d hd
        rcases List.mem_cons.1 hd with rfl | hd
        · exact hc.2
        · exact hr d hd
      · refine ⟨r, hr, ?_⟩
        rw [trimRight_cons, if_neg hc, List.cons_append, ← hs]

theorem trim_append_left {l : Text} (hl : IsBlank l) (s : Text) : trim (l ++ s) = trim s := by
  rw [trim_eq, trim_eq, List.dropWhile_append_of_pos hl]

theorem trim_append_right (s : Text) {r : Text} (hr : IsBlank r) : trim (s ++ r) = trim s := by
  rw [trim_eq, trim_eq, List.dropWhile_append]
  by_cases hempty : s.dropWhile isBlank = []
  · have hall : r.dropWhile isBlank = [] := List.dropWhile_eq_nil_iff.2 hr
    simp [hempty, hall]
  · have hne : ¬(s.dropWhile isBlank).isEmpty = true := by simpa using hempty
    rw [if_neg hne, trimRight_append_blank _ hr]

theorem trim_trimRight (s : Text) : trim (trimRight s) = trim s := by
  obtain ⟨r, hr, hs⟩ := exists_trimRight s
  conv_rhs => rw [hs]
  rw [trim_append_right _ hr]

theorem exists_trim (s : Text) : ∃ l r, IsBlank l ∧ IsBlank r ∧ s = l ++ trim s ++ r := by
  obtain ⟨r, hr, hs⟩ := exists_trimRight (s.dropWhile isBlank)
  refine ⟨s.takeWhile isBlank, r, fun c hc => List.mem_takeWhile_imp hc, hr, ?_⟩
  rw [List.append_assoc, trim_eq, ← hs, List.takeWhile_append_dropWhile]

/-- A text that neither starts nor ends with a blank. -/
def IsTrimmed (s : Text) : Prop :=
  (∀ c, s.head? = some c → isBlank c = false) ∧ ∀ c, s.getLast? = some c → isBlank c = false

theorem trim_trimmed {s : Text} (hs : IsTrimmed s) : trim s = s := by
  have hdrop : ∀ t : Text, (∀ c, t.head? = some c → isBlank c = false) → t.dropWhile isBlank = t := by
    intro t ht
    cases t with
    | nil => rfl
    | cons c t => rw [List.dropWhile_cons_of_neg (by rw [ht c rfl]; exact Bool.false_ne_true)]
  have hrev : ∀ c, s.reverse.head? = some c → isBlank c = false := by
    intro c hc
    rw [List.head?_reverse] at hc
    exact hs.2 c hc
  rw [trim_eq, hdrop s hs.1, trimRight, hdrop _ hrev, List.reverse_reverse]

/-! ### Splitting at commas -/

theorem isBlank_cases {c : Char} (h : isBlank c = true) : c = ' ' ∨ c = '\t' ∨ c = '\r' ∨ c = '\n' := by
  simpa [isBlank, or_assoc] using h

theorem comma_not_blank {c : Char} (h : isBlank c = true) : c ≠ ',' := by
  rintro rfl
  exact absurd h (by decide)

theorem splitOn_cons_ne {c : Char} (hc : c ≠ ',') (s : Text) :
    (c :: s).splitOn ',' = (s.splitOn ',').modifyHead (List.cons c) := by
  have hbeq : ¬((c == ',') = true) := by simpa using hc
  rw [List.splitOn_cons_eq_if_modifyHead, if_neg hbeq]

theorem splitOn_cons_comma (s : Text) : (',' :: s).splitOn ',' = [] :: s.splitOn ',' := by
  rw [List.splitOn_cons_eq_if_modifyHead, if_pos (beq_self_eq_true _)]

/-- Blanks in front of a list belong to its first element. -/
theorem map_trim_splitOn_left {l : Text} (hl : IsBlank l) (s : Text) :
    ((l ++ s).splitOn ',').map trim = (s.splitOn ',').map trim := by
  induction l with
  | nil => rfl
  | cons c l ih =>
      have hc : isBlank c = true := hl c (List.mem_cons_self ..)
      have hsingle : IsBlank [c] := by
        intro d hd
        rw [List.mem_singleton.1 hd]
        exact hc
      have hrest := ih fun d hd => hl d (List.mem_cons_of_mem _ hd)
      rw [← hrest, List.cons_append, splitOn_cons_ne (comma_not_blank hc)]
      cases hsplit : (l ++ s).splitOn ',' with
      | nil => rfl
      | cons first others =>
          have htrim : trim (c :: first) = trim first := trim_append_left hsingle first
          rw [List.modifyHead_cons, List.map_cons, List.map_cons, htrim]

/-- Blanks after a list belong to its last element. -/
theorem map_trimRight_splitOn {r : Text} (hr : IsBlank r) (s : Text) :
    ((s ++ r).splitOn ',').map trimRight = (s.splitOn ',').map trimRight := by
  induction s with
  | nil =>
      have hcomma : ',' ∉ r := fun hmem => comma_not_blank (hr _ hmem) rfl
      rw [List.nil_append, List.splitOn_eq_singleton hcomma, List.splitOn_nil, List.map_singleton,
        List.map_singleton, trimRight_blank hr, trimRight_nil]
  | cons c s ih =>
      by_cases hc : c = ','
      · subst hc
        rw [List.cons_append, splitOn_cons_comma, splitOn_cons_comma, List.map_cons, List.map_cons, ih]
      · rw [List.cons_append, splitOn_cons_ne hc, splitOn_cons_ne hc]
        cases hleft : (s ++ r).splitOn ',' with
        | nil => exact absurd hleft (List.splitOn_ne_nil _ _)
        | cons first others =>
            cases hright : s.splitOn ',' with
            | nil => exact absurd hright (List.splitOn_ne_nil _ _)
            | cons first' others' =>
                rw [hleft, hright, List.map_cons, List.map_cons] at ih
                obtain ⟨hfirst, hothers⟩ := List.cons.inj ih
                rw [List.modifyHead_cons, List.modifyHead_cons, List.map_cons, List.map_cons,
                  trimRight_cons, trimRight_cons, hfirst, hothers]

theorem map_trim_splitOn_right {r : Text} (hr : IsBlank r) (s : Text) :
    ((s ++ r).splitOn ',').map trim = (s.splitOn ',').map trim := by
  have hfactor : ∀ ts : List Text, ts.map trim = (ts.map trimRight).map trim := by
    intro ts
    rw [List.map_map]
    exact List.map_congr_left fun t _ => (trim_trimRight t).symm
  rw [hfactor, map_trimRight_splitOn hr, ← hfactor]

/-- Trimming a list of arguments as a whole does not change what each of them is. -/
theorem map_trim_splitOn (s : Text) :
    ((trim s).splitOn ',').map trim = (s.splitOn ',').map trim := by
  obtain ⟨l, r, hl, hr, hs⟩ := exists_trim s
  conv_rhs => rw [hs]
  rw [map_trim_splitOn_right hr, map_trim_splitOn_left hl]

/-! ### Rendered lines -/

/-- Spaces and tabs. -/
def IsPadding (s : Text) : Prop := ∀ c ∈ s, c = ' ' ∨ c = '\t'

theorem IsPadding.isBlank {s : Text} (hs : IsPadding s) : IsBlank s := by
  intro c hc
  rcases hs c hc with rfl | rfl <;> decide

/-- An argument as it stands between two commas. -/
structure PaddedArgument where
  /-- Spaces and tabs before the argument. -/
  before : Text
  /-- The argument, possibly empty. -/
  text : Text
  /-- Spaces and tabs after the argument. -/
  after : Text
  isPadding_before : IsPadding before
  comma_not_mem : ',' ∉ text
  isTrimmed : IsTrimmed text
  isPadding_after : IsPadding after

namespace PaddedArgument

/-- The characters between the two commas. -/
def render (arg : PaddedArgument) : Text := arg.before ++ arg.text ++ arg.after

theorem trim_render (arg : PaddedArgument) : trim arg.render = arg.text := by
  rw [render, trim_append_right _ arg.isPadding_after.isBlank,
    trim_append_left arg.isPadding_before.isBlank, trim_trimmed arg.isTrimmed]

theorem comma_not_mem_render (arg : PaddedArgument) : ',' ∉ arg.render := by
  intro hmem
  rcases List.mem_append.1 hmem with hmem | hmem
  · rcases List.mem_append.1 hmem with hmem | hmem
    · exact comma_not_blank (arg.isPadding_before.isBlank _ hmem) rfl
    · exact arg.comma_not_mem hmem
  · exact comma_not_blank (arg.isPadding_after.isBlank _ hmem) rfl

/-- Arguments separated by commas. -/
def join (args : List PaddedArgument) : Text := [','].intercalate (args.map render)

theorem map_trim_join {args : List PaddedArgument} (hne : args ≠ []) :
    ((join args).splitOn ',').map trim = args.map text := by
  have hcomma : ∀ l ∈ args.map render, ',' ∉ l := by
    intro l hl
    obtain ⟨arg, -, rfl⟩ := List.mem_map.1 hl
    exact arg.comma_not_mem_render
  have hmap : args.map render ≠ [] := by simpa using hne
  rw [join, List.splitOn_intercalate _ hcomma hmap, List.map_map]
  exact List.map_congr_left fun arg _ => arg.trim_render

end PaddedArgument

/-- A way to write a command line. -/
structure Rendering where
  /-- The command. -/
  command : Command
  /-- Its keyword, in any mix of cases. -/
  keyword : Text
  /-- True for a query. -/
  isQuery : Bool
  /-- The arguments. -/
  args : List PaddedArgument
  /-- Spaces and tabs in front of the line. -/
  before : Text
  /-- What separates the keyword from the arguments. -/
  gap : Text
  /-- Spaces and tabs at the end of the line. -/
  after : Text
  known : command ≠ .unknown
  casing : upper keyword = commandToString command
  args_ne : args.map PaddedArgument.text ≠ [[]]
  isPadding_before : IsPadding before
  isPadding_gap : IsPadding gap
  gap_ne : gap ≠ []
  isPadding_after : IsPadding after

namespace Rendering

/-- The first word of the line. -/
def word (r : Rendering) : Text := r.keyword ++ if r.isQuery then ['?'] else []

/-- What follows the first word. -/
def tail (r : Rendering) : Text := if r.args = [] then [] else r.gap ++ PaddedArgument.join r.args

/-- The command line. -/
def line (r : Rendering) : Text := r.before ++ (r.word ++ r.tail) ++ r.after

/-! #### The first word -/

theorem toUpper_mem (r : Rendering) {c : Char} (hc : c ∈ r.keyword) :
    c.toUpper ∈ commandToString r.command := by
  rw [← r.casing]
  exact List.mem_map_of_mem hc

theorem keyword_ne_nil (r : Rendering) : r.keyword ≠ [] := by
  intro hnil
  have hcasing := r.casing
  rw [hnil] at hcasing
  revert hcasing
  cases r.command <;> decide

theorem keyword_not_blank (r : Rendering) {c : Char} (hc : c ∈ r.keyword) : isBlank c = false := by
  have hall : (commandToString r.command).all (fun d => !isBlank d) = true := by
    cases r.command <;> decide
  have hupper : isBlank c.toUpper = false := by
    simpa using List.all_eq_true.1 hall _ (r.toUpper_mem hc)
  by_contra hblank
  rcases isBlank_cases (Bool.eq_true_of_not_eq_false hblank) with rfl | rfl | rfl | rfl
  · exact absurd hupper (by decide)
  · exact absurd hupper (by decide)
  · exact absurd hupper (by decide)
  · exact absurd hupper (by decide)

theorem question_not_mem (r : Rendering) : '?' ∉ r.keyword := by
  intro hmem
  have hupper : '?' ∈ commandToString r.command := r.toUpper_mem hmem
  revert hupper
  cases r.command <;> decide

theorem word_ne_nil (r : Rendering) : r.word ≠ [] := by
  intro hnil
  exact r.keyword_ne_nil (List.append_eq_nil_iff.1 hnil).1

theorem word_not_blank (r : Rendering) {c : Char} (hc : c ∈ r.word) : isBlank c = false := by
  rcases List.mem_append.1 hc with hc | hc
  · exact r.keyword_not_blank hc
  · cases hquery : r.isQuery with
    | false => simp [hquery] at hc
    | true =>
        simp only [hquery, if_true, List.mem_singleton] at hc
        rw [hc]
        decide

/-- The `?` at the end of the word, and only that, marks a query. -/
theorem word_getLast? (r : Rendering) : (r.word.getLast? == some '?') = r.isQuery := by
  cases hquery : r.isQuery with
  | true => simp [word, hquery]
  | false =>
      have hword : r.word = r.keyword := by simp [word, hquery]
      rw [hword]
      by_contra hlast
      have hlast : r.keyword.getLast? = some '?' := by simpa using hlast
      exact r.question_not_mem (List.mem_of_getLast? hlast)

theorem word_keyword (r : Rendering) :
    (if r.isQuery then r.word.dropLast else r.word) = r.keyword := by
  cases hquery : r.isQuery <;> simp [word, hquery]

theorem parseCommand_keyword (r : Rendering) : parseCommand r.keyword = r.command := by
  have hupper : upper (commandToString r.command) = commandToString r.command := by
    cases r.command <;> decide
  have h := parseCommand_commandToString r.command
  unfold parseCommand at h ⊢
  rw [r.casing]
  rwa [hupper] at h

/-! #### The rest of the line -/

/-- The word ends where the rest of the line starts: at a space or tab, or at the end. -/
theorem tail_cases (r : Rendering) :
    r.tail = [] ∧ r.args = [] ∨
      ∃ c rest, r.tail = c :: rest ++ PaddedArgument.join r.args ∧ IsPadding (c :: rest) ∧
        r.args ≠ [] := by
  by_cases hargs : r.args = []
  · exact .inl ⟨if_pos hargs, hargs⟩
  · cases hgap : r.gap with
    | nil => exact absurd hgap r.gap_ne
    | cons c rest =>
        have hpad := r.isPadding_gap
        rw [hgap] at hpad
        refine .inr ⟨c, rest, ?_, hpad, hargs⟩
        rw [tail, if_neg hargs, hgap]

theorem trim_line (r : Rendering) : trim r.line = r.word ++ trimRight r.tail := by
  have hdrop : (r.word ++ r.tail).dropWhile isBlank = r.word ++ r.tail := by
    cases hword : r.word with
    | nil => exact absurd hword r.word_ne_nil
    | cons c word =>
        have hc : isBlank c = false := r.word_not_blank (by simp [hword])
        rw [List.cons_append, List.dropWhile_cons_of_neg (by rw [hc]; exact Bool.false_ne_true)]
  rw [line, trim_append_right _ r.isPadding_after.isBlank,
    trim_append_left r.isPadding_before.isBlank, trim_eq, hdrop,
    trimRight_append fun c hc => r.word_not_blank hc]

theorem span_line (r : Rendering) :
    (trim r.line).span (fun c => !(c == ' ' || c == '\t')) = (r.word, trimRight r.tail) := by
  have hword : ∀ c ∈ r.word, (!(c == ' ' || c == '\t')) = true := by
    intro c hc
    have hblank := r.word_not_blank hc
    simp only [isBlank, Bool.or_eq_false_iff] at hblank
    simp [hblank.1.1.1, hblank.1.1.2]
  have htail : (trimRight r.tail).takeWhile (fun c => !(c == ' ' || c == '\t')) = [] ∧
      (trimRight r.tail).dropWhile (fun c => !(c == ' ' || c == '\t')) = trimRight r.tail := by
    rcases r.tail_cases with ⟨hnil, -⟩ | ⟨c, rest, htail, hpad, -⟩
    · rw [hnil, trimRight_nil]
      exact ⟨rfl, rfl⟩
    · rw [htail, List.cons_append, trimRight_cons]
      split
      · exact ⟨rfl, rfl⟩
      · rcases hpad c (List.mem_cons_self ..) with rfl | rfl
        · exact ⟨rfl, rfl⟩
        · exact ⟨rfl, rfl⟩
  rw [trim_line, List.span_eq_takeWhile_dropWhile, List.takeWhile_append_of_pos hword,
    List.dropWhile_append_of_pos hword, htail.1, htail.2, List.append_nil]

/-- What the parser takes for the list of arguments. -/
theorem argPortion (r : Rendering) :
    trim ((trimRight r.tail).drop 1) = trim (PaddedArgument.join r.args) := by
  rcases r.tail_cases with ⟨hnil, hargs⟩ | ⟨c, rest, htail, hpad, -⟩
  · rw [hnil, hargs]
    rfl
  · have hrest : IsBlank rest := fun d hd => hpad.isBlank d (List.mem_cons_of_mem _ hd)
    have hdrop : trim ((trimRight r.tail).drop 1) = trim (rest ++ PaddedArgument.join r.args) := by
      rw [htail, List.cons_append, trimRight_cons]
      split
      next h => rw [← trim_trimRight (rest ++ _), h.1]; rfl
      next h => rw [List.drop_one, List.tail_cons, trim_trimRight]
    rw [hdrop, trim_append_left hrest]

theorem args_line (r : Rendering) :
    (if (trim (PaddedArgument.join r.args)).isEmpty then []
      else ((trim (PaddedArgument.join r.args)).splitOn ',').map trim)
      = r.args.map PaddedArgument.text := by
  by_cases hargs : r.args = []
  · rw [hargs]
    rfl
  · have hsplit := map_trim_splitOn (PaddedArgument.join r.args)
    rw [PaddedArgument.map_trim_join hargs] at hsplit
    by_cases hempty : trim (PaddedArgument.join r.args) = []
    · -- A portion of blanks alone would be the single empty argument.
      rw [hempty] at hsplit
      exact absurd hsplit.symm r.args_ne
    · have hne : ¬(trim (PaddedArgument.join r.args)).isEmpty = true := by simpa using hempty
      rw [if_neg hne, hsplit]

/-- **Parsing undoes rendering**: in whatever case the keyword is written and however the line and
its arguments are padded, the parser returns the command, the query flag and the arguments, each at
its own position. -/
theorem parseLine_line (r : Rendering) :
    parseLine r.line =
      { command := r.command
        isQuery := r.isQuery
        args := r.args.map PaddedArgument.text
        rawLine := r.line } := by
  simp only [parseLine, r.span_line, r.word_getLast?, r.word_keyword, r.parseCommand_keyword,
    r.argPortion, r.args_line]

example : (parseLine "\t board:Gain \t2 ,, 7 ".toList).args = ["2".toList, [], "7".toList] := by
  decide

end Rendering

end Afm
