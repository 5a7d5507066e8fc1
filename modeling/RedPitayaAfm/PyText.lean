/-
**The string methods of the Python client.**

The client handles replies with Python's string methods, which cut and strip text by other rules
than the C++ server does: `split` and `strip` know more kinds of whitespace, `rstrip('\r')` removes
every trailing carriage return, and `int` accepts signs and underscores.  All texts here are 7-bit,
since the client decodes its input as ASCII first.

Main definitions:

* `Afm.Py.split`, `Afm.Py.strip`, `Afm.Py.rstripCr` — the methods;
* `Afm.Py.int`, `Afm.Py.fullmatchLines` — `int(s)`, and `re.fullmatch(r"LINES (\d+)", s)` with its
  group as a number;
* `Afm.Py.joinLines`, `Afm.Py.splitlines`, `Afm.Py.repr` — `"\n".join(…)`, `s.splitlines()`, and
  `repr` of a text;
* `Afm.Py.literal`, `Afm.Py.digit`, `Afm.Py.spaces`, `Afm.Py.word` — the parts of the patterns the
  client matches.

Main results:

* `Afm.Py.split_word_append` — a word and a blank in front of a text are its first field;
* `Afm.Py.int_toText` — a printed number reads back;
* `Afm.Py.joinLines_textLines` — joining the lines of a text block gives the text without its
  carriage returns;
* `Afm.Py.splitlines_joined` — lines joined with line feeds are read as these lines.
-/

import RedPitayaAfm.Protocol

set_option relaxedAutoImplicit false
set_option autoImplicit false

namespace Afm

namespace Py

/-! ### Whitespace -/

/-- The ASCII characters `str.isspace` accepts. -/
def isSpace (c : Char) : Bool :=
  (9 ≤ c.toNat && c.toNat ≤ 13) || (28 ≤ c.toNat && c.toNat ≤ 32)

/-- `s.strip()`. -/
def strip (s : Text) : Text := ((s.dropWhile isSpace).reverse.dropWhile isSpace).reverse

/-- `s.split()`: the maximal runs of characters that are not whitespace. -/
def split (s : Text) : List Text := (s.splitOnP isSpace).filter fun w => !w.isEmpty

/-- `s.rstrip('\r')`. -/
def rstripCr (s : Text) : Text := (s.reverse.dropWhile (· == '\r')).reverse

/-- Nothing is stripped from a text that does not end in a carriage return. -/
theorem rstripCr_eq_self {s : Text} (h : s.getLast? ≠ some '\r') : rstripCr s = s := by
  rw [rstripCr]
  cases hr : s.reverse with
  | nil => simpa using hr.symm
  | cons c cs =>
      have hs : s = cs.reverse ++ [c] := by
        have := congrArg List.reverse hr
        simpa using this
      have hc : (c == '\r') = false := by
        rw [hs] at h
        simpa using h
      rw [List.dropWhile_cons_of_neg (by simp [hc])]
      simp [hs]

/-- A text without whitespace is one field, unless it is empty. -/
theorem split_word {w : Text} (hne : w ≠ []) (hw : ∀ c ∈ w, isSpace c = false) : split w = [w] := by
  rw [split, List.splitOnP_eq_singleton hw]
  simp [hne]

/-- A word and a blank in front of a text are its first field. -/
theorem split_word_append {w : Text} (hne : w ≠ []) (hw : ∀ c ∈ w, isSpace c = false) {b : Char}
    (hb : isSpace b = true) (s : Text) : split (w ++ b :: s) = w :: split s := by
  rw [split, List.splitOnP_append_cons_of_forall_mem hw b hb, split]
  simp [hne]

/-! ### Numbers -/

/-- Digits with single underscores between them; more than 4300 digits are refused. -/
def digits (s : Text) : Option ℕ :=
  let groups := s.splitOn '_'
  if groups.any List.isEmpty || 4300 < groups.flatten.length then none
  else natOfDigits groups.flatten

/-- `int(s)`. -/
def int (s : Text) : Option ℤ :=
  match strip s with
  | '-' :: t => (digits t).map fun n => -(n : ℤ)
  | '+' :: t => (digits t).map fun n => (n : ℤ)
  | t => (digits t).map fun n => (n : ℤ)

/-- `re.fullmatch(r"LINES (\d+)", s)`, and its group as digits. -/
def fullmatchLines (s : Text) : Option Text :=
  if "LINES ".toList.isPrefixOf s then
    let group := s.drop 6
    if !group.isEmpty && group.all Char.isDigit then some group else none
  else none

theorem isSpace_of_isDigit {c : Char} (h : c.isDigit = true) : isSpace c = false := by
  simp only [Char.isDigit, Bool.and_eq_true, decide_eq_true_eq] at h
  have h₁ : 48 ≤ c.toNat := h.1
  simp only [isSpace, Bool.or_eq_false_iff, Bool.and_eq_false_iff, decide_eq_false_iff_not]
  omega

theorem isSpace_of_mem_toText {n : ℕ} {c : Char} (h : c ∈ toText n) : isSpace c = false :=
  isSpace_of_isDigit (isDigit_of_mem_toText h)

theorem strip_of_no_space {s : Text} (h : ∀ c ∈ s, isSpace c = false) : strip s = s := by
  have hdrop : ∀ t : Text, (∀ c ∈ t, isSpace c = false) → t.dropWhile isSpace = t := by
    intro t ht
    cases t with
    | nil => rfl
    | cons c t => exact List.dropWhile_cons_of_neg (by simp [ht c (by simp)])
  rw [strip, hdrop s h, hdrop s.reverse fun c hc => h c (by simpa using hc), List.reverse_reverse]

/-- A number of at most 4300 digits reads back. -/
theorem digits_toText {n : ℕ} (h : (toText n).length ≤ 4300) : digits (toText n) = some n := by
  have hone : (toText n).splitOn '_' = [toText n] := by
    refine List.splitOn_eq_singleton ?_
    intro hmem
    have := isDigit_of_mem_toText hmem
    simp at this
  rw [digits, hone]
  simp [toText_ne_nil, not_lt.2 h]

theorem int_toText {n : ℕ} (h : (toText n).length ≤ 4300) : int (toText n) = some (n : ℤ) := by
  rw [int, strip_of_no_space fun c hc => isSpace_of_mem_toText hc]
  split
  · rename_i t ht
    have : '-' ∈ toText n := by simp [ht]
    have := isDigit_of_mem_toText this
    simp at this
  · rename_i t ht
    have : '+' ∈ toText n := by simp [ht]
    have := isDigit_of_mem_toText this
    simp at this
  · rw [digits_toText h]
    rfl

/-- A printed number has at most as many digits as its value says. -/
theorem length_toText_le {n k : ℕ} (hk : 0 < k) (h : n < 10 ^ k) : (toText n).length ≤ k :=
  (Nat.length_toDigits_le_iff (by decide) hk).2 h

theorem fullmatchLines_header (n : ℕ) :
    fullmatchLines ("LINES ".toList ++ toText n) = some (toText n) := by
  have hpre : "LINES ".toList.isPrefixOf ("LINES ".toList ++ toText n) = true := by
    simp
  have hall : (toText n).all Char.isDigit = true := by
    rw [List.all_eq_true]
    exact fun c hc => isDigit_of_mem_toText hc
  have hdrop : ("LINES ".toList ++ toText n).drop 6 = toText n := rfl
  simp only [fullmatchLines, hpre, if_true, hdrop, hall]
  simp [toText_ne_nil]

/-! ### Lines -/

/-- `"\n".join(lines)`. -/
def joinLines (lines : List Text) : Text := ['\n'].intercalate lines

/-- Joining the lines of a text block gives the text without its carriage returns. -/
theorem joinLines_textLines (text : Text) :
    joinLines (textLines text) = text.filter (· != '\r') := by
  have hfilter : ∀ ls : List Text, ['\n'].intercalate (ls.map fun l => l.filter (· != '\r'))
      = (['\n'].intercalate ls).filter (· != '\r') := by
    intro ls
    induction ls with
    | nil => rfl
    | cons l ls ih =>
        cases ls with
        | nil => simp [List.intercalate]
        | cons m ms =>
            simp only [List.map_cons, List.intercalate_cons_cons] at ih ⊢
            rw [ih]
            simp
  rw [joinLines, textLines, hfilter, List.intercalate_splitOn]

/-- The ASCII characters `str.splitlines` cuts at. -/
def isBoundary (c : Char) : Bool :=
  (10 ≤ c.toNat && c.toNat ≤ 13) || (28 ≤ c.toNat && c.toNat ≤ 30)

/-- `s.splitlines()`, behind the beginning of a line.  A carriage return and a line feed are one
boundary. -/
def splitlinesFrom (line : Text) : Text → List Text
  | [] => if line.isEmpty then [] else [line]
  | c :: s =>
      if isBoundary c then
        if c = '\r' ∧ s.head? = some '\n' then splitlinesFrom line s
        else line :: splitlinesFrom [] s
      else splitlinesFrom (line ++ [c]) s

/-- `s.splitlines()`. -/
def splitlines (s : Text) : List Text := splitlinesFrom [] s

/-- A line in front of a text. -/
theorem splitlinesFrom_append {l : Text} (hl : ∀ c ∈ l, isBoundary c = false) (line s : Text) :
    splitlinesFrom line (l ++ s) = splitlinesFrom (line ++ l) s := by
  induction l generalizing line with
  | nil => rw [List.nil_append, List.append_nil]
  | cons c l ih =>
      have hc : isBoundary c = false := hl c (List.mem_cons_self ..)
      rw [List.cons_append, splitlinesFrom, hc, if_neg Bool.false_ne_true,
        ih fun x hx => hl x (List.mem_cons_of_mem _ hx), List.append_assoc]
      rfl

/-- Lines joined with line feeds are read as these lines. -/
theorem splitlines_joined {ls : List Text} (hls : ∀ l ∈ ls, ∀ c ∈ l, isBoundary c = false)
    (hlast : ∀ l, ls.getLast? = some l → l ≠ []) :
    ∀ {l : Text}, (∀ c ∈ l, isBoundary c = false) → (ls = [] → l ≠ []) →
      splitlines (l ++ ls.flatMap ('\n' :: ·)) = l :: ls := by
  induction ls with
  | nil =>
      intro l hl hne
      rw [List.flatMap_nil, splitlines, splitlinesFrom_append hl, List.nil_append, splitlinesFrom]
      simp [hne rfl]
  | cons m ms ih =>
      intro l hl _
      have hm : ∀ c ∈ m, isBoundary c = false := hls m (List.mem_cons_self ..)
      have hrest := ih (fun k hk => hls k (List.mem_cons_of_mem _ hk))
        (fun k hk => hlast k (by
          cases ms with
          | nil => cases hk
          | cons k' ms => rw [List.getLast?_cons_cons]; exact hk)) hm
        (fun hms => hlast m (by rw [hms]; rfl))
      rw [List.flatMap_cons, splitlines, splitlinesFrom_append hl, List.nil_append,
        List.cons_append, splitlinesFrom]
      rw [if_pos (by decide), if_neg fun h => absurd h.1 (by decide)]
      exact congrArg (l :: ·) hrest

/-! ### Patterns -/

/-- A literal at the front of a text, and what follows it. -/
def literal (lit s : Text) : Option Text :=
  if lit.isPrefixOf s then some (s.drop lit.length) else none

/-- `(\d)` at the front of a text: the digit, and what follows it. -/
def digit : Text → Option (ℕ × Text)
  | [] => none
  | c :: s => if c.isDigit then some (c.toNat - '0'.toNat, s) else none

/-- `\s*` at the front of a text: what follows it. -/
def spaces (s : Text) : Text := s.dropWhile isSpace

/-- `(\S+)` at the front of a text. -/
def word (s : Text) : Option Text :=
  let group := s.takeWhile fun c => !isSpace c
  if group.isEmpty then none else some group

/-! ### Representation -/

/-- Two hexadecimal digits of a byte. -/
def hexByte (n : ℕ) : Text :=
  let ds := Nat.toDigits 16 n
  List.replicate (2 - ds.length) '0' ++ ds

/-- `repr(s)`: quoted, with escapes. -/
def repr (s : Text) : Text :=
  let quote := if s.contains '\'' && !s.contains '"' then '"' else '\''
  let escape (c : Char) : Text :=
    if c == '\\' || c == quote then ['\\', c]
    else if c == '\n' then ['\\', 'n']
    else if c == '\r' then ['\\', 'r']
    else if c == '\t' then ['\\', 't']
    else if c.toNat < 32 || c.toNat == 127 then ['\\', 'x'] ++ hexByte c.toNat
    else [c]
  [quote] ++ s.flatMap escape ++ [quote]

end Py

end Afm
