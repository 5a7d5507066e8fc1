/-
**The status text, printed and read.**

The board prints its routing and its gains line by line.  Three parsers read that text again: the
two scanners of `BoardProtocol`, which the server uses, and `BoardStatus.from_response` of the Python
client.  The lines are cut at the carriage return by the driver and joined with line feeds, and each
parser has its own idea of a line.

Main definitions:

* `Afm.Firmware.statusLines`, `Afm.Firmware.statusText` — the lines of the status, and the text the
  driver makes of them;
* `Afm.Py.BoardStatus`, `Afm.Py.BoardStatus.fromResponse` — the parser of the client.

Main results:

* `Afm.Firmware.muxPrintStatus_eq` — what `MUX_PrintStatus` prints are these lines;
* `Afm.Board.parseGainStatus_statusText`, `Afm.Board.parseRoutingStatus_statusText`,
  `Afm.Py.BoardStatus.fromResponse_statusText` — **all three parsers read the state of the board**.
-/

import RedPitayaAfm.BoardUart
import RedPitayaAfm.MuxControl
import RedPitayaAfm.PyText

set_option relaxedAutoImplicit false
set_option autoImplicit false

namespace Afm

/-! ### The lines of a status -/

namespace Firmware

/-- What an output is connected to, as the status says it. -/
def targetText : Option (Fin 4) → Text
  | none => "X (disconnected)".toList
  | some input => "IN".toList ++ toText (input.val + 1)

/-- The line of an output. -/
def routingText (output : Fin 4) (input : Option (Fin 4)) : Text :=
  "  OUT".toList ++ toText (output.val + 1) ++ " <- ".toList ++ targetText input

/-- The line of an input. -/
def gainText (channel : Fin 4) (gain : Fin 8) : Text :=
  "  IN".toList ++ toText (channel.val + 1) ++ ": x".toList ++ ampGainToString gain

/-- The lines of the routing. -/
def routingLines (s : Switches) : List Text :=
  (List.finRange 4).map fun i => routingText i (s.muxRouting i)

/-- The lines of the gains. -/
def gainLines (s : Switches) : List Text :=
  (List.finRange 4).map fun i => gainText i (s.ampGains i)

/-- The lines of a status. -/
def statusLines (s : Switches) : List Text :=
  "=== MUX Status ===".toList :: "Routing:".toList :: (routingLines s
    ++ "Gains:".toList :: (gainLines s ++ ["==================".toList]))

/-- What holds of the titles, of every routing line and of every gain line holds of every line of
the status. -/
theorem forall_mem_statusLines {p : Text → Prop}
    (htitle : ∀ l ∈ ["=== MUX Status ===".toList, "Routing:".toList, "Gains:".toList,
      "==================".toList], p l)
    (hrouting : ∀ output input, p (routingText output input))
    (hgain : ∀ channel gain, p (gainText channel gain)) (s : Switches) :
    ∀ l ∈ statusLines s, p l := by
  intro l hl
  simp only [statusLines, routingLines, gainLines, List.mem_cons, List.mem_append, List.mem_map,
    List.not_mem_nil, or_false] at hl
  rcases hl with rfl | rfl | ⟨output, -, rfl⟩ | rfl | ⟨channel, -, rfl⟩ | rfl
  · exact htitle _ (by simp)
  · exact htitle _ (by simp)
  · exact hrouting output _
  · exact htitle _ (by simp)
  · exact hgain channel _
  · exact htitle _ (by simp)

/-- What `MUX_PrintStatus` prints are an empty line and the lines of the status. -/
theorem muxPrintStatus_eq (s : Switches) :
    muxPrintStatus s = newLine ++ (statusLines s).flatMap (· ++ newLine) := by
  unfold muxPrintStatus statusLines routingLines gainLines routingText gainText
  simp only [List.flatMap_cons, List.flatMap_append, List.flatMap_map, List.flatMap_nil,
    List.append_assoc, List.append_nil]
  rfl

/-- Lines joined with line feeds, each behind one. -/
def behindNewlines (ls : List Text) : Text := ls.flatMap ('\n' :: ·)

/-- The text the driver makes of the status. -/
def statusText (s : Switches) : Text :=
  "=== MUX Status ===\nRouting:".toList ++ (behindNewlines (routingLines s) ++ ['\n'])
    ++ ("Gains:".toList ++ behindNewlines (gainLines s ++ ["==================".toList]))

end Firmware

/-! ### The scanners of the driver -/

namespace Board

open Firmware StringScan

/-- A line in front of a section. -/
theorem sectionLines_line {l : Text} (hl : '\n' ∉ l) (s : Text) :
    sectionLines '\n' (l ++ '\n' :: s) = l :: sectionLines '\n' s := by
  have hno : ∀ c ∈ l, ('\n' == c) = false := by
    intro c hc
    rw [beq_eq_false_iff_ne]
    rintro rfl
    exact hl hc
  rw [sectionLines, Lines.lines_line_append _ hno (by decide), Lines.rest_line_append _ hno (by decide),
    sectionLines]
  rfl

/-- The last line of a section may lack its terminator. -/
theorem sectionLines_last {l : Text} (hl : '\n' ∉ l) (hne : l ≠ []) : sectionLines '\n' l = [l] := by
  have hno : ∀ c ∈ l, ('\n' == c) = false := by
    intro c hc
    rw [beq_eq_false_iff_ne]
    rintro rfl
    exact hl hc
  rw [sectionLines, Lines.lines_of_no_nl _ hno, Lines.rest_of_no_nl _ hno]
  simp [hne]

/-- Lines in front of a section. -/
theorem sectionLines_behindNewlines {ls : List Text} (hls : ∀ l ∈ ls, '\n' ∉ l) (s : Text) :
    ∀ {l : Text}, '\n' ∉ l → sectionLines '\n' (l ++ (behindNewlines ls ++ '\n' :: s))
      = l :: (ls ++ sectionLines '\n' s) := by
  induction ls with
  | nil => exact fun hl => sectionLines_line hl s
  | cons m ms ih =>
      intro l hl
      have hm : '\n' ∉ m := hls m (List.mem_cons_self ..)
      have hms := ih (fun k hk => hls k (List.mem_cons_of_mem _ hk)) hm
      have hcons : l ++ (behindNewlines (m :: ms) ++ '\n' :: s)
          = l ++ '\n' :: (m ++ (behindNewlines ms ++ '\n' :: s)) := by
        simp [behindNewlines]
      rw [hcons, sectionLines_line hl, hms]
      rfl

theorem newline_not_mem_routingLines (s : Switches) : ∀ l ∈ routingLines s, '\n' ∉ l := by
  have hall : ∀ i input, '\n' ∉ routingText i input := by decide
  intro l hl
  obtain ⟨i, -, rfl⟩ := List.mem_map.1 hl
  exact hall i _

theorem newline_not_mem_gainLines (s : Switches) : ∀ l ∈ gainLines s, '\n' ∉ l := by
  have hall : ∀ i gain, '\n' ∉ gainText i gain := by decide
  intro l hl
  obtain ⟨i, -, rfl⟩ := List.mem_map.1 hl
  exact hall i _

/-- The gain a line shows. -/
theorem gainStep_gainText (out : List (Option GainSetting)) (channel : Fin 4) (gain : Fin 8) :
    gainStep numChannels out (gainText channel gain)
      = write out channel (some (GainSetting.ofIndex gain)) := by
  have hline : ∀ channel gain, gainLine (gainText channel gain) numChannels 0
      (gainText channel gain).length = .ok (some (channel.val, GainSetting.ofIndex gain)) := by
    decide
  rw [gainStep, hline]
  rfl

/-- The connection a line shows. -/
theorem routingStep_routingText (out : List (Option ℕ)) (output : Fin 4)
    (input : Option (Fin 4)) :
    routingStep numChannels out (routingText output input)
      = write out output (some ((input.map Fin.val).getD disconnected)) := by
  have hline : ∀ output input, routingLine (routingText output input) numChannels 0
      (routingText output input).length
        = .ok (some (output.val, (input.map Fin.val).getD disconnected)) := by
    decide
  rw [routingStep, hline]
  rfl

/-- **The gains the server reads** are those of the board. -/
theorem parseGainStatus_statusText (s : Switches) :
    parseGainStatus (statusText s) numChannels
      = .ok (some ((List.finRange 4).map fun i => some (GainSetting.ofIndex (s.ampGains i)))) := by
  obtain ⟨before, hbefore⟩ : ∃ before, before = "=== MUX Status ===\nRouting:".toList
      ++ (behindNewlines (routingLines s) ++ ['\n']) := ⟨_, rfl⟩
  have hno : 'G' ∉ before := by
    have hall : ∀ i input, 'G' ∉ routingText i input := by decide
    rw [hbefore, behindNewlines, List.mem_append, List.mem_append, List.mem_flatMap]
    rintro (hmem | ⟨l, hl, hmem⟩ | hmem)
    · exact absurd hmem (by decide)
    · obtain ⟨i, -, rfl⟩ := List.mem_map.1 hl
      rcases List.mem_cons.1 hmem with heq | hmem
      · exact absurd heq (by decide)
      · exact hall i _ hmem
    · exact absurd hmem (by decide)
  obtain ⟨sec, hsec⟩ : ∃ sec, sec = behindNewlines (gainLines s ++ ["==================".toList]) :=
    ⟨_, rfl⟩
  have htext : statusText s = (before ++ "Gains:".toList) ++ sec := by
    rw [hbefore, hsec]
    exact (List.append_assoc _ _ _).symm
  -- no `G` stands before the title of the section, so the title is found
  have hfind : find "Gains:".toList (before ++ "Gains:".toList ++ sec) 0 = some before.length := by
    rw [List.append_assoc]
    exact find_of_not_mem (by decide) hno sec
  have hlines : sectionLines '\n' sec = [] :: (gainLines s ++ ["==================".toList]) := by
    have hcut := sectionLines_behindNewlines (newline_not_mem_gainLines s) "==================".toList
      (l := []) List.not_mem_nil
    rw [sectionLines_last (l := "==================".toList) (by decide) (by decide)] at hcut
    rw [← hcut, hsec]
    simp [behindNewlines]
  have hnothing : ∀ out, gainStep numChannels out [] = .ok out := fun _ => rfl
  have hrule : ∀ out, gainStep numChannels out "==================".toList = .ok out := by
    have hline : gainLine "==================".toList numChannels 0 "==================".toList.length
        = .ok none := by decide
    intro out
    rw [gainStep, hline]
    rfl
  have hgains : gainLines s = [gainText 0 (s.ampGains 0), gainText 1 (s.ampGains 1),
      gainText 2 (s.ampGains 2), gainText 3 (s.ampGains 3)] := rfl
  rw [htext, parseGainStatus_eq numChannels hfind (by rw [List.length_append]; rfl), hlines, hgains]
  simp only [List.cons_append, List.nil_append, List.foldlM_cons, List.foldlM_nil, hnothing, hrule,
    gainStep_gainText]
  rfl

/-- **The routing the server reads** is that of the board. -/
theorem parseRoutingStatus_statusText (s : Switches) :
    parseRoutingStatus (statusText s) numChannels
      = .ok (some ((List.finRange 4).map fun i =>
          some (((s.muxRouting i).map Fin.val).getD disconnected))) := by
  obtain ⟨sec, hsec⟩ : ∃ sec, sec = behindNewlines (routingLines s) ++ ['\n'] := ⟨_, rfl⟩
  obtain ⟨after, hafter⟩ : ∃ after, after =
      "Gains:".toList ++ behindNewlines (gainLines s ++ ["==================".toList]) := ⟨_, rfl⟩
  -- without a `G` the section runs up to the title of the next one
  have hno : 'G' ∉ sec := by
    have hall : ∀ i input, 'G' ∉ routingText i input := by decide
    rw [hsec, behindNewlines, List.mem_append, List.mem_flatMap]
    rintro (⟨l, hl, hmem⟩ | hmem)
    · obtain ⟨i, -, rfl⟩ := List.mem_map.1 hl
      rcases List.mem_cons.1 hmem with heq | hmem
      · exact absurd heq (by decide)
      · exact hall i _ hmem
    · exact absurd hmem (by decide)
  obtain ⟨title, htitle⟩ : ∃ title, title = "=== MUX Status ===\n".toList := ⟨_, rfl⟩
  have htext : statusText s = (title ++ "Routing:".toList) ++ sec ++ after := by
    have hsplit : "=== MUX Status ===\nRouting:".toList
        = "=== MUX Status ===\n".toList ++ "Routing:".toList := by decide
    rw [htitle, ← hsplit, hsec, hafter]
    rfl
  have hfind : find "Routing:".toList (title ++ "Routing:".toList ++ sec ++ after) 0
      = some title.length := by
    rw [List.append_assoc, List.append_assoc, ← List.append_assoc "Routing:".toList]
    exact find_of_not_mem (c := 'R') (by decide) (by rw [htitle]; decide) _
  have hend : find "Gains:".toList (title ++ "Routing:".toList ++ sec ++ after) title.length
      = some (title.length + ("Routing:".toList ++ sec).length) := by
    have hno' : 'G' ∉ "Routing:".toList ++ sec := by
      rw [List.mem_append]
      rintro (hmem | hmem)
      · exact absurd hmem (by decide)
      · exact hno hmem
    have hskip := find_append_left "Gains:".toList title ("Routing:".toList ++ sec ++ after) 0
    rw [Nat.add_zero, hafter, find_of_not_mem (by decide) hno' _] at hskip
    rw [List.append_assoc title, List.append_assoc title, hafter]
    exact hskip
  have hlines : sectionLines '\n' sec = [] :: routingLines s := by
    have hcut := sectionLines_behindNewlines (newline_not_mem_routingLines s) []
      (l := []) List.not_mem_nil
    rw [hsec]
    simpa [sectionLines] using hcut
  have hhead : after.head? ≠ some '-' := by
    have hgains : "Gains:".toList = 'G' :: "ains:".toList := by decide
    rw [hafter, hgains, List.cons_append, List.head?_cons]
    decide
  have hnothing : ∀ out, routingStep numChannels out [] = .ok out := fun _ => rfl
  have hrouting : routingLines s = [routingText 0 (s.muxRouting 0), routingText 1 (s.muxRouting 1),
      routingText 2 (s.muxRouting 2), routingText 3 (s.muxRouting 3)] := rfl
  rw [htext, parseRoutingStatus_eq numChannels hfind (by rw [List.length_append]; rfl)
    (by rw [hend, Option.getD_some]; simp only [List.length_append]; omega)
    hhead, hlines, hrouting]
  simp only [List.foldlM_cons, List.foldlM_nil, hnothing, routingStep_routingText]
  rfl

end Board

/-! ### The parser of the client -/

namespace Py

/-- `BoardStatus`: dictionaries from connector numbers, to the input of an output or `None`, and to
the gain label of an input. -/
structure BoardStatus where
  routing : ℕ → Option (Option ℕ) := fun _ => none
  gains : ℕ → Option Text := fun _ => none

namespace BoardStatus

open Firmware

/-- `re.match(r'^OUT(\d)\s*<-\s*IN(\d)', line)` -/
def matchRouted (line : Text) : Option (ℕ × ℕ) := do
  let s ← literal "OUT".toList line
  let (output, s) ← digit s
  let s ← literal "<-".toList (spaces s)
  let s ← literal "IN".toList (spaces s)
  let (input, _) ← digit s
  pure (output, input)

/-- `re.match(r'^OUT(\d)\s*<-\s*X', line)` -/
def matchOpen (line : Text) : Option ℕ := do
  let s ← literal "OUT".toList line
  let (output, s) ← digit s
  let s ← literal "<-".toList (spaces s)
  let _ ← literal "X".toList (spaces s)
  pure output

/-- `re.match(r'^IN(\d):\s*x(\S+)', line)` -/
def matchGain (line : Text) : Option (ℕ × Text) := do
  let s ← literal "IN".toList line
  let (input, s) ← digit s
  let s ← literal ":".toList s
  let s ← literal "x".toList (spaces s)
  let label ← word s
  pure (input, label)

/-- One line of the status. -/
def addLine (status : BoardStatus) (line : Text) : BoardStatus :=
  let line := strip line
  match matchRouted line with
  | some (output, input) =>
      { status with routing := Function.update status.routing output (some (some input)) }
  | none =>
      match matchOpen line with
      | some output => { status with routing := Function.update status.routing output (some none) }
      | none =>
          match matchGain line with
          | some (input, label) =>
              { status with gains := Function.update status.gains input (some label) }
          | none => status

/-- `from_response` -/
def fromResponse (response : Text) : BoardStatus := (splitlines response).foldl addLine {}

/-- The status of a board, by connector numbers. -/
def ofSwitches (s : Switches) : BoardStatus where
  routing n := if h : 1 ≤ n ∧ n ≤ 4 then
      some ((s.muxRouting ⟨n - 1, by omega⟩).map fun input => input.val + 1)
    else none
  gains n := if h : 1 ≤ n ∧ n ≤ 4 then some (ampGainToString (s.ampGains ⟨n - 1, by omega⟩))
    else none

/-- The line of an output. -/
theorem addLine_routingText (status : BoardStatus) (output : Fin 4) (input : Option (Fin 4)) :
    status.addLine (routingText output input) = { status with
      routing := Function.update status.routing (output.val + 1)
        (some (input.map fun input => input.val + 1)) } := by
  have hrouted : ∀ output input, matchRouted (strip (routingText output input))
      = input.map fun input => (output.val + 1, input.val + 1) := by decide
  have hopen : ∀ output, matchOpen (strip (routingText output none)) = some (output.val + 1) := by
    decide
  unfold addLine
  simp only [hrouted]
  cases input with
  | some input => rfl
  | none => simp only [Option.map_none, hopen]

/-- The line of an input. -/
theorem addLine_gainText (status : BoardStatus) (channel : Fin 4) (gain : Fin 8) :
    status.addLine (gainText channel gain) = { status with
      gains := Function.update status.gains (channel.val + 1) (some (ampGainToString gain)) } := by
  have hrouted : ∀ channel gain, matchRouted (strip (gainText channel gain)) = none := by
    decide
  have hopen : ∀ channel gain, matchOpen (strip (gainText channel gain)) = none := by decide
  have hgain : ∀ channel gain, matchGain (strip (gainText channel gain))
      = some (channel.val + 1, ampGainToString gain) := by decide
  unfold addLine
  simp only [hrouted, hopen, hgain]

/-- No line of the status contains a boundary. -/
theorem isBoundary_statusLines (s : Switches) :
    ∀ l ∈ statusLines s, ∀ c ∈ l, isBoundary c = false := by
  have hrouting : ∀ i input, (routingText i input).any isBoundary = false := by decide
  have hgain : ∀ i gain, (gainText i gain).any isBoundary = false := by decide
  have htitle : ∀ l ∈ ["=== MUX Status ===".toList, "Routing:".toList, "Gains:".toList,
      "==================".toList], l.any isBoundary = false := by decide
  intro l hl c hc
  have hnone := forall_mem_statusLines htitle hrouting hgain s l hl
  exact Bool.eq_false_iff.2 (List.any_eq_false.1 hnone c hc)

/-- The text is its lines, joined with line feeds. -/
theorem statusText_eq (s : Switches) : statusText s =
    "=== MUX Status ===".toList ++ behindNewlines (statusLines s).tail := by
  have hsplit : "=== MUX Status ===\nRouting:".toList
      = "=== MUX Status ===".toList ++ '\n' :: "Routing:".toList := by decide
  unfold statusText statusLines behindNewlines
  rw [hsplit]
  simp only [List.tail_cons, List.flatMap_cons, List.flatMap_append, List.cons_append,
    List.append_assoc, List.nil_append]

/-- **What the client reads** is the state of the board. -/
theorem fromResponse_statusText (s : Switches) : fromResponse (statusText s) = ofSwitches s := by
  have hlines : splitlines (statusText s) = statusLines s := by
    rw [statusText_eq]
    refine splitlines_joined ?_ ?_ ?_ ?_
    · exact fun l hl => isBoundary_statusLines s l (List.mem_of_mem_tail hl)
    · have hrule : (statusLines s).tail.getLast? = some "==================".toList := by
        simp [statusLines, List.getLast?_append, List.getLast?_cons]
      intro l hl
      obtain rfl := Option.some.inj (hrule.symm.trans hl)
      decide
    · exact isBoundary_statusLines s _ (List.mem_cons_self ..)
    · exact fun h => absurd h (List.cons_ne_nil _ _)
  -- titles and the rule match none of the three patterns
  have hskip : ∀ status : BoardStatus, ∀ l ∈ ["=== MUX Status ===".toList, "Routing:".toList,
      "Gains:".toList, "==================".toList], status.addLine l = status := by
    have hnone : ∀ l ∈ ["=== MUX Status ===".toList, "Routing:".toList, "Gains:".toList,
        "==================".toList], matchRouted (strip l) = none ∧ matchOpen (strip l) = none ∧
          matchGain (strip l) = none := by decide
    intro status l hl
    obtain ⟨hrouted, hopen, hgain⟩ := hnone l hl
    simp only [addLine, hrouted, hopen, hgain]
  have hall : statusLines s = ["=== MUX Status ===".toList, "Routing:".toList,
      routingText 0 (s.muxRouting 0), routingText 1 (s.muxRouting 1), routingText 2 (s.muxRouting 2),
      routingText 3 (s.muxRouting 3), "Gains:".toList, gainText 0 (s.ampGains 0),
      gainText 1 (s.ampGains 1), gainText 2 (s.ampGains 2), gainText 3 (s.ampGains 3),
      "==================".toList] := rfl
  rw [fromResponse, hlines, hall]
  simp only [List.foldl_cons, List.foldl_nil, hskip, List.mem_cons, true_or, or_true,
    addLine_routingText, addLine_gainText]
  refine BoardStatus.mk.injEq .. ▸ ⟨?_, ?_⟩
  · funext n
    rcases n with _ | _ | _ | _ | _ | n
    · rfl
    · rfl
    · rfl
    · rfl
    · rfl
    · simp
  · funext n
    rcases n with _ | _ | _ | _ | _ | n
    · rfl
    · rfl
    · rfl
    · rfl
    · rfl
    · simp

end BoardStatus

end Py

end Afm
