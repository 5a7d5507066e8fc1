/-
**The server's replies and the client's readers agree on the wire format.**

`Protocol.h` builds four kinds of reply and `AFMClient` has three readers.  For every reply the
server can build, whatever chunks its bytes arrive in, the reader of the call takes exactly the
bytes of the reply and returns what was put into it.

Main definitions:

* `Afm.Client.Consumes` — a call takes exactly the bytes of a reply and ends with a given result;
* `Afm.Client.legacySpectrumResponse` — the spectrum reply of older servers, without byte count;
* `Afm.Client.Printed` — the numbers of a spectrum print as fields that read back.

Main results:

* `Afm.Client.on_buildOkResponse`, `Afm.Client.on_buildTextResponse`,
  `Afm.Client.on_buildSpectrumResponse` and their companions — the readers on the replies;
* `Afm.Client.wire_format` — **the formats agree**, on every connection and for every chunking.
-/

import RedPitayaAfm.ClientLink

set_option relaxedAutoImplicit false
set_option autoImplicit false

namespace Afm

namespace Client

open Effect Lines

/-! ### A call and its reply -/

/-- Every line of a reply is a receive buffer shorter than the client's limit. -/
def ShortReply (reply : Text) : Prop :=
  ∀ l ∈ lines isNewline reply, l.length ≤ maxLineBytes - recvBufferSize

theorem ShortReply.not_longLine {reply : Text} (h : ShortReply reply) : ¬LongLine reply := by
  rintro ⟨l, hl, hlong⟩
  have hle := h l hl
  have hlt : recvBufferSize ≤ maxLineBytes := by decide
  omega

/-- On a connection without faults, where nothing was on the way and the server answers with
`reply`: the call ends, always with `r`, and it took exactly the bytes of the reply. -/
def Consumes {α : Type} (reply : Text) (call : Method α) (r : Except AfmError α) : Prop :=
  ∀ c w, c.connected = true → w.stream = [] →
    (∃ c' w', Runs (link false fun _ t => t = reply) w (call c) (r, c') w') ∧
    ∀ r' c' w', Runs (link false fun _ t => t = reply) w (call c) (r', c') w' →
      r' = r ∧ c'.connected = true ∧ c'.recvBuffer = [] ∧ w'.stream = []

/-- The result of an outcome that leaves nothing. -/
def Outcome.Ends {α : Type} (o : Outcome α) (r : Except AfmError α) : Prop :=
  match r with
  | .ok a => o = .returned a []
  | .error e => o = .raised e []

/-- A call whose reader takes all of the reply. -/
theorem consumes_of_on {α : Type} {rounds : ℕ} {command reply : Text} {reader : Reader α}
    {r : Except AfmError α} (hrounds : 0 < rounds) (hcommand : Sendable command)
    (hshort : ShortReply reply) (hon : (reader.on reply).Ends r) :
    Consumes reply (do
      flushBuffer rounds
      send command
      reader.run) r := by
  intro c w hc hs
  -- without faults the reader can neither be disconnected nor starve on a whole reply
  have hall : ∀ r' c' w', Runs (link false fun _ t => t = reply) w ((do
      flushBuffer rounds
      send command
      reader.run : Method α) c) (r', c') w' →
      r' = r ∧ c'.connected = true ∧ c'.recvBuffer = [] ∧ w'.stream = [] := by
    intro r' c' w' h
    cases query_runs hc hs h with
    | unsent e _ _ hwhy =>
        rcases hwhy rfl with h0 | hns
        · omega
        · exact absurd hcommand hns
    | empty hemp => exact absurd hemp hcommand.1
    | answered reply' ha _ _ hF =>
        subst ha
        cases hc' : c'.connected with
        | false =>
            rcases hF.lost hc' rfl with hst | hl
            · cases r <;> simp [Outcome.Ends, hst] at hon
            · exact absurd hl hshort.not_longLine
        | true =>
            have hg := hF.gives hc'
            cases r with
            | ok a =>
                rw [show reader.on reply' = .returned a [] from hon] at hg
                obtain ⟨rfl, hrest⟩ := hg
                simpa [ahead] using hrest
            | error e =>
                rw [show reader.on reply' = .raised e [] from hon] at hg
                obtain ⟨rfl, hrest⟩ := hg
                simpa [ahead] using hrest
  refine ⟨?_, hall⟩
  -- and there is a run, since the connection answers every call
  obtain ⟨⟨r', c'⟩, w', hrun⟩ := Prog.exists_runs (W := link false fun _ t => t = reply)
    (exists_linkStep fun _ => ⟨reply, rfl⟩)
    ((do
      flushBuffer rounds
      send command
      reader.run : Method α) c) w
  obtain rfl := (hall r' c' w' hrun).1
  exact ⟨c', w', hrun⟩

/-! ### One line -/

/-- A text that can be the content of a reply line. -/
structure LineText (s : Text) : Prop where
  ascii : isAscii s = true
  oneLine : '\n' ∉ s
  noCr : s.getLast? ≠ some '\r'

theorem not_isNewline {s : Text} (h : '\n' ∉ s) : ∀ c ∈ s, isNewline c = false := by
  intro c hc
  simp only [isNewline, beq_eq_false_iff_ne]
  rintro rfl
  exact h hc

/-- The lines of a reply that starts with a line. -/
theorem ShortReply.line {l s : Text} (h : ShortReply (l ++ '\n' :: s)) (hl : '\n' ∉ l) :
    l.length ≤ maxLineBytes ∧ ShortReply s := by
  have hlines : lines isNewline (l ++ '\n' :: s) = l :: lines isNewline s :=
    lines_line_append isNewline (not_isNewline hl) rfl s
  constructor
  · have := h l (by simp [hlines])
    omega
  · intro m hm
    exact h m (by simp [hlines, hm])

/-- Reading the line of a reply. -/
theorem on_replyLine {l s : Text} (h : LineText l) (hs : ShortReply (l ++ '\n' :: s))
    (timeout : Option ℚ) : (Reader.line timeout).on (l ++ '\n' :: s) = .returned l s :=
  Reader.on_line_append (not_isNewline h.oneLine) h.ascii h.noCr (hs.line h.oneLine).1 timeout s

theorem LineText.append {s t : Text} (hs : isAscii s = true ∧ '\n' ∉ s) (ht : LineText t)
    (hne : t ≠ []) : LineText (s ++ t) where
  ascii := by simp [hs.1, ht.ascii]
  oneLine := by simp [hs.2, ht.oneLine]
  noCr := by
    rw [List.getLast?_append_of_ne_nil _ hne]
    exact ht.noCr

/-- The data of a single-line reply that no reader takes for the header of a block. -/
structure OkData (data : Text) : Prop extends LineText data where
  notSpectrum : ¬"DATA ".toList <+: data
  notBlock : ∀ ds : Text, ds ≠ [] → (∀ c ∈ ds, c.isDigit = true) → data ≠ "LINES ".toList ++ ds

theorem OkData.fullmatchLines {data : Text} (h : OkData data) : Py.fullmatchLines data = none := by
  unfold Py.fullmatchLines
  split
  · rename_i hpre
    obtain ⟨ds, rfl⟩ := List.isPrefixOf_iff_prefix.1 hpre
    have hdrop : ("LINES ".toList ++ ds).drop 6 = ds := rfl
    simp only [hdrop]
    split
    · rename_i hds
      simp only [Bool.and_eq_true, Bool.not_eq_true', List.isEmpty_eq_false_iff, List.all_eq_true]
        at hds
      exact absurd rfl (h.notBlock ds hds.1 hds.2)
    · rfl
  · rfl

/-- `_execute` on a line with data. -/
theorem executeLine_ok {data : Text} (hne : data ≠ []) :
    executeLine ("OK ".toList ++ data) =
      if "DATA ".toList.isPrefixOf data then do
        discardSpectrumPayload data
        Act.throw (.protocol ("Server returned a spectrum response; use measure_sinc() ".toList
          ++ "or measure_sweep() to read it".toList))
      else
        match Py.fullmatchLines data with
        | some group => do
            let block ← readAnnounced group none
            pure (true, block)
        | none => pure (true, data) := by
  have hlen : 3 < ("OK ".toList ++ data).length := by
    have := List.length_pos_of_ne_nil hne
    simp
    omega
  have hpre : "OK ".toList.isPrefixOf ("OK ".toList ++ data) = true := by simp
  have hdrop : ("OK ".toList ++ data).drop 3 = data := rfl
  have hline : executeLine ("OK ".toList ++ data) = _ := if_pos (.inr hpre)
  rw [if_pos hlen, hdrop] at hline
  exact hline

/-- **`_execute` on an OK reply** returns its data. -/
theorem on_buildOkResponse {data : Text} (h : OkData data)
    (hs : ShortReply (buildOkResponse data)) :
    executeReply.on (buildOkResponse data) = .returned (true, data) [] := by
  by_cases hd : data = []
  · subst hd
    rfl
  have hline : LineText ("OK ".toList ++ data) := h.toLineText.append (by decide) hd
  have hreply : buildOkResponse data = ("OK ".toList ++ data) ++ '\n' :: [] := by
    simp [buildOkResponse, hd]
  have hdata : ¬"DATA ".toList.isPrefixOf data = true :=
    fun hp => h.notSpectrum (List.isPrefixOf_iff_prefix.1 hp)
  rw [hreply] at hs
  rw [hreply, executeReply, Reader.on_bind, on_replyLine hline hs, Outcome.bind_returned,
    executeLine_ok hd, if_neg hdata, h.fullmatchLines, Reader.on_pure]

/-! ### Error lines -/

/-- The line of an error reply. -/
def errorLine (status : ResponseStatus) (message : Text) : Text :=
  statusToString status ++ if message.isEmpty then [] else ": ".toList ++ message

theorem buildErrorResponse_eq (status : ResponseStatus) (message : Text) :
    buildErrorResponse status message = errorLine status message ++ '\n' :: [] := by
  simp [buildErrorResponse, errorLine]

theorem lineText_errorLine (status : ResponseStatus) {message : Text} (h : LineText message) :
    LineText (errorLine status message) := by
  unfold errorLine
  by_cases hm : message = []
  · subst hm
    cases status <;> exact ⟨by decide, by decide, by decide⟩
  · have hmsg : LineText (": ".toList ++ message) := h.append (by decide) hm
    have hemp : message.isEmpty = false := by simp [hm]
    simp only [hemp, Bool.false_eq_true, if_false]
    refine LineText.append ?_ hmsg (by simp)
    cases status <;> decide

/-- The line of an error reply starts with `ERR`, and not like an OK reply. -/
theorem errorLine_prefix {status : ResponseStatus} (hs : status ≠ .ok) (message : Text) :
    "ERR".toList.isPrefixOf (errorLine status message) = true ∧
      errorLine status message ≠ "OK".toList ∧
      "OK ".toList.isPrefixOf (errorLine status message) = false := by
  have hstart : ∃ t, errorLine status message = 'E' :: 'R' :: 'R' :: t := by
    have hstatus : ['E', 'R', 'R'] <+: statusToString status := by
      cases status with
      | ok => exact absurd rfl hs
      | _ => decide
    obtain ⟨u, hu⟩ := hstatus
    rw [errorLine, ← hu]
    exact ⟨_, rfl⟩
  obtain ⟨t, ht⟩ := hstart
  rw [ht]
  exact ⟨by simp [List.isPrefixOf], by simp, by simp [List.isPrefixOf]⟩

/-- `_execute` on an error reply returns its line. -/
theorem on_buildErrorResponse {status : ResponseStatus} (hs : status ≠ .ok) {message : Text}
    (h : LineText message) (hshort : ShortReply (buildErrorResponse status message)) :
    executeReply.on (buildErrorResponse status message)
      = .returned (false, errorLine status message) [] := by
  obtain ⟨herr, hok, hok'⟩ := errorLine_prefix hs message
  have hnot : ¬(errorLine status message = "OK".toList ∨
      "OK ".toList.isPrefixOf (errorLine status message) = true) := by
    simp only [hok', Bool.false_eq_true, or_false]
    exact hok
  rw [buildErrorResponse_eq] at hshort
  rw [buildErrorResponse_eq, executeReply, Reader.on_bind,
    on_replyLine (lineText_errorLine status h) hshort, Outcome.bind_returned, executeLine,
    if_neg hnot, if_pos herr]
  rfl

/-- The other two readers raise on an error reply. -/
theorem boardStatusReply_on_error {status : ResponseStatus} (hs : status ≠ .ok) {message : Text}
    (h : LineText message) (hshort : ShortReply (buildErrorResponse status message))
    (timeout : Option ℚ) :
    (boardStatusReply timeout).on (buildErrorResponse status message)
      = .raised (.command (errorLine status message)) [] := by
  obtain ⟨herr, -, -⟩ := errorLine_prefix hs message
  rw [buildErrorResponse_eq] at hshort
  rw [buildErrorResponse_eq, boardStatusReply, Reader.on_bind,
    on_replyLine (lineText_errorLine status h) hshort, Outcome.bind_returned, boardStatusLine,
    if_pos herr]
  rfl

theorem spectrumReply_on_error {F : Type} (float : Text → Option F) {status : ResponseStatus}
    (hs : status ≠ .ok) {message : Text} (h : LineText message)
    (hshort : ShortReply (buildErrorResponse status message)) (timeout : Option ℚ) :
    (spectrumReply float timeout).on (buildErrorResponse status message)
      = .raised (.command (errorLine status message)) [] := by
  obtain ⟨herr, -, -⟩ := errorLine_prefix hs message
  rw [buildErrorResponse_eq] at hshort
  rw [buildErrorResponse_eq, spectrumReply, Reader.on_bind,
    on_replyLine (lineText_errorLine status h) hshort, Outcome.bind_returned, spectrumLine,
    if_pos herr]
  rfl

/-! ### Text blocks -/

/-- Reading as many lines as there are. -/
theorem on_readLines {ls : List Text} (h : ∀ l ∈ ls, LineText l) {s : Text}
    (hs : ShortReply (ls.flatMap (· ++ ['\n']) ++ s)) (timeout : Option ℚ) :
    (readLines timeout ls.length).on (ls.flatMap (· ++ ['\n']) ++ s) = .returned ls s := by
  induction ls with
  | nil => rfl
  | cons l ls ih =>
      have hl : LineText l := h l (by simp)
      have heq : (l :: ls).flatMap (· ++ ['\n']) ++ s
          = l ++ '\n' :: (ls.flatMap (· ++ ['\n']) ++ s) := by simp
      rw [heq] at hs
      rw [heq, List.length_cons, readLines, Reader.on_bind, on_replyLine hl hs,
        Outcome.bind_returned, Reader.on_bind,
        ih (fun m hm => h m (by simp [hm])) (hs.line hl.oneLine).2]
      rfl

/-- The pieces of a split text are pieces of it, without the separator. -/
theorem mem_splitOn {x : Char} {xs l : Text} (hl : l ∈ xs.splitOn x) :
    ∀ c ∈ l, c ∈ xs ∧ c ≠ x := by
  induction xs generalizing l with
  | nil =>
      obtain rfl : l = [] := by simpa using hl
      simp
  | cons y ys ih =>
      rw [List.splitOn_cons_eq_if_modifyHead] at hl
      split at hl
      · rcases List.mem_cons.1 hl with rfl | hl
        · simp
        · intro c hc
          have := ih hl c hc
          exact ⟨by simp [this.1], this.2⟩
      · rename_i hy
        cases hs : ys.splitOn x with
        | nil => exact absurd hs (List.splitOn_ne_nil x ys)
        | cons m ms =>
            rw [hs, List.modifyHead_cons] at hl
            rcases List.mem_cons.1 hl with rfl | hl
            · intro c hc
              rcases List.mem_cons.1 hc with rfl | hc
              · exact ⟨by simp, by simpa using hy⟩
              · have := ih (l := m) (by simp [hs]) c hc
                exact ⟨by simp [this.1], this.2⟩
            · intro c hc
              have := ih (l := l) (by simp [hs, hl]) c hc
              exact ⟨by simp [this.1], this.2⟩

/-- The lines of an ASCII text. -/
theorem lineText_textLines {text : Text} (h : isAscii text = true) :
    ∀ l ∈ textLines text, LineText l := by
  intro l hl
  obtain ⟨raw, hraw, rfl⟩ := List.mem_map.1 hl
  have hmem := mem_splitOn hraw
  refine ⟨?_, ?_, ?_⟩
  · rw [isAscii, List.all_eq_true] at h ⊢
    intro c hc
    exact h c (hmem c (List.mem_filter.1 hc).1).1
  · intro hc
    exact (hmem _ (List.mem_filter.1 hc).1).2 rfl
  · intro hlast
    have := (List.mem_filter.1 (List.mem_of_getLast? hlast)).2
    simp at this

/-- A printed number as the text of a line. -/
theorem lineText_toText (n : ℕ) : LineText (toText n) := by
  have hdigit : ∀ {c : Char}, c ∈ toText n → c.isDigit = true := isDigit_of_mem_toText
  refine ⟨?_, ?_, ?_⟩
  · rw [isAscii, List.all_eq_true]
    intro c hc
    have h := hdigit hc
    simp only [Char.isDigit, Bool.and_eq_true, decide_eq_true_eq] at h
    have h₂ : c.toNat ≤ 57 := h.2
    simp
    omega
  · intro hc
    exact absurd (hdigit hc) (by decide)
  · intro hlast
    exact absurd (hdigit (List.mem_of_getLast? hlast)) (by decide)

/-- The header of a text block. -/
theorem lineText_linesHeader (n : ℕ) : LineText ("OK LINES ".toList ++ toText n) :=
  LineText.append (by decide) (lineText_toText n) (toText_ne_nil n)

/-- A text reply is its header line and its lines. -/
theorem buildTextResponse_eq (text : Text) : buildTextResponse text
    = ("OK LINES ".toList ++ toText (textLines text).length)
      ++ '\n' :: ((textLines text).flatMap (· ++ ['\n'])) := by
  unfold buildTextResponse
  rw [List.append_assoc, List.singleton_append]

/-- `_execute` on the header of a text block. -/
theorem executeLine_linesHeader (n : ℕ) :
    executeLine ("OK LINES ".toList ++ toText n) = (do
      let block ← readAnnounced (toText n) none
      pure (true, block)) := by
  have hhead : "OK LINES ".toList ++ toText n = "OK ".toList ++ ("LINES ".toList ++ toText n) := rfl
  have hdata : ¬"DATA ".toList.isPrefixOf ("LINES ".toList ++ toText n) = true := by
    simp [List.isPrefixOf]
  rw [hhead, executeLine_ok (by simp), if_neg hdata, Py.fullmatchLines_header]

/-- `_read_board_status_response` on the header of a text block. -/
theorem boardStatusLine_linesHeader (timeout : Option ℚ) (n : ℕ) :
    boardStatusLine timeout ("OK LINES ".toList ++ toText n)
      = readAnnounced (toText n) timeout := by
  have herr : ¬"ERR".toList.isPrefixOf ("OK LINES ".toList ++ toText n) = true := by
    simp [List.isPrefixOf]
  have hpre : "OK ".toList.isPrefixOf ("OK LINES ".toList ++ toText n) = true := by
    simp [List.isPrefixOf]
  have hdrop : ("OK LINES ".toList ++ toText n).drop 3 = "LINES ".toList ++ toText n := rfl
  rw [boardStatusLine, if_neg herr, if_pos hpre, hdrop, Py.fullmatchLines_header]

/-- The announced number of lines, when it is within the client's limit. -/
theorem readAnnounced_eq {n : ℕ} (h : n ≤ maxBoardStatusLines) (timeout : Option ℚ) :
    readAnnounced (toText n) timeout = (do
      let lines ← readLines timeout n
      pure (Py.joinLines lines)) := by
  have hdigits : Py.digits (toText n) = some n := by
    refine Py.digits_toText ((Py.length_toText_le (k := 3) (by decide) ?_).trans (by decide))
    have : maxBoardStatusLines < 10 ^ 3 := by decide
    omega
  rw [readAnnounced, hdigits]
  exact if_neg (by omega)

/-- **Both readers of a text block** return the text without its carriage returns. -/
theorem on_buildTextResponse {text : Text} (hascii : isAscii text = true)
    (hcount : (textLines text).length ≤ maxBoardStatusLines)
    (hs : ShortReply (buildTextResponse text)) (timeout : Option ℚ) :
    executeReply.on (buildTextResponse text) = .returned (true, text.filter (· != '\r')) [] ∧
      (boardStatusReply timeout).on (buildTextResponse text)
        = .returned (text.filter (· != '\r')) [] := by
  rw [buildTextResponse_eq] at hs
  have htail := (hs.line (lineText_linesHeader _).oneLine).2
  have hblock : ∀ timeout : Option ℚ, (readAnnounced (toText (textLines text).length) timeout).on
      ((textLines text).flatMap (· ++ ['\n'])) = .returned (text.filter (· != '\r')) [] := by
    intro timeout
    rw [← List.append_nil ((textLines text).flatMap _)] at htail ⊢
    rw [readAnnounced_eq hcount, Reader.on_bind, on_readLines (lineText_textLines hascii) htail,
      Outcome.bind_returned, Reader.on_pure, Py.joinLines_textLines]
  constructor
  · rw [buildTextResponse_eq, executeReply, Reader.on_bind,
      on_replyLine (lineText_linesHeader _) hs, Outcome.bind_returned, executeLine_linesHeader,
      Reader.on_bind, hblock, Outcome.bind_returned, Reader.on_pure]
  · rw [buildTextResponse_eq, boardStatusReply, Reader.on_bind,
      on_replyLine (lineText_linesHeader _) hs, Outcome.bind_returned, boardStatusLine_linesHeader,
      hblock]

/-! ### Spectra -/

/-- The spectrum reply of servers before 2.2.0: the header has no byte count. -/
def legacySpectrumResponse (fmt : RowFormat) (spectrum : List SpectrumPoint) : Text :=
  "OK DATA ".toList ++ toText spectrum.length ++ ['\n'] ++ spectrumPayload fmt spectrum

/-- The columns of the points print as fields, and `float` reads them back as `value` says. -/
structure Printed {F : Type} (fmt : RowFormat) (float : Text → Option F)
    (value : SpectrumPoint → F × F × F) (spectrum : List SpectrumPoint) : Prop where
  freqKHz : ∀ pt ∈ spectrum, CsvSafe (fmt.freqKHz pt.freqKHz) ∧
    float (fmt.freqKHz pt.freqKHz) = some (value pt).1
  magnitude : ∀ pt ∈ spectrum, CsvSafe (fmt.magnitude pt.magnitude) ∧
    float (fmt.magnitude pt.magnitude) = some (value pt).2.1
  phaseRad : ∀ pt ∈ spectrum, CsvSafe (fmt.phaseRad pt.phaseRad) ∧
    float (fmt.phaseRad pt.phaseRad) = some (value pt).2.2

section Spectrum

variable {F : Type} {fmt : RowFormat} {float : Text → Option F} {value : SpectrumPoint → F × F × F}
  {spectrum : List SpectrumPoint}

theorem comma_not_mem {s : Text} (h : CsvSafe s) : ',' ∉ s := fun hc => (h.2 _ hc).2.1 rfl

/-- A row is one line. -/
theorem lineText_row {pt : SpectrumPoint} (hf : CsvSafe (fmt.freqKHz pt.freqKHz))
    (hm : CsvSafe (fmt.magnitude pt.magnitude)) (hp : CsvSafe (fmt.phaseRad pt.phaseRad)) :
    LineText (fmt.row pt) := by
  have hmem : ∀ c ∈ fmt.row pt, c.toNat < 128 ∧ c ≠ '\r' ∧ c ≠ '\n' := by
    intro c hc
    simp only [RowFormat.row, List.mem_append, List.mem_singleton] at hc
    rcases hc with (((hc | rfl) | hc) | rfl) | hc
    · exact ⟨(hf.2 c hc).1, (hf.2 c hc).2.2⟩
    · decide
    · exact ⟨(hm.2 c hc).1, (hm.2 c hc).2.2⟩
    · decide
    · exact ⟨(hp.2 c hc).1, (hp.2 c hc).2.2⟩
  refine ⟨?_, fun hc => (hmem _ hc).2.2 rfl, fun hl => (hmem _ (List.mem_of_getLast? hl)).2.1 rfl⟩
  rw [isAscii, List.all_eq_true]
  exact fun c hc => by simpa using (hmem c hc).1

/-- A row reads back. -/
theorem parseSpectrumRow_row (h : Printed fmt float value spectrum) {pt : SpectrumPoint}
    (hpt : pt ∈ spectrum) (index : ℕ) :
    parseSpectrumRow float (fmt.row pt) index = .ok (value pt) := by
  obtain ⟨hf, hf'⟩ := h.freqKHz pt hpt
  obtain ⟨hm, hm'⟩ := h.magnitude pt hpt
  obtain ⟨hp, hp'⟩ := h.phaseRad pt hpt
  have hsplit : (fmt.row pt).splitOn ','
      = [fmt.freqKHz pt.freqKHz, fmt.magnitude pt.magnitude, fmt.phaseRad pt.phaseRad] := by
    have heq : fmt.row pt = fmt.freqKHz pt.freqKHz
        ++ ',' :: (fmt.magnitude pt.magnitude ++ ',' :: fmt.phaseRad pt.phaseRad) := by
      simp [RowFormat.row]
    rw [heq, List.splitOn_append_cons_self_of_not_mem (comma_not_mem hf),
      List.splitOn_append_cons_self_of_not_mem (comma_not_mem hm),
      List.splitOn_eq_singleton (comma_not_mem hp)]
  rw [parseSpectrumRow, hsplit]
  simp [hf', hm', hp']

theorem parseSpectrumRows_rows (h : Printed fmt float value spectrum) (index : ℕ) :
    parseSpectrumRows float index (spectrum.map fmt.row) = .ok (spectrum.map value) := by
  have hall : ∀ pts : List SpectrumPoint, (∀ pt ∈ pts, pt ∈ spectrum) → ∀ index,
      parseSpectrumRows float index (pts.map fmt.row) = .ok (pts.map value) := by
    intro pts
    induction pts with
    | nil => exact fun _ _ => rfl
    | cons pt pts ih =>
        intro hpts index
        rw [List.map_cons, parseSpectrumRows, parseSpectrumRow_row h (hpts pt (by simp)),
          ih fun q hq => hpts q (by simp [hq])]
        rfl
  exact hall spectrum (fun _ => id) index

theorem lineText_rows (h : Printed fmt float value spectrum) :
    ∀ l ∈ spectrum.map fmt.row, LineText l := by
  intro l hl
  obtain ⟨pt, hpt, rfl⟩ := List.mem_map.1 hl
  exact lineText_row (h.freqKHz pt hpt).1 (h.magnitude pt hpt).1 (h.phaseRad pt hpt).1

theorem spectrumPayload_eq : spectrumPayload fmt spectrum
    = (spectrum.map fmt.row).flatMap (· ++ ['\n']) := by
  simp [spectrumPayload, List.flatMap_map]

/-- Splitting terminated lines at newlines leaves an empty piece at the end. -/
theorem splitOn_lines {ls : List Text} (h : ∀ l ∈ ls, '\n' ∉ l) :
    (ls.flatMap (· ++ ['\n'])).splitOn '\n' = ls ++ [[]] := by
  induction ls with
  | nil => rfl
  | cons l ls ih =>
      have heq : (l :: ls).flatMap (· ++ ['\n']) = l ++ '\n' :: ls.flatMap (· ++ ['\n']) := by simp
      rw [heq, List.splitOn_append_cons_self_of_not_mem (h l (by simp)),
        ih fun m hm => h m (by simp [hm])]
      rfl

/-- The bulk payload reads back. -/
theorem parseSpectrumPayload_payload (h : Printed fmt float value spectrum) :
    parseSpectrumPayload float (spectrumPayload fmt spectrum) (spectrum.length : ℤ)
      = .ok (SpectrumData.ofRows (spectrum.map value)) := by
  have hsplit : (spectrumPayload fmt spectrum).splitOn '\n' = spectrum.map fmt.row ++ [[]] := by
    rw [spectrumPayload_eq, splitOn_lines fun l hl => (lineText_rows h l hl).oneLine]
  rw [parseSpectrumPayload, hsplit]
  simp [parseSpectrumRows_rows h, Except.map]

theorem readSpectrumRows_payload (h : Printed fmt float value spectrum)
    (hs : ShortReply (spectrumPayload fmt spectrum)) (timeout : Option ℚ) :
    (readSpectrumRows float timeout 0 spectrum.length).on (spectrumPayload fmt spectrum)
      = .returned (spectrum.map value) [] := by
  have hall : ∀ pts : List SpectrumPoint, (∀ pt ∈ pts, pt ∈ spectrum) →
      ShortReply (spectrumPayload fmt pts) → ∀ index,
      (readSpectrumRows float timeout index pts.length).on (spectrumPayload fmt pts)
        = .returned (pts.map value) [] := by
    intro pts
    induction pts with
    | nil => exact fun _ _ _ => rfl
    | cons pt pts ih =>
        intro hpts hs index
        have heq : spectrumPayload fmt (pt :: pts)
            = fmt.row pt ++ '\n' :: spectrumPayload fmt pts := by
          simp [spectrumPayload]
        have hpt := hpts pt (by simp)
        have hline := lineText_rows h _ (List.mem_map_of_mem hpt)
        rw [heq] at hs
        rw [heq, List.length_cons, readSpectrumRows, Reader.on_bind, on_replyLine hline hs,
          Outcome.bind_returned, parseSpectrumRow_row h hpt, Reader.on_bind]
        simp only [Act.ofExcept_ok, Reader.on_pure, Outcome.bind_returned]
        rw [Reader.on_bind, ih (fun q hq => hpts q (by simp [hq])) (hs.line hline.oneLine).2
          (index + 1)]
        rfl
  exact hall spectrum (fun _ => id) hs 0

/-- The words of a spectrum header. -/
theorem split_spectrumHeader (t : Text) :
    Py.split ("OK DATA ".toList ++ t) = "OK".toList :: "DATA".toList :: Py.split t := by
  have heq : "OK DATA ".toList ++ t = "OK".toList ++ ' ' :: ("DATA".toList ++ ' ' :: t) := by simp
  have hok : ∀ c ∈ "OK".toList, Py.isSpace c = false := by simp [Py.isSpace]
  have hdata : ∀ c ∈ "DATA".toList, Py.isSpace c = false := by simp [Py.isSpace]
  rw [heq, Py.split_word_append (by simp) hok (by rfl), Py.split_word_append (by simp) hdata (by rfl)]

theorem int_rows {n : ℕ} (h : n ≤ maxSpectrumRows) : Py.int (toText n) = some (n : ℤ) := by
  have hlt : maxSpectrumRows < 10 ^ 5 := by decide
  exact Py.int_toText ((Py.length_toText_le (k := 5) (by decide) (by omega)).trans (by decide))

theorem int_bytes {n : ℕ} (h : n ≤ maxSpectrumBytes) : Py.int (toText n) = some (n : ℤ) := by
  have hlt : maxSpectrumBytes < 10 ^ 7 := by decide
  exact Py.int_toText ((Py.length_toText_le (k := 7) (by decide) (by omega)).trans (by decide))

/-- A header in range passes the checks. -/
theorem check_header {rows : ℕ} (hr : rows ≤ maxSpectrumRows) (bytes : Option ℕ)
    (hb : ∀ n ∈ bytes, n ≤ maxSpectrumBytes) :
    parseSpectrumHeader.check rows (bytes.map Nat.cast)
      = .ok ((rows : ℤ), bytes.map Nat.cast) := by
  have hrows : ¬((rows : ℤ) < 0 ∨ (maxSpectrumRows : ℤ) < rows) := by omega
  cases bytes with
  | none => exact if_neg hrows
  | some n =>
      have hn := hb n rfl
      have hbytes : ¬((n : ℤ) < 0 ∨ (maxSpectrumBytes : ℤ) < n) := by omega
      exact (if_neg hrows).trans (if_neg hbytes)

/-- A header is its words, when the first two are right and the others are numbers. -/
theorem parseSpectrumHeader_words {header a : Text} {rows : ℤ} {more : List Text}
    (hsplit : Py.split header = "OK".toList :: "DATA".toList :: a :: more)
    (ha : Py.int a = some rows) :
    parseSpectrumHeader header = match more.head?.map Py.int with
      | none => parseSpectrumHeader.check rows none
      | some (some bytes) => parseSpectrumHeader.check rows (some bytes)
      | some none => .error (.protocol ("Malformed spectrum header: ".toList ++ header)) := by
  have hcond : (decide (("OK".toList :: "DATA".toList :: a :: more).length < 3)
      || (("OK".toList :: "DATA".toList :: a :: more)[0]? != some "OK".toList)
      || (("OK".toList :: "DATA".toList :: a :: more)[1]? != some "DATA".toList)) = false := by
    simp
  have h2 : ("OK".toList :: "DATA".toList :: a :: more)[2]?.bind Py.int = some rows := ha
  have h3 : ("OK".toList :: "DATA".toList :: a :: more)[3]?.map Py.int = more.head?.map Py.int := by
    cases more <;> rfl
  simp only [parseSpectrumHeader, hsplit, hcond, h2, h3]
  rcases more.head?.map Py.int with _ | _ | _ <;> rfl

/-- The header with a byte count. -/
theorem parseSpectrumHeader_bulk {rows bytes : ℕ} (hr : rows ≤ maxSpectrumRows)
    (hb : bytes ≤ maxSpectrumBytes) :
    parseSpectrumHeader ("OK DATA ".toList ++ (toText rows ++ ' ' :: toText bytes))
      = .ok ((rows : ℤ), some (bytes : ℤ)) := by
  have hsplit : Py.split ("OK DATA ".toList ++ (toText rows ++ ' ' :: toText bytes))
      = ["OK".toList, "DATA".toList, toText rows, toText bytes] := by
    rw [split_spectrumHeader, Py.split_word_append (toText_ne_nil rows)
      (fun c hc => Py.isSpace_of_mem_toText hc) (by rfl), Py.split_word (toText_ne_nil bytes)
      fun c hc => Py.isSpace_of_mem_toText hc]
  rw [parseSpectrumHeader_words hsplit (int_rows hr), List.head?_cons, Option.map_some,
    int_bytes hb]
  exact check_header hr (some bytes) fun n hn => by cases hn; exact hb

/-- The header without a byte count. -/
theorem parseSpectrumHeader_rows {rows : ℕ} (hr : rows ≤ maxSpectrumRows) :
    parseSpectrumHeader ("OK DATA ".toList ++ toText rows) = .ok ((rows : ℤ), none) := by
  have hsplit : Py.split ("OK DATA ".toList ++ toText rows)
      = ["OK".toList, "DATA".toList, toText rows] := by
    rw [split_spectrumHeader, Py.split_word (toText_ne_nil rows)
      fun c hc => Py.isSpace_of_mem_toText hc]
  rw [parseSpectrumHeader_words hsplit (int_rows hr)]
  exact check_header hr none (by simp)

/-- `_read_spectrum_response` on a spectrum header. -/
theorem spectrumLine_header (float : Text → Option F) (timeout : Option ℚ) (t : Text) :
    spectrumLine float timeout ("OK DATA ".toList ++ t) = (do
      let (numRows, numBytes) ← Act.ofExcept (parseSpectrumHeader ("OK DATA ".toList ++ t))
      match numBytes with
      | some n => do
          let payload ← Reader.exact n timeout
          if isAscii payload then Act.ofExcept (parseSpectrumPayload float payload numRows)
          else Act.throw (.protocol "Spectrum payload is not ASCII text".toList)
      | none => do
          let rows ← readSpectrumRows float timeout 0 numRows.toNat
          pure (SpectrumData.ofRows rows)) := by
  have herr : ¬"ERR".toList.isPrefixOf ("OK DATA ".toList ++ t) = true := by simp [List.isPrefixOf]
  have hok : ¬¬"OK".toList.isPrefixOf ("OK DATA ".toList ++ t) = true := by simp [List.isPrefixOf]
  have hline : spectrumLine float timeout ("OK DATA ".toList ++ t) = _ := if_neg herr
  exact hline.trans (if_neg hok)

/-- The header of a spectrum reply, without `OK DATA` in front. -/
def spectrumCounts (fmt : RowFormat) (spectrum : List SpectrumPoint) : Text :=
  toText spectrum.length ++ ' ' :: toText (spectrumPayload fmt spectrum).length

theorem lineText_spectrumHeader (fmt : RowFormat) (spectrum : List SpectrumPoint) :
    LineText ("OK DATA ".toList ++ spectrumCounts fmt spectrum) := by
  have hbytes : LineText (' ' :: toText (spectrumPayload fmt spectrum).length) :=
    LineText.append (s := [' ']) (by decide) (lineText_toText _) (toText_ne_nil _)
  have hboth := LineText.append
    ⟨(lineText_toText spectrum.length).ascii, (lineText_toText spectrum.length).oneLine⟩ hbytes
    (by simp)
  exact LineText.append (by decide) hboth (by simp [spectrumCounts])

/-- A spectrum reply is its header line and its payload. -/
theorem buildSpectrumResponse_eq (fmt : RowFormat) (spectrum : List SpectrumPoint) :
    buildSpectrumResponse fmt spectrum = ("OK DATA ".toList ++ spectrumCounts fmt spectrum)
      ++ '\n' :: spectrumPayload fmt spectrum := by
  have happ : ∀ a r b p : Text, a ++ r ++ [' '] ++ b ++ ['\n'] ++ p
      = (a ++ (r ++ ' ' :: b)) ++ '\n' :: p := by
    intro a r b p
    simp
  exact happ _ _ _ _

/-- **The bulk path**: header with a byte count, then one read of the whole payload. -/
theorem on_buildSpectrumResponse (h : Printed fmt float value spectrum)
    (hrows : spectrum.length ≤ maxSpectrumRows)
    (hbytes : (spectrumPayload fmt spectrum).length ≤ maxSpectrumBytes)
    (hs : ShortReply (buildSpectrumResponse fmt spectrum)) (timeout : Option ℚ) :
    (spectrumReply float timeout).on (buildSpectrumResponse fmt spectrum)
      = .returned (SpectrumData.ofRows (spectrum.map value)) [] := by
  have hascii : isAscii (spectrumPayload fmt spectrum) = true := by
    rw [spectrumPayload_eq, isAscii, List.all_eq_true]
    intro c hc
    obtain ⟨l, hl, hcl⟩ := List.mem_flatMap.1 hc
    rcases List.mem_append.1 hcl with hcl | hcl
    · exact List.all_eq_true.1 (lineText_rows h l hl).ascii c hcl
    · obtain rfl := List.mem_singleton.1 hcl
      rfl
  have hparse : parseSpectrumHeader ("OK DATA ".toList ++ spectrumCounts fmt spectrum)
      = .ok ((spectrum.length : ℤ), some ((spectrumPayload fmt spectrum).length : ℤ)) :=
    parseSpectrumHeader_bulk hrows hbytes
  have hexact := Reader.on_exact_append (spectrumPayload fmt spectrum) timeout []
  rw [List.append_nil] at hexact
  rw [buildSpectrumResponse_eq] at hs
  rw [buildSpectrumResponse_eq, spectrumReply, Reader.on_bind,
    on_replyLine (lineText_spectrumHeader fmt spectrum) hs, Outcome.bind_returned,
    spectrumLine_header, hparse, Act.ofExcept_ok, Reader.on_bind, Reader.on_pure,
    Outcome.bind_returned, Reader.on_bind, hexact, Outcome.bind_returned, if_pos hascii,
    parseSpectrumPayload_payload h]
  rfl

/-- **The row-by-row path** returns the same data. -/
theorem on_legacySpectrumResponse (h : Printed fmt float value spectrum)
    (hrows : spectrum.length ≤ maxSpectrumRows)
    (hs : ShortReply (legacySpectrumResponse fmt spectrum)) (timeout : Option ℚ) :
    (spectrumReply float timeout).on (legacySpectrumResponse fmt spectrum)
      = .returned (SpectrumData.ofRows (spectrum.map value)) [] := by
  have hreply : legacySpectrumResponse fmt spectrum = ("OK DATA ".toList ++ toText spectrum.length)
        ++ '\n' :: spectrumPayload fmt spectrum := by
    unfold legacySpectrumResponse
    rw [List.append_assoc, List.singleton_append]
  have hline : LineText ("OK DATA ".toList ++ toText spectrum.length) :=
    LineText.append (by decide) (lineText_toText _) (toText_ne_nil _)
  rw [hreply] at hs
  rw [hreply, spectrumReply, Reader.on_bind, on_replyLine hline hs, Outcome.bind_returned,
    spectrumLine_header, parseSpectrumHeader_rows hrows, Act.ofExcept_ok, Reader.on_bind,
    Reader.on_pure, Outcome.bind_returned, Reader.on_bind, Int.toNat_natCast,
    readSpectrumRows_payload h (hs.line hline.oneLine).2, Outcome.bind_returned, Reader.on_pure]

end Spectrum

/-! ### Agreement -/

/-- **The server's replies and the client's readers agree on the wire format.**  For every reply
the server can build whose lines keep within the client's limit, and every chunking of its bytes,
the reader of the call takes exactly the bytes of the reply and returns the data of an OK reply,
the line of an error reply, the text of a block without carriage returns, or the rows of a spectrum
as they were printed; for the last, with a byte count in the header or without. -/
theorem wire_format {F : Type} {rounds : ℕ} {command : Text} (hrounds : 0 < rounds)
    (hcommand : Sendable command) (float : Text → Option F) (timeout : Option ℚ) :
    (∀ data, OkData data → ShortReply (buildOkResponse data) →
      Consumes (buildOkResponse data) (execute rounds command) (.ok (true, data))) ∧
    (∀ status message, status ≠ .ok → LineText message →
      ShortReply (buildErrorResponse status message) →
      Consumes (buildErrorResponse status message) (execute rounds command)
          (.ok (false, errorLine status message)) ∧
        Consumes (buildErrorResponse status message) (getBoardStatus rounds)
          (.error (.command (errorLine status message))) ∧
        Consumes (buildErrorResponse status message) (measure float rounds command timeout)
          (.error (.command (errorLine status message)))) ∧
    (∀ text, isAscii text = true → (textLines text).length ≤ maxBoardStatusLines →
      ShortReply (buildTextResponse text) →
      Consumes (buildTextResponse text) (execute rounds command)
          (.ok (true, text.filter (· != '\r'))) ∧
        Consumes (buildTextResponse text) (getBoardStatus rounds)
          (.ok (text.filter (· != '\r')))) ∧
    (∀ fmt value spectrum, Printed fmt float value spectrum →
      spectrum.length ≤ maxSpectrumRows →
      (ShortReply (buildSpectrumResponse fmt spectrum) →
        (spectrumPayload fmt spectrum).length ≤ maxSpectrumBytes →
        Consumes (buildSpectrumResponse fmt spectrum) (measure float rounds command timeout)
          (.ok (SpectrumData.ofRows (spectrum.map value)))) ∧
      (ShortReply (legacySpectrumResponse fmt spectrum) →
        Consumes (legacySpectrumResponse fmt spectrum) (measure float rounds command timeout)
          (.ok (SpectrumData.ofRows (spectrum.map value))))) := by
  have hboard : Sendable "BOARD:STATUS?".toList := by
    refine ⟨by decide, by decide, ?_⟩
    simp
  refine ⟨fun data hd hs => ?_, fun status message hne hm hs => ⟨?_, ?_, ?_⟩,
    fun text ha hc hs => ⟨?_, ?_⟩, fun fmt value spectrum hp hr => ⟨fun hs hb => ?_, fun hs => ?_⟩⟩
  · exact consumes_of_on hrounds hcommand hs (on_buildOkResponse hd hs)
  · exact consumes_of_on hrounds hcommand hs (on_buildErrorResponse hne hm hs)
  · exact consumes_of_on hrounds hboard hs (boardStatusReply_on_error hne hm hs none)
  · exact consumes_of_on hrounds hcommand hs (spectrumReply_on_error float hne hm hs timeout)
  · exact consumes_of_on hrounds hcommand hs (on_buildTextResponse ha hc hs none).1
  · exact consumes_of_on hrounds hboard hs (on_buildTextResponse ha hc hs none).2
  · exact consumes_of_on hrounds hcommand hs (on_buildSpectrumResponse hp hr hb hs timeout)
  · exact consumes_of_on hrounds hcommand hs (on_legacySpectrumResponse hp hr hs timeout)

/-- A ping, and a spectrum of one point. -/
theorem wire_format_ping :
    Consumes (buildOkResponse "PONG".toList) (execute 1 "SYSTEM:PING".toList)
        (.ok (true, "PONG".toList)) ∧
      Consumes (buildSpectrumResponse .ostream [⟨100, 1 / 2, 0⟩])
        (measure (strtof .exact) 1 "SYSTEM:PING".toList none)
        (.ok (SpectrumData.ofRows [((100 : ℚ), (1 / 2 : ℚ), (0 : ℚ))])) := by
  have hping : Sendable "SYSTEM:PING".toList := ⟨by decide, by decide, by simp⟩
  have h := wire_format Nat.one_pos hping (strtof .exact) none
  refine ⟨h.1 "PONG".toList ⟨⟨by decide, by decide, by decide⟩, by decide, by simp⟩ ?_, ?_⟩
  · unfold ShortReply
    decide +kernel
  · refine (h.2.2.2 .ostream (fun pt => (pt.freqKHz, pt.magnitude, pt.phaseRad))
      [⟨100, 1 / 2, 0⟩] ⟨?_, ?_, ?_⟩ (by decide +kernel)).1 ?_ (by decide +kernel)
    · intro pt hpt
      obtain rfl := List.mem_singleton.1 hpt
      exact ⟨csvSafe_fixed 3 _, by decide +kernel⟩
    · intro pt hpt
      obtain rfl := List.mem_singleton.1 hpt
      exact ⟨csvSafe_scientific 6 _, by decide +kernel⟩
    · intro pt hpt
      obtain rfl := List.mem_singleton.1 hpt
      exact ⟨csvSafe_fixed 6 _, by decide +kernel⟩
    · unfold ShortReply
      decide +kernel

end Client

end Afm
