/-
**Which reply a call of the client returns.**

Replies carry no sequence number, so a call of the client is paired with its reply only because
nothing of an earlier reply is left when the call sends its command.  This module follows a whole
connection.  A call whose reader takes all of its reply, or disconnects, keeps that invariant.  The
readers break it in the few places where they raise in the middle of a reply and keep the
connection open: the rest of that reply then answers a later call.

Main definitions:

* `Afm.Client.ClientCall`, `Afm.Client.perform` — the calls;
* `Afm.Client.Session` — the states between the calls of one connection;
* `Afm.Client.Readable` — the replies whose reading never stops half-way with the connection open;
* `Afm.Client.OwnReply` — a call returned what its reader takes from the reply to its own command.

Main results:

* `Afm.Client.readable_leaves` — reading a readable reply leaves nothing of it;
* `Afm.Client.session_own_reply` — **on a connection with readable replies every call returns data
  of its own reply**;
* `Afm.Client.stale_line_answers_later_call` — a status block with a noise byte breaks the pairing.
-/

import RedPitayaAfm.WireFormat

set_option relaxedAutoImplicit false
set_option autoImplicit false

namespace Afm

namespace Client

open Effect Lines

/-! ### Calls -/

/-- The calls of the client on an open connection: `send_command`, on which most methods are built,
`get_board_status`, the two measurements, `shutdown` and `disconnect`. -/
inductive ClientCall
  | sendCommand (command : Text)
  | getBoardStatus
  | measure (command : Text) (timeout : Option ℚ)
  | shutdown
  | disconnect
  deriving DecidableEq

/-- What a call returns. -/
inductive Value (F : Type)
  | text (data : Text)
  | spectrum (data : SpectrumData F)
  | unit

/-- Make a call. -/
def perform {F : Type} (float : Text → Option F) (rounds : ℕ) : ClientCall → Method (Value F)
  | .sendCommand command => do
      let data ← sendCommand rounds command
      pure (.text data)
  | .getBoardStatus => do
      let data ← getBoardStatus rounds
      pure (.text data)
  | .measure command timeout => do
      let data ← measure float rounds command timeout
      pure (.spectrum data)
  | .shutdown => do
      shutdown
      pure .unit
  | .disconnect => do
      disconnect
      pure .unit

/-- What the reader of a call takes from a reply. -/
def Takes {F : Type} (float : Text → Option F) : ClientCall → Text → Value F → Prop
  | .sendCommand _, reply, v =>
      ∃ data rest, v = .text data ∧ executeReply.on reply = .returned (true, data) rest
  | .getBoardStatus, reply, v =>
      ∃ data rest, v = .text data ∧ (boardStatusReply none).on reply = .returned data rest
  | .measure _ timeout, reply, v =>
      ∃ data rest, v = .spectrum data ∧ (spectrumReply float timeout).on reply = .returned data rest
  | .shutdown, _, v => v = .unit
  | .disconnect, _, v => v = .unit

/-- The call returned `v`, and `v` is what its reader takes from the reply to the one command it
sent.  `shutdown` and `disconnect` return no data. -/
def OwnReply {F : Type} (float : Text → Option F) (call : ClientCall) (w w' : Link) (v : Value F) :
    Prop :=
  match call with
  | .shutdown => v = .unit
  | .disconnect => v = .unit
  | call => w'.count = w.count + 1 ∧ ∃ reply, w'.reply = some reply ∧ Takes float call reply v

/-! ### Replies -/

/-- A reply of the server: data and messages of single-line replies have no newline. -/
def ServerReply : Reply → Prop
  | .ok data => '\n' ∉ data
  | .error _ message => '\n' ∉ message
  | .text _ => True
  | .spectrum _ => True

/-- The client gets through the lines of a block: it meets no byte outside ASCII before the last
line, or a line too long before that. -/
def ReadableLines : List Text → Prop
  | [] => True
  | [_] => True
  | l :: ls => maxLineBytes < l.length ∨ (isAscii l = true ∧ ReadableLines ls)

/-- The reply can be read to its end by the reader of the call. -/
def Readable (call : ClientCall) : Reply → Prop
  | .ok _ => True
  | .error _ _ => True
  | .text body =>
      match call with
      | .sendCommand _ | .getBoardStatus =>
          (textLines body).length ≤ maxBoardStatusLines ∧ ReadableLines (textLines body)
      | .measure _ _ => textLines body = []
      | .shutdown | .disconnect => True
  | .spectrum points =>
      match call with
      | .sendCommand _ | .measure _ _ => points.length ≤ maxSpectrumRows ∧
          (spectrumPayload .ostream points).length ≤ maxSpectrumBytes
      | .getBoardStatus => points.length ≤ maxBoardStatusLines
      | .shutdown | .disconnect => True

/-! ### What reading leaves -/

/-- What a reader leaves of the text, unless the client disconnects. -/
def Outcome.Leaves {α : Type} (P : Text → Prop) : Outcome α → Prop
  | .returned _ rest => P rest
  | .raised _ rest => P rest
  | .lost => True

section Leaves

variable {α β : Type} {P : Text → Prop}

theorem Outcome.Leaves.bind {o : Outcome α} {f : α → Text → Outcome β} (ho : o.Leaves P)
    (hf : ∀ a rest, P rest → (f a rest).Leaves P) : (o.bind f).Leaves P := by
  cases o with
  | returned a rest => exact hf a rest ho
  | raised e rest => exact ho
  | lost => trivial

theorem Outcome.Leaves.mono {Q : Text → Prop} {o : Outcome α} (ho : o.Leaves P)
    (h : ∀ rest, P rest → Q rest) : o.Leaves Q := by
  cases o with
  | returned a rest => exact h rest ho
  | raised e rest => exact h rest ho
  | lost => trivial

/-- A reader leaves a suffix. -/
theorem consume_leaves_suffix (p : Prog reads (Except AfmError α × Unit)) (s : Text) :
    (consume p s).Leaves (· <:+ s) := by
  induction p generalizing s with
  | done r =>
      obtain ⟨r | r, -⟩ := r
      · exact List.suffix_refl s
      · exact List.suffix_refl s
  | call c next ih =>
      cases c with
      | line timeout =>
          rw [consume_line]
          cases hcut : cut isNewline s with
          | none => trivial
          | some q =>
              obtain ⟨line, rest⟩ := q
              obtain ⟨t, -, rfl⟩ := eq_append_of_cut isNewline hcut
              have hsuf : rest <:+ line ++ t :: rest := ⟨line ++ [t], by simp⟩
              simp only
              split
              · trivial
              cases decodeLine line with
              | error e => exact hsuf
              | ok text => exact (ih text rest).mono fun _ h => h.trans hsuf
      | exact numBytes timeout =>
          rw [consume_exact]
          split
          · exact List.suffix_refl s
          split
          · trivial
          · exact (ih _ _).mono fun _ h => h.trans (List.drop_suffix _ _)

/-- Nothing is left of nothing. -/
theorem on_nil_leaves (reader : Reader α) : (reader.on []).Leaves (· = []) :=
  (consume_leaves_suffix (reader ()) []).mono fun _ h => List.suffix_nil.1 h

/-- A reader that starts with a line gets nothing from nothing. -/
theorem on_line_nil (timeout : Option ℚ) (f : Text → Reader α) :
    (Reader.line timeout >>= f).on [] = .lost := by
  rw [Reader.on_bind]
  rfl

/-- What is left after the first line of a text, whatever its bytes are. -/
theorem on_line_leaves {l : Text} (hl : '\n' ∉ l) {timeout : Option ℚ} {f : Text → Reader α}
    {s : Text} (hbad : isAscii l = false → l.length ≤ maxLineBytes → P s)
    (hf : isAscii l = true → l.length ≤ maxLineBytes → ((f (Py.rstripCr l)).on s).Leaves P) :
    ((Reader.line timeout >>= f).on (l ++ '\n' :: s)).Leaves P := by
  have hcut : cut isNewline (l ++ '\n' :: s) = some (l, s) :=
    cut_line_append isNewline (not_isNewline hl) rfl s
  rw [Reader.on_bind, Reader.on, Reader.line, Act.call_apply, consume_line, hcut]
  simp only
  by_cases hlong : maxLineBytes < l.length
  · rw [if_pos hlong]
    trivial
  · rw [if_neg hlong]
    have hlen : l.length ≤ maxLineBytes := not_lt.1 hlong
    cases ha : isAscii l with
    | false =>
        have hd : decodeLine l = .error (.protocol "Response line is not ASCII text".toList) := by
          simp [decodeLine, ha]
        rw [hd]
        exact hbad ha hlen
    | true =>
        have hd : decodeLine l = .ok (Py.rstripCr l) := by simp [decodeLine, ha]
        rw [hd]
        exact hf ha hlen

/-- What is left after a header. -/
theorem on_header_leaves {l : Text} (h : LineText l) {timeout : Option ℚ} {f : Text → Reader α}
    {s : Text} (hf : ((f l).on s).Leaves P) :
    ((Reader.line timeout >>= f).on (l ++ '\n' :: s)).Leaves P := by
  refine on_line_leaves h.oneLine (fun hbad => ?_) fun _ _ => ?_
  · rw [h.ascii] at hbad
    cases hbad
  · rwa [Py.rstripCr_eq_self h.noCr]

/-- Every reader that starts with a line takes all of a single-line reply. -/
theorem singleLine_leaves {l : Text} (hl : '\n' ∉ l) (timeout : Option ℚ) (f : Text → Reader α) :
    ((Reader.line timeout >>= f).on (l ++ '\n' :: [])).Leaves (· = []) :=
  on_line_leaves hl (fun _ _ => rfl) fun _ _ => on_nil_leaves _

/-- Reading the lines of a block leaves nothing of it. -/
theorem readLines_leaves {ls : List Text} (hnl : ∀ l ∈ ls, '\n' ∉ l) (h : ReadableLines ls)
    (timeout : Option ℚ) :
    ((readLines timeout ls.length).on (ls.flatMap (· ++ ['\n']))).Leaves (· = []) := by
  induction ls with
  | nil => rfl
  | cons l ls ih =>
      have heq : (l :: ls).flatMap (· ++ ['\n']) = l ++ '\n' :: ls.flatMap (· ++ ['\n']) := by simp
      rw [heq, List.length_cons, readLines]
      have hmore : ReadableLines ls →
          ((readLines timeout ls.length >>= fun lines => pure (l :: lines)).on
            (ls.flatMap (· ++ ['\n']))).Leaves (· = []) := by
        intro hls
        rw [Reader.on_bind]
        exact (ih (fun m hm => hnl m (by simp [hm])) hls).bind fun _ _ hrest => hrest
      cases ls with
      | nil => exact on_line_leaves (hnl l (by simp)) (fun _ _ => rfl) fun _ _ => on_nil_leaves _
      | cons m ms =>
          refine on_line_leaves (hnl l (by simp)) (fun ha hlen => ?_) fun _ hlen => ?_
          · rcases h with hlong | ⟨ha', -⟩
            · omega
            · simp [ha] at ha'
          · rcases h with hlong | ⟨-, hls⟩
            · omega
            · rw [Reader.on_bind]
              exact (ih (fun k hk => hnl k (by simp [hk])) hls).bind fun _ _ hrest => hrest

/-- The lines of a text have no newline in them. -/
theorem newline_not_mem_textLines {body : Text} : ∀ l ∈ textLines body, '\n' ∉ l := by
  intro l hl hc
  obtain ⟨raw, hraw, rfl⟩ := List.mem_map.1 hl
  exact (mem_splitOn hraw _ (List.mem_filter.1 hc).1).2 rfl

/-- Reading a readable text block leaves nothing of it. -/
theorem textBlock_leaves {body : Text} (hcount : (textLines body).length ≤ maxBoardStatusLines)
    (h : ReadableLines (textLines body)) (timeout : Option ℚ) :
    (executeReply.on (buildTextResponse body)).Leaves (· = []) ∧
      ((boardStatusReply timeout).on (buildTextResponse body)).Leaves (· = []) := by
  have hheader := lineText_linesHeader (textLines body).length
  have hblock : ∀ timeout, ((readAnnounced (toText (textLines body).length) timeout).on
      ((textLines body).flatMap (· ++ ['\n']))).Leaves (· = []) := by
    intro timeout
    rw [readAnnounced_eq hcount, Reader.on_bind]
    exact (readLines_leaves newline_not_mem_textLines h timeout).bind fun _ _ hrest => hrest
  rw [buildTextResponse_eq]
  constructor
  · refine on_header_leaves hheader ?_
    rw [executeLine_linesHeader, Reader.on_bind]
    exact (hblock none).bind fun _ _ hrest => hrest
  · refine on_header_leaves hheader ?_
    rw [boardStatusLine_linesHeader]
    exact hblock timeout

/-- Reading all of a payload leaves nothing. -/
theorem exact_leaves (payload : Text) (timeout : Option ℚ) (f : Text → Reader α) :
    ((Reader.exact (payload.length : ℤ) timeout >>= f).on payload).Leaves (· = []) := by
  have hexact := Reader.on_exact_append payload timeout []
  rw [List.append_nil] at hexact
  rw [Reader.on_bind, hexact, Outcome.bind_returned]
  exact on_nil_leaves _

/-- Reading a spectrum in range leaves nothing of it. -/
theorem spectrum_leaves {F : Type} (float : Text → Option F) {fmt : RowFormat}
    {points : List SpectrumPoint} (hrows : points.length ≤ maxSpectrumRows)
    (hbytes : (spectrumPayload fmt points).length ≤ maxSpectrumBytes) (timeout : Option ℚ) :
    (executeReply.on (buildSpectrumResponse fmt points)).Leaves (· = []) ∧
      ((spectrumReply float timeout).on (buildSpectrumResponse fmt points)).Leaves (· = []) := by
  have hheader := lineText_spectrumHeader fmt points
  have hparse : parseSpectrumHeader ("OK DATA ".toList ++ spectrumCounts fmt points)
      = .ok ((points.length : ℤ), some ((spectrumPayload fmt points).length : ℤ)) :=
    parseSpectrumHeader_bulk hrows hbytes
  rw [buildSpectrumResponse_eq]
  constructor
  · refine on_header_leaves hheader ?_
    have hhead : "OK DATA ".toList ++ spectrumCounts fmt points
        = "OK ".toList ++ ("DATA ".toList ++ spectrumCounts fmt points) := rfl
    have hdata : "DATA ".toList.isPrefixOf ("DATA ".toList ++ spectrumCounts fmt points)
        = true := by
      simp
    rw [hhead, executeLine_ok (by simp), if_pos hdata, Reader.on_bind, discardSpectrumPayload,
      ← hhead, hparse, Act.ofExcept_ok, Reader.on_bind, Reader.on_pure, Outcome.bind_returned]
    exact (exact_leaves _ none _).bind fun _ _ hrest => hrest
  · refine on_header_leaves hheader ?_
    rw [spectrumLine_header, hparse, Act.ofExcept_ok, Reader.on_bind, Reader.on_pure,
      Outcome.bind_returned]
    exact exact_leaves _ timeout _

/-- A row of numbers is neither an error line nor the end of a status block. -/
theorem row_start (pt : SpectrumPoint) : "ERR".toList.isPrefixOf (RowFormat.ostream.row pt) = false ∧
    RowFormat.ostream.row pt ≠ legacyTerminator := by
  have hstart : ∃ c t, RowFormat.ostream.row pt = c :: t ∧ numberChar c = true := by
    have hne : RowFormat.ostream.freqKHz pt.freqKHz ≠ [] := (csvSafe_fixed 3 _).1
    obtain ⟨c, t, hct⟩ := List.exists_cons_of_ne_nil hne
    refine ⟨c, t ++ ([','] ++ RowFormat.ostream.magnitude pt.magnitude ++ [',']
      ++ RowFormat.ostream.phaseRad pt.phaseRad), ?_, numberChar_of_mem_fixed (k := 3)
        (q := pt.freqKHz) ?_⟩
    · simp [RowFormat.row, hct]
    · have : c ∈ RowFormat.ostream.freqKHz pt.freqKHz := by simp [hct]
      exact this
  obtain ⟨c, t, hct, hc⟩ := hstart
  rw [hct]
  constructor
  · have hE : c ≠ 'E' := by
      rintro rfl
      exact absurd hc (by decide)
    have hE' : ('E' == c) = false := by simpa using hE.symm
    simp [List.isPrefixOf, hE']
  · intro h
    have heq : c = '=' := by
      have := congrArg List.head? h
      simpa [legacyTerminator] using this
    subst heq
    exact absurd hc (by decide)

/-- The loop for old servers on the rows of a spectrum: the line limit ends it after the last row,
if at all. -/
theorem legacyLines_leaves {points : List SpectrumPoint} {rounds : ℕ} {seen : List Text}
    (hrounds : points.length < rounds)
    (hseen : seen.length + points.length ≤ maxBoardStatusLines + 1) (timeout : Option ℚ) :
    ((legacyLines timeout rounds seen).on (spectrumPayload .ostream points)).Leaves (· = []) := by
  induction points generalizing rounds seen with
  | nil => exact on_nil_leaves _
  | cons pt points ih =>
      cases rounds with
      | zero => simp at hrounds
      | succ rounds =>
          have hrow : LineText (RowFormat.ostream.row pt) :=
            lineText_row (csvSafe_fixed 3 _) (csvSafe_scientific 6 _) (csvSafe_fixed 6 _)
          have heq : spectrumPayload .ostream (pt :: points)
              = RowFormat.ostream.row pt ++ '\n' :: spectrumPayload .ostream points := by
            simp [spectrumPayload]
          obtain ⟨herr, hend⟩ := row_start pt
          rw [heq, legacyLines]
          refine on_header_leaves hrow ?_
          rw [if_neg (Bool.eq_false_iff.1 herr), if_neg hend]
          split
          · rename_i hlimit
            -- the limit is reached behind the last row at the earliest
            have hnone : points = [] := by
              simp at hlimit hseen
              exact List.length_eq_zero_iff.1 (by omega)
            subst hnone
            rfl
          · refine ih (by simp at hrounds; omega) ?_
            simp at hseen ⊢
            omega

/-- The reader of a status block on the header of a spectrum takes it for an old server's. -/
theorem legacyBlock_leaves {points : List SpectrumPoint}
    (hrows : points.length ≤ maxBoardStatusLines) (timeout : Option ℚ) :
    ((boardStatusReply timeout).on (buildSpectrumResponse .ostream points)).Leaves (· = []) := by
  rw [buildSpectrumResponse_eq]
  refine on_header_leaves (lineText_spectrumHeader _ _) ?_
  have hpre : "OK ".toList.isPrefixOf ("OK DATA ".toList ++ spectrumCounts .ostream points)
      = true := by
    simp [List.isPrefixOf]
  have herr : ¬"ERR".toList.isPrefixOf ("OK DATA ".toList ++ spectrumCounts .ostream points)
      = true := by
    simp [List.isPrefixOf]
  have hmatch : Py.fullmatchLines (("OK DATA ".toList ++ spectrumCounts .ostream points).drop 3)
      = none := by
    have hdrop : ("OK DATA ".toList ++ spectrumCounts .ostream points).drop 3
        = "DATA ".toList ++ spectrumCounts .ostream points := rfl
    have hno : ¬"LINES ".toList.isPrefixOf ("DATA ".toList ++ spectrumCounts .ostream points)
        = true := by
      simp [List.isPrefixOf]
    rw [hdrop, Py.fullmatchLines, if_neg hno]
  rw [boardStatusLine, if_neg herr, if_pos hpre, hmatch]
  simp only [hpre, not_true_eq_false, and_false, if_false]
  unfold readLegacyBoardStatus
  rw [Reader.on_bind]
  refine Outcome.Leaves.bind (legacyLines_leaves (by omega) ?_ timeout) fun _ _ hrest => hrest
  split
  · simp
    omega
  · simp
    omega

theorem not_mem_append {x : Char} {s t : Text} (hs : x ∉ s) (ht : x ∉ t) : x ∉ s ++ t := by
  simp [hs, ht]

/-- **Reading a readable reply leaves nothing of it**, whichever reader the call uses. -/
theorem readable_leaves {F : Type} (float : Text → Option F) {call : ClientCall} {reply : Reply}
    (hserver : ServerReply reply) (h : Readable call reply) :
    match call with
    | .sendCommand _ => (executeReply.on reply.render).Leaves (· = [])
    | .getBoardStatus => ((boardStatusReply none).on reply.render).Leaves (· = [])
    | .measure _ timeout => ((spectrumReply float timeout).on reply.render).Leaves (· = [])
    | _ => True := by
  -- a single line is read whole by every reader, well formed or not
  have hsingle : ∀ {l : Text}, '\n' ∉ l → reply.render = l ++ '\n' :: [] →
      (executeReply.on reply.render).Leaves (· = []) ∧
        ((boardStatusReply none).on reply.render).Leaves (· = []) ∧
        ∀ timeout, ((spectrumReply float timeout).on reply.render).Leaves (· = []) := by
    intro l hl heq
    rw [heq]
    exact ⟨singleLine_leaves hl none _, singleLine_leaves hl none _,
      fun timeout => singleLine_leaves hl timeout _⟩
  cases reply with
  | ok data =>
      have hline : ∃ l, '\n' ∉ l ∧ buildOkResponse data = l ++ '\n' :: [] := by
        by_cases hd : data = []
        · exact ⟨"OK".toList, by decide, by simp [buildOkResponse, hd]⟩
        · have hdata : '\n' ∉ data := hserver
          exact ⟨"OK ".toList ++ data, not_mem_append (by decide) hdata,
            by simp [buildOkResponse, hd]⟩
      obtain ⟨l, hl, heq⟩ := hline
      obtain ⟨h₁, h₂, h₃⟩ := hsingle hl heq
      cases call with
      | sendCommand command => exact h₁
      | getBoardStatus => exact h₂
      | measure command timeout => exact h₃ timeout
      | shutdown => trivial
      | disconnect => trivial
  | error status message =>
      have hl : '\n' ∉ errorLine status message := by
        have hm : '\n' ∉ message := hserver
        unfold errorLine
        refine not_mem_append (by cases status <;> decide) ?_
        split
        · simp
        · exact not_mem_append (by decide) hm
      obtain ⟨h₁, h₂, h₃⟩ := hsingle hl (buildErrorResponse_eq status message)
      cases call with
      | sendCommand command => exact h₁
      | getBoardStatus => exact h₂
      | measure command timeout => exact h₃ timeout
      | shutdown => trivial
      | disconnect => trivial
  | text body =>
      cases call with
      | sendCommand command => exact (textBlock_leaves h.1 h.2 none).1
      | getBoardStatus => exact (textBlock_leaves h.1 h.2 none).2
      | measure command timeout =>
          have hnone : textLines body = [] := h
          have hheader := buildTextResponse_eq body
          rw [hnone] at hheader
          exact (hsingle (lineText_linesHeader 0).oneLine hheader).2.2 timeout
      | shutdown => trivial
      | disconnect => trivial
  | spectrum points =>
      cases call with
      | sendCommand command => exact (spectrum_leaves float h.1 h.2 none).1
      | getBoardStatus => exact legacyBlock_leaves h none
      | measure command timeout => exact (spectrum_leaves float h.1 h.2 timeout).2
      | shutdown => trivial
      | disconnect => trivial

end Leaves

/-! ### Sessions -/

/-- The line `TCPServer::_acceptClient` greets a client with, without its newline. -/
def welcomeLine : Text := "AFM SCPI Server v".toList ++ versionText ++ " Ready".toList

/-- What the server may answer to a call: a reply that `allowed` admits. -/
def Serves (allowed : ClientCall → Reply → Prop) (call : ClientCall) (_ : Text) (text : Text) :
    Prop :=
  ∃ reply, ServerReply reply ∧ allowed call reply ∧ text = reply.render

/-- The states between the calls of one connection, with any faults and any timing: `connect` has
returned, and then calls were made one after the other, whatever they returned or raised. -/
inductive Session {F : Type} (float : Text → Option F) (allowed : ClientCall → Reply → Prop) :
    State → Link → Prop
  | connected {answers : Text → Text → Prop} {c₀ c : State} {w : Link} {welcome : Text}
      (h : Runs (link true answers) { stream := welcomeLine ++ '\n' :: [] } (readWelcome c₀)
        (.ok welcome, c) w) : Session float allowed c w
  | call {c c' : State} {w w' : Link} {call : ClientCall} {rounds : ℕ}
      {r : Except AfmError (Value F)} (hs : Session float allowed c w)
      (h : Runs (link true (Serves allowed call)) w (perform float rounds call c) (r, c') w')
      (hr : r ≠ .error .running) : Session float allowed c' w'

section Sessions

variable {F : Type} {float : Text → Option F} {α : Type} {answers : Text → Text → Prop}

/-- A call on a closed connection raises, and the connection stays closed. -/
theorem query_disconnected {rounds : ℕ} {command : Text} {reader : Reader α} {c c' : State}
    {w w' : Link} {r : Except AfmError α} (hc : c.connected = false)
    (h : Runs (link true answers) w ((do
      flushBuffer rounds
      send command
      reader.run : Method α) c) (r, c') w') : c'.connected = false ∧ ∃ e, r = .error e := by
  simp only [flushBuffer, send, Act.bind_apply, Act.get_apply, Act.modify_apply, Prog.bind_done, hc,
    Bool.false_eq_true, if_false, Act.pure_apply, Bool.not_false, if_true, Act.throw_apply] at h
  obtain ⟨⟨⟩, rfl⟩ := runs_done.1 h
  exact ⟨rfl, _, rfl⟩

/-- What was given leaves what the outcome leaves. -/
theorem Outcome.Gives.leaves {o : Outcome α} {r : Except AfmError α} {rest : Text}
    {P : Text → Prop} (h : o.Gives r rest) (ho : o.Leaves P) : P rest := by
  cases o with
  | returned a s =>
      obtain ⟨-, rfl⟩ := h
      exact ho
  | raised e s =>
      obtain ⟨-, rfl⟩ := h
      exact ho
  | lost => exact h.elim

/-- After a call whose reply leaves nothing, nothing is on the way. -/
theorem query_leaves {rounds : ℕ} {command : Text} {reader : Reader α} {c c' : State}
    {w w' : Link} {r : Except AfmError α} (hinv : c.connected = true → w.stream = [])
    (hleaves : ∀ reply, answers command reply → (reader.on reply).Leaves (· = []))
    (h : Runs (link true answers) w ((do
      flushBuffer rounds
      send command
      reader.run : Method α) c) (r, c') w') : c'.connected = true → w'.stream = [] := by
  intro hc'
  cases hc : c.connected with
  | false => simp [(query_disconnected hc h).1] at hc'
  | true =>
      cases query_runs hc (hinv hc) h with
      | unsent e _ hs _ => exact hs hc'
      | empty _ _ hF =>
          have := List.suffix_nil.1 (hF.suffix hc')
          exact (List.append_eq_nil_iff.1 this).2
      | answered reply ha _ _ hF =>
          have := (hF.gives hc').leaves (hleaves reply ha)
          exact (List.append_eq_nil_iff.1 this).2

/-- A call that returns has read the reply to its own command, when nothing was on the way. -/
theorem query_own {rounds : ℕ} {command : Text} {reader : Reader α} {c c' : State} {w w' : Link}
    {a : α} (hinv : c.connected = true → w.stream = []) (hnil : reader.on [] = .lost)
    (h : Runs (link true answers) w ((do
      flushBuffer rounds
      send command
      reader.run : Method α) c) (.ok a, c') w') :
    w'.count = w.count + 1 ∧ ∃ reply rest, w'.reply = some reply ∧
      reader.on reply = .returned a rest := by
  cases hc : c.connected with
  | false =>
      obtain ⟨-, e, he⟩ := query_disconnected hc h
      cases he
  | true =>
      -- a call that returned has kept the connection
      have hconn : ∀ {s o}, Followed true s o (.ok a) c' w' → c'.connected = true := by
        intro s o hF
        by_contra hn
        obtain ⟨e, he⟩ := hF.error (by simpa using hn)
        cases he
      cases query_runs hc (hinv hc) h with
      | unsent e he => cases he
      | empty _ _ hF =>
          have hg := hF.gives (hconn hF)
          rw [hnil] at hg
          exact hg.elim
      | answered reply _ hcount hreply hF =>
          have hg := hF.gives (hconn hF)
          refine ⟨hcount, reply, ?_⟩
          cases ho : reader.on reply with
          | returned b rest =>
              rw [ho] at hg
              obtain ⟨hb, -⟩ := hg
              cases hb
              exact ⟨rest, hreply, rfl⟩
          | raised e rest =>
              rw [ho] at hg
              cases hg.1
          | lost =>
              rw [ho] at hg
              exact hg.elim

/-- `disconnect` closes the connection. -/
theorem disconnect_runs {c c' : State} {w w' : Link} {r : Except AfmError Unit}
    (h : Runs (link true answers) w (disconnect c) (r, c') w') :
    r = .ok () ∧ c'.connected = false := by
  cases hc : c.connected with
  | false =>
      simp only [disconnect, Act.bind_apply, Act.get_apply, Act.modify_apply, Prog.bind_done, hc,
        Bool.false_eq_true, if_false, Act.pure_apply] at h
      obtain ⟨⟨⟩, rfl⟩ := runs_done.1 h
      exact ⟨rfl, rfl⟩
  | true =>
      simp only [disconnect, Act.bind_apply, Act.get_apply, Act.modify_apply, Prog.bind_done, hc,
        if_true, Act.call_apply, Prog.bind_call, runs_call] at h
      obtain ⟨u, w₁, -, h⟩ := h
      obtain ⟨⟨⟩, rfl⟩ := runs_done.1 h
      exact ⟨rfl, rfl⟩

/-- `shutdown` closes the connection. -/
theorem shutdown_runs {c c' : State} {w w' : Link} {r : Except AfmError Unit}
    (h : Runs (link true answers) w (shutdown c) (r, c') w') :
    r = .ok () ∧ c'.connected = false := by
  simp only [shutdown, Act.bind_apply, runs_bind] at h
  obtain ⟨⟨x, c₁⟩, w₁, h₁, h₂⟩ := h
  simp only [ignoringErrors, runs_bind] at h₁
  obtain ⟨p, w₂, -, h₁⟩ := h₁
  obtain ⟨⟨⟩, rfl⟩ := runs_done.1 h₁
  exact disconnect_runs h₂

/-- `send_command` is `_execute`, with its failures raised. -/
theorem sendCommand_runs {rounds : ℕ} {command : Text} {c c' : State} {w w' : Link}
    {r : Except AfmError Text}
    (h : Runs (link true answers) w (sendCommand rounds command c) (r, c') w') :
    ∃ x, Runs (link true answers) w (execute rounds command c) (x, c') w' ∧
      r = x.bind fun p => if p.1 then .ok p.2 else .error (.command p.2) := by
  have hshape : sendCommand rounds command = execute rounds command >>= fun p =>
      Act.ofExcept (if p.1 then .ok p.2 else .error (.command p.2)) := by
    unfold sendCommand
    congr
    funext p
    obtain ⟨success, data⟩ := p
    cases success <;> rfl
  rw [hshape] at h
  exact runs_bind_ofExcept h

/-- The result of a call is that of its method, wrapped. -/
theorem wrap_runs {m : Method α} {wrap : α → Value F} {c c' : State} {w w' : Link}
    {r : Except AfmError (Value F)} (h : Runs (link true answers) w ((do
      let data ← m
      pure (wrap data) : Method (Value F)) c) (r, c') w') :
    ∃ x, Runs (link true answers) w (m c) (x, c') w' ∧ r = x.map wrap := by
  obtain ⟨x, h₁, rfl⟩ := runs_bind_ofExcept (f := fun a => .ok (wrap a)) h
  refine ⟨x, h₁, ?_⟩
  cases x <;> rfl

/-- **Every call with a readable reply leaves nothing on the way.** -/
theorem perform_leaves {rounds : ℕ} {call : ClientCall} {c c' : State} {w w' : Link}
    {r : Except AfmError (Value F)} (hinv : c.connected = true → w.stream = [])
    (h : Runs (link true (Serves Readable call)) w (perform float rounds call c) (r, c') w') :
    c'.connected = true → w'.stream = [] := by
  cases call with
  | sendCommand command =>
      obtain ⟨x, h₁, -⟩ := wrap_runs h
      obtain ⟨y, h₂, -⟩ := sendCommand_runs h₁
      refine query_leaves hinv ?_ h₂
      rintro _ ⟨reply, hserver, hread, rfl⟩
      exact readable_leaves float hserver hread
  | getBoardStatus =>
      obtain ⟨x, h₁, -⟩ := wrap_runs h
      refine query_leaves hinv ?_ h₁
      rintro _ ⟨reply, hserver, hread, rfl⟩
      exact readable_leaves float hserver hread
  | measure command timeout =>
      obtain ⟨x, h₁, -⟩ := wrap_runs h
      refine query_leaves hinv ?_ h₁
      rintro _ ⟨reply, hserver, hread, rfl⟩
      exact readable_leaves float hserver hread
  | shutdown =>
      obtain ⟨x, h₁, -⟩ := wrap_runs h
      simp [(shutdown_runs h₁).2]
  | disconnect =>
      obtain ⟨x, h₁, -⟩ := wrap_runs h
      simp [(disconnect_runs h₁).2]

/-- A call that returns has read the reply to its own command, when nothing was on the way. -/
theorem perform_own {rounds : ℕ} {call : ClientCall} {c c' : State} {w w' : Link} {v : Value F}
    (hinv : c.connected = true → w.stream = [])
    (h : Runs (link true answers) w (perform float rounds call c) (.ok v, c') w') :
    OwnReply float call w w' v := by
  cases call with
  | sendCommand command =>
      obtain ⟨x, h₁, hx⟩ := wrap_runs h
      obtain ⟨y, h₂, rfl⟩ := sendCommand_runs h₁
      cases y with
      | error e => cases hx
      | ok p =>
          obtain ⟨success, data⟩ := p
          cases success with
          -- an error reply makes `send_command` raise, so nothing is returned
          | false => cases hx
          | true =>
              cases hx
              obtain ⟨hcount, reply, rest, hreply, hon⟩ := query_own hinv (on_line_nil none _) h₂
              exact ⟨hcount, reply, hreply, data, rest, rfl, hon⟩
  | getBoardStatus =>
      obtain ⟨x, h₁, hx⟩ := wrap_runs h
      cases x with
      | error e => cases hx
      | ok data =>
          cases hx
          obtain ⟨hcount, reply, rest, hreply, hon⟩ := query_own hinv (on_line_nil none _) h₁
          exact ⟨hcount, reply, hreply, data, rest, rfl, hon⟩
  | measure command timeout =>
      obtain ⟨x, h₁, hx⟩ := wrap_runs h
      cases x with
      | error e => cases hx
      | ok data =>
          cases hx
          obtain ⟨hcount, reply, rest, hreply, hon⟩ := query_own hinv (on_line_nil timeout _) h₁
          exact ⟨hcount, reply, hreply, data, rest, rfl, hon⟩
  | shutdown =>
      obtain ⟨x, h₁, hx⟩ := wrap_runs h
      cases x with
      | error e => cases hx
      | ok u =>
          cases hx
          rfl
  | disconnect =>
      obtain ⟨x, h₁, hx⟩ := wrap_runs h
      cases x with
      | error e => cases hx
      | ok u =>
          cases hx
          rfl

/-- Reading a welcome line leaves nothing on the way. -/
theorem readWelcome_leaves {l : Text} (hline : LineText l) (hlen : l.length ≤ maxLineBytes)
    {c₀ c : State} {w w' : Link} {welcome : Text} (hw : w.stream = l ++ '\n' :: [])
    (h : Runs (link true answers) w (readWelcome c₀) (.ok welcome, c) w') :
    c.connected = true → w'.stream = [] := by
  intro hc
  simp only [readWelcome, runs_bind] at h
  obtain ⟨⟨x, c₁⟩, w₁, h₁, h₂⟩ := h
  obtain ⟨-, -, hF⟩ := follows_readLine none { connected := true } w x c₁ w₁ rfl (Nat.zero_le _)
    (by simp) h₁
  cases x with
  | error e =>
      have hthrow := runs_abort_error h₂
      cases hthrow
  | ok line =>
      obtain ⟨⟨⟩, rfl⟩ := runs_done.1 h₂
      have hon : primitive (.line none) (l ++ '\n' :: []) = .returned l [] :=
        Reader.on_line_append (not_isNewline hline.oneLine) hline.ascii hline.noCr hlen none []
      have hahead : ahead { connected := true } w = l ++ '\n' :: [] := hw
      have hg := hF.gives hc
      rw [hahead, hon] at hg
      exact (List.append_eq_nil_iff.1 hg.2).2

theorem lineText_welcomeLine : LineText welcomeLine := ⟨by decide, by decide, by decide⟩

theorem length_welcomeLine : welcomeLine.length ≤ maxLineBytes := by
  have hlen : welcomeLine.length ≤ 64 := by decide
  have hmax : 64 ≤ maxLineBytes := by decide
  omega

/-- Between the calls of a session with readable replies, nothing is on the way. -/
theorem Session.leaves {c : State} {w : Link} (h : Session float Readable c w) :
    c.connected = true → w.stream = [] := by
  induction h with
  | connected h => exact readWelcome_leaves lineText_welcomeLine length_welcomeLine rfl h
  | call _ h _ ih => exact perform_leaves ih h

/-- **On a connection whose replies are readable, every call returns data of its own reply**,
whatever calls came before, whatever they raised, and however the bytes arrived. -/
theorem session_own_reply {rounds : ℕ} {call : ClientCall} {c c' : State} {w w' : Link}
    {v : Value F} (hs : Session float Readable c w)
    (h : Runs (link true (Serves (fun _ _ => True) call)) w (perform float rounds call c)
      (.ok v, c') w') : OwnReply float call w w' v :=
  perform_own hs.leaves h

end Sessions

/-! ### A stale line -/

section Script

variable {F : Type} (float : Text → Option F) (allowed : ClientCall → Reply → Prop)

/-- A connection to a server with a list of replies.  It delivers byte by byte, but nothing while
the client flushes. -/
def scriptStep (replies : ℕ → Reply) (w : Link) : (c : Call) → sock.Reply c × Link
  | .setBlocking => (.ok (), { w with blocking := false })
  | .setTimeout _ => (.ok (), { w with blocking := true })
  | .recv =>
      match w.blocking, w.stream with
      | true, x :: rest => (.ok [x], { w with stream := rest })
      | _, _ => (.error .blocking, w)
  | .sendAll message =>
      if message.getLast? ≠ some '\n' then (.ok (), w)
      else if message.dropLast = [] then (.ok (), { w with count := w.count + 1, reply := none })
      else (.ok (), w.answer (replies w.count).render)
  | .close => ((), w)

theorem linkStep_scriptStep {call : ClientCall} (replies : ℕ → Reply)
    (hserver : ∀ n, ServerReply (replies n)) (hallowed : ∀ n, allowed call (replies n)) (w : Link)
    (c : Call) :
    LinkStep true (Serves allowed call) w c (scriptStep replies w c).1
      (scriptStep replies w c).2 := by
  cases c with
  | setBlocking => exact .setBlocking w
  | setTimeout seconds => exact .setTimeout w seconds
  | recv =>
      simp only [scriptStep]
      split
      · rename_i x rest _ hs
        exact .recv w [x] rest (by simp) (by simp [recvBufferSize]) hs
      · exact .recvFailed w _ (.inl rfl)
  | sendAll message =>
      simp only [scriptStep]
      by_cases hlast : message.getLast? = some '\n'
      · obtain ⟨command, rfl⟩ := List.getLast?_eq_some_iff.1 hlast
        simp only [hlast, ne_eq, not_true_eq_false, if_false, List.dropLast_concat]
        split
        · rename_i hnil
          subst hnil
          exact .sendEmpty w
        · rename_i hne
          exact .sendAll w _ _ hne ⟨replies w.count, hserver _, hallowed _, rfl⟩
      · rw [if_pos hlast]
        exact .sendUnterminated w message hlast
  | close => exact .close w

/-- A call on a scripted connection, computed. -/
theorem script_perform {rounds : ℕ} {m : Method Text} {replies : ℕ → Reply} {c c' : State}
    {w w' : Link} {x : Except AfmError Text} (call : ClientCall)
    (hshape : perform float rounds call = m >>= fun data => pure (.text data))
    (hserver : ∀ n, ServerReply (replies n)) (hallowed : ∀ n, allowed call (replies n))
    (h : (m c).eval (scriptStep replies) w = ((x, c'), w')) :
    Runs (link true (Serves allowed call)) w (perform float rounds call c) (x.map .text, c')
      w' := by
  have hrun := Prog.eval_runs (W := link true (Serves allowed call))
    (linkStep_scriptStep allowed replies hserver hallowed) (perform float rounds call c) w
  have heval : (perform float rounds call c).eval (scriptStep replies) w
      = ((x.map .text, c'), w') := by
    simp only [hshape, Act.bind_apply, Prog.eval_bind, h]
    cases x <;> rfl
  rwa [heval] at hrun

/-- Connecting on a scripted connection. -/
theorem script_connected : Session float allowed { connected := true } {} := by
  have hrun := Prog.eval_runs (W := link true (Serves (fun _ _ => True) .shutdown))
    (linkStep_scriptStep _ (fun _ => .ok []) (by simp [ServerReply]) (fun _ => trivial))
    (readWelcome {}) { stream := welcomeLine ++ '\n' :: [] }
  rw [show (readWelcome {}).eval (scriptStep fun _ => .ok []) { stream := welcomeLine ++ '\n' :: [] }
    = ((.ok welcomeLine, { connected := true }), {}) by decide +kernel] at hrun
  exact .connected hrun

end Script

/-- The replies of a server to a status request, a command that it refuses, and a third one. -/
def plainReply : ℕ → Reply
  | 0 => .text "OUT1 <- IN2\nOUT2 <- X".toList
  | 1 => .error .errParam "center_kHz must be > 0".toList
  | _ => .ok versionText

theorem serverReply_plainReply (n : ℕ) : ServerReply (plainReply n) := by
  unfold plainReply
  split
  · trivial
  · show '\n' ∉ "center_kHz must be > 0".toList
    decide
  · show '\n' ∉ versionText
    decide

theorem readable_plainReply {call : ClientCall} (h : (∃ command, call = .sendCommand command) ∨
    call = .getBoardStatus) (n : ℕ) : Readable call (plainReply n) := by
  have hlines : (textLines "OUT1 <- IN2\nOUT2 <- X".toList).length ≤ maxBoardStatusLines ∧
      ReadableLines (textLines "OUT1 <- IN2\nOUT2 <- X".toList) :=
    ⟨by decide +kernel, .inr ⟨by decide +kernel, trivial⟩⟩
  unfold plainReply
  split
  · obtain ⟨command, rfl⟩ | rfl := h
    · exact hlines
    · exact hlines
  · trivial
  · trivial

/-- The version comes third, after a status that was read and a command that was refused. -/
theorem session_own_reply_third :
    OwnReply (fun _ => some ()) (.sendCommand "SYSTEM:VERSION".toList)
      { count := 2, reply := some (plainReply 1).render }
      { count := 3, reply := some (buildOkResponse versionText) } (.text versionText) := by
  have h₁ := script_perform (fun _ => some ()) Readable .getBoardStatus rfl
    serverReply_plainReply (readable_plainReply (.inr rfl))
    (show (getBoardStatus 1 { connected := true }).eval (scriptStep plainReply) {}
      = ((.ok "OUT1 <- IN2\nOUT2 <- X".toList, { connected := true }),
        { count := 1, reply := some (plainReply 0).render }) by decide +kernel)
  have hs₁ := Session.call (script_connected _ _) h₁ (by simp [Except.map])
  have h₂ := script_perform (fun _ => some ()) Readable (.sendCommand "MEASURE:SINC 0,1".toList) rfl
    serverReply_plainReply (readable_plainReply (.inl ⟨_, rfl⟩))
    (show (sendCommand 1 "MEASURE:SINC 0,1".toList { connected := true }).eval (scriptStep plainReply)
        { count := 1, reply := some (plainReply 0).render }
      = ((.error (.command "ERR_PARAM: center_kHz must be > 0".toList), { connected := true }),
        { count := 2, reply := some (plainReply 1).render }) by decide +kernel)
  have hs₂ := Session.call hs₁ h₂ (by simp [Except.map])
  have h₃ := script_perform (fun _ => some ()) (fun _ _ => True)
    (.sendCommand "SYSTEM:VERSION".toList) rfl serverReply_plainReply (fun _ => trivial)
    (show (sendCommand 1 "SYSTEM:VERSION".toList { connected := true }).eval (scriptStep plainReply)
        { count := 2, reply := some (plainReply 1).render }
      = ((.ok versionText, { connected := true }),
        { count := 3, reply := some (buildOkResponse versionText) }) by decide +kernel)
  exact session_own_reply hs₂ h₃

/-- The replies of a server to a status request, which meets a noise byte, and two commands. -/
def noisyReply : ℕ → Reply
  | 0 => .text ("OUT1".toList ++ [Char.ofNat 255] ++ "\nOUT2 <- X".toList)
  | 1 => .ok "PONG".toList
  | _ => .ok versionText

theorem serverReply_noisyReply (n : ℕ) : ServerReply (noisyReply n) := by
  unfold noisyReply
  split
  · trivial
  · show '\n' ∉ "PONG".toList
    decide
  · show '\n' ∉ versionText
    decide

/-- **A reply can be paired with the wrong command.**  The client raises `AFMProtocolError` at the
noise byte and keeps the connection open, the rest of the status block answers `SYSTEM:PING`, and
`SYSTEM:VERSION` returns the reply to `SYSTEM:PING`. -/
theorem stale_line_answers_later_call : ¬∃ (F : Type) (float : Text → Option F),
    ∀ (call : ClientCall) (rounds : ℕ) (c c' : State) (w w' : Link) (v : Value F),
      Session float (fun _ _ => True) c w →
      Runs (link true (Serves (fun _ _ => True) call)) w (perform float rounds call c) (.ok v, c')
        w' → OwnReply float call w w' v := by
  rintro ⟨F, float, hown⟩
  have hs₀ : Session float (fun _ _ => True) { connected := true } {} := script_connected _ _
  have h₁ := script_perform float (fun _ _ => True) .getBoardStatus rfl
    serverReply_noisyReply (fun _ => trivial)
    (show (getBoardStatus 1 { connected := true }).eval (scriptStep noisyReply) {}
      = ((.error (.protocol "Response line is not ASCII text".toList), { connected := true }),
        { stream := "OUT2 <- X\n".toList, count := 1, reply := some (noisyReply 0).render })
      by decide +kernel)
  have hs₁ := Session.call hs₀ h₁ (by simp [Except.map])
  have h₂ := script_perform float (fun _ _ => True) (.sendCommand "SYSTEM:PING".toList) rfl
    serverReply_noisyReply (fun _ => trivial)
    (show (sendCommand 1 "SYSTEM:PING".toList { connected := true }).eval (scriptStep noisyReply)
        { stream := "OUT2 <- X\n".toList, count := 1, reply := some (noisyReply 0).render }
      = ((.error (.command "Unexpected response: OUT2 <- X".toList), { connected := true }),
        { stream := "OK PONG\n".toList, count := 2, reply := some (noisyReply 1).render })
      by decide +kernel)
  have hs₂ := Session.call hs₁ h₂ (by simp [Except.map])
  have h₃ := script_perform float (fun _ _ => True) (.sendCommand "SYSTEM:VERSION".toList) rfl
    serverReply_noisyReply (fun _ => trivial)
    (show (sendCommand 1 "SYSTEM:VERSION".toList { connected := true }).eval
        (scriptStep noisyReply)
        { stream := "OK PONG\n".toList, count := 2, reply := some (noisyReply 1).render }
      = ((.ok "PONG".toList, { connected := true }),
        { stream := (noisyReply 2).render, count := 3, reply := some (noisyReply 2).render })
      by decide +kernel)
  obtain ⟨-, reply, hreply, data, rest, hv, hon⟩ := hown _ _ _ _ _ _ _ hs₂ h₃
  -- the reply to this command is the version, and "PONG" is not taken from it
  have hversion : executeReply.on (noisyReply 2).render = .returned (true, versionText) [] := by
    decide +kernel
  cases hreply
  rw [hversion] at hon
  cases hon
  cases hv

end Client

end Afm
