/-
**What the server replies can be read.**

The reader of the client gets through every reply that keeps to its format: one line, a block of at
most 256 lines, a spectrum of at most 65536 rows.  Here every method of the handler is followed to
the texts it puts into its reply.  Most are fixed or made of numbers; three come from outside,
namely what an exception says, the last error of the board, and the status of the board.

Main definitions:

* `Afm.CommandHandler.Tidy` — what comes from outside keeps to the format;
* `Afm.Suits` — a reply keeps to its format, and is of the kind its command asks for;
* `Afm.CommandHandler.Answers` — what the result of a method satisfies, while an exception says one
  line.

Main results:

* `Afm.CommandHandler.answers_handleCommand` — every command is answered by a reply that suits it;
* `Afm.Suits.readable` — such a reply is readable to the call that asked for it.
-/

import RedPitayaAfm.ClientSession
import RedPitayaAfm.CommandHandler

set_option relaxedAutoImplicit false
set_option autoImplicit false

namespace Afm

open Effect

/-! ### Printed numbers have no newline -/

theorem newline_not_mem_toText (n : ℕ) : '\n' ∉ toText n := by
  intro h
  exact absurd (isDigit_of_mem_toText h) (by decide)

theorem newline_not_mem_intToText (n : ℤ) : '\n' ∉ intToText n := by
  intro h
  unfold intToText at h
  split at h
  · rcases List.mem_cons.1 h with h | h
    · cases h
    · exact newline_not_mem_toText _ h
  · exact newline_not_mem_toText _ h

theorem newline_not_mem_of_numberChar {s : Text} (h : ∀ c ∈ s, numberChar c = true) : '\n' ∉ s := by
  intro hmem
  exact absurd (h _ hmem) (by decide)

theorem newline_not_mem_fixed (k : ℕ) (q : ℚ) : '\n' ∉ fixed k q :=
  newline_not_mem_of_numberChar fun _ h => numberChar_of_mem_fixed h

theorem mem_of_mem_stripZeros {s : Text} {c : Char} (h : c ∈ stripZeros s) : c ∈ s := by
  have hsub : (s.reverse.dropWhile (· == '0')).reverse <+: s := by
    have hsuffix := List.dropWhile_suffix (l := s.reverse) (· == '0')
    simpa using hsuffix.reverse
  unfold stripZeros at h
  split at h
  · dsimp only at h
    split at h
    · exact hsub.subset (List.mem_of_mem_dropLast h)
    · exact hsub.subset h
  · exact h

theorem numberChar_of_mem_exponentText {e : ℤ} {c : Char} (h : c ∈ exponentText e) :
    numberChar c = true := by
  unfold exponentText at h
  rcases List.mem_cons.1 h with rfl | h
  · rfl
  rcases List.mem_cons.1 h with rfl | h
  · split <;> rfl
  · exact numberChar_of_mem_padded h

theorem newline_not_mem_general (k : ℕ) (q : ℚ) : '\n' ∉ general k q := by
  refine newline_not_mem_of_numberChar fun c h => ?_
  unfold general at h
  dsimp only at h
  split at h
  · rcases List.mem_append.1 h with h | h
    · exact numberChar_of_mem_signText h
    · exact numberChar_of_mem_withPoint (mem_of_mem_stripZeros h)
  · rcases List.mem_append.1 h with h | h
    · rcases List.mem_append.1 h with h | h
      · exact numberChar_of_mem_signText h
      · exact numberChar_of_mem_withPoint (mem_of_mem_stripZeros h)
    · exact numberChar_of_mem_exponentText h

theorem newline_not_mem_label (g : GainSetting) : '\n' ∉ g.label := by
  cases g <;> decide

theorem newline_not_mem_commandToString (c : Command) : '\n' ∉ commandToString c := by
  cases c <;> decide

/-! ### Sound replies -/

/-- A text that can be read as a block. -/
def IsBlock (text : Text) : Prop :=
  (textLines text).length ≤ Client.maxBoardStatusLines ∧ Client.ReadableLines (textLines text)

/-- A reply that keeps to its format and suits the command it answers: a status report is answered
by a block, a measurement by a spectrum, and nothing else is. -/
def Suits (command : Command) : Reply → Prop
  | .ok data => command ≠ .boardStatus ∧ '\n' ∉ data
  | .error status message => status ≠ .ok ∧ '\n' ∉ message
  | .text body => command = .boardStatus ∧ IsBlock body
  | .spectrum points =>
      (command = .measSinc ∨ command = .measSweep) ∧ points.length ≤ Client.maxSpectrumRows

/-- The rows of a spectrum fit the payload the client takes. -/
def Reply.Fits : Reply → Prop
  | .spectrum points => (spectrumPayload .ostream points).length ≤ Client.maxSpectrumBytes
  | _ => True

/-- The command line a call of the client sends; `disconnect` sends none. -/
def Client.ClientCall.line : Client.ClientCall → Option Text
  | .sendCommand command => some command
  | .getBoardStatus => some "BOARD:STATUS?".toList
  | .measure command _ => some command
  | .shutdown => some "SYSTEM:SHUTDOWN".toList
  | .disconnect => none

/-- The measuring methods of the client send the two measurement commands. -/
def Client.ClientCall.Proper : Client.ClientCall → Prop
  | .measure command _ =>
      (parseLine command).command = .measSinc ∨ (parseLine command).command = .measSweep
  | _ => True

theorem suits_ok {command : Command} {data : Text} (hc : command ≠ .boardStatus)
    (h : '\n' ∉ data) : Suits command (.ok data) := ⟨hc, h⟩

theorem suits_errorReply {command : Command} {status : ResponseStatus} {message : String}
    (h : status ≠ .ok ∧ '\n' ∉ message.toList) : Suits command (errorReply status message) := h

theorem Suits.serverReply {command : Command} {reply : Reply} (h : Suits command reply) :
    Client.ServerReply reply := by
  cases reply with
  | ok data => exact h.2
  | error status message => exact h.2
  | text body => trivial
  | spectrum points => trivial

theorem parseLine_boardStatus : (parseLine "BOARD:STATUS?".toList).command = .boardStatus := by
  decide

/-- **A reply that suits its command is readable** to the call that sent the command. -/
theorem Suits.readable {reply : Reply} {call : Client.ClientCall} {line : Text}
    (hline : call.line = some line) (hcall : call.Proper)
    (h : Suits (parseLine line).command reply) (hfits : reply.Fits) :
    Client.Readable call reply := by
  cases reply with
  | ok data => trivial
  | error status message => trivial
  | text body =>
      cases call with
      | sendCommand command => exact h.2
      | getBoardStatus => exact h.2
      | measure command timeout =>
          obtain rfl := Option.some.inj hline
          have hcommand := h.1
          rcases hcall with hm | hm
          · rw [hm] at hcommand
            cases hcommand
          · rw [hm] at hcommand
            cases hcommand
      | shutdown => trivial
      | disconnect => trivial
  | spectrum points =>
      cases call with
      | sendCommand command => exact ⟨h.2, hfits⟩
      | getBoardStatus =>
          obtain rfl := Option.some.inj hline
          have hcommand := h.1
          rw [parseLine_boardStatus] at hcommand
          rcases hcommand with hm | hm
          · cases hm
          · cases hm
      | measure command timeout => exact ⟨h.2, hfits⟩
      | shutdown => trivial
      | disconnect => trivial

/-! ### Checks -/

/-- A check that refuses does so in one line. -/
def OneLine {α : Type} (x : Except Reply α) : Prop :=
  ∀ reply, x = .error reply →
    ∃ status message, reply = .error status message ∧ status ≠ .ok ∧ '\n' ∉ message

namespace OneLine

variable {α β : Type}

theorem ok (a : α) : OneLine (.ok a) := by
  intro reply h
  cases h

theorem error {status : ResponseStatus} {message : Text} (h : status ≠ .ok ∧ '\n' ∉ message) :
    OneLine (.error (.error status message) : Except Reply α) := by
  intro reply heq
  cases heq
  exact ⟨status, message, rfl, h⟩

theorem bind {x : Except Reply α} {f : α → Except Reply β} (hx : OneLine x)
    (hf : ∀ a, OneLine (f a)) : OneLine (x >>= f) := by
  intro reply h
  cases x with
  | ok a => exact hf a reply h
  | error e =>
      cases h
      exact hx _ rfl

theorem require {condition : Prop} [Decidable condition] {status : ResponseStatus} {message : Text}
    (h : status ≠ .ok ∧ '\n' ∉ message) :
    OneLine (Afm.require condition (.error status message)) := by
  unfold Afm.require
  split
  · exact ok ()
  · exact error h

theorem needed {value : Option α} {status : ResponseStatus} {message : Text}
    (h : status ≠ .ok ∧ '\n' ∉ message) : OneLine (Afm.needed value (.error status message)) := by
  cases value with
  | none => exact error h
  | some v => exact ok v

theorem optional {cmd : ParsedCommand} {index : ℕ} {value : Option α} {default : α}
    {message : String} (h : '\n' ∉ message.toList) :
    OneLine (Afm.optional cmd index value default message) := by
  unfold Afm.optional
  split
  · exact needed ⟨by decide, h⟩
  · exact ok default

end OneLine

/-- Texts one after the other. -/
theorem newline_not_mem_append {s t : Text} (hs : '\n' ∉ s) (ht : '\n' ∉ t) : '\n' ∉ s ++ t :=
  Client.not_mem_append hs ht

theorem oneLine_validateChannel1Based (channel : ℤ) {name : String} (h : '\n' ∉ name.toList) :
    OneLine (validateChannel1Based channel name) := by
  unfold validateChannel1Based
  split
  · exact OneLine.ok _
  · refine OneLine.error ⟨by decide, newline_not_mem_append (newline_not_mem_append h ?_) ?_⟩
    · decide
    · exact newline_not_mem_toText _

theorem oneLine_parseMeasTailArgs (A : Arithmetic) (cmd : ParsedCommand) (decimation : ℤ)
    (amplitude : ℚ) : OneLine (parseMeasTailArgs A cmd decimation amplitude) := by
  refine OneLine.bind (OneLine.optional (by decide)) fun _ => ?_
  exact OneLine.bind (OneLine.optional (by decide)) fun _ => OneLine.ok _

theorem oneLine_validateNyquist (A : Arithmetic) (topHz : ℚ) (decimation : ℕ) {what : String}
    (h : '\n' ∉ what.toList) : OneLine (validateNyquist A topHz decimation what) := by
  refine OneLine.require ⟨by decide, ?_⟩
  refine newline_not_mem_append (newline_not_mem_append (newline_not_mem_append
    (newline_not_mem_append h ?_) ?_) ?_) ?_
  · decide
  · exact newline_not_mem_fixed _ _
  · decide
  · exact newline_not_mem_toText _

namespace CommandHandler

variable {A : Arithmetic} (s : CommandHandler)

/-! ### The advice of the handler -/

theorem newline_not_mem_overdriveAdvice (estimate : AdcLoopEstimate) (amplitude : ℚ) :
    '\n' ∉ s.overdriveAdvice A estimate amplitude := by
  have hset : ∀ (n : ℕ) (gain : GainSetting), '\n' ∉ "; suggested: BOARD:GAIN ".toList ++ toText n
      ++ [','] ++ toText gain.toIndex := by
    intro n gain
    refine newline_not_mem_append (newline_not_mem_append (newline_not_mem_append ?_ ?_) ?_) ?_
    · decide
    · exact newline_not_mem_toText _
    · decide
    · exact newline_not_mem_toText _
  have hor : '\n' ∉ " or excitation amplitude <= ".toList ++ fixed 4 (s.maxAmplitude A estimate) :=
    newline_not_mem_append (by decide) (newline_not_mem_fixed _ _)
  have hreduce : '\n' ∉ "; reduce excitation amplitude to <= ".toList
      ++ fixed 4 (s.maxAmplitude A estimate) :=
    newline_not_mem_append (by decide) (newline_not_mem_fixed _ _)
  unfold overdriveAdvice
  dsimp only
  split
  · split
    · exact newline_not_mem_append (hset _ _) hor
    · exact hreduce
  · split
    · exact hset _ _
    · split
      · exact newline_not_mem_append (hset _ _) hor
      · exact hreduce

theorem newline_not_mem_describeOverdrive (estimate : AdcLoopEstimate) (amplitude : ℚ) :
    '\n' ∉ s.describeOverdrive A estimate amplitude := by
  unfold describeOverdrive
  dsimp only
  refine newline_not_mem_append (newline_not_mem_append (newline_not_mem_append
    (newline_not_mem_append (newline_not_mem_append (newline_not_mem_append
      (newline_not_mem_append ?_ ?_) ?_) ?_) ?_) ?_) ?_) ?_
  · decide
  · exact newline_not_mem_fixed _ _
  · decide
  · exact newline_not_mem_fixed _ _
  · decide
  · split
    · exact List.not_mem_nil
    · decide
  · split
    · exact newline_not_mem_append (by decide) (newline_not_mem_general _ _)
    · exact List.not_mem_nil
  · exact s.newline_not_mem_overdriveAdvice estimate amplitude

theorem newline_not_mem_overdriveSuffix : '\n' ∉ s.overdriveSuffix A := by
  unfold overdriveSuffix
  split
  · exact newline_not_mem_append (by decide) (s.newline_not_mem_describeOverdrive _ _)
  · exact List.not_mem_nil

theorem newline_not_mem_loopText (loop : AdcLoopEstimate) : '\n' ∉ loopText loop := by
  unfold loopText
  split
  · refine newline_not_mem_append (newline_not_mem_append (newline_not_mem_toText _) (by decide)) ?_
    split
    · decide
    · split
      · decide
      · exact newline_not_mem_toText _
  · decide

theorem newline_not_mem_flagText (flag : Bool) : '\n' ∉ flagText flag := by
  cases flag <;> decide

theorem newline_not_mem_statusText : '\n' ∉ s.statusText A := by
  have hmode : '\n' ∉ operatingModeToString s.status.mode := by
    cases s.status.mode <;> decide
  unfold statusText
  simp only [List.mem_append, not_or]
  simp only [newline_not_mem_flagText, newline_not_mem_toText, newline_not_mem_loopText,
    newline_not_mem_general, hmode, not_false_eq_true, and_true]
  decide

theorem newline_not_mem_pairText (excite ret : Channel) : '\n' ∉ pairText excite ret :=
  newline_not_mem_append (newline_not_mem_append (newline_not_mem_toText _) (by decide))
    (newline_not_mem_toText _)

theorem newline_not_mem_loopModeText : '\n' ∉ s.loopModeText := by
  unfold loopModeText
  split
  · exact newline_not_mem_pairText _ _
  · decide
  · decide

/-! ### The checks of the commands -/

variable (cmd : ParsedCommand)

theorem oneLine_checkInitialized : OneLine s.checkInitialized := OneLine.require (by decide)

theorem oneLine_requireBoard : OneLine s.requireBoard := by
  refine OneLine.bind s.oneLine_checkInitialized fun _ => ?_
  unfold boardUnavailableError
  split
  · exact OneLine.require (by decide)
  · exact OneLine.require (by decide)

theorem oneLine_checkAdcProtection (amplitude : ℚ) :
    OneLine (s.checkAdcProtection A amplitude) := by
  unfold checkAdcProtection
  dsimp only
  split
  · exact OneLine.ok ()
  · split
    · exact OneLine.ok ()
    · refine OneLine.error ⟨by decide, newline_not_mem_append (newline_not_mem_append ?_ ?_) ?_⟩
      · decide
      · exact s.newline_not_mem_describeOverdrive _ _
      · decide

theorem oneLine_muxRouteArgs : OneLine (s.muxRouteArgs cmd) := by
  refine OneLine.bind s.oneLine_requireBoard fun _ => OneLine.bind (OneLine.needed (by decide))
    fun _ => OneLine.bind (OneLine.needed (by decide)) fun _ => ?_
  refine OneLine.bind (oneLine_validateChannel1Based _ (by decide)) fun _ => ?_
  exact OneLine.bind (oneLine_validateChannel1Based _ (by decide)) fun _ => OneLine.ok _

theorem oneLine_muxDisconnectArgs : OneLine (s.muxDisconnectArgs cmd) := by
  refine OneLine.bind s.oneLine_requireBoard fun _ => OneLine.bind (OneLine.needed (by decide))
    fun _ => ?_
  exact oneLine_validateChannel1Based _ (by decide)

theorem oneLine_gainArgs : OneLine (s.gainArgs cmd) := by
  refine OneLine.bind s.oneLine_requireBoard fun _ => OneLine.bind (OneLine.needed (by decide))
    fun _ => OneLine.bind (OneLine.needed (by decide)) fun _ => ?_
  refine OneLine.bind (oneLine_validateChannel1Based _ (by decide)) fun _ => ?_
  refine OneLine.bind (OneLine.require ⟨by decide, ?_⟩) fun _ => OneLine.ok _
  exact newline_not_mem_append (by decide) (newline_not_mem_toText _)

theorem oneLine_adcLoopArgs : OneLine (s.adcLoopArgs cmd) := by
  refine OneLine.bind s.oneLine_requireBoard fun _ => ?_
  dsimp only
  split
  · split
    · exact OneLine.ok _
    · exact OneLine.error (by decide)
  · split
    · exact OneLine.ok _
    · split
      · exact OneLine.ok _
      · exact OneLine.error (by decide)
  · refine OneLine.bind (OneLine.needed (by decide)) fun _ => OneLine.bind
      (OneLine.needed (by decide)) fun _ => ?_
    refine OneLine.bind (oneLine_validateChannel1Based _ (by decide)) fun _ => ?_
    exact OneLine.bind (oneLine_validateChannel1Based _ (by decide)) fun _ => OneLine.ok _

theorem oneLine_adcProtectArgs : OneLine (s.adcProtectArgs cmd) := by
  refine OneLine.bind s.oneLine_requireBoard fun _ => ?_
  dsimp only
  split
  · split
    · exact OneLine.ok _
    · exact OneLine.error (by decide)
  · split
    · exact OneLine.ok _
    · split
      · exact OneLine.ok _
      · exact OneLine.error (by decide)
  · exact OneLine.error (by decide)

theorem oneLine_adcSampleGainArgs : OneLine (s.adcSampleGainArgs A cmd) := by
  refine OneLine.bind s.oneLine_requireBoard fun _ => ?_
  dsimp only
  split
  · split
    · exact OneLine.ok _
    · exact OneLine.error (by decide)
  · refine OneLine.bind (OneLine.needed (by decide)) fun _ => ?_
    refine OneLine.bind (OneLine.require ⟨by decide, ?_⟩) fun _ => OneLine.ok _
    refine newline_not_mem_append (newline_not_mem_append (newline_not_mem_append ?_ ?_) ?_) ?_
    · decide
    · exact newline_not_mem_general _ _
    · decide
    · exact newline_not_mem_general _ _
  · exact OneLine.error (by decide)

theorem oneLine_sincArgs : OneLine (s.sincArgs A cmd) := by
  refine OneLine.bind s.oneLine_checkInitialized fun _ => OneLine.bind (OneLine.needed (by decide))
    fun _ => OneLine.bind (OneLine.needed (by decide)) fun _ => OneLine.bind
    (OneLine.optional (by decide)) fun _ => OneLine.bind (oneLine_parseMeasTailArgs _ _ _ _)
    fun _ => ?_
  refine OneLine.bind (OneLine.require ⟨by decide, ?_⟩) fun _ =>
    OneLine.bind (OneLine.require (by decide))
    fun _ => OneLine.bind (OneLine.require (by decide)) fun _ => OneLine.bind
    (OneLine.require (by decide)) fun _ => OneLine.bind (OneLine.require (by decide)) fun _ =>
    OneLine.bind (OneLine.require (by decide)) fun _ => ?_
  · exact newline_not_mem_append (by decide) (newline_not_mem_toText _)
  · refine OneLine.bind (oneLine_validateNyquist _ _ _ (by decide)) fun _ => ?_
    exact OneLine.bind (s.oneLine_checkAdcProtection _) fun _ => OneLine.ok _

theorem newline_not_mem_tooManyPoints (pointsEstimate : ℤ) :
    ∃ message, tooManyPoints pointsEstimate = .error .errParam message ∧ '\n' ∉ message := by
  refine ⟨_, rfl, newline_not_mem_append (newline_not_mem_append (newline_not_mem_append
    (newline_not_mem_append ?_ ?_) ?_) ?_) ?_⟩
  · decide
  · split
    · decide
    · exact newline_not_mem_intToText _
  · decide
  · exact newline_not_mem_toText _
  · decide

theorem oneLine_sweepArgs : OneLine (s.sweepArgs A cmd) := by
  refine OneLine.bind s.oneLine_checkInitialized fun _ => OneLine.bind (OneLine.needed (by decide))
    fun _ => OneLine.bind (OneLine.needed (by decide)) fun _ => OneLine.bind
    (OneLine.optional (by decide)) fun _ => OneLine.bind (oneLine_parseMeasTailArgs _ _ _ _)
    fun _ => ?_
  refine OneLine.bind (OneLine.require (by decide)) fun _ => OneLine.bind
    (OneLine.require (by decide)) fun _ => OneLine.bind (OneLine.require (by decide)) fun _ =>
    OneLine.bind (OneLine.require (by decide)) fun _ => OneLine.bind (OneLine.require (by decide))
    fun _ => OneLine.bind (oneLine_validateNyquist _ _ _ (by decide)) fun _ => ?_
  obtain ⟨message, heq, hmessage⟩ := newline_not_mem_tooManyPoints _
  refine OneLine.bind (heq ▸ OneLine.require ⟨by decide, hmessage⟩) fun _ => OneLine.bind
    (OneLine.require (by decide)) fun _ => ?_
  exact OneLine.bind (s.oneLine_checkAdcProtection _) fun _ => OneLine.ok _

end CommandHandler

namespace CommandHandler

/-! ### What comes from outside -/

/-- An exception that says one line. -/
def Plain {α : Type} (reply : Except Text α) : Prop := ∀ what, reply = .error what → '\n' ∉ what

/-- A reply that keeps to the format. -/
def TidyReply : (c : ServerCall) → server.Reply c → Prop
  | .hardwareFactory, reply => Plain reply
  | .hardware _, reply => Plain reply
  | .boardFactory, reply => Plain reply
  | .board .getStatus, reply => Plain reply ∧ ∀ text, reply = .ok (some text) → IsBlock text
  | .board .getLastError, reply => Plain reply ∧ ∀ text : Text, reply = .ok text → '\n' ∉ text
  | .board _, reply => Plain reply
  | .planFft _, reply => Plain reply
  | _, _ => True

/-- Surroundings that keep to the format. -/
def Tidy (W : World server) : Prop := ∀ w c r w', W.Step w c r w' → TidyReply c r

/-- An exception that the server reports in one line. -/
def PlainFault (e : Fault) : Prop := ∀ what, e = .thrown what → '\n' ∉ what

theorem plainFault_thrown {what : Text} (h : '\n' ∉ what) : PlainFault (.thrown what) := by
  intro w hw
  cases hw
  exact h

theorem plainFault_nullPointer : PlainFault .nullPointer := by
  intro w hw
  cases hw

theorem plainFault_running : PlainFault .running := by
  intro w hw
  cases hw

theorem plainFault_misuse (m : StringScan.Misuse) : PlainFault (.misuse m) := by
  intro w hw
  cases hw

/-- The result of a method is in one line where it is a text. -/
abbrev Answers {α : Type} (W : World server) (m : Method α) (Q : α → Prop) : Prop :=
  Yields W PlainFault m Q

section Calls

variable {A : Arithmetic} {W : World server} {command : Command}

theorem TidyReply.plain {c : BoardCall} {reply : Except Text c.Result}
    (h : TidyReply (.board c) reply) : Plain reply := by
  cases c with
  | getStatus => exact h.1
  | getLastError => exact h.1
  | initializeBoard => exact h
  | set c => exact h
  | queryGains => exact h
  | queryRouting => exact h

theorem answers_orThrow {α : Type} {x : Except Text α} {Q : α → Prop} (hplain : Plain x)
    (h : ∀ a, x = .ok a → Q a) : Answers W (orThrow x) Q := by
  cases x with
  | ok a => exact Yields.pure (h a rfl)
  | error what => exact Yields.throw (plainFault_thrown (hplain what rfl))

theorem answers_hardwareCall (hW : Tidy W) (c : HardwareCall) :
    Answers W (hardwareCall c) fun _ => True := by
  refine Yields.bind Yields.get fun s _ => Yields.ite ?_ (Yields.throw plainFault_nullPointer)
  refine Yields.bind (Q := Plain) (Yields.call fun w r w' hstep => hW w _ r w' hstep) fun r hr => ?_
  exact answers_orThrow hr fun _ _ => trivial

theorem answers_boardCall (hW : Tidy W) (c : BoardCall) :
    Answers W (boardCall c) fun a => TidyReply (.board c) (.ok a) := by
  refine Yields.bind Yields.get fun s _ => Yields.ite ?_ (Yields.throw plainFault_nullPointer)
  refine Yields.bind (Q := TidyReply (.board c))
    (Yields.call fun w r w' hstep => hW w _ r w' hstep) fun r hr => ?_
  exact answers_orThrow hr.plain fun a ha => ha ▸ hr

theorem answers_resetMeasurement : Answers W resetMeasurement fun _ => True := by
  refine Yields.bind Yields.get fun s _ => Yields.ite ?_ (Yields.throw plainFault_nullPointer)
  exact Yields.bind (Q := fun _ => True) (Yields.call fun _ _ _ _ => trivial)
    fun _ _ => Yields.pure trivial

theorem answers_makeHardware (hW : Tidy W) : Answers W makeHardware fun _ => True := by
  refine Yields.bind (Q := Plain) (Yields.call fun w r w' hstep => hW w _ r w' hstep) fun r hr => ?_
  exact Yields.bind (answers_orThrow (Q := fun _ => True) hr fun _ _ => trivial)
    fun _ _ => Yields.modify _

theorem answers_makeBoard (hW : Tidy W) : Answers W makeBoard fun _ => True := by
  refine Yields.bind (Q := Plain) (Yields.call fun w r w' hstep => hW w _ r w' hstep) fun r hr => ?_
  exact Yields.bind (answers_orThrow (Q := fun _ => True) hr fun _ _ => trivial)
    fun _ _ => Yields.modify _

theorem answers_deleteHardware : Answers W deleteHardware fun _ => True := by
  refine Yields.bind Yields.get fun s _ => Yields.ite ?_ (Yields.pure trivial)
  exact Yields.bind (Q := fun _ => True) (Yields.call fun _ _ _ _ => trivial)
    fun _ _ => Yields.modify _

theorem answers_releaseHardware : Answers W releaseHardware fun _ => True := by
  refine Yields.bind Yields.get fun s _ => Yields.ite ?_ (Yields.pure trivial)
  exact Yields.bind (Q := fun _ => True) (Yields.call fun _ _ _ _ => trivial)
    fun _ _ => answers_deleteHardware

theorem answers_releaseBoard : Answers W releaseBoard fun _ => True := by
  refine Yields.bind Yields.get fun s _ => Yields.ite ?_ (Yields.pure trivial)
  refine Yields.bind (Q := fun _ => True) (Yields.call fun _ _ _ _ => trivial) fun _ _ => ?_
  exact Yields.bind (Q := fun _ => True) (Yields.call fun _ _ _ _ => trivial)
    fun _ _ => Yields.modify _

theorem answers_now : Answers W now fun _ => True := Yields.call fun _ _ _ _ => trivial

/-- The error of the board is a line. -/
theorem answers_boardError (hW : Tidy W) : Answers W boardError (Suits command) :=
  Yields.bind (answers_boardCall hW .getLastError) fun text htext =>
    Yields.pure ⟨by decide, htext.2 text rfl⟩

/-- What passes the checks goes on; what does not is refused in one line. -/
theorem answers_checked {α : Type} {check : CommandHandler → Except Reply α}
    {body : α → Method Reply} (hcheck : ∀ s, OneLine (check s))
    (hbody : ∀ s a, check s = .ok a → Answers W (body a) (Suits command)) :
    Answers W (checked check body) (Suits command) := by
  refine Yields.bind Yields.get fun s _ => ?_
  cases h : check s with
  | error reply =>
      obtain ⟨status, message, rfl, hmessage⟩ := hcheck s reply h
      exact Yields.pure hmessage
  | ok a => exact hbody s a h

theorem answers_okWithSuffix (hc : command ≠ .boardStatus) {data : Text} (h : '\n' ∉ data) :
    Answers W (okWithSuffix A data) (Suits command) :=
  Yields.bind (Yields.modify _) fun _ _ => Yields.bind Yields.get fun s _ =>
    Yields.pure (suits_ok hc (newline_not_mem_append h s.newline_not_mem_overdriveSuffix))

theorem answers_okWithWarning (hc : command ≠ .boardStatus) :
    Answers W (okWithWarning A) (Suits command) :=
  Yields.bind (Yields.modify _) fun _ _ => Yields.bind Yields.get fun s _ =>
    Yields.pure (suits_ok hc fun hmem =>
      s.newline_not_mem_overdriveSuffix (List.mem_of_mem_drop hmem))

theorem answers_boardCommand (hW : Tidy W) (c : BoardSetting) {done : Method Reply}
    (hdone : Answers W done (Suits command)) : Answers W (boardCommand c done) (Suits command) := by
  refine Yields.bind (answers_boardCall hW (.set c)) fun _ _ =>
    Yields.ite ?_ (answers_boardError hW)
  exact Yields.bind (Yields.modify _) fun _ _ => hdone

/-! ### The commands -/

theorem answers_handleRst (hc : command ≠ .boardStatus) : Answers W handleRst (Suits command) := by
  refine Yields.bind answers_releaseHardware fun _ _ =>
    Yields.bind answers_releaseBoard fun _ _ => ?_
  exact Yields.bind (Yields.modify _) fun _ _ => Yields.pure (suits_ok hc List.not_mem_nil)

theorem answers_handleSystStatus (hc : command ≠ .boardStatus) :
    Answers W (handleSystStatus A) (Suits command) :=
  Yields.bind (Yields.modify _) fun _ _ => Yields.bind Yields.get fun s _ =>
    Yields.pure (suits_ok hc s.newline_not_mem_statusText)

theorem answers_makeSignalGen (decimation : ℕ) :
    Answers W (makeSignalGen decimation) fun _ => True := by
  unfold makeSignalGen
  split
  · exact Yields.modify _
  · rename_i what heq
    refine Yields.throw (plainFault_thrown ?_)
    unfold SignalGenerator.make at heq
    split at heq
    · cases heq
      decide
    · split at heq
      · cases heq
        decide
      · cases heq

theorem answers_makeFftProcessor (samplingFrequency : ℚ) :
    Answers W (makeFftProcessor samplingFrequency) fun _ => True := by
  unfold makeFftProcessor
  split
  · exact Yields.modify _
  · rename_i what heq
    refine Yields.throw (plainFault_thrown ?_)
    unfold FFTProcessor.make at heq
    split at heq
    · cases heq
      decide
    · cases heq

theorem answers_openHardware (hW : Tidy W) : Answers W openHardware fun _ => True :=
  Yields.bind (answers_makeHardware hW) fun _ _ => Yields.bind Yields.get fun _ _ =>
    Yields.ite (answers_hardwareCall hW _) (Yields.pure trivial)

theorem answers_openBoard (hW : Tidy W) : Answers W openBoard fun _ => True :=
  Yields.bind (answers_makeBoard hW) fun _ _ => Yields.bind Yields.get fun _ _ =>
    Yields.ite ((answers_boardCall hW _).mono fun _ _ => trivial) (Yields.pure trivial)

theorem answers_prepareInit (hW : Tidy W) : Answers W prepareInit fun _ => True := by
  have hconnect : Answers W connectBoard fun _ => True :=
    Yields.bind Yields.get fun _ _ => Yields.ite (Yields.modify _)
      (Yields.bind (answers_openBoard hW) fun _ _ => Yields.modify _)
  refine Yields.bind hconnect fun _ _ => Yields.bind (answers_hardwareCall hW _) fun _ _ => ?_
  exact Yields.bind (Yields.modify _) fun _ _ => answers_makeSignalGen _

theorem answers_refreshIfConnected (hW : Tidy W) : Answers W refreshIfConnected fun _ => True := by
  have hgains : Answers W readGains fun _ => True := by
    refine Yields.bind (answers_boardCall hW _) fun gains _ => ?_
    cases gains with
    | none => exact Yields.pure trivial
    | some gains => exact Yields.modify _
  have hrouting : Answers W readRouting fun _ => True := by
    refine Yields.bind (answers_boardCall hW _) fun routing _ => ?_
    cases routing with
    | none => exact Yields.pure trivial
    | some routing => exact Yields.modify _
  refine Yields.bind Yields.get fun _ _ => Yields.ite ?_ (Yields.pure trivial)
  refine Yields.bind (Yields.modify _) fun _ _ => Yields.bind Yields.get fun _ _ => Yields.ite ?_
    (Yields.pure trivial)
  exact Yields.bind hgains fun _ _ => hrouting

theorem suits_initReply (hc : command ≠ .boardStatus) (s : CommandHandler) :
    Suits command s.initReply := by
  unfold initReply
  split
  · exact suits_ok hc (by decide)
  · split
    · exact suits_ok hc (by decide)
    · exact suits_ok hc (by decide)

theorem answers_handleSystInit (hc : command ≠ .boardStatus) (hW : Tidy W) :
    Answers W handleSystInit (Suits command) := by
  have hfinish : Answers W finishInit (Suits command) := by
    refine Yields.bind (answers_prepareInit hW) fun _ _ =>
      Yields.bind (answers_refreshIfConnected hW) fun _ _ => ?_
    exact Yields.bind (Yields.modify _) fun _ _ => Yields.bind Yields.get fun s _ =>
      Yields.pure (suits_initReply hc s)
  refine Yields.bind Yields.get fun s _ => Yields.ite (Yields.pure ?_) ?_
  · exact suits_ok hc (by decide)
  · refine Yields.bind (answers_openHardware hW) fun opened _ => ?_
    cases opened with
    | false =>
        refine Yields.bind answers_deleteHardware fun _ _ => Yields.pure ?_
        exact suits_errorReply (by decide)
    | true => exact hfinish

theorem answers_handleSystDeinit (hc : command ≠ .boardStatus) :
    Answers W handleSystDeinit (Suits command) := by
  refine Yields.bind Yields.get fun s _ => Yields.ite ?_ (Yields.pure ?_)
  · refine Yields.bind answers_releaseHardware fun _ _ =>
      Yields.bind answers_releaseBoard fun _ _ => Yields.bind (Yields.modify _) fun _ _ =>
      Yields.pure ?_
    exact suits_ok hc (by decide)
  · exact suits_ok hc (by decide)

/-- **A status report** is answered by a block. -/
theorem answers_handleBoardStatus (hW : Tidy W) :
    Answers W handleBoardStatus (Suits .boardStatus) := by
  refine answers_checked oneLine_requireBoard fun _ _ _ => ?_
  refine Yields.bind (answers_boardCall hW .getStatus) fun status hstatus => ?_
  cases status with
  | none => exact answers_boardError hW
  | some text =>
      refine Yields.bind Yields.get fun s _ => ?_
      cases h : s.refreshFromStatus text with
      | error m => exact Yields.throw (plainFault_misuse m)
      | ok s' => exact Yields.bind (Yields.modify _) fun _ _ =>
          Yields.pure ⟨rfl, hstatus.2 text rfl⟩

theorem answers_handleBoardAdcLoop (hc : command ≠ .boardStatus) (cmd : ParsedCommand) :
    Answers W (handleBoardAdcLoop A cmd) (Suits command) := by
  refine answers_checked (fun s => s.oneLine_adcLoopArgs cmd) fun _ request _ => ?_
  cases request with
  | query => exact Yields.bind Yields.get fun s _ =>
      Yields.pure (suits_ok hc s.newline_not_mem_loopModeText)
  | off =>
      refine Yields.bind (Yields.modify _) fun _ _ => Yields.pure ?_
      exact suits_ok hc (by decide)
  | auto => exact Yields.bind (Yields.modify _) fun _ _ => answers_okWithSuffix hc (by decide)
  | manual excite ret =>
      exact Yields.bind (Yields.modify _) fun _ _ =>
        answers_okWithSuffix hc (newline_not_mem_pairText excite ret)

theorem newline_not_mem_protectText (enabled : Bool) : '\n' ∉ protectText enabled := by
  cases enabled <;> decide

theorem answers_handleBoardAdcProtect (hc : command ≠ .boardStatus) (cmd : ParsedCommand) :
    Answers W (handleBoardAdcProtect A cmd) (Suits command) := by
  refine answers_checked (fun s => s.oneLine_adcProtectArgs cmd) fun _ request _ => ?_
  cases request with
  | none =>
      exact Yields.bind Yields.get fun s _ =>
        Yields.pure (suits_ok hc (newline_not_mem_protectText _))
  | some enabled =>
      exact Yields.bind (Yields.modify _) fun _ _ =>
        answers_okWithSuffix hc (newline_not_mem_protectText enabled)

theorem answers_handleBoardAdcSampleGain (hc : command ≠ .boardStatus) (cmd : ParsedCommand) :
    Answers W (handleBoardAdcSampleGain A cmd) (Suits command) := by
  refine answers_checked (fun s => s.oneLine_adcSampleGainArgs cmd) fun _ request _ => ?_
  cases request with
  | none =>
      exact Yields.bind Yields.get fun s _ =>
        Yields.pure (suits_ok hc (newline_not_mem_general _ _))
  | some sampleGain =>
      exact Yields.bind (Yields.modify _) fun _ _ =>
        answers_okWithSuffix hc (newline_not_mem_general _ _)

/-! ### Measurements -/

theorem answers_applyDecimation (hW : Tidy W) (decimation : ℕ) :
    Answers W (applyDecimation decimation) fun _ => True := by
  refine Yields.bind (answers_hardwareCall hW _) fun _ _ => Yields.ite ?_ (Yields.pure trivial)
  refine Yields.bind (Yields.modify _) fun _ _ =>
    Yields.bind (answers_makeSignalGen _) fun _ _ => ?_
  exact Yields.bind (answers_makeFftProcessor _) fun _ _ => Yields.pure trivial

theorem answers_waitLoop (hW : Tidy W) (start timeoutMs : ℤ) (rounds : ℕ) :
    Answers W (waitLoop start timeoutMs rounds) fun _ => True := by
  induction rounds with
  | zero => exact Yields.throw plainFault_running
  | succ rounds ih =>
      refine Yields.bind (answers_hardwareCall hW _) fun _ _ => Yields.ite (Yields.pure trivial) ?_
      refine Yields.bind answers_now fun _ _ => Yields.ite (Yields.pure trivial) ?_
      exact Yields.bind (Q := fun _ => True) (Yields.call fun _ _ _ _ => trivial) fun _ _ => ih

theorem answers_acquire (hW : Tidy W) (P : Platform) (numSamples : ℕ) :
    Answers W (acquire P numSamples) fun _ => True := by
  refine Yields.bind (answers_hardwareCall hW _) fun _ _ => Yields.ite ?_ (Yields.pure trivial)
  have hwait : Answers W (waitForMeasurement P) fun _ => True :=
    Yields.bind answers_now fun _ _ => Yields.bind Yields.get fun _ _ => answers_waitLoop hW _ _ _
  refine Yields.bind hwait fun _ _ => Yields.ite ?_ (Yields.pure trivial)
  refine Yields.bind (answers_hardwareCall hW _) fun record _ => ?_
  cases record with
  | none => exact Yields.pure trivial
  | some record => exact Yields.pure trivial

theorem answers_generate {signal : SignalGenerator ℚ → Except Text (List ℚ)}
    (h : ∀ g, Plain (signal g)) : Answers W (generate signal) fun _ => True := by
  refine Yields.bind Yields.get fun s _ => ?_
  cases s.signalGen with
  | none => exact Yields.throw plainFault_nullPointer
  | some g => exact answers_orThrow (h g) fun _ _ => trivial

theorem plain_generateSincSignal (N : Numerics ℚ) (g : SignalGenerator ℚ)
    (numSamples centralFreq bandwidth : ℕ) (amplitude : ℚ) :
    Plain (g.generateSincSignal N numSamples centralFreq bandwidth amplitude) := by
  intro what heq
  unfold SignalGenerator.generateSincSignal at heq
  split_ifs at heq
  · cases heq
    decide
  · cases heq
    decide
  · cases heq
    decide
  · cases heq
    decide

theorem plain_generateSineWave (N : Numerics ℚ) (g : SignalGenerator ℚ) (numSamples : ℕ)
    (frequency amplitude : ℚ) : Plain (g.generateSineWave N numSamples frequency amplitude) := by
  intro what heq
  unfold SignalGenerator.generateSineWave at heq
  split_ifs at heq
  · cases heq
    decide
  · cases heq
    decide
  · cases heq
    decide
  · cases heq
    decide

theorem answers_scopedMeasurement {α : Type} {body : Method α} {Q : α → Prop}
    (h : Answers W body Q) : Answers W (scopedMeasurement body) Q :=
  Yields.bind (Yields.modify _) fun _ _ => Yields.withDestructor h
    (Yields.bind (Yields.modify _) fun _ _ => answers_resetMeasurement)

/-- A spectrum has a row for each bin at most. -/
theorem suits_sincReply {a : SincArgs} {axis magnitude phase : List ℚ}
    (h : axis.length ≤ Client.maxSpectrumRows) :
    Suits .measSinc (sincReply (sincSpectrum A a axis magnitude phase)) := by
  unfold sincReply
  split
  · exact suits_errorReply (by decide)
  · refine ⟨.inl rfl, (List.length_filterMap_le _ _).trans ?_⟩
    rw [List.length_range]
    exact (min_le_left _ _).trans h

theorem answers_measureSinc (hW : Tidy W) {P : Platform} {a : SincArgs}
    (ha : a.numSamples ≤ Fpga.maxSamples) : Answers W (measureSinc P a) (Suits .measSinc) := by
  have htransform : ∀ (p : FFTProcessor ℚ) (record : List ℚ),
      Answers W (transform P p record) fun _ => True := by
    intro p record
    refine Yields.ite (Yields.throw (plainFault_thrown (by decide))) (Yields.ite
      (Yields.pure trivial) ?_)
    refine Yields.bind (Q := Plain) (Yields.call fun w r w' hstep => hW w _ r w' hstep)
      fun r hr => ?_
    refine Yields.bind (answers_orThrow (Q := fun _ => True) hr fun _ _ => trivial) fun _ _ => ?_
    exact Yields.bind (Yields.modify _) fun _ _ => Yields.pure trivial
  have hanalyze : ∀ record : List ℚ, Answers W (analyzeSinc P a record) (Suits .measSinc) := by
    intro record
    refine Yields.bind (Yields.modify _) fun _ _ => Yields.bind Yields.get fun s _ => ?_
    cases s.fftProcessor with
    | none => exact Yields.throw plainFault_nullPointer
    | some p =>
        refine Yields.bind (htransform _ _) fun bins _ => Yields.pure (suits_sincReply ?_)
        rw [FFTProcessor.frequencyAxis, List.length_map, List.length_range]
        have hmax : Fpga.maxSamples / 2 + 1 ≤ Client.maxSpectrumRows := by decide
        omega
  have hrun : Answers W (runSinc P a) (Suits .measSinc) := by
    refine Yields.bind (answers_acquire hW P _) fun acquisition _ => ?_
    cases acquisition with
    | notStarted => exact Yields.pure (suits_errorReply (by decide))
    | timeout => exact Yields.pure (suits_errorReply (by decide))
    | notRead => exact Yields.pure (suits_errorReply (by decide))
    | samples record => exact hanalyze _
  refine Yields.bind (answers_applyDecimation hW _) fun _ _ => Yields.ite ?_ (Yields.pure ?_)
  · refine Yields.bind (Yields.modify _) fun _ _ => Yields.bind (answers_generate fun g =>
      plain_generateSincSignal _ g _ _ _ _) fun _ _ => ?_
    refine Yields.bind (answers_hardwareCall hW _) fun _ _ => Yields.ite
      (answers_scopedMeasurement hrun) (Yields.pure ?_)
    exact suits_errorReply (by decide)
  · exact suits_errorReply (by decide)

theorem suits_sweepError {status : ResponseStatus} {message : String} (h : '\n' ∉ message.toList)
    (hs : status ≠ .ok) (freqKHz : ℚ) : Suits .measSweep (sweepError status message freqKHz) := by
  refine ⟨hs, ?_⟩
  refine newline_not_mem_append (newline_not_mem_append (newline_not_mem_append h ?_) ?_) ?_
  · decide
  · exact newline_not_mem_fixed _ _
  · decide

/-- The rows of a sweep are at most as many as its points. -/
theorem answers_sweepLoop (hW : Tidy W) {P : Platform} {a : SweepArgs} {points : List ℕ}
    {spectrum : List SpectrumPoint} (h : spectrum.length + points.length ≤ Client.maxSpectrumRows) :
    Answers W (sweepLoop P a points spectrum) (Suits .measSweep) := by
  induction points generalizing spectrum with
  | nil => exact Yields.pure ⟨.inr rfl, by simpa using h⟩
  | cons point points ih =>
      refine Yields.bind (Q := fun _ => True) (Yields.call fun _ _ _ _ => trivial) fun _ _ =>
        Yields.ite (Yields.pure ?_) ?_
      · exact ⟨by decide, newline_not_mem_append (newline_not_mem_append (by decide)
          (newline_not_mem_toText _)) (by decide)⟩
      · refine Yields.bind (answers_generate fun g => plain_generateSineWave _ g _ _ _) fun _ _ =>
          Yields.bind (answers_hardwareCall hW _) fun _ _ => Yields.ite ?_
          (Yields.pure (suits_sweepError (by decide) (by decide) _))
        refine Yields.bind (answers_acquire hW P _) fun acquisition _ => ?_
        cases acquisition with
        | notStarted => exact Yields.pure (suits_sweepError (by decide) (by decide) _)
        | timeout => exact Yields.pure (suits_sweepError (by decide) (by decide) _)
        | notRead => exact Yields.pure (suits_sweepError (by decide) (by decide) _)
        | samples record =>
            refine Yields.bind (Yields.modify _) fun _ _ =>
              Yields.bind answers_resetMeasurement fun _ _ => ih ?_
            rw [List.length_append, List.length_singleton]
            rw [List.length_cons] at h
            omega

theorem answers_measureSweep (hW : Tidy W) {P : Platform} {a : SweepArgs}
    (ha : a.numPoints ≤ ServerConfig.maxSweepPoints) :
    Answers W (measureSweep P a) (Suits .measSweep) := by
  refine Yields.bind (answers_applyDecimation hW _) fun _ _ => Yields.ite ?_ (Yields.pure ?_)
  · refine Yields.bind (Yields.modify _) fun _ _ =>
      answers_scopedMeasurement (answers_sweepLoop hW ?_)
    have hmax : ServerConfig.maxSweepPoints ≤ Client.maxSpectrumRows := by decide
    rw [List.length_nil, List.length_range']
    omega
  · exact suits_errorReply (by decide)

/-! ### Every command -/

theorem suits_tooManyArgs (cmd : ParsedCommand) : Suits command (tooManyArgs cmd) := by
  refine ⟨by decide, ?_⟩
  refine newline_not_mem_append (newline_not_mem_append ?_ ?_) ?_
  · exact newline_not_mem_commandToString _
  · split
    · decide
    · exact newline_not_mem_append (newline_not_mem_append (by decide) (newline_not_mem_toText _))
        (by decide)
  · split
    · decide
    · exact List.not_mem_nil

/-- **Every command** that came in one line is answered by a reply that suits it. -/
theorem answers_handleCommand (hW : Tidy W) {P : Platform} {cmd : ParsedCommand}
    (hline : '\n' ∉ cmd.rawLine) : Answers W (handleCommand P cmd) (Suits cmd.command) := by
  refine Yields.ite (Yields.pure (suits_tooManyArgs cmd)) ?_
  have hunknown : ∀ command, Suits command
      (.error .errSyntax ("Unknown command: ".toList ++ cmd.rawLine)) :=
    fun _ => ⟨by decide, newline_not_mem_append (by decide) hline⟩
  unfold dispatch
  cases cmd.command with
  | idn => exact Yields.pure (suits_ok (by decide) (newline_not_mem_append (by decide) (by decide)))
  | rst => exact answers_handleRst (by decide)
  | opc =>
      exact Yields.pure (suits_ok (by decide) (by decide))
  | systPing =>
      exact Yields.pure (suits_ok (by decide) (by decide))
  | systVersion =>
      exact Yields.pure (suits_ok (by decide) (newline_not_mem_append (by decide) (by decide)))
  | systStatus => exact answers_handleSystStatus (by decide)
  | systInit => exact answers_handleSystInit (by decide) hW
  | systDeinit => exact answers_handleSystDeinit (by decide)
  | systMode =>
      refine Yields.bind Yields.get fun s _ => Yields.pure ?_
      cases s.status.mode with
      | full => exact suits_ok (by decide) (by decide)
      | rpOnly => exact suits_ok (by decide) (by decide)
  | systShutdown => exact Yields.pure (hunknown _)
  | boardMuxRoute =>
      exact answers_checked (fun s => s.oneLine_muxRouteArgs cmd) fun _ _ _ =>
        answers_boardCommand hW _ (answers_okWithWarning (by decide))
  | boardMuxDisconnect =>
      exact answers_checked (fun s => s.oneLine_muxDisconnectArgs cmd) fun _ _ _ =>
        answers_boardCommand hW _ (answers_okWithWarning (by decide))
  | boardGain =>
      exact answers_checked (fun s => s.oneLine_gainArgs cmd) fun _ a _ =>
        answers_boardCommand hW _ (answers_okWithSuffix (by decide) (newline_not_mem_label a.2))
  | boardAdcLoop => exact answers_handleBoardAdcLoop (by decide) cmd
  | boardAdcProtect => exact answers_handleBoardAdcProtect (by decide) cmd
  | boardAdcSampleGain => exact answers_handleBoardAdcSampleGain (by decide) cmd
  | boardReset =>
      exact answers_checked oneLine_requireBoard fun _ _ _ =>
        answers_boardCommand hW _ (answers_okWithSuffix (by decide) (by decide))
  | boardStatus => exact answers_handleBoardStatus hW
  | measSinc =>
      exact answers_checked (fun s => s.oneLine_sincArgs cmd) fun s a ha =>
        answers_measureSinc hW (sincArgs_valid ha).le_maxSamples
  | measSweep =>
      exact answers_checked (fun s => s.oneLine_sweepArgs cmd) fun s a ha =>
        answers_measureSweep hW (sweepArgs_valid ha).numPoints_le
  | unknown => exact Yields.pure (hunknown _)

end Calls

end CommandHandler

end Afm
