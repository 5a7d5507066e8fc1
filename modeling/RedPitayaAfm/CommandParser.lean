/-
**The command parser of the board.**

The line editor and the commands of `ElectronicBoard/src/command_parser.cpp`, and the main loop that
feeds them.  A byte is stored and echoed, a backspace takes the last one back, and a line end makes
the command ready, which the main loop then executes.  `CMD_Execute` copies the line in upper case
into a local array that nothing has initialised; what that array holds before the copy is a parameter
here, and a cell that was never written has no value.

Main definitions:

* `Afm.Firmware.Parser` — the statics of the file;
* `Afm.Firmware.cmdProcessChar`, `Afm.Firmware.cmdExecute` — its two functions;
* `Afm.Firmware.Board`, `Afm.Firmware.Board.step`, `Afm.Firmware.Board.run` — the main loop.

Main results:

* `Afm.Firmware.cmdInit_holds`, `Afm.Firmware.Parser.Holds.processChar` — the buffer holds the line
  that the bytes spell;
* `Afm.Firmware.Parser.Holds.processChar_end` — what the end of a line does.
-/

import RedPitayaAfm.CString
import RedPitayaAfm.MuxControl

set_option relaxedAutoImplicit false
set_option autoImplicit false

namespace Afm

namespace Firmware

open CString

/-- `CMD_MAX_LENGTH` -/
def cmdMaxLength : ℕ := 32

/-- The static variables of the file. -/
structure Parser where
  cmdBuffer : Memory
  cmdIndex : ℕ
  cmdReady : Bool

/-- `CMD_Init` -/
def cmdInit : Parser where
  cmdBuffer := .filled fun _ => nul
  cmdIndex := 0
  cmdReady := false

/-- What a command does: the changes it makes, and the bytes it sends. -/
structure Outcome where
  changes : List Change := []
  sent : Text := []
  deriving DecidableEq

/-- `SendOK` -/
def sendOK : Text := "OK\r\n".toList

/-- `SendError` -/
def sendError (msg : Text) : Text := "ERR:".toList ++ msg ++ "\r\n".toList

/-! ### Line editor -/

/-- A carriage return or a line feed. -/
def IsLineEnd (c : Char) : Prop := c = '\r' ∨ c = '\n'

instance (c : Char) : Decidable (IsLineEnd c) := inferInstanceAs (Decidable (_ ∨ _))

/-- A backspace or a delete. -/
def IsBackspace (c : Char) : Prop := c = '\x08' ∨ c = '\x7f'

instance (c : Char) : Decidable (IsBackspace c) := inferInstanceAs (Decidable (_ ∨ _))

/-- `CMD_ProcessChar`: the parser after a byte, and the echo. -/
def cmdProcessChar (p : Parser) (c : Char) : Except AccessFault (Parser × Text) :=
  if IsLineEnd c then
    if 0 < p.cmdIndex then do
      let cmdBuffer ← store cmdMaxLength p.cmdBuffer p.cmdIndex nul
      .ok ({ p with cmdBuffer := cmdBuffer, cmdReady := true }, [])
    else .ok (p, [])
  else if IsBackspace c then
    if 0 < p.cmdIndex then .ok ({ p with cmdIndex := p.cmdIndex - 1 }, ['\x08', ' ', '\x08'])
    else .ok (p, [])
  else if p.cmdIndex < cmdMaxLength - 1 then do
    let cmdBuffer ← store cmdMaxLength p.cmdBuffer p.cmdIndex c
    .ok ({ p with cmdBuffer := cmdBuffer, cmdIndex := p.cmdIndex + 1 }, [c])
  else .ok (p, [])

/-! ### Command handlers -/

/-- The input a character stands for, as the argument of `MUX_SetRoute`. -/
def muxInput (c : Char) : Option ℕ :=
  let inChar := c.toUpper
  if inChar = 'X' then some muxDisconnected
  else if '1' ≤ inChar ∧ inChar ≤ '4' then some (inChar.toNat - '1'.toNat)
  else none

/-- `HandleMuxCommand`, of the arguments from cell `args` of the buffer on. -/
def handleMuxCommand (cmdBuffer : Memory) (args : ℕ) : Except AccessFault Outcome := do
  let len ← strlen cmdMaxLength cmdBuffer (cmdMaxLength + 1) args
  if len < 3 then .ok { sent := sendError "Invalid MUX format".toList } else do
  let outChar ← load cmdMaxLength cmdBuffer args
  if outChar < '1' ∨ '4' < outChar then .ok { sent := sendError "Output must be 1-4".toList } else do
  let comma ← load cmdMaxLength cmdBuffer (args + 1)
  if comma ≠ ',' then .ok { sent := sendError "Expected comma".toList } else do
  let inChar ← load cmdMaxLength cmdBuffer (args + 2)
  match muxInput inChar with
  | none => .ok { sent := sendError "Input must be 1-4 or X".toList }
  | some input =>
      match muxSetRoute (outChar.toNat - '1'.toNat) input with
      | some changes => .ok { changes := changes, sent := sendOK }
      | none => .ok { sent := sendError "Invalid route".toList }

/-- `HandleGainCommand`, of the arguments from cell `args` of the buffer on. -/
def handleGainCommand (cmdBuffer : Memory) (args : ℕ) : Except AccessFault Outcome := do
  let len ← strlen cmdMaxLength cmdBuffer (cmdMaxLength + 1) args
  if len < 3 then .ok { sent := sendError "Invalid GAIN format".toList } else do
  let chChar ← load cmdMaxLength cmdBuffer args
  if chChar < '1' ∨ '4' < chChar then .ok { sent := sendError "Channel must be 1-4".toList } else do
  let comma ← load cmdMaxLength cmdBuffer (args + 1)
  if comma ≠ ',' then .ok { sent := sendError "Expected comma".toList } else do
  let gainChar ← load cmdMaxLength cmdBuffer (args + 2)
  if gainChar < '0' ∨ '7' < gainChar then .ok { sent := sendError "Gain must be 0-7".toList } else
  match ampSetGain (chChar.toNat - '1'.toNat) (gainChar.toNat - '0'.toNat) with
  | some changes => .ok { changes := changes, sent := sendOK }
  | none => .ok { sent := sendError "Failed to set gain".toList }

/-- `HandleStatusCommand` -/
def handleStatusCommand (s : Switches) : Outcome := { sent := muxPrintStatus s ++ sendOK }

/-- `HandleResetCommand` -/
def handleResetCommand : Outcome :=
  { changes := muxInit, sent := "Reset complete\r\n".toList ++ sendOK }

/-- `CMD_PrintHelp` -/
def cmdPrintHelp : Text :=
  "\r\n".toList ++ "=== Electronic Board Commands ===\r\n".toList ++ "\r\n".toList
    ++ "MUX<out>,<in>  - Route input to output\r\n".toList
    ++ "                 out: 1-4, in: 1-4 or X (disconnect)\r\n".toList
    ++ "                 Example: MUX1,2 or MUX2,X\r\n".toList ++ "\r\n".toList
    ++ "GAIN<ch>,<val> - Set input channel gain\r\n".toList
    ++ "                 ch: 1-4, val: 0-7\r\n".toList
    ++ "                 0=x1/8, 1=x1/4, 2=x1/2, 3=x1, 4=x2, 5=x4, 6=x8, 7=x16\r\n".toList
    ++ "                 Example: GAIN1,3 (ch1 gain x1)\r\n".toList ++ "\r\n".toList
    ++ "STATUS         - Show current configuration\r\n".toList
    ++ "RESET          - Reset all settings\r\n".toList
    ++ "HELP           - Show this help\r\n".toList ++ "\r\n".toList
    ++ "Note: One input can feed several outputs.\r\n".toList
    ++ "=================================\r\n".toList

/-! ### Execution -/

/-- The commands `CMD_Execute` tells apart. -/
inductive Keyword
  | mux | gain | status | reset | help | unknown
  deriving DecidableEq

/-- The comparisons of `CMD_Execute`, in their order. -/
def recognise (upperCmd : Memory) : Except AccessFault Keyword := do
  if ← startsWith cmdMaxLength upperCmd "MUX".toList then .ok .mux else do
  if ← startsWith cmdMaxLength upperCmd "GAIN".toList then .ok .gain else do
  if ← equals cmdMaxLength upperCmd "STATUS".toList then .ok .status else do
  if ← equals cmdMaxLength upperCmd "RESET".toList then .ok .reset else do
  if ← equals cmdMaxLength upperCmd "HELP".toList then .ok .help else do
  if ← equals cmdMaxLength upperCmd "?".toList then .ok .help else .ok .unknown

/-- What `CMD_Execute` does with the command it recognised. -/
def carryOut (p : Parser) (s : Switches) : Keyword → Except AccessFault Outcome
  | .mux => handleMuxCommand p.cmdBuffer 3
  | .gain => handleGainCommand p.cmdBuffer 4
  | .status => .ok (handleStatusCommand s)
  | .reset => .ok handleResetCommand
  | .help => .ok { sent := cmdPrintHelp }
  | .unknown =>
      .ok { sent := if 0 < p.cmdIndex then sendError "Unknown command. Type HELP for help.".toList
                    else [] }

/-- `upperCmd` after the loop and the terminator, from what it held at first. -/
def upperCmd (p : Parser) (local₀ : Memory) : Except AccessFault Memory := do
  let upper ← copyWith Char.toUpper cmdMaxLength p.cmdBuffer cmdMaxLength 0 local₀
  store cmdMaxLength upper p.cmdIndex nul

/-- `CMD_Execute`; `local₀` is what `upperCmd` holds at first. -/
def cmdExecute (p : Parser) (s : Switches) (local₀ : Memory) : Except AccessFault (Parser × Outcome) :=
  if p.cmdReady then do
    let upper ← upperCmd p local₀
    let keyword ← recognise upper
    let outcome ← carryOut p s keyword
    .ok (cmdInit, { outcome with sent := newLine ++ outcome.sent })
  else .ok (p, {})

/-! ### Main loop -/

/-- The program: the parser and the switches. -/
structure Board where
  parser : Parser
  switches : Switches

/-- A board with an empty buffer and nothing connected. -/
def idleBoard : Board := ⟨cmdInit, ⟨fun _ => none, fun _ => gain1, fun _ => false⟩⟩

namespace Board

/-- The main loop on one byte.  The prompt follows a command. -/
def step (b : Board) (local₀ : Memory) (c : Char) : Except AccessFault (Board × Outcome) := do
  let (parser, echo) ← cmdProcessChar b.parser c
  if parser.cmdReady then do
    let (parser, outcome) ← cmdExecute parser b.switches local₀
    .ok ({ parser := parser, switches := b.switches.performAll outcome.changes },
      { outcome with sent := echo ++ outcome.sent ++ "> ".toList })
  else .ok ({ b with parser := parser }, { sent := echo })

/-- The main loop on a stream of bytes: where it ends, and what each byte led to.  The local array
of the `n`-th byte, if it is used, first holds `locals n`. -/
def run (b : Board) (locals : ℕ → Memory) : List Char → Except AccessFault (Board × List Outcome)
  | [] => .ok (b, [])
  | c :: cs => do
      let (b, outcome) ← b.step (locals 0) c
      let (b, outcomes) ← b.run (fun n => locals (n + 1)) cs
      .ok (b, outcome :: outcomes)

end Board

/-! ### The line that is edited -/

/-- The line in the buffer after a byte that does not end it. -/
def edit (line : Text) (c : Char) : Text :=
  if IsBackspace c then line.dropLast
  else if line.length < cmdMaxLength - 1 then line ++ [c] else line

/-- What is echoed of a byte that does not end the line. -/
def echo (line : Text) (c : Char) : Text :=
  if IsBackspace c then if line = [] then [] else ['\x08', ' ', '\x08']
  else if line.length < cmdMaxLength - 1 then [c] else []

/-- The buffer holds a line that is being edited. -/
structure Parser.Holds (p : Parser) (line : Text) : Prop where
  cmdIndex : p.cmdIndex = line.length
  length_lt : line.length < cmdMaxLength
  holds : CString.Holds p.cmdBuffer 0 line
  written : ∀ i < cmdMaxLength, p.cmdBuffer i ≠ none
  last : p.cmdBuffer (cmdMaxLength - 1) = some nul

theorem cmdInit_holds : cmdInit.Holds [] where
  cmdIndex := rfl
  length_lt := by decide
  holds := trivial
  written _ _ h := by cases h
  last := rfl

theorem written_update {m : Memory} (h : ∀ i < cmdMaxLength, m i ≠ none) (j : ℕ) (c : Char) :
    ∀ i < cmdMaxLength, Function.update m j (some c) i ≠ none := by
  intro i hi
  by_cases hij : i = j
  · rw [hij, Function.update_self]
    exact Option.some_ne_none c
  · rw [Function.update_of_ne hij]
    exact h i hi

/-- The last cell only ever gets a zero byte. -/
theorem last_update {m : Memory} (h : m (cmdMaxLength - 1) = some nul) {j : ℕ} {c : Char}
    (hj : j < cmdMaxLength - 1 ∨ c = nul) :
    Function.update m j (some c) (cmdMaxLength - 1) = some nul := by
  by_cases hlast : cmdMaxLength - 1 = j
  · have hc : c = nul := by
      rcases hj with hj | hj
      · omega
      · exact hj
    rw [hlast, hc, Function.update_self]
  · rw [Function.update_of_ne hlast]
    exact h

/-- A byte that does not end the line edits it. -/
theorem Parser.Holds.processChar {p : Parser} {line : Text} (h : p.Holds line) {c : Char}
    (hc : ¬IsLineEnd c) :
    ∃ p', cmdProcessChar p c = .ok (p', echo line c) ∧ p'.Holds (edit line c) ∧
      p'.cmdReady = p.cmdReady := by
  have hlen := h.length_lt
  have hindex := h.cmdIndex
  unfold cmdProcessChar echo edit
  rw [if_neg hc]
  by_cases hback : IsBackspace c
  · rw [if_pos hback, if_pos hback, if_pos hback]
    by_cases hline : line = []
    · subst hline
      rw [if_pos rfl, if_neg (by rw [hindex]; exact lt_irrefl 0)]
      exact ⟨p, rfl, h, rfl⟩
    · have hpos : 0 < line.length := List.length_pos_of_ne_nil hline
      have hsplit := h.holds
      rw [← List.dropLast_append_getLast hline, holds_append] at hsplit
      rw [if_neg hline, if_pos (by omega)]
      refine ⟨_, rfl, ⟨?_, ?_, hsplit.1, h.written, h.last⟩, rfl⟩
      · rw [List.length_dropLast, ← hindex]
      · rw [List.length_dropLast]
        omega
  · rw [if_neg hback, if_neg hback, if_neg hback, hindex]
    -- a full buffer drops the byte and echoes nothing
    by_cases hfull : line.length < cmdMaxLength - 1
    · rw [if_pos hfull, if_pos hfull, if_pos hfull, store_ok _ hlen]
      refine ⟨_, rfl, ⟨?_, ?_, ?_, written_update h.written _ c,
        last_update h.last (.inl hfull)⟩, rfl⟩
      · rw [List.length_append, List.length_singleton]
      · rw [List.length_append, List.length_singleton]
        omega
      · rw [holds_append]
        refine ⟨h.holds.congr fun j _ hj => Function.update_of_ne (by omega) _ _, ?_, trivial⟩
        rw [Nat.zero_add]
        exact Function.update_self ..
    · rw [if_neg hfull, if_neg hfull, if_neg hfull]
      exact ⟨p, rfl, h, rfl⟩

/-- A line end of an empty line is ignored. -/
theorem Parser.Holds.processChar_nil {p : Parser} (h : p.Holds []) {c : Char} (hc : IsLineEnd c) :
    cmdProcessChar p c = .ok (p, []) := by
  have hindex := h.cmdIndex
  unfold cmdProcessChar
  rw [if_pos hc, if_neg (by rw [hindex]; exact lt_irrefl 0)]

/-- The end of a line makes it a string, and ready. -/
theorem Parser.Holds.processChar_end {p : Parser} {line : Text} (h : p.Holds line)
    (hline : line ≠ []) {c : Char} (hc : IsLineEnd c) :
    ∃ p', cmdProcessChar p c = .ok (p', []) ∧ p'.Holds line ∧ p'.cmdReady = true ∧
      CString.Holds p'.cmdBuffer 0 (line ++ [nul]) := by
  have hlen := h.length_lt
  have hpos : 0 < line.length := List.length_pos_of_ne_nil hline
  unfold cmdProcessChar
  rw [if_pos hc, if_pos (by rw [h.cmdIndex]; exact hpos), h.cmdIndex, store_ok _ hlen]
  have hheld : CString.Holds (Function.update p.cmdBuffer line.length (some nul)) 0 line :=
    h.holds.congr fun j _ hj => Function.update_of_ne (by omega) _ _
  refine ⟨_, rfl, ⟨rfl, hlen, hheld, written_update h.written _ nul, last_update h.last (.inr rfl)⟩,
    rfl, ?_⟩
  rw [holds_append, Nat.zero_add]
  exact ⟨hheld, Function.update_self .., trivial⟩

end Firmware

end Afm
