/-
**The lines the board accepts.**

On bytes other than zero the firmware is a machine on lines: it edits a line, and at its end it does
what the line says.  What the line says is decided by its first characters: a line that goes on after
a complete `MUX` or `GAIN` command is carried out like the command alone, and characters that did not
fit the buffer are missing from the line.  This module compares that with the command grammar.

Main definitions:

* `Afm.Firmware.execute` — what a line does;
* `Afm.Firmware.Grammar.denote` — the command grammar: the changes a line stands for;
* `Afm.Firmware.terminated` — the lines of a stream, as stored and as typed;
* `Afm.Firmware.FollowsGrammar`, `Afm.Firmware.Plain` — a stream is carried out line by line as the
  grammar says, and the lines for which it is.

Main results:

* `Afm.Firmware.Board.step_edit`, `Afm.Firmware.Board.step_end` — one byte, whatever the local array
  holds;
* `Afm.Firmware.followsGrammar_iff` — the condition for every stream.
-/

import RedPitayaAfm.CommandParser

set_option relaxedAutoImplicit false
set_option autoImplicit false

namespace Afm

namespace Firmware

open CString

/-! ### What a line does -/

/-- `HandleMuxCommand` on a text. -/
def muxCommand : Text → Outcome
  | outChar :: comma :: inChar :: _ =>
      if outChar < '1' ∨ '4' < outChar then { sent := sendError "Output must be 1-4".toList }
      else if comma ≠ ',' then { sent := sendError "Expected comma".toList }
      else
        match muxInput inChar with
        | none => { sent := sendError "Input must be 1-4 or X".toList }
        | some input =>
            match muxSetRoute (outChar.toNat - '1'.toNat) input with
            | some changes => { changes := changes, sent := sendOK }
            | none => { sent := sendError "Invalid route".toList }
  | _ => { sent := sendError "Invalid MUX format".toList }

/-- `HandleGainCommand` on a text. -/
def gainCommand : Text → Outcome
  | chChar :: comma :: gainChar :: _ =>
      if chChar < '1' ∨ '4' < chChar then { sent := sendError "Channel must be 1-4".toList }
      else if comma ≠ ',' then { sent := sendError "Expected comma".toList }
      else if gainChar < '0' ∨ '7' < gainChar then { sent := sendError "Gain must be 0-7".toList }
      else
        match ampSetGain (chChar.toNat - '1'.toNat) (gainChar.toNat - '0'.toNat) with
        | some changes => { changes := changes, sent := sendOK }
        | none => { sent := sendError "Failed to set gain".toList }
  | _ => { sent := sendError "Invalid GAIN format".toList }

/-- The keyword a line starts with. -/
def keyword (line : Text) : Keyword :=
  if "MUX".toList.isPrefixOf (upper line) then .mux
  else if "GAIN".toList.isPrefixOf (upper line) then .gain
  else if upper line = "STATUS".toList then .status
  else if upper line = "RESET".toList then .reset
  else if upper line = "HELP".toList then .help
  else if upper line = "?".toList then .help
  else .unknown

/-- What a line does. -/
def execute (s : Switches) (line : Text) : Outcome :=
  match keyword line with
  | .mux => muxCommand (line.drop 3)
  | .gain => gainCommand (line.drop 4)
  | .status => handleStatusCommand s
  | .reset => handleResetCommand
  | .help => { sent := cmdPrintHelp }
  | .unknown => { sent := sendError "Unknown command. Type HELP for help.".toList }

/-! ### The handlers on a line -/

/-- Three characters or more. -/
theorem cases_args (args : Text) :
    args.length < 3 ∨ ∃ a b c rest, args = a :: b :: c :: rest := by
  rcases args with - | ⟨a, - | ⟨b, - | ⟨c, rest⟩⟩⟩
  · exact .inl (by decide)
  · exact .inl (by simp)
  · exact .inl (by simp)
  · exact .inr ⟨a, b, c, rest, rfl⟩

variable {m : Memory} {i : ℕ} {args : Text}

theorem handleMuxCommand_line (hargs : nul ∉ args) (hm : Holds m i (args ++ [nul]))
    (hi : i + args.length < cmdMaxLength) : handleMuxCommand m i = .ok (muxCommand args) := by
  unfold handleMuxCommand
  rw [strlen_line hargs hm hi (by omega)]
  show (if args.length < 3 then _ else _) = _
  rcases cases_args args with hshort | ⟨a, b, c, rest, rfl⟩
  · rw [if_pos hshort]
    rcases args with - | ⟨a, - | ⟨b, - | ⟨c, rest⟩⟩⟩
    · rfl
    · rfl
    · rfl
    · exact absurd hshort (by simp)
  · obtain ⟨ha, hb, hc, -⟩ := hm
    rw [List.length_cons, List.length_cons, List.length_cons] at hi ⊢
    rw [if_neg (by omega), load_ok (by omega) ha, load_ok (by omega) hb, load_ok (by omega) hc]
    show (if a < '1' ∨ '4' < a then _ else if b ≠ ',' then _ else
      match muxInput c with
      | none => _
      | some input => _) = _
    rw [muxCommand]
    by_cases hout : a < '1' ∨ '4' < a
    · rw [if_pos hout, if_pos hout]
    · rw [if_neg hout, if_neg hout]
      by_cases hcomma : b ≠ ','
      · rw [if_pos hcomma, if_pos hcomma]
      · rw [if_neg hcomma, if_neg hcomma]
        cases muxInput c with
        | none => rfl
        | some input =>
            cases hroute : muxSetRoute (a.toNat - '1'.toNat) input with
            | none => simp only [hroute]
            | some changes => simp only [hroute]

theorem handleGainCommand_line (hargs : nul ∉ args) (hm : Holds m i (args ++ [nul]))
    (hi : i + args.length < cmdMaxLength) : handleGainCommand m i = .ok (gainCommand args) := by
  unfold handleGainCommand
  rw [strlen_line hargs hm hi (by omega)]
  show (if args.length < 3 then _ else _) = _
  rcases cases_args args with hshort | ⟨a, b, c, rest, rfl⟩
  · rw [if_pos hshort]
    rcases args with - | ⟨a, - | ⟨b, - | ⟨c, rest⟩⟩⟩
    · rfl
    · rfl
    · rfl
    · exact absurd hshort (by simp)
  · obtain ⟨ha, hb, hc, -⟩ := hm
    rw [List.length_cons, List.length_cons, List.length_cons] at hi ⊢
    rw [if_neg (by omega), load_ok (by omega) ha, load_ok (by omega) hb, load_ok (by omega) hc]
    show (if a < '1' ∨ '4' < a then _ else if b ≠ ',' then _ else if c < '0' ∨ '7' < c then _ else
      match ampSetGain (a.toNat - '1'.toNat) (c.toNat - '0'.toNat) with
      | some changes => _
      | none => _) = _
    rw [gainCommand]
    by_cases hch : a < '1' ∨ '4' < a
    · rw [if_pos hch, if_pos hch]
    · rw [if_neg hch, if_neg hch]
      by_cases hcomma : b ≠ ','
      · rw [if_pos hcomma, if_pos hcomma]
      · rw [if_neg hcomma, if_neg hcomma]
        by_cases hgain : c < '0' ∨ '7' < c
        · rw [if_pos hgain, if_pos hgain]
        · rw [if_neg hgain, if_neg hgain]
          cases ampSetGain (a.toNat - '1'.toNat) (c.toNat - '0'.toNat) with
          | none => rfl
          | some changes => rfl

/-! ### A byte -/

/-- Upper case only touches characters from `A` on, and leads to such characters. -/
theorem toUpper_cases (c : Char) : c.toUpper = c ∨ 65 ≤ c.toNat ∧ 65 ≤ c.toUpper.toNat := by
  by_cases hlower : 'a'.val ≤ c.val ∧ c.val ≤ 'z'.val
  · have hlo : 'a'.val.toNat ≤ c.val.toNat := UInt32.le_iff_toNat_le.1 hlower.1
    have hhi : c.val.toNat ≤ 'z'.val.toNat := UInt32.le_iff_toNat_le.1 hlower.2
    have ha : 'a'.val.toNat = 97 := by decide
    have hz : 'z'.val.toNat = 122 := by decide
    have hshift : ('A'.val - 'a'.val).toNat = 4294967264 := by decide
    have hupper : c.toUpper.val = c.val + ('A'.val - 'a'.val) := by rw [Char.toUpper, dif_pos hlower]
    have hval : c.toUpper.toNat = (c.val.toNat + 4294967264) % 2 ^ 32 := by
      rw [Char.toNat, hupper, UInt32.toNat_add, hshift]
    right
    rw [hval, Char.toNat]
    omega
  · left
    rw [Char.toUpper, dif_neg hlower]

theorem toUpper_ne_nul {c : Char} (hc : c ≠ nul) : c.toUpper ≠ nul := by
  intro h
  rcases toUpper_cases c with heq | ⟨-, hle⟩
  · exact hc (heq.symm.trans h)
  · rw [h] at hle
    exact absurd hle (by decide)

theorem nul_not_mem_upper {line : Text} (h : nul ∉ line) : nul ∉ upper line := by
  intro hmem
  obtain ⟨c, hc, hupper⟩ := List.mem_map.1 hmem
  exact toUpper_ne_nul (fun heq => h (heq ▸ hc)) hupper

theorem length_upper (line : Text) : (upper line).length = line.length := List.length_map ..

/-- The comparisons, on the upper-case copy of a line. -/
theorem recognise_line {line : Text} (hline : nul ∉ line) (hm : Holds m 0 (upper line ++ [nul]))
    (hlen : line.length < cmdMaxLength) : recognise m = .ok (keyword line) := by
  have hupper := nul_not_mem_upper hline
  have hlt : 0 + (upper line).length < cmdMaxLength := by
    rw [length_upper, Nat.zero_add]
    exact hlen
  have hstart : ∀ lit : Text, nul ∉ lit →
      agrees cmdMaxLength m 0 lit = .ok (lit.isPrefixOf (upper line)) :=
    fun lit hlit => agrees_line hlit hm hlt
  have hwhole : ∀ lit : Text, nul ∉ lit →
      agrees cmdMaxLength m 0 (lit ++ [nul]) = .ok (decide (upper line = lit)) :=
    fun lit hlit => strcmp_line hlit hupper hm hlt
  have hmux := hstart "MUX".toList (by decide)
  have hgain := hstart "GAIN".toList (by decide)
  have hstatus := hwhole "STATUS".toList (by decide)
  have hreset := hwhole "RESET".toList (by decide)
  have hhelp := hwhole "HELP".toList (by decide)
  have hquestion := hwhole "?".toList (by decide)
  simp only [recognise, startsWith, equals, hmux, hgain, hstatus, hreset, hhelp, hquestion, bind,
    Except.bind, decide_eq_true_eq]
  unfold keyword
  split_ifs <;> rfl

/-- The copy of a line, whatever the local array held. -/
theorem upperCmd_line {p : Parser} {line : Text} (hline : nul ∉ line)
    (hm : Holds p.cmdBuffer 0 (line ++ [nul])) (hindex : p.cmdIndex = line.length)
    (hlen : line.length < cmdMaxLength) (local₀ : Memory) :
    ∃ upper₁, upperCmd p local₀ = .ok upper₁ ∧ Holds upper₁ 0 (upper line ++ [nul]) := by
  unfold upperCmd
  rw [copyWith_line Char.toUpper hline hm (by omega) hlen, hindex]
  refine ⟨_, store_ok _ hlen nul, ?_⟩
  rw [holds_append, length_upper, Nat.zero_add]
  refine ⟨(holds_put local₀ 0 (upper line)).congr fun j _ hj => ?_, Function.update_self .., trivial⟩
  rw [length_upper] at hj
  exact Function.update_of_ne (by omega) _ _

/-- The part of a string from a cell on. -/
theorem holds_drop {line : Text} {k : ℕ} (hm : Holds m 0 (line ++ [nul])) (hk : k ≤ line.length) :
    Holds m k (line.drop k ++ [nul]) := by
  have hsplit : line ++ [nul] = line.take k ++ (line.drop k ++ [nul]) := by
    rw [← List.append_assoc, List.take_append_drop]
  rw [hsplit, holds_append, List.length_take, Nat.min_eq_left hk, Nat.zero_add] at hm
  exact hm.2

/-- A line that starts with a keyword is as long as it. -/
theorem length_le_of_isPrefixOf {lit line : Text} (h : lit.isPrefixOf (upper line) = true) :
    lit.length ≤ line.length := by
  have hle := (List.isPrefixOf_iff_prefix.1 h).length_le
  rwa [length_upper] at hle

theorem carryOut_line {p : Parser} {line : Text} (hline : nul ∉ line) (hne : line ≠ [])
    (hm : Holds p.cmdBuffer 0 (line ++ [nul])) (hindex : p.cmdIndex = line.length)
    (hlen : line.length < cmdMaxLength) (s : Switches) :
    carryOut p s (keyword line) = .ok (execute s line) := by
  have hdrop : ∀ k, nul ∉ line.drop k := fun k hmem => hline (List.mem_of_mem_drop hmem)
  unfold execute
  cases hkey : keyword line with
  | mux =>
      have hstarts : "MUX".toList.isPrefixOf (upper line) = true := by
        by_contra hno
        unfold keyword at hkey
        rw [if_neg hno] at hkey
        split_ifs at hkey
      have hle : 3 ≤ line.length := length_le_of_isPrefixOf hstarts
      refine handleMuxCommand_line (hdrop 3) (holds_drop hm hle) ?_
      rw [List.length_drop]
      omega
  | gain =>
      have hstarts : "GAIN".toList.isPrefixOf (upper line) = true := by
        by_contra hno
        unfold keyword at hkey
        rw [if_neg hno] at hkey
        split_ifs at hkey
      have hle : 4 ≤ line.length := length_le_of_isPrefixOf hstarts
      refine handleGainCommand_line (hdrop 4) (holds_drop hm hle) ?_
      rw [List.length_drop]
      omega
  | status => rfl
  | reset => rfl
  | help => rfl
  | unknown =>
      have hpos : 0 < p.cmdIndex := by
        rw [hindex]
        exact List.length_pos_of_ne_nil hne
      unfold carryOut
      rw [if_pos hpos]

/-- Executing a line. -/
theorem cmdExecute_line {p : Parser} {line : Text} (hline : nul ∉ line) (hne : line ≠ [])
    (hp : p.Holds line) (hready : p.cmdReady = true) (hm : Holds p.cmdBuffer 0 (line ++ [nul]))
    (s : Switches) (local₀ : Memory) :
    cmdExecute p s local₀ =
      .ok (cmdInit, { execute s line with sent := newLine ++ (execute s line).sent }) := by
  obtain ⟨upper₁, hcopy, hupper⟩ :=
    upperCmd_line hline hm hp.cmdIndex hp.length_lt local₀
  unfold cmdExecute
  rw [if_pos hready, hcopy]
  show (recognise upper₁ >>= _) = _
  rw [recognise_line hline hupper hp.length_lt]
  show (carryOut p s (keyword line) >>= _) = _
  rw [carryOut_line hline hne hm hp.cmdIndex hp.length_lt s]
  rfl

/-- The board is idle but for a line that is being edited. -/
structure Board.Editing (b : Board) (line : Text) : Prop where
  holds : b.parser.Holds line
  notReady : b.parser.cmdReady = false

theorem cmdInit_editing (s : Switches) : Board.Editing ⟨cmdInit, s⟩ [] := ⟨cmdInit_holds, rfl⟩

/-- A byte that does not end the line. -/
theorem Board.step_edit {b : Board} {line : Text} (h : b.Editing line) {c : Char}
    (hc : ¬IsLineEnd c) (local₀ : Memory) :
    ∃ b', b.step local₀ c = .ok (b', { sent := echo line c }) ∧ b'.Editing (edit line c) ∧
      b'.switches = b.switches := by
  obtain ⟨p', hp, hholds, hready⟩ := h.holds.processChar hc
  refine ⟨⟨p', b.switches⟩, ?_, ⟨hholds, hready.trans h.notReady⟩, rfl⟩
  unfold step
  rw [hp]
  show (if p'.cmdReady then _ else _) = _
  rw [hready, h.notReady]
  rfl

/-- The end of a line: it is carried out, whatever the local array holds. -/
theorem Board.step_end {b : Board} {line : Text} (h : b.Editing line) (hline : nul ∉ line)
    (hne : line ≠ []) {c : Char} (hc : IsLineEnd c) (local₀ : Memory) :
    b.step local₀ c =
      .ok (⟨cmdInit, b.switches.performAll (execute b.switches line).changes⟩,
        { execute b.switches line with
          sent := newLine ++ (execute b.switches line).sent ++ "> ".toList }) := by
  obtain ⟨p', hp, hholds, hready, hm⟩ := h.holds.processChar_end hne hc
  unfold step
  rw [hp]
  show (if p'.cmdReady then _ else _) = _
  rw [hready, if_pos rfl, cmdExecute_line hline hne hholds hready hm]
  rfl

/-- The end of an empty line. -/
theorem Board.step_nil {b : Board} (h : b.Editing []) {c : Char} (hc : IsLineEnd c)
    (local₀ : Memory) : b.step local₀ c = .ok (b, {}) := by
  unfold step
  rw [h.holds.processChar_nil hc]
  show (if b.parser.cmdReady then _ else _) = _
  rw [h.notReady]
  rfl

/-! ### The command grammar -/

namespace Grammar

/-- One of `n` digits from `lo` on. -/
def digit (lo : Char) (n : ℕ) (c : Char) : Option (Fin n) :=
  if h : lo.toNat ≤ c.toNat ∧ c.toNat - lo.toNat < n then some ⟨c.toNat - lo.toNat, h.2⟩ else none

/-- `1` to `4`. -/
def channel (c : Char) : Option (Fin 4) := digit '1' 4 c

/-- `1` to `4`, or `X`. -/
def input (c : Char) : Option (Option (Fin 4)) :=
  if c = 'X' then some none else (channel c).map some

/-- `0` to `7`. -/
def gain (c : Char) : Option (Fin 8) := digit '0' 8 c

/-- What a complete line stands for: `MUX<out>,<in>`, `GAIN<ch>,<val>` or `RESET`, in any case. -/
def denote (line : Text) : Option (List Change) :=
  match upper line with
  | [m, u, x, out, comma, inp] =>
      if [m, u, x] = "MUX".toList ∧ comma = ',' then
        (channel out).bind fun output => (input inp).map fun input => [.route output input]
      else none
  | [g, a, i, n, ch, comma, val] =>
      if [g, a, i, n] = "GAIN".toList ∧ comma = ',' then
        (channel ch).bind fun channel => (gain val).map fun value => [.gain channel value]
      else none
  | word => if word = "RESET".toList then some muxInit else none

/-! ### Digits -/

/-- Outside the range there is no digit; inside it is counted from the first. -/
theorem digit_cases (lo hi : Char) (n : ℕ) (hn : hi.toNat + 1 = lo.toNat + n) (c : Char) :
    (c < lo ∨ hi < c) ∧ digit lo n c = none ∨
      ¬(c < lo ∨ hi < c) ∧ ∃ k : Fin n, digit lo n c = some k ∧ c.toNat - lo.toNat = k.val := by
  have hlo : c < lo ↔ c.toNat < lo.toNat := UInt32.lt_iff_toNat_lt
  have hhi : hi < c ↔ hi.toNat < c.toNat := UInt32.lt_iff_toNat_lt
  by_cases h : lo.toNat ≤ c.toNat ∧ c.toNat - lo.toNat < n
  · refine .inr ⟨?_, ⟨c.toNat - lo.toNat, h.2⟩, dif_pos h, rfl⟩
    rw [hlo, hhi]
    omega
  · refine .inl ⟨?_, dif_neg h⟩
    rw [hlo, hhi]
    omega

/-- Digits have no case. -/
theorem digit_toUpper {lo : Char} {n : ℕ} (hn : lo.toNat + n ≤ 65) (c : Char) :
    digit lo n c.toUpper = digit lo n c := by
  rcases toUpper_cases c with heq | ⟨hc, hupper⟩
  · rw [heq]
  · unfold digit
    rw [dif_neg (by omega), dif_neg (by omega)]

/-! ### Complete commands -/

theorem muxSetRoute_input (k j : Fin 4) :
    muxSetRoute k.val j.val = some [.route k (some j)] := by
  have hne : j.val ≠ muxDisconnected := by
    have hj := j.isLt
    unfold muxDisconnected
    omega
  unfold muxSetRoute
  rw [dif_pos k.isLt, if_neg hne, dif_pos j.isLt]

theorem muxSetRoute_disconnected (k : Fin 4) :
    muxSetRoute k.val muxDisconnected = some [.route k none] := by
  unfold muxSetRoute muxDisconnect
  rw [dif_pos k.isLt, if_pos rfl, dif_pos k.isLt]

theorem ampSetGain_eq (k : Fin 4) (v : Fin 8) : ampSetGain k.val v.val = some [.gain k v] := by
  unfold ampSetGain
  rw [dif_pos k.isLt, dif_pos v.isLt]

/-- The input character of a `MUX` command, for the handler and for the grammar. -/
theorem muxInput_cases (c : Char) :
    muxInput c = none ∧ input c.toUpper = none ∨
      ∃ n x, muxInput c = some n ∧ input c.toUpper = some x ∧
        ∀ k : Fin 4, muxSetRoute k.val n = some [.route k x] := by
  unfold muxInput input
  by_cases hX : c.toUpper = 'X'
  · right
    refine ⟨muxDisconnected, none, if_pos hX, if_pos hX, muxSetRoute_disconnected⟩
  · rw [if_neg hX, if_neg hX]
    rcases digit_cases '1' '4' 4 (by decide) c.toUpper with
      ⟨hbad, hnone⟩ | ⟨hgood, j, hj, hval⟩
    · left
      have hno : channel c.toUpper = none := hnone
      rw [← not_le, ← not_le, ← not_and_or] at hbad
      rw [if_neg hbad, hno]
      exact ⟨rfl, rfl⟩
    · right
      have hyes : channel c.toUpper = some j := hj
      rw [not_or, not_lt, not_lt] at hgood
      rw [if_pos hgood, hyes, hval]
      exact ⟨j.val, some j, rfl, rfl, fun k => muxSetRoute_input k j⟩

/-- What the `MUX` handler changes. -/
theorem changes_muxCommand (out comma inp : Char) (rest : Text) :
    (muxCommand (out :: comma :: inp :: rest)).changes =
      if comma = ',' then
        ((channel out.toUpper).bind fun output =>
          (input inp.toUpper).map fun input => [Change.route output input]).getD []
      else [] := by
  have hchannel : channel out.toUpper = channel out := digit_toUpper (by decide) out
  rw [muxCommand, hchannel]
  rcases digit_cases '1' '4' 4 (by decide) out with
    ⟨hbad, hnone⟩ | ⟨hgood, k, hk, hval⟩
  · have hno : channel out = none := hnone
    rw [if_pos hbad, hno]
    exact (ite_self []).symm
  · have hyes : channel out = some k := hk
    rw [if_neg hgood, hyes]
    by_cases hcomma : comma = ','
    · rw [if_neg (not_not.2 hcomma), if_pos hcomma, hval]
      rcases muxInput_cases inp with ⟨hin, hgram⟩ | ⟨n, x, hin, hgram, hroute⟩
      · rw [hin, hgram]
        rfl
      · rw [hin, hgram]
        show (match muxSetRoute k.val n with
          | some changes => _
          | none => _ : Outcome).changes = _
        rw [hroute k]
        rfl
    · rw [if_pos hcomma, if_neg hcomma]

/-- What the `GAIN` handler changes. -/
theorem changes_gainCommand (ch comma val : Char) (rest : Text) :
    (gainCommand (ch :: comma :: val :: rest)).changes =
      if comma = ',' then
        ((channel ch.toUpper).bind fun channel =>
          (gain val.toUpper).map fun value => [Change.gain channel value]).getD []
      else [] := by
  have hchannel : channel ch.toUpper = channel ch := digit_toUpper (by decide) ch
  have hgain : gain val.toUpper = gain val := digit_toUpper (by decide) val
  rw [gainCommand, hchannel, hgain]
  rcases digit_cases '1' '4' 4 (by decide) ch with
    ⟨hbad, hnone⟩ | ⟨hgood, k, hk, hval⟩
  · have hno : channel ch = none := hnone
    rw [if_pos hbad, hno]
    exact (ite_self []).symm
  · have hyes : channel ch = some k := hk
    rw [if_neg hgood, hyes]
    by_cases hcomma : comma = ','
    · rw [if_neg (not_not.2 hcomma), if_pos hcomma, hval]
      rcases digit_cases '0' '7' 8 (by decide) val with
        ⟨hbad, hnone⟩ | ⟨hgood, v, hv, hvalue⟩
      · have hno : gain val = none := hnone
        rw [if_pos hbad, hno]
        rfl
      · have hyes : gain val = some v := hv
        rw [if_neg hgood, hyes, hvalue, ampSetGain_eq]
        rfl
    · rw [if_pos hcomma, if_neg hcomma]

/-- A line of the grammar has one of three shapes. -/
theorem denote_cases {line : Text} {cs : List Change} (h : denote line = some cs) :
    (∃ out inp output input, upper line = "MUX".toList ++ [out, ',', inp] ∧
        cs = [Change.route output input]) ∨
      (∃ ch val channel value, upper line = "GAIN".toList ++ [ch, ',', val] ∧
        cs = [Change.gain channel value]) ∨
      upper line = "RESET".toList ∧ cs = muxInit := by
  unfold denote at h
  split at h
  · rename_i m u x out comma inp hupper
    split at h
    · rename_i hword
      obtain ⟨output, -, hmap⟩ := Option.bind_eq_some_iff.1 h
      obtain ⟨input, -, rfl⟩ := Option.map_eq_some_iff.1 hmap
      refine .inl ⟨out, inp, output, input, ?_, rfl⟩
      rw [← hword.1, ← hword.2, hupper]
      rfl
    · cases h
  · rename_i g a i n ch comma val hupper
    split at h
    · rename_i hword
      obtain ⟨channel, -, hmap⟩ := Option.bind_eq_some_iff.1 h
      obtain ⟨value, -, rfl⟩ := Option.map_eq_some_iff.1 hmap
      refine .inr (.inl ⟨ch, val, channel, value, ?_, rfl⟩)
      rw [← hword.1, ← hword.2, hupper]
      rfl
    · cases h
  · split at h
    · rename_i hword
      cases h
      exact .inr (.inr ⟨hword, rfl⟩)
    · cases h

theorem length_muxInit : muxInit.length = 8 := rfl

theorem singleton_ne_muxInit (c : Change) : [c] ≠ muxInit := by
  intro h
  have hlength := congrArg List.length h
  rw [length_muxInit, List.length_singleton] at hlength
  omega

theorem denote_ne_nil {line : Text} {cs : List Change} (h : denote line = some cs) : cs ≠ [] := by
  rcases denote_cases h with ⟨_, _, _, _, -, rfl⟩ | ⟨_, _, _, _, -, rfl⟩ | ⟨-, rfl⟩
  · exact List.cons_ne_nil _ _
  · exact List.cons_ne_nil _ _
  · exact List.ne_nil_of_length_pos (by rw [length_muxInit]; decide)

/-- What a line stands for tells how long it is. -/
theorem length_eq_of_denote {a b : Text} {cs : List Change} (ha : denote a = some cs)
    (hb : denote b = some cs) : a.length = b.length := by
  have hlength : ∀ {line u : Text}, upper line = u → line.length = u.length := by
    rintro line u rfl
    exact (length_upper line).symm
  rcases denote_cases ha with ⟨_, _, _, _, hua, rfl⟩ | ⟨_, _, _, _, hua, rfl⟩ | ⟨hua, rfl⟩
  · rcases denote_cases hb with ⟨_, _, _, _, hub, -⟩ | ⟨_, _, _, _, -, h⟩ | ⟨-, h⟩
    · rw [hlength hua, hlength hub]
      rfl
    · cases h
    · exact absurd h (singleton_ne_muxInit _)
  · rcases denote_cases hb with ⟨_, _, _, _, -, h⟩ | ⟨_, _, _, _, hub, -⟩ | ⟨-, h⟩
    · cases h
    · rw [hlength hua, hlength hub]
      rfl
    · exact absurd h (singleton_ne_muxInit _)
  · rcases denote_cases hb with ⟨_, _, _, _, -, h⟩ | ⟨_, _, _, _, -, h⟩ | ⟨hub, -⟩
    · exact absurd h.symm (singleton_ne_muxInit _)
    · exact absurd h.symm (singleton_ne_muxInit _)
    · rw [hlength hua, hlength hub]

end Grammar

open Grammar

/-- The part of a line that the handlers look at. -/
def stem (line : Text) : Text :=
  match keyword line with
  | .mux => line.take 6
  | .gain => line.take 7
  | _ => line

theorem length_stem_le (line : Text) : (stem line).length ≤ line.length := by
  unfold stem
  split
  · exact List.length_take_le' ..
  · exact List.length_take_le' ..
  · exact le_rfl

/-- A part of the same length is the whole line. -/
theorem length_stem_lt {line : Text} (h : stem line ≠ line) : (stem line).length < line.length := by
  have htake : ∀ k, line.take k ≠ line → (line.take k).length < line.length := by
    intro k hk
    rw [List.length_take]
    by_contra hlen
    exact hk (List.take_of_length_le (by omega))
  unfold stem at h ⊢
  split at h
  · exact htake 6 h
  · exact htake 7 h
  · exact absurd rfl h

/-- A line of the grammar is looked at as a whole. -/
theorem stem_of_denote {line : Text} {cs : List Change} (h : denote line = some cs) :
    stem line = line := by
  have hlength := length_upper line
  unfold stem keyword
  rcases denote_cases h with ⟨out, inp, _, _, hupper, -⟩ | ⟨ch, val, _, _, hupper, -⟩ | ⟨hupper, -⟩
  · rw [hupper] at hlength ⊢
    exact List.take_of_length_le hlength.ge
  · rw [hupper] at hlength ⊢
    exact List.take_of_length_le hlength.ge
  · rw [hupper]
    rfl

theorem comma_toUpper (c : Char) : c.toUpper = ',' ↔ c = ',' := by
  rcases toUpper_cases c with heq | ⟨hc, hupper⟩
  · rw [heq]
  · constructor
    · intro h
      rw [h] at hupper
      exact absurd hupper (by decide)
    · rintro rfl
      exact absurd hc (by decide)

/-- The keyword of a line says how its upper case starts. -/
theorem keyword_mux {line : Text} (hkey : keyword line = .mux) :
    "MUX".toList.isPrefixOf (upper line) = true := by
  by_contra hno
  unfold keyword at hkey
  rw [if_neg hno] at hkey
  split_ifs at hkey

theorem keyword_gain {line : Text} (hkey : keyword line = .gain) :
    "GAIN".toList.isPrefixOf (upper line) = true := by
  by_contra hno
  unfold keyword at hkey
  rw [if_neg hno] at hkey
  split_ifs at hkey

/-- A keyword and three characters, in upper case. -/
theorem upper_take {word line : Text} {a b c : Char} {rest : Text}
    (hstarts : word.isPrefixOf (upper line) = true) (hargs : line.drop word.length = a :: b :: c :: rest) :
    upper (line.take (word.length + 3)) = word ++ [a.toUpper, b.toUpper, c.toUpper] := by
  obtain ⟨t, ht⟩ := List.isPrefixOf_iff_prefix.1 hstarts
  have htake : line.take (word.length + 3) = line.take word.length ++ [a, b, c] := by
    rw [List.take_add, hargs]
    rfl
  have hword : upper (line.take word.length) = word := by
    have hmap : upper (line.take word.length) = (upper line).take word.length := List.map_take
    rw [hmap, ← ht, List.take_left]
  have happend : upper (line.take word.length ++ [a, b, c])
      = upper (line.take word.length) ++ upper [a, b, c] := List.map_append
  rw [htake, happend, hword]
  rfl

/-- A line with a keyword and fewer than three characters after it is not complete. -/
theorem denote_short {word line : Text} (hword : word = "MUX".toList ∨ word = "GAIN".toList)
    (hstarts : word.isPrefixOf (upper line) = true) (hshort : (line.drop word.length).length < 3) :
    denote line = none := by
  by_contra hsome
  obtain ⟨cs, hcs⟩ := Option.ne_none_iff_exists'.1 hsome
  have hlength := length_upper line
  rw [List.length_drop] at hshort
  rcases denote_cases hcs with ⟨out, inp, _, _, hu, -⟩ | ⟨ch, val, _, _, hu, -⟩ | ⟨hu, -⟩
  · rcases hword with rfl | rfl
    · rw [hu] at hlength
      have hlen : ("MUX".toList ++ [out, ',', inp]).length = 6 := rfl
      have hthree : "MUX".toList.length = 3 := rfl
      omega
    · rw [hu] at hstarts
      exact absurd hstarts (by simp [List.isPrefixOf])
  · rcases hword with rfl | rfl
    · rw [hu] at hstarts
      exact absurd hstarts (by simp [List.isPrefixOf])
    · rw [hu] at hlength
      have hlen : ("GAIN".toList ++ [ch, ',', val]).length = 7 := rfl
      have hfour : "GAIN".toList.length = 4 := rfl
      omega
  · rw [hu] at hstarts
    rcases hword with rfl | rfl
    · exact absurd hstarts (by decide)
    · exact absurd hstarts (by decide)

theorem changes_short {args : Text} (h : args.length < 3) :
    (muxCommand args).changes = [] ∧ (gainCommand args).changes = [] := by
  rcases args with - | ⟨a, - | ⟨b, - | ⟨c, rest⟩⟩⟩
  · exact ⟨rfl, rfl⟩
  · exact ⟨rfl, rfl⟩
  · exact ⟨rfl, rfl⟩
  · exact absurd h (by simp)

/-- A line with the keyword `MUX`: what is changed is what its first six characters stand for. -/
theorem changes_mux {line : Text} (hkey : keyword line = .mux) :
    (muxCommand (line.drop 3)).changes = (denote (line.take 6)).getD [] := by
  have hstarts := keyword_mux hkey
  rcases cases_args (line.drop 3) with hshort | ⟨a, b, c, rest, hargs⟩
  · have hlen : line.length ≤ 6 := by
      rw [List.length_drop] at hshort
      omega
    rw [List.take_of_length_le hlen, denote_short (.inl rfl) hstarts hshort]
    exact (changes_short hshort).1
  · have hupper : upper (line.take 6) = "MUX".toList ++ [a.toUpper, b.toUpper, c.toUpper] :=
      upper_take hstarts hargs
    rw [hargs, changes_muxCommand]
    unfold denote
    rw [hupper]
    show _ = (if "MUX".toList = "MUX".toList ∧ b.toUpper = ',' then _
      else none : Option (List Change)).getD []
    by_cases hcomma : b = ','
    · rw [if_pos hcomma, if_pos ⟨rfl, (comma_toUpper b).2 hcomma⟩]
    · rw [if_neg hcomma, if_neg fun h => hcomma ((comma_toUpper b).1 h.2)]
      rfl

/-- A line with the keyword `GAIN`: what is changed is what its first seven characters stand for. -/
theorem changes_gain {line : Text} (hkey : keyword line = .gain) :
    (gainCommand (line.drop 4)).changes = (denote (line.take 7)).getD [] := by
  have hstarts := keyword_gain hkey
  rcases cases_args (line.drop 4) with hshort | ⟨a, b, c, rest, hargs⟩
  · have hlen : line.length ≤ 7 := by
      rw [List.length_drop] at hshort
      omega
    rw [List.take_of_length_le hlen, denote_short (.inr rfl) hstarts hshort]
    exact (changes_short hshort).2
  · have hupper : upper (line.take 7) = "GAIN".toList ++ [a.toUpper, b.toUpper, c.toUpper] :=
      upper_take hstarts hargs
    rw [hargs, changes_gainCommand]
    unfold denote
    rw [hupper]
    show _ = (if "GAIN".toList = "GAIN".toList ∧ b.toUpper = ',' then _
      else none : Option (List Change)).getD []
    by_cases hcomma : b = ','
    · rw [if_pos hcomma, if_pos ⟨rfl, (comma_toUpper b).2 hcomma⟩]
    · rw [if_neg hcomma, if_neg fun h => hcomma ((comma_toUpper b).1 h.2)]
      rfl

/-- **What a line changes** is what the part of it that is looked at stands for. -/
theorem changes_execute (s : Switches) (line : Text) :
    (execute s line).changes = (denote (stem line)).getD [] := by
  -- a line with a meaning has one of the three keywords that change something
  have hother : keyword line ≠ .mux → keyword line ≠ .gain → keyword line ≠ .reset →
      denote line = none := by
    intro hmux hgain hreset
    by_contra hsome
    obtain ⟨cs, hcs⟩ := Option.ne_none_iff_exists'.1 hsome
    rcases denote_cases hcs with ⟨_, _, _, _, hu, -⟩ | ⟨_, _, _, _, hu, -⟩ | ⟨hu, -⟩
    · refine hmux ?_
      unfold keyword
      rw [hu]
      rfl
    · refine hgain ?_
      unfold keyword
      rw [hu]
      rfl
    · refine hreset ?_
      unfold keyword
      rw [hu]
      rfl
  unfold execute stem
  cases hkey : keyword line with
  | mux => exact changes_mux hkey
  | gain => exact changes_gain hkey
  | reset =>
      have hreset : upper line = "RESET".toList := by
        unfold keyword at hkey
        split_ifs at hkey with _ _ _ h
        exact h
      have hdenote : denote line = some muxInit := by
        unfold denote
        rw [hreset]
        rfl
      rw [hdenote]
      rfl
  | status =>
      rw [hother (by rw [hkey]; decide) (by rw [hkey]; decide) (by rw [hkey]; decide)]
      rfl
  | help =>
      rw [hother (by rw [hkey]; decide) (by rw [hkey]; decide) (by rw [hkey]; decide)]
      rfl
  | unknown =>
      rw [hother (by rw [hkey]; decide) (by rw [hkey]; decide) (by rw [hkey]; decide)]
      rfl

/-! ### Lines of a stream -/

/-- The line as it was typed: the editing of the board without the limit of its buffer. -/
def keystroke (line : Text) (c : Char) : Text := if IsBackspace c then line.dropLast else line ++ [c]

/-- The lines of a stream at their ends, as stored and as typed. -/
def terminated (stored typed : Text) : List Char → List (Text × Text)
  | [] => []
  | c :: cs =>
      if IsLineEnd c then (stored, typed) :: terminated [] [] cs
      else terminated (edit stored c) (keystroke typed c) cs

/-- What the grammar says each byte of a stream changes: nothing but at the end of a line. -/
def grammarChanges (typed : Text) : List Char → List (List Change)
  | [] => []
  | c :: cs =>
      if IsLineEnd c then (denote typed).getD [] :: grammarChanges [] cs
      else [] :: grammarChanges (keystroke typed c) cs

/-- A stream is carried out as the grammar says: byte by byte the changes are the ones of the
grammar, and what is stored and the pins are the result of just these changes. -/
def FollowsGrammar (b : Board) (locals : ℕ → Memory) (stream : List Char) : Prop :=
  ∃ b' outcomes, b.run locals stream = .ok (b', outcomes) ∧
    outcomes.map Outcome.changes = grammarChanges [] stream ∧
    b'.switches = b.switches.performAll (grammarChanges [] stream).flatten

/-- Nothing follows a complete command in the buffer; and if characters of the line were lost,
neither what was stored nor what was typed is a command. -/
def Plain (stored typed : Text) : Prop :=
  (stem stored = stored ∨ denote (stem stored) = none) ∧
    (stored = typed ∨ denote stored = none ∧ denote typed = none)

instance (stored typed : Text) : Decidable (Plain stored typed) :=
  inferInstanceAs (Decidable ((_ ∨ _) ∧ (_ ∨ _ ∧ _)))

/-- What is stored is what was typed, or less. -/
def Truncates (stored typed : Text) : Prop := stored = typed ∨ stored.length < typed.length

theorem Truncates.edit {stored typed : Text} (h : Truncates stored typed) (c : Char) :
    Truncates (edit stored c) (keystroke typed c) := by
  unfold Firmware.edit keystroke
  by_cases hback : IsBackspace c
  · rw [if_pos hback, if_pos hback]
    rcases h with rfl | hlt
    · exact .inl rfl
    · by_cases hone : typed.length = 1
      · have hstored : stored = [] := List.length_eq_zero_iff.1 (by omega)
        have htyped : typed.dropLast = [] := List.length_eq_zero_iff.1 (by rw [List.length_dropLast]; omega)
        rw [hstored, htyped]
        exact .inl rfl
      · right
        rw [List.length_dropLast, List.length_dropLast]
        omega
  · rw [if_neg hback, if_neg hback]
    split
    · rcases h with rfl | hlt
      · exact .inl rfl
      · right
        rw [List.length_append, List.length_append]
        omega
    · right
      rw [List.length_append, List.length_singleton]
      rcases h with rfl | hlt <;> omega

/-- **One line**: it is carried out as the grammar says exactly when it is plain. -/
theorem changes_eq_iff (s : Switches) {stored typed : Text} (h : Truncates stored typed) :
    (execute s stored).changes = (denote typed).getD [] ↔ Plain stored typed := by
  -- no line stands for an empty list of changes, so the lists tell the meanings apart
  have hgetD : ∀ {a b : Option (List Change)}, (∀ cs, a = some cs → cs ≠ []) →
      (∀ cs, b = some cs → cs ≠ []) → a.getD [] = b.getD [] → a = b := by
    intro a b ha hb heq
    cases a with
    | none =>
        cases b with
        | none => rfl
        | some cs => exact absurd heq.symm (hb cs rfl)
    | some cs =>
        cases b with
        | none => exact absurd heq (ha cs rfl)
        | some ds => exact congrArg some heq
  have hstem := length_stem_le stored
  rw [changes_execute]
  constructor
  · intro heq
    have hsame : denote (stem stored) = denote typed :=
      hgetD (fun _ => denote_ne_nil) (fun _ => denote_ne_nil) heq
    constructor
    -- a meaning fixes the length of its line, and a cut line is shorter
    · by_cases hwhole : stem stored = stored
      · exact .inl hwhole
      · right
        have hlt := length_stem_lt hwhole
        by_contra hsome
        obtain ⟨cs, hcs⟩ := Option.ne_none_iff_exists'.1 hsome
        have hlen := length_eq_of_denote hcs (hsame ▸ hcs)
        rcases h with rfl | hless <;> omega
    · by_cases hlost : stored = typed
      · exact .inl hlost
      · right
        have hless : stored.length < typed.length := h.resolve_left hlost
        have htyped : denote typed = none := by
          by_contra hsome
          obtain ⟨cs, hcs⟩ := Option.ne_none_iff_exists'.1 hsome
          have hlen := length_eq_of_denote (hsame.trans hcs) hcs
          omega
        refine ⟨?_, htyped⟩
        by_contra hsome
        obtain ⟨cs, hcs⟩ := Option.ne_none_iff_exists'.1 hsome
        rw [stem_of_denote hcs, hcs, htyped] at hsame
        cases hsame
  · rintro ⟨hwhole, hlost⟩
    have hstored : (denote (stem stored)).getD [] = (denote stored).getD [] := by
      by_cases heq : stem stored = stored
      · rw [heq]
      · have hnone : denote stored = none := by
          by_contra hsome
          obtain ⟨cs, hcs⟩ := Option.ne_none_iff_exists'.1 hsome
          exact heq (stem_of_denote hcs)
        rw [hwhole.resolve_left heq, hnone]
    rw [hstored]
    rcases hlost with rfl | ⟨hs, ht⟩
    · rfl
    · rw [hs, ht]

/-! ### Streams -/

theorem nul_not_mem_edit {line : Text} (hline : nul ∉ line) {c : Char} (hc : c ≠ nul) :
    nul ∉ edit line c := by
  unfold edit
  split
  · exact fun hmem => hline (List.mem_of_mem_dropLast hmem)
  · split
    · intro hmem
      rcases List.mem_append.1 hmem with hmem | hmem
      · exact hline hmem
      · exact hc (List.mem_singleton.1 hmem).symm
    · exact hline

/-- The end of any line: its changes are made, and the next line is empty. -/
theorem Board.step_terminator {b : Board} {line : Text} (h : b.Editing line) (hline : nul ∉ line)
    {c : Char} (hc : IsLineEnd c) (local₀ : Memory) :
    ∃ b' outcome, b.step local₀ c = .ok (b', outcome) ∧ b'.Editing [] ∧
      outcome.changes = (execute b.switches line).changes ∧
      b'.switches = b.switches.performAll outcome.changes := by
  by_cases hne : line = []
  · subst hne
    exact ⟨b, {}, b.step_nil h hc local₀, h, rfl, rfl⟩
  · exact ⟨_, _, b.step_end h hline hne hc local₀, cmdInit_editing _, rfl, rfl⟩

theorem Board.run_cons {b b₁ : Board} {locals : ℕ → Memory} {c : Char} {outcome : Outcome}
    (hstep : b.step (locals 0) c = .ok (b₁, outcome)) (cs : List Char) :
    b.run locals (c :: cs) =
      (b₁.run (fun n => locals (n + 1)) cs).map fun r => (r.1, outcome :: r.2) := by
  rw [run, hstep]
  show (b₁.run (fun n => locals (n + 1)) cs >>= fun r => Except.ok (r.1, outcome :: r.2)) = _
  cases b₁.run (fun n => locals (n + 1)) cs with
  | error e => rfl
  | ok r => rfl

/-- The run of a stream: it ends, what is stored is the result of the changes, and the changes are
those of the grammar exactly when every line is plain. -/
theorem run_followsGrammar {stream : List Char} (hstream : nul ∉ stream) :
    ∀ {b : Board} {stored typed : Text} (locals : ℕ → Memory), b.Editing stored → nul ∉ stored →
      Truncates stored typed →
      ∃ b' outcomes, b.run locals stream = .ok (b', outcomes) ∧
        b'.switches = b.switches.performAll (outcomes.map Outcome.changes).flatten ∧
        (outcomes.map Outcome.changes = grammarChanges typed stream ↔
          ∀ l ∈ terminated stored typed stream, Plain l.1 l.2) := by
  induction stream with
  | nil =>
      intro b stored typed locals _ _ _
      exact ⟨b, [], rfl, rfl, fun _ l hl => absurd hl List.not_mem_nil, fun _ => rfl⟩
  | cons c cs ih =>
      intro b stored typed locals hediting hstored htrunc
      have hc : c ≠ nul := fun h => hstream (h ▸ List.mem_cons_self ..)
      have hcs : nul ∉ cs := fun h => hstream (List.mem_cons_of_mem _ h)
      by_cases hend : IsLineEnd c
      · obtain ⟨b₁, outcome, hstep, hediting₁, hchanges, hswitches⟩ :=
          b.step_terminator hediting hstored hend (locals 0)
        obtain ⟨b', outcomes, hrun, hfinal, hiff⟩ :=
          ih hcs (fun n => locals (n + 1)) hediting₁ List.not_mem_nil (.inl rfl)
        refine ⟨b', outcome :: outcomes, by rw [Board.run_cons hstep, hrun]; rfl, ?_, ?_⟩
        · rw [List.map_cons, List.flatten_cons, Switches.performAll_append, ← hswitches, hfinal]
        · rw [List.map_cons, grammarChanges, if_pos hend, List.cons.injEq, hiff, terminated,
            if_pos hend, List.forall_mem_cons, hchanges, changes_eq_iff b.switches htrunc]
      -- a character that only edits the line changes nothing on the board
      · obtain ⟨b₁, hstep, hediting₁, hswitches⟩ := b.step_edit hediting hend (locals 0)
        obtain ⟨b', outcomes, hrun, hfinal, hiff⟩ :=
          ih hcs (fun n => locals (n + 1)) hediting₁ (nul_not_mem_edit hstored hc)
            (htrunc.edit c)
        refine ⟨b', { sent := echo stored c } :: outcomes,
          by rw [Board.run_cons hstep, hrun]; rfl, ?_, ?_⟩
        · rw [hfinal, hswitches]
          rfl
        · rw [List.map_cons, grammarChanges, if_neg hend, List.cons.injEq, hiff, terminated,
            if_neg hend]
          exact and_iff_right rfl

/-- **Every stream.**  From the start, a stream of bytes other than zero is carried out as the
grammar says exactly when every line of it is plain. -/
theorem followsGrammar_iff (s : Switches) (locals : ℕ → Memory) {stream : List Char}
    (hstream : nul ∉ stream) :
    FollowsGrammar ⟨cmdInit, s⟩ locals stream ↔ ∀ l ∈ terminated [] [] stream, Plain l.1 l.2 := by
  obtain ⟨b', outcomes, hrun, hfinal, hiff⟩ :=
    run_followsGrammar hstream locals (cmdInit_editing s) List.not_mem_nil (.inl rfl)
  rw [← hiff]
  constructor
  · rintro ⟨b₂, outcomes₂, hrun₂, hchanges, -⟩
    rw [hrun] at hrun₂
    cases hrun₂
    exact hchanges
  · intro hchanges
    exact ⟨b', outcomes, hrun, hchanges, hchanges ▸ hfinal⟩

/-- A command after an edited one. -/
theorem followsGrammar_edited :
    FollowsGrammar idleBoard (fun _ => .fresh) "gain1,6\x087\rMux2,x\n".toList :=
  (followsGrammar_iff idleBoard.switches (fun _ => .fresh) (by decide)).2 (by decide)

/-- `MUX1,23` is no command, and routes input 2 to output 1. -/
theorem trailing_digit_routes :
    ¬FollowsGrammar idleBoard (fun _ => .fresh) "MUX1,23\r".toList := by
  rintro ⟨b', outcomes, hrun, hchanges, -⟩
  have hroute : (idleBoard.run (fun _ => .fresh) "MUX1,23\r".toList).toOption.map
      (fun r => r.2.map Outcome.changes) = some [[], [], [], [], [], [], [], [.route 0 (some 1)]] := by
    decide
  rw [hrun] at hroute
  have hmade : outcomes.map Outcome.changes = _ := Option.some.inj hroute
  rw [hchanges] at hmade
  exact absurd hmade (by decide)

end Firmware

end Afm
