/-
**The board, set from a client.**

From end to end: a method of the client that sets the board sends a line, the server parses it, the
handler checks it, the driver sends a command over the serial line, and the firmware carries it out.
Between the client and the server anything may be lost.  The state of the firmware then follows from
how the calls of the client have ended, and a status report shows that state.

Main definitions:

* `Afm.BoardMethod` — the methods of the client that set the board, and the lines they send;
* `Afm.settingOf` — the setting a parsed command asks for;
* `Afm.plainBench` — the devices of a server with a board;
* `Afm.BoardStep`, `Afm.BoardHistory` — what a call says about the board, and what a session does.

Main results:

* `Afm.setting_boardMethod` — the server understands the methods as the client means them;
* `Afm.handleCommand_board` — what a command does to the board;
* `Afm.remoteSession_board` — **the calls of a client determine the state of the board**.
-/

import RedPitayaAfm.BoardCache
import RedPitayaAfm.CommandLine
import RedPitayaAfm.RemoteCalls
import RedPitayaAfm.StatusText

set_option relaxedAutoImplicit false
set_option autoImplicit false

namespace Afm

open Effect Client Firmware

/-! ### Printed integers -/

theorem head_ne_minus_toText (n : ℕ) : (toText n).head? ≠ some '-' := by
  intro h
  have hmem : '-' ∈ toText n := List.mem_of_mem_head? h
  exact absurd (isDigit_of_mem_toText hmem) (by decide)

/-- A printed integer reads back as itself, where it fits an `int`. -/
theorem fromChars_intToText (n : ℤ) :
    fromChars (intToText n) = if -2 ^ 31 ≤ n ∧ n < 2 ^ 31 then some n else none := by
  unfold intToText
  split
  · rename_i hneg
    have habs : -|n| = n := by rw [abs_of_neg hneg, neg_neg]
    simp [fromChars, habs, Option.filter]
  · rename_i hpos
    have habs : |n| = n := abs_of_nonneg (by omega)
    have hhead := head_ne_minus_toText n.natAbs
    unfold fromChars
    split
    · rename_i ds hds
      rw [hds] at hhead
      exact absurd rfl hhead
    · simp [habs, Option.filter]

theorem mem_intToText {n : ℤ} {c : Char} (h : c ∈ intToText n) : c = '-' ∨ c.isDigit = true := by
  unfold intToText at h
  split at h
  · rcases List.mem_cons.1 h with h | h
    · exact Or.inl h
    · exact Or.inr (isDigit_of_mem_toText h)
  · exact Or.inr (isDigit_of_mem_toText h)

theorem blank_of_intToText {n : ℤ} {c : Char} (h : c ∈ intToText n) : isBlank c = false := by
  rcases mem_intToText h with rfl | hdigit
  · decide
  · by_contra hblank
    rw [Bool.not_eq_false] at hblank
    unfold isBlank at hblank
    simp only [Bool.or_eq_true, beq_iff_eq] at hblank
    rcases hblank with ((rfl | rfl) | rfl) | rfl <;> exact absurd hdigit (by decide)

/-- An integer as an argument. -/
def intArgument (n : ℤ) : PaddedArgument where
  before := []
  text := intToText n
  after := []
  isPadding_before := by simp [IsPadding]
  comma_not_mem := by
    intro h
    rcases mem_intToText h with h | h
    · exact absurd h (by decide)
    · exact absurd h (by decide)
  isTrimmed := ⟨fun _ h => blank_of_intToText (List.mem_of_mem_head? h),
    fun _ h => blank_of_intToText (List.mem_of_getLast? h)⟩
  isPadding_after := by simp [IsPadding]

theorem intToText_ne_nil (n : ℤ) : intToText n ≠ [] := by
  unfold intToText
  split
  · exact List.cons_ne_nil _ _
  · exact toText_ne_nil _

/-- A command line with integers as its arguments. -/
def intLine (command : Command) (ns : List ℤ) : Text :=
  commandToString command ++ if ns = [] then [] else ' ' :: [','].intercalate (ns.map intToText)

theorem intLine_cons (command : Command) (n : ℤ) (ns : List ℤ) : intLine command (n :: ns)
    = commandToString command ++ ' ' :: [','].intercalate ((n :: ns).map intToText) := by
  rw [intLine, if_neg (List.cons_ne_nil _ _)]

/-- The server reads such a line as it was meant. -/
theorem parseLine_intLine {command : Command} (hknown : command ≠ .unknown) (ns : List ℤ) :
    parseLine (intLine command ns) =
      { command := command
        isQuery := false
        args := ns.map intToText
        rawLine := intLine command ns } := by
  have hcasing : upper (commandToString command) = commandToString command := by
    cases command <;> decide
  have htexts : (ns.map intArgument).map PaddedArgument.text = ns.map intToText := by
    rw [List.map_map]
    rfl
  have hne : (ns.map intArgument).map PaddedArgument.text ≠ [[]] := by
    intro h
    rw [htexts] at h
    cases ns with
    | nil => cases h
    | cons n ns => exact intToText_ne_nil n (List.cons.inj h).1
  let r : Rendering :=
    { command := command
      keyword := commandToString command
      isQuery := false
      args := ns.map intArgument
      before := []
      gap := [' ']
      after := []
      known := hknown
      casing := hcasing
      args_ne := hne
      isPadding_before := by simp [IsPadding]
      isPadding_gap := by simp [IsPadding]
      gap_ne := List.cons_ne_nil _ _
      isPadding_after := by simp [IsPadding] }
  have hrender : (ns.map intArgument).map PaddedArgument.render = ns.map intToText := by
    rw [List.map_map]
    refine List.map_congr_left fun n _ => ?_
    simp [PaddedArgument.render, intArgument]
  have hline : r.line = intLine command ns := by
    have htail : r.tail = if ns = [] then [] else ' ' :: [','].intercalate (ns.map intToText) := by
      simp only [r, Rendering.tail, PaddedArgument.join, hrender, List.map_eq_nil_iff]
      rfl
    simp only [Rendering.line, Rendering.word, htail, intLine]
    simp [r]
  rw [← hline, r.parseLine_line, htexts]

/-! ### The methods of the client -/

/-- The methods of the client that set the board, with any integers. -/
inductive BoardMethod
  | setMux (output inputCh : ℤ)
  | disconnectMux (output : ℤ)
  | setGain (channel gain : ℤ)
  | resetBoard
  deriving DecidableEq

/-- The line a method sends. -/
def BoardMethod.command : BoardMethod → Text
  | .setMux output inputCh =>
      "BOARD:MUX:ROUTE ".toList ++ intToText output ++ [','] ++ intToText inputCh
  | .disconnectMux output => "BOARD:MUX:DISCONNECT ".toList ++ intToText output
  | .setGain channel gain => "BOARD:GAIN ".toList ++ intToText channel ++ [','] ++ intToText gain
  | .resetBoard => "BOARD:RESET".toList

/-- Labels count from one. -/
theorem toNat_label_lt {n : ℤ} (h : 1 ≤ n ∧ n ≤ 4) : (n - 1).toNat < 4 := by omega

/-- The channel with a label. -/
def channelOf (n : ℤ) : Option Channel :=
  if h : 1 ≤ n ∧ n ≤ 4 then some ⟨(n - 1).toNat, toNat_label_lt h⟩ else none

/-- The gain with an index. -/
def gainOf (n : ℤ) : Option GainSetting :=
  if 0 ≤ n ∧ n ≤ maxGainIndex then some (.ofIndex n.toNat) else none

/-- What a method means to set; nothing, if an argument is out of range. -/
def BoardMethod.setting : BoardMethod → Option BoardSetting
  | .setMux output inputCh => do
      let output ← channelOf output
      let input ← channelOf inputCh
      pure (.setMuxRoute output input)
  | .disconnectMux output => do
      let output ← channelOf output
      pure (.disconnectMux output)
  | .setGain channel gain => do
      let channel ← channelOf channel
      let gain ← gainOf gain
      pure (.setGain channel gain)
  | .resetBoard => some .reset

/-- The setting that the arguments ask for, by the checks that the handler makes when the board is
connected. -/
def settingFor (cmd : ParsedCommand) : Command → Option BoardSetting
  | .boardMuxRoute => (CommandHandler.initialized.muxRouteArgs cmd).toOption.map fun a =>
      .setMuxRoute a.1 a.2
  | .boardMuxDisconnect => (CommandHandler.initialized.muxDisconnectArgs cmd).toOption.map
      .disconnectMux
  | .boardGain => (CommandHandler.initialized.gainArgs cmd).toOption.map fun a => .setGain a.1 a.2
  | .boardReset => some .reset
  | _ => none

/-- The setting a parsed command asks for; with too many arguments it asks for none. -/
def settingOf (cmd : ParsedCommand) : Option BoardSetting :=
  if cmd.command ≠ .unknown ∧ maxArgCount cmd.command < cmd.args.length then none
  else settingFor cmd cmd.command

/-- The command of a method and its arguments. -/
def BoardMethod.parts : BoardMethod → Command × List ℤ
  | .setMux output inputCh => (.boardMuxRoute, [output, inputCh])
  | .disconnectMux output => (.boardMuxDisconnect, [output])
  | .setGain channel gain => (.boardGain, [channel, gain])
  | .resetBoard => (.boardReset, [])

theorem BoardMethod.command_eq (m : BoardMethod) : m.command = intLine m.parts.1 m.parts.2 := by
  have htwo : ∀ (c : Command) (n n' : ℤ), commandToString c ++ [' '] ++ intToText n ++ [',']
      ++ intToText n' = intLine c [n, n'] := by
    intro c n n'
    rw [intLine_cons]
    simp [List.intercalate]
  have hone : ∀ (c : Command) (n : ℤ), commandToString c ++ [' '] ++ intToText n
      = intLine c [n] := by
    intro c n
    rw [intLine_cons]
    simp [List.intercalate]
  have hroute : "BOARD:MUX:ROUTE ".toList = commandToString .boardMuxRoute ++ [' '] := by decide
  have hopen : "BOARD:MUX:DISCONNECT ".toList = commandToString .boardMuxDisconnect ++ [' '] := by
    decide
  have hgain : "BOARD:GAIN ".toList = commandToString .boardGain ++ [' '] := by decide
  have hreset : "BOARD:RESET".toList = intLine .boardReset [] := by decide
  cases m with
  | setMux output inputCh =>
      exact (congrArg (· ++ intToText output ++ [','] ++ intToText inputCh) hroute).trans
        (htwo .boardMuxRoute output inputCh)
  | disconnectMux output =>
      exact (congrArg (· ++ intToText output) hopen).trans (hone .boardMuxDisconnect output)
  | setGain channel gain =>
      exact (congrArg (· ++ intToText channel ++ [','] ++ intToText gain) hgain).trans
        (htwo .boardGain channel gain)
  | resetBoard => exact hreset

theorem BoardMethod.parseLine_command (m : BoardMethod) :
    parseLine m.command =
      { command := m.parts.1
        isQuery := false
        args := m.parts.2.map intToText
        rawLine := m.command } := by
  have hknown : m.parts.1 ≠ .unknown := by cases m <;> exact nofun
  rw [m.command_eq, parseLine_intLine hknown]

/-- The results of checks, one after the other. -/
theorem toOption_bind {α β : Type} (x : Except Reply α) (f : α → Except Reply β) :
    (x >>= f).toOption = x.toOption.bind fun a => (f a).toOption := by
  cases x <;> rfl

theorem toOption_needed {α : Type} (value : Option α) (reply : Reply) :
    (needed value reply).toOption = value := by
  cases value <;> rfl

theorem toOption_validate (n : ℤ) (name : String) :
    (validateChannel1Based n name).toOption = channelOf n := by
  unfold validateChannel1Based channelOf
  split <;> rfl

theorem toOption_require {condition : Prop} [Decidable condition] (reply : Reply) :
    (require condition reply).toOption = if condition then some () else none := by
  unfold require
  split <;> rfl

/-- A number that does not fit an `int` is no label of a channel. -/
theorem fits_of_channelOf {n : ℤ} {channel : Channel} (h : channelOf n = some channel) :
    fromChars (intToText n) = some n := by
  unfold channelOf at h
  split at h
  · rw [fromChars_intToText, if_pos (by omega)]
  · cases h

theorem fits_of_gainOf {n : ℤ} {gain : GainSetting} (h : gainOf n = some gain) :
    fromChars (intToText n) = some n := by
  have hmax : maxGainIndex = 7 := rfl
  unfold gainOf at h
  split at h
  · rw [fromChars_intToText, if_pos (by omega)]
  · cases h

theorem eq_of_fromChars {n k : ℤ} (h : fromChars (intToText n) = some k) : k = n := by
  rw [fromChars_intToText] at h
  split at h
  · exact (Option.some.inj h).symm
  · cases h

/-- Reading two numbers and then checking them is checking both. -/
theorem read_two {α β γ : Type} {f : ℤ → Option α} {g : ℤ → Option β} {k : α → β → γ}
    (hf : ∀ n a, f n = some a → fromChars (intToText n) = some n)
    (hg : ∀ n b, g n = some b → fromChars (intToText n) = some n) (m n : ℤ) :
    ((fromChars (intToText m)).bind fun m => (fromChars (intToText n)).bind fun n =>
      (f m).bind fun a => (g n).bind fun b => some (k a b))
      = (f m).bind fun a => (g n).bind fun b => some (k a b) := by
  cases hm : fromChars (intToText m) with
  | none =>
      cases ha : f m with
      | none => rfl
      | some a =>
          rw [hf m a ha] at hm
          cases hm
  | some m' =>
      obtain rfl := eq_of_fromChars hm
      cases hn : fromChars (intToText n) with
      | none =>
          cases ha : f m' with
          | none => rfl
          | some a =>
              cases hb : g n with
              | none => rfl
              | some b =>
                  rw [hg n b hb] at hn
                  cases hn
      | some n' =>
          obtain rfl := eq_of_fromChars hn
          rfl

/-- Reading a number and then checking it is checking it. -/
theorem read_one {α : Type} {f : ℤ → Option α}
    (hf : ∀ n a, f n = some a → fromChars (intToText n) = some n) (n : ℤ) :
    (fromChars (intToText n)).bind f = f n := by
  cases hn : fromChars (intToText n) with
  | none =>
      cases ha : f n with
      | none => rfl
      | some a =>
          rw [hf n a ha] at hn
          cases hn
  | some n' =>
      obtain rfl := eq_of_fromChars hn
      rfl

theorem requireBoard_initialized : CommandHandler.initialized.requireBoard = .ok () := rfl

section Args

variable (line : Text)

/-- What the checks of `handleBoardMuxRoute` make of two numbers. -/
theorem toOption_muxRouteArgs (output inputCh : ℤ) :
    (CommandHandler.initialized.muxRouteArgs
      ⟨.boardMuxRoute, false, [intToText output, intToText inputCh], line⟩).toOption
      = (channelOf output).bind fun a => (channelOf inputCh).bind fun b => some (a, b) := by
  rw [← read_two (k := fun a b : Channel => (a, b)) (fun _ _ => fits_of_channelOf)
    (fun _ _ => fits_of_channelOf) output inputCh]
  unfold CommandHandler.muxRouteArgs
  simp only [toOption_bind, toOption_needed, toOption_validate, requireBoard_initialized]
  rfl

/-- What the checks of `handleBoardMuxDisconnect` make of a number. -/
theorem toOption_muxDisconnectArgs (output : ℤ) :
    (CommandHandler.initialized.muxDisconnectArgs
      ⟨.boardMuxDisconnect, false, [intToText output], line⟩).toOption = channelOf output := by
  rw [← read_one (fun _ _ => fits_of_channelOf) output]
  unfold CommandHandler.muxDisconnectArgs
  simp only [toOption_bind, toOption_needed, toOption_validate, requireBoard_initialized]
  rfl

/-- What the checks of `handleBoardGain` make of two numbers. -/
theorem toOption_gainArgs (channel gain : ℤ) :
    (CommandHandler.initialized.gainArgs
      ⟨.boardGain, false, [intToText channel, intToText gain], line⟩).toOption
      = (channelOf channel).bind fun a => (gainOf gain).bind fun b => some (a, b) := by
  rw [← read_two (k := fun (a : Channel) (b : GainSetting) => (a, b))
    (fun _ _ => fits_of_channelOf) (fun _ _ => fits_of_gainOf) channel gain]
  have hgain : ∀ (n : ℤ) (a : Channel),
      ((if 0 ≤ n ∧ n ≤ maxGainIndex then some () else none).bind fun _ =>
        some (a, GainSetting.ofIndex n.toNat)) = (gainOf n).bind fun b => some (a, b) := by
    intro n a
    unfold gainOf
    split <;> rfl
  simp only [← hgain]
  unfold CommandHandler.gainArgs
  simp only [toOption_bind, toOption_needed, toOption_validate, toOption_require,
    requireBoard_initialized]
  rfl

end Args

/-- **The server understands the methods of the client** as the client means them, for all integers;
what is out of range asks for nothing. -/
theorem setting_boardMethod (m : BoardMethod) : settingOf (parseLine m.command) = m.setting := by
  rw [m.parseLine_command]
  generalize m.command = line
  cases m with
  | setMux output inputCh =>
      have hasked : settingOf ⟨.boardMuxRoute, false, [intToText output, intToText inputCh], line⟩
          = ((channelOf output).bind fun a => (channelOf inputCh).bind fun b =>
            some (a, b)).map fun a => BoardSetting.setMuxRoute a.1 a.2 := by
        rw [← toOption_muxRouteArgs line output inputCh]
        rfl
      have hmeant : BoardMethod.setting (.setMux output inputCh) = (channelOf output).bind fun a =>
          (channelOf inputCh).bind fun b => some (.setMuxRoute a b) := rfl
      rw [hmeant]
      refine hasked.trans ?_
      cases channelOf output with
      | none => rfl
      | some a => cases channelOf inputCh <;> rfl
  | disconnectMux output =>
      have hasked : settingOf ⟨.boardMuxDisconnect, false, [intToText output], line⟩
          = (channelOf output).map .disconnectMux := by
        rw [← toOption_muxDisconnectArgs line output]
        rfl
      have hmeant : BoardMethod.setting (.disconnectMux output) = (channelOf output).bind fun a =>
          some (.disconnectMux a) := rfl
      rw [hmeant]
      refine hasked.trans ?_
      cases channelOf output <;> rfl
  | setGain channel gain =>
      have hasked : settingOf ⟨.boardGain, false, [intToText channel, intToText gain], line⟩
          = ((channelOf channel).bind fun a => (gainOf gain).bind fun b =>
            some (a, b)).map fun a => BoardSetting.setGain a.1 a.2 := by
        rw [← toOption_gainArgs line channel gain]
        rfl
      have hmeant : BoardMethod.setting (.setGain channel gain) = (channelOf channel).bind fun a =>
          (gainOf gain).bind fun b => some (.setGain a b) := rfl
      rw [hmeant]
      refine hasked.trans ?_
      cases channelOf channel with
      | none => rfl
      | some a => cases gainOf gain <;> rfl
  | resetBoard => rfl

/-! ### What a command does to the board -/

/-- What became of the board: it has the setting the command asks for and the reply confirms it, or
it is as it was and the reply confirms no setting. -/
def BoardEffect (cmd : ParsedCommand) (b : Switches) (r : Except Fault Reply) (b' : Switches) :
    Prop :=
  (∃ c data, settingOf cmd = some c ∧ r = .ok (.ok data) ∧ b' = b.performAll (Uart.changesOf c)) ∨
    (b' = b ∧ (settingOf cmd = none ∨ ∃ status text, r = .ok (.error status text)))

namespace CommandHandler

section Effects

variable {P : Platform} {rounds : ℕ} {b b' : Switches} {cmd : ParsedCommand}
  {s s' : CommandHandler} {w w' : Bench} {r : Except Fault Reply}

/-- The board has only one state. -/
theorem InStep.same (h : InStep b' s w) (hw : w.Rests b) : InStep b s w := by
  have hboard : (⟨cmdInit, b'⟩ : Board) = ⟨cmdInit, b⟩ := by
    rw [← h.rests.cable.board, hw.cable.board]
  cases hboard
  exact h

/-- A method that leaves the firmware waiting in its state. -/
theorem keepsBoard_of_rests {m : Method Reply} (hm : FollowsBoard rounds m) (h : InStep b s w)
    (hrun : Runs (bench rounds) w (m s) (r, s') w') (hrests : w'.Rests b) : InStep b s' w' := by
  obtain ⟨b', h'⟩ := hm b s w h r s' w' hrun
  exact h'.same hrests

theorem keepsBoard_of_measures {m : Method Reply} (hm : Measures m) (h : InStep b s w)
    (hrun : Runs (bench rounds) w (m s) (r, s') w') : InStep b s' w' := by
  refine keepsBoard_of_rests (followsBoard_of_measures hm) h hrun ?_
  refine hrun.invariant_of_only (W := bench rounds) (P := fun v => v.Rests b) (hm.only s)
    (fun hc hv hstep => ?_) h.rests
  obtain ⟨-, hcable, hdecimation⟩ := Bench.measure_step hc hstep
  exact ⟨hdecimation hv.decimation, hcable ▸ hv.cable⟩

theorem keepsBoard_of_quiet {m : Method Reply} (hm : Quiet m) (h : InStep b s w)
    (hrun : Runs (bench rounds) w (m s) (r, s') w') : InStep b s' w' :=
  keepsBoard_of_measures (hm.mono (fun _ hc => hc.elim) fun _ _ h => h) h hrun

/-- The checks depend on the handler only through the board. -/
theorem check_congr {α : Type} {f : CommandHandler → Except Reply α} {a : α}
    (hcheck : ∀ s s' : CommandHandler, s.requireBoard = .ok () → s'.requireBoard = .ok () →
      f s = f s') (hs : s.requireBoard = .ok ()) (ha : f s = .ok a) :
    (f initialized).toOption = some a := by
  rw [← hcheck s initialized hs requireBoard_initialized, ha]
  rfl

/-- A setting of the board, from a state in step with it. -/
theorem effect_setting {A : Arithmetic} {α : Type} {check : CommandHandler → Except Reply α}
    {c : α → BoardSetting} {done : α → Method Reply} (hdone : ∀ a, Reports A (done a))
    (hok : ∀ a W (s : CommandHandler) (w : W.State) r s' w', Runs W w (done a s) (r, s') w' →
      ∃ data, r = .ok (.ok data))
    (hrequire : ∀ s a, check s = .ok a → s.requireBoard = .ok ())
    (hrefuse : ∀ s, OneLine (check s))
    (hasks : ∀ a, check s = .ok a → settingOf cmd = some (c a)) (h : InStep b s w)
    (hrun : Runs (bench rounds) w (checked check (fun a => boardCommand (c a) (done a)) s) (r, s')
      w') : ∃ b', InStep b' s' w' ∧ BoardEffect cmd b r b' := by
  rcases checked_runs.1 hrun with ⟨reply, hreply, rfl, rfl, rfl⟩ | ⟨a, ha, hcommand⟩
  · obtain ⟨status, message, rfl, -⟩ := hrefuse s' reply hreply
    exact ⟨b, h, Or.inr ⟨rfl, Or.inr ⟨status, message, rfl⟩⟩⟩
  · have hconnected := (requireBoard_eq_ok.1 (hrequire s a ha)).2
    have hwired := h.wired hconnected
    obtain ⟨b', hb'⟩ := followsBoard_setting hdone hrequire b s w h r s' w' hrun
    rcases Act.runs_bind.1 hcommand with ⟨e, -, hcall⟩ | ⟨x, s₁, w₁, hcall, hrest⟩
    · obtain ⟨reply, hstep, hcaught, -⟩ := (boardCall_runs (h.board hconnected)).1 hcall
      obtain ⟨rfl, -⟩ := hwired.set hstep
      cases hcaught
    · obtain ⟨reply, hstep, hcaught, rfl⟩ := (boardCall_runs (h.board hconnected)).1 hcall
      obtain ⟨rfl, hwired'⟩ := hwired.set hstep
      cases hcaught
      have hreport : Runs (bench rounds) w₁ (done a (s₁.follow (c a))) (r, s') w' := hrest
      obtain ⟨-, rfl⟩ := hdone a _ _ _ _ _ _ hreport
      obtain ⟨data, rfl⟩ := hok a _ _ _ _ _ _ hreport
      exact ⟨_, hb'.same hwired'.toRests, Or.inl ⟨c a, data, hasks a ha, rfl, rfl⟩⟩

/-- Whatever is no setting leaves the board as it is. -/
theorem effect_none (hnone : settingOf cmd = none) (h : InStep b s' w') :
    ∃ b', InStep b' s' w' ∧ BoardEffect cmd b r b' := ⟨b, h, Or.inr ⟨rfl, Or.inl hnone⟩⟩

/-- The setting of a command whose arguments are not too many. -/
theorem settingOf_eq (hmany : ¬(cmd.command ≠ .unknown ∧
    maxArgCount cmd.command < cmd.args.length)) {command : Command}
    (hcommand : cmd.command = command) : settingOf cmd = settingFor cmd command := by
  subst hcommand
  unfold settingOf
  rw [if_neg hmany]

/-- **What a command does to the board**, from a state in step with it. -/
theorem dispatch_board (hmany : ¬(cmd.command ≠ .unknown ∧
    maxArgCount cmd.command < cmd.args.length)) (h : InStep b s w)
    (hrun : Runs (bench rounds) w (dispatch P cmd s) (r, s') w') :
    ∃ b', InStep b' s' w' ∧ BoardEffect cmd b r b' := by
  have hset : ∀ {command}, cmd.command = command → settingOf cmd = settingFor cmd command :=
    settingOf_eq hmany
  have hsame : ∀ {command}, cmd.command = command → settingFor cmd command = none →
      InStep b s' w' → ∃ b', InStep b' s' w' ∧ BoardEffect cmd b r b' :=
    fun hc hnone h' => effect_none ((hset hc).trans hnone) h'
  unfold dispatch at hrun
  cases hc : cmd.command with
  | idn | opc | systPing | systVersion | systShutdown | unknown =>
      rw [hc] at hrun
      exact hsame hc rfl (keepsBoard_of_quiet (quiet_pure _) h hrun)
  | rst =>
      rw [hc] at hrun
      exact hsame hc rfl (keepsBoard_of_rests followsBoard_handleRst h hrun
        (rests_of_only (only_handleRst.mono fun _ => isOtherCall_of_release) h.rests hrun))
  | systStatus =>
      rw [hc] at hrun
      exact hsame hc rfl (keepsBoard_of_quiet quiet_handleSystStatus h hrun)
  | systInit =>
      rw [hc] at hrun
      exact hsame hc rfl (inStep_handleSystInit s w h r s' w' hrun)
  | systDeinit =>
      rw [hc] at hrun
      exact hsame hc rfl (keepsBoard_of_rests followsBoard_handleSystDeinit h hrun
        (rests_of_only (only_handleSystDeinit.mono fun _ => isOtherCall_of_release) h.rests hrun))
  | systMode =>
      rw [hc] at hrun
      have hquiet : Quiet handleSystMode := quiet_get
      exact hsame hc rfl (keepsBoard_of_quiet hquiet h hrun)
  | boardMuxRoute =>
      rw [hc] at hrun
      refine effect_setting (fun _ => reports_okWithWarning)
        (fun _ _ _ _ _ _ _ hdone => ⟨_, (okWithWarning_runs.1 hdone).1⟩)
        (fun _ _ ha => requireBoard_of_muxRouteArgs ha) (fun s => s.oneLine_muxRouteArgs cmd)
        (fun a ha => ?_) h hrun
      rw [hset hc, settingFor, check_congr (f := fun s => s.muxRouteArgs cmd) ?_
        (requireBoard_of_muxRouteArgs ha) ha]
      · rfl
      · intro s s' hs hs'
        unfold muxRouteArgs
        rw [hs, hs']
  | boardMuxDisconnect =>
      rw [hc] at hrun
      refine effect_setting (fun _ => reports_okWithWarning)
        (fun _ _ _ _ _ _ _ hdone => ⟨_, (okWithWarning_runs.1 hdone).1⟩)
        (fun _ _ ha => requireBoard_of_muxDisconnectArgs ha)
        (fun s => s.oneLine_muxDisconnectArgs cmd) (fun a ha => ?_) h hrun
      rw [hset hc, settingFor, check_congr (f := fun s => s.muxDisconnectArgs cmd) ?_
        (requireBoard_of_muxDisconnectArgs ha) ha]
      · rfl
      · intro s s' hs hs'
        unfold muxDisconnectArgs
        rw [hs, hs']
  | boardGain =>
      rw [hc] at hrun
      refine effect_setting (fun _ => reports_okWithSuffix _)
        (fun _ _ _ _ _ _ _ hdone => ⟨_, (okWithSuffix_runs.1 hdone).1⟩)
        (fun _ _ ha => requireBoard_of_gainArgs ha) (fun s => s.oneLine_gainArgs cmd)
        (fun a ha => ?_) h hrun
      rw [hset hc, settingFor, check_congr (f := fun s => s.gainArgs cmd) ?_
        (requireBoard_of_gainArgs ha) ha]
      · rfl
      · intro s s' hs hs'
        unfold gainArgs
        rw [hs, hs']
  | boardAdcLoop =>
      rw [hc] at hrun
      exact hsame hc rfl (keepsBoard_of_quiet (quiet_handleBoardAdcLoop cmd) h hrun)
  | boardAdcProtect =>
      rw [hc] at hrun
      exact hsame hc rfl (keepsBoard_of_quiet (quiet_handleBoardAdcProtect cmd) h hrun)
  | boardAdcSampleGain =>
      rw [hc] at hrun
      exact hsame hc rfl (keepsBoard_of_quiet (quiet_handleBoardAdcSampleGain cmd) h hrun)
  | boardReset =>
      rw [hc] at hrun
      exact effect_setting (fun _ => reports_okWithSuffix _)
        (fun _ _ _ _ _ _ _ hdone => ⟨_, (okWithSuffix_runs.1 hdone).1⟩) (fun _ _ ha => ha)
        oneLine_requireBoard (fun _ _ => hset hc) h hrun
  | boardStatus =>
      rw [hc] at hrun
      refine hsame hc rfl ?_
      by_cases hconnected : s.status.boardConnected = true
      · exact (handleBoardStatus_inStep h hconnected hrun).2
      · rcases checked_runs.1 hrun with ⟨reply, -, -, rfl, rfl⟩ | ⟨a, ha, -⟩
        · exact h
        · exact absurd (requireBoard_eq_ok.1 ha).2 hconnected
  | measSinc =>
      rw [hc] at hrun
      refine hsame hc rfl ?_
      rcases checked_runs.1 hrun with ⟨reply, -, -, rfl, rfl⟩ | ⟨a, -, hmeasure⟩
      · exact h
      · exact keepsBoard_of_measures (measures_measureSinc P a) h hmeasure
  | measSweep =>
      rw [hc] at hrun
      refine hsame hc rfl ?_
      rcases checked_runs.1 hrun with ⟨reply, -, -, rfl, rfl⟩ | ⟨a, -, hmeasure⟩
      · exact h
      · exact keepsBoard_of_measures (measures_measureSweep P a) h hmeasure

/-- **What a command does to the board**: what it asks for, and only if the reply confirms it. -/
theorem handleCommand_board (h : InStep b s w)
    (hrun : Runs (bench rounds) w (handleCommand P cmd s) (r, s') w') :
    ∃ b', InStep b' s' w' ∧ BoardEffect cmd b r b' := by
  by_cases hmany : cmd.command ≠ .unknown ∧ maxArgCount cmd.command < cmd.args.length
  · have hnone : settingOf cmd = none := if_pos hmany
    unfold handleCommand at hrun
    rw [if_pos hmany] at hrun
    obtain ⟨heq, rfl⟩ := runs_done.1 hrun
    cases heq
    exact effect_none hnone h
  · unfold handleCommand at hrun
    rw [if_neg hmany] at hrun
    exact dispatch_board hmany h hrun

/-- A block of text is the state of the board. -/
theorem handleCommand_text {text : Text} (h : InStep b s w) (hcmd : cmd.command = .boardStatus)
    (hrun : Runs (bench rounds) w (handleCommand P cmd s) (r, s') w') (hr : r = .ok (.text text)) :
    text = Firmware.statusText b := by
  by_cases hmany : cmd.command ≠ .unknown ∧ maxArgCount cmd.command < cmd.args.length
  · unfold handleCommand at hrun
    rw [if_pos hmany] at hrun
    obtain ⟨heq, rfl⟩ := runs_done.1 hrun
    cases heq
    cases hr
  · have hhandle : handleCommand P cmd s = handleBoardStatus s := by
      unfold handleCommand dispatch
      rw [if_neg hmany, hcmd]
    rw [hhandle] at hrun
    by_cases hconnected : s.status.boardConnected = true
    · obtain ⟨hreply, -⟩ := handleBoardStatus_inStep h hconnected hrun
      rw [hr] at hreply
      cases hreply
      rfl
    · subst hr
      rcases checked_runs.1 hrun with ⟨reply, hcheck, heq, -⟩ | ⟨a, ha, -⟩
      · cases heq
        exact absurd hcheck requireBoard_ne_text
      · exact absurd (requireBoard_eq_ok.1 ha).2 hconnected

end Effects

end CommandHandler

/-! ### The text of the status -/

theorem intercalate_newline (l : Text) (ls : List Text) :
    ['\n'].intercalate (l :: ls) = l ++ behindNewlines ls := by
  induction ls generalizing l with
  | nil => simp [List.intercalate, behindNewlines]
  | cons m ms ih =>
      have hcons : ['\n'].intercalate (l :: m :: ms)
          = l ++ '\n' :: ['\n'].intercalate (m :: ms) := by
        simp [List.intercalate]
      rw [hcons, ih]
      simp [behindNewlines]

/-- What holds of the lines of a status: they are short, and plain text. -/
theorem plain_statusLines (b : Switches) : ∀ l ∈ statusLines b,
    isAscii l = true ∧ '\n' ∉ l ∧ '\r' ∉ l ∧ l.length ≤ 40 := by
  refine forall_mem_statusLines (by decide) (by decide) (by decide) b

theorem textLines_statusText (b : Switches) :
    textLines (Firmware.statusText b) = statusLines b := by
  have hlines : statusLines b = "=== MUX Status ===".toList :: (statusLines b).tail := rfl
  have hsplit : (Firmware.statusText b).splitOn '\n' = statusLines b := by
    rw [Py.BoardStatus.statusText_eq, ← intercalate_newline, ← hlines]
    exact List.splitOn_intercalate _ (fun l hl => (plain_statusLines b l hl).2.1)
      (List.cons_ne_nil _ _)
  rw [textLines, hsplit]
  refine (List.map_congr_left fun l hl => ?_).trans (List.map_id _)
  rw [id, List.filter_eq_self]
  intro c hc
  have hcr := (plain_statusLines b l hl).2.2.1
  simp only [bne_iff_ne]
  rintro rfl
  exact hcr hc

theorem filter_statusText (b : Switches) :
    (Firmware.statusText b).filter (· != '\r') = Firmware.statusText b := by
  rw [List.filter_eq_self, Py.BoardStatus.statusText_eq]
  intro c hc
  simp only [bne_iff_ne]
  rintro rfl
  rcases List.mem_append.1 hc with hc | hc
  · exact absurd hc (by decide)
  · obtain ⟨l, hl, hmem⟩ := List.mem_flatMap.1 hc
    rcases List.mem_cons.1 hmem with hn | hmem
    · cases hn
    · exact (plain_statusLines b l (List.mem_of_mem_tail hl)).2.2.1 hmem

theorem isAscii_statusText (b : Switches) : isAscii (Firmware.statusText b) = true := by
  rw [Py.BoardStatus.statusText_eq, isAscii_append]
  have hhead : isAscii "=== MUX Status ===".toList = true := by decide
  rw [hhead, Bool.true_and, isAscii, List.all_eq_true]
  intro c hc
  obtain ⟨l, hl, hmem⟩ := List.mem_flatMap.1 hc
  rcases List.mem_cons.1 hmem with rfl | hmem
  · decide
  · exact List.all_eq_true.1 (plain_statusLines b l (List.mem_of_mem_tail hl)).1 c hmem

/-- A status is a block that a client can read. -/
theorem isBlock_statusText (b : Switches) : IsBlock (Firmware.statusText b) := by
  have hread : ∀ ls : List Text, (∀ l ∈ ls, isAscii l = true) → ReadableLines ls := by
    intro ls
    induction ls with
    | nil => exact fun _ => trivial
    | cons l ls ih =>
        intro h
        cases ls with
        | nil => trivial
        | cons m ms =>
            exact Or.inr ⟨h l (by simp), ih fun k hk => h k (List.mem_cons_of_mem _ hk)⟩
  unfold IsBlock
  rw [textLines_statusText]
  refine ⟨?_, hread _ fun l hl => (plain_statusLines b l hl).1⟩
  have hcount : (statusLines b).length = 12 := rfl
  have hmax : 12 ≤ maxBoardStatusLines := by decide
  omega

theorem length_le_of_mem_lines {s l : Text} (hl : l ∈ Lines.lines isNewline s) :
    l.length ≤ s.length := by
  induction s generalizing l with
  | nil => simp at hl
  | cons c s ih =>
      cases hc : isNewline c with
      | true =>
          rw [Lines.lines_cons_nl isNewline hc] at hl
          rcases List.mem_cons.1 hl with rfl | hl
          · exact Nat.zero_le _
          · exact (ih hl).trans (Nat.le_succ _)
      | false =>
          rw [Lines.lines_cons isNewline hc] at hl
          cases hls : Lines.lines isNewline s with
          | nil =>
              rw [hls] at hl
              cases hl
          | cons m ms =>
              rw [hls] at hl
              rcases List.mem_cons.1 hl with rfl | hl
              · exact Nat.succ_le_succ (ih (hls ▸ List.mem_cons_self ..))
              · exact (ih (hls ▸ List.mem_cons_of_mem _ hl)).trans (Nat.le_succ _)

/-- Every line of a short text is short. -/
theorem shortReply_of_length {reply : Text} (h : reply.length ≤ maxLineBytes - recvBufferSize) :
    ShortReply reply := by
  intro l hl
  exact (length_le_of_mem_lines hl).trans h

/-- **What the client reads of a status** is its text. -/
theorem boardStatusReply_statusText (b : Switches) :
    (boardStatusReply none).on (Reply.text (Firmware.statusText b)).render
      = .returned (Firmware.statusText b) [] := by
  have hshort : ShortReply (buildTextResponse (Firmware.statusText b)) := by
    refine shortReply_of_length ?_
    have hcount : (statusLines b).length = 12 := rfl
    have hbody : ((statusLines b).flatMap (· ++ ['\n'])).length ≤ 12 * 41 := by
      rw [List.length_flatMap, ← hcount, ← smul_eq_mul, ← List.length_map (f := fun l : Text =>
        (l ++ ['\n']).length)]
      refine List.sum_le_card_nsmul _ 41 fun n hn => ?_
      obtain ⟨l, hl, rfl⟩ := List.mem_map.1 hn
      have hle := (plain_statusLines b l hl).2.2.2
      rw [List.length_append, List.length_singleton]
      omega
    have hhead : ("OK LINES ".toList ++ toText 12 ++ ['\n']).length = 12 := by decide
    have hmax : 12 + 12 * 41 ≤ maxLineBytes - recvBufferSize := by decide
    have hreply : ∀ text, buildTextResponse text = ("OK LINES ".toList
        ++ toText (textLines text).length ++ ['\n'])
          ++ (textLines text).flatMap (· ++ ['\n']) := fun _ => rfl
    rw [hreply, textLines_statusText, List.length_append, hcount]
    exact (Nat.add_le_add hhead.le hbody).trans hmax
  have hcount : (textLines (Firmware.statusText b)).length ≤ maxBoardStatusLines :=
    (isBlock_statusText b).1
  have hon := (on_buildTextResponse (isAscii_statusText b) hcount hshort none).2
  rw [filter_statusText] at hon
  exact hon

/-! ### The calls of a session -/

/-- The devices of a server with a board, where exceptions and reports keep to the format of the
protocol. -/
abbrev plainBench (rounds : ℕ) : World server :=
  ⟨Bench, fun w c r w' => Bench.Step rounds w c r w' ∧ CommandHandler.TidyReply c r⟩

theorem tidy_plainBench (rounds : ℕ) : CommandHandler.Tidy (plainBench rounds) :=
  fun _ _ _ _ h => h.2

theorem runs_bench {rounds : ℕ} {α : Type} {p : Prog server α} {w w' : Bench} {a : α}
    (h : Runs (plainBench rounds) w p a w') : Runs (bench rounds) w p a w' := by
  obtain ⟨v, hrun, rfl⟩ := h.simulates (V := bench rounds) (R := fun w v : Bench => w = v)
    (fun hv hstep => ⟨_, hv ▸ hstep.1, rfl⟩) rfl
  exact hrun

/-- The setting a call of the client asks for. -/
def Client.ClientCall.setting (call : ClientCall) : Option BoardSetting :=
  call.line.bind fun line => settingOf (parseLine line)

section Calls

variable {P : Platform} {F : Type} {float : Text → Option F} {rounds : ℕ}

/-- What a call says about the board: `b` is the state of the firmware before it, `b'` the one
after. -/
structure BoardStep (call : ClientCall) (r : Except AfmError (Value F)) (b b' : Switches) :
    Prop where
  atMost : b' = b ∨ ∃ c, call.setting = some c ∧ b' = b.performAll (Uart.changesOf c)
  returned : ∀ c v, call.setting = some c → r = .ok v → b' = b.performAll (Uart.changesOf c)
  refused : ∀ message, r = .error (.command message) → b' = b
  status : ∀ text, call = .getBoardStatus → r = .ok (.text text) →
    Py.BoardStatus.fromResponse text = Py.BoardStatus.ofSwitches b'

/-- The server and its board are in step. -/
def RemoteServer.InStep (b : Switches) (s : RemoteServer (plainBench rounds)) : Prop :=
  CommandHandler.InStep b s.handler s.devices

/-- **What a call has done to the board** follows from its result. -/
theorem Ended.board {call : ClientCall} {r : Except AfmError (Value F)}
    {s s' : RemoteServer (plainBench rounds)} {b : Switches} (h : Ended P float call r s s')
    (hs : s.InStep b) : ∃ b', s'.InStep b' ∧ BoardStep call r b b' := by
  cases h with
  | skipped hr =>
      refine ⟨b, hs, ⟨Or.inl rfl, fun c v hc hv => ?_, fun _ _ => rfl, fun text hcall hv => ?_⟩⟩
      · rcases hr with hline | ⟨e, rfl⟩
        · rw [ClientCall.setting, hline] at hc
          cases hc
        · cases hv
      · rcases hr with hline | ⟨e, rfl⟩
        · rw [hcall] at hline
          cases hline
        · cases hv
  | carried line reply s' hline hcarries hreturned hrefused =>
      obtain ⟨answer, hrun, hreply⟩ := id hcarries
      obtain ⟨b', hstep, heffect⟩ := CommandHandler.handleCommand_board hs (runs_bench hrun)
      have hsetting : call.setting = settingOf (parseLine line) := by
        rw [ClientCall.setting, hline]
        rfl
      refine ⟨b', hstep, ⟨?_, fun c v hc hv => ?_, fun message hr => ?_, fun text hcall hv => ?_⟩⟩
      · obtain ⟨c, data, hc, -, rfl⟩ | ⟨rfl, -⟩ := heffect
        · exact Or.inr ⟨c, hsetting.trans hc, rfl⟩
        · exact Or.inl rfl
      · obtain ⟨c', data, hc', -, rfl⟩ | ⟨rfl, hnone | ⟨status, text, rfl⟩⟩ := heffect
        · obtain rfl : c = c' := Option.some.inj (hc.symm.trans (hsetting.trans hc'))
          rfl
        · rw [hsetting, hnone] at hc
          cases hc
        · cases hreply
          exact absurd rfl ((hreturned v hv).2 status text)
      · obtain ⟨status, text, rfl⟩ := hrefused message hr
        obtain ⟨c, data, -, rfl, -⟩ | ⟨rfl, -⟩ := heffect
        · cases hreply
        · rfl
      · subst hcall
        cases hline
        have hcommand := parseLine_boardStatus
        have hsuits := hcarries.suits (tidy_plainBench rounds) (by decide)
        obtain ⟨⟨data, rest, hdata, hread⟩, hnot⟩ := hreturned _ hv
        cases hdata
        rw [hcommand] at hsuits
        cases reply with
        | ok data => exact absurd rfl hsuits.1
        | error status message => exact absurd rfl (hnot status message)
        | spectrum points => rcases hsuits.1 with hc | hc <;> cases hc
        | text body =>
            have hanswer : answer = .ok (.text body) := by
              cases answer with
              | ok reply =>
                  cases hreply
                  rfl
              | error e => cases e <;> cases hreply
            obtain rfl := CommandHandler.handleCommand_text hs hcommand (runs_bench hrun) hanswer
            rw [boardStatusReply_statusText] at hread
            cases hread
            have hsame : b' = b := by
              obtain ⟨c, data, -, hok, -⟩ | ⟨rfl, -⟩ := heffect
              · rw [hanswer] at hok
                cases hok
              · rfl
            rw [hsame]
            exact Py.BoardStatus.fromResponse_statusText b

/-- The state of the firmware, by the calls that were made: each call says what it has done. -/
inductive BoardHistory (b₀ : Switches) :
    List (ClientCall × Except AfmError (Value F)) → Switches → Prop
  | nil : BoardHistory b₀ [] b₀
  | call {past : List (ClientCall × Except AfmError (Value F))} {b b' : Switches}
      {call : ClientCall} {r : Except AfmError (Value F)} (h : BoardHistory b₀ past b)
      (hstep : BoardStep call r b b') : BoardHistory b₀ (past ++ [(call, r)]) b'

theorem Carried.board {past : List (ClientCall × Except AfmError (Value F))}
    {s₀ s : RemoteServer (plainBench rounds)} {b₀ : Switches} (h : Carried P float s₀ past s)
    (hs₀ : s₀.InStep b₀) : ∃ b, s.InStep b ∧ BoardHistory b₀ past b := by
  induction h with
  | nil => exact ⟨b₀, hs₀, .nil⟩
  | call hs hended ih =>
      obtain ⟨b, hb, hpast⟩ := ih
      obtain ⟨b', hb', hstep⟩ := hended.board hb
      exact ⟨b', hb', .call hpast hstep⟩

/-- A server that has just been started, with the board behind this line. -/
def boardServer (rounds : ℕ) (measurementTimeoutMs : ℤ) (mode : OperatingMode)
    (cable : Uart.Cable) : RemoteServer (plainBench rounds) :=
  ⟨.make measurementTimeoutMs mode, ({ cable := cable } : Bench)⟩

/-- **The calls of a client determine the state of the board**, from the start of the server on and
over any number of connections that lose, delay or cut what they carry.  The firmware has carried
out every setting that a call has confirmed, none that a call was refused, and nothing else but
settings of calls that failed, each at most once and in the order of the calls; a status report
shows it. -/
theorem remoteSession_board {measurementTimeoutMs : ℤ} {mode : OperatingMode} {cable : Uart.Cable}
    {b₀ : Switches} (hidle : cable.Idle b₀)
    {past : List (ClientCall × Except AfmError (Value F))} {c : State}
    {w : Site (plainBench rounds)}
    (h : RemoteSession P float (boardServer rounds measurementTimeoutMs mode cable) past c w) :
    BoardHistory b₀ past w.server.devices.cable.board.switches := by
  have hstart : (boardServer rounds measurementTimeoutMs mode cable).InStep b₀ :=
    CommandHandler.Away.inStep ⟨⟨Nat.succ_ne_zero 63, hidle⟩, rfl⟩
  obtain ⟨b, hb, hpast⟩ := (h.carried (tidy_plainBench rounds)).board hstart
  rw [hb.rests.cable.board]
  exact hpast

end Calls

/-- The devices of `Bench.serve`, without the reports of the driver. -/
def Bench.plainServe (w : Bench) : (c : ServerCall) → Option (server.Reply c × Bench)
  | .board .getStatus => none
  | .board .getLastError => none
  | c => w.serve 32 c

theorem Bench.plainServe_step (w : Bench) (c : ServerCall) (r : server.Reply c) (w' : Bench)
    (h : w.plainServe c = some (r, w')) : (plainBench 32).Step w c r w' := by
  have hplain : ∀ {α : Type} (a : α), CommandHandler.Plain (.ok a : Except Text α) :=
    fun a what h => by cases h
  have hserve : w.serve 32 c = some (r, w') := by
    unfold plainServe at h
    split at h
    · cases h
    · cases h
    · exact h
  refine ⟨Bench.serve_step hserve, ?_⟩
  cases c with
  | hardwareFactory =>
      cases hserve
      exact hplain _
  | hardware c =>
      cases c with
      | initializeHardware =>
          cases hserve
          exact hplain _
      | getDecimation =>
          cases hserve
          exact hplain _
      | _ => cases hserve
  | boardFactory =>
      simp only [serve] at hserve
      split at hserve
      · cases hserve
        exact hplain _
      · cases hserve
  | board c =>
      obtain ⟨u, -, hmethod⟩ := Option.bind_eq_some_iff.1 hserve
      split at hmethod
      · cases hmethod
        cases c with
        | getStatus => cases h
        | getLastError => cases h
        | _ => exact hplain _
      · cases hmethod
  | planFft n => cases hserve
  | _ => trivial

/-- A client that has initialized a new server and set a gain. -/
theorem remoteSession_board_meet :
    ∃ results c w, meet (obey (P := CommandHandler.flat .ieee) Bench.plainServe)
        (fun _ => (none : Option ℚ)) 5
        [.sendCommand "SYSTEM:INIT".toList, .sendCommand (BoardMethod.setGain 1 5).command]
        (boardServer 32 5000 .full CommandHandler.poweredOn) = some (results, c, w) ∧
      w.server.devices.cable.board.switches.ampGains 0 = 5 ∧
      BoardHistory CommandHandler.poweredOn.board.switches (results.map (returned (F := ℚ)))
        w.server.devices.cable.board.switches := by
  have hany : (meet (obey (P := CommandHandler.flat .ieee) Bench.plainServe)
      (fun _ => (none : Option ℚ)) 5
      [.sendCommand "SYSTEM:INIT".toList, .sendCommand (BoardMethod.setGain 1 5).command]
      (boardServer 32 5000 .full CommandHandler.poweredOn)).any
      (fun x => decide (x.2.2.server.devices.cable.board.switches.ampGains 0 = 5)) = true := by
    decide +kernel
  obtain ⟨⟨results, c, w⟩, hmeet, hgain⟩ := (Option.any_eq_true _ _).1 hany
  have hsession := RemoteSession.meet (P := CommandHandler.flat .ieee) _
    (obey_carries Bench.plainServe_step) (fun call hcall => ?_) hmeet
  · exact ⟨results, c, w, hmeet, of_decide_eq_true hgain,
      remoteSession_board ⟨rfl, List.nil_suffix⟩ hsession⟩
  rcases List.mem_pair.1 hcall with rfl | rfl
  · exact ⟨trivial, fun line hline => by cases hline; decide⟩
  · exact ⟨trivial, fun line hline => by cases hline; decide⟩

end Afm
