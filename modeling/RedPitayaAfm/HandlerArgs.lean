/-
**Arguments of a command and their checks.**

Every command checks its arguments before it touches anything.  A check either lets the command go
on or fixes its reply; the checks of a command are made in the order of the source, and the first
that fails replies.

Main definitions:

* `Afm.CommandHandler.checkInitialized`, `Afm.CommandHandler.requireBoard` — is the hardware there;
* `Afm.validateChannel1Based` and the other checks of a single value;
* `Afm.CommandHandler.sincArgs`, `Afm.CommandHandler.sweepArgs` — the checks of the measurements.

Main results:

* `Afm.CommandHandler.sincArgs_valid`, `Afm.CommandHandler.sweepArgs_valid` — what passes the
  checks is in range.
-/

import RedPitayaAfm.HandlerState
import RedPitayaAfm.MeasureCtrl

set_option relaxedAutoImplicit false
set_option autoImplicit false

namespace Afm

/-- Go on if the condition holds. -/
def require (condition : Prop) [Decidable condition] (reply : Reply) : Except Reply Unit :=
  if condition then .ok () else .error reply

/-- An error reply with the given text. -/
def errorReply (status : ResponseStatus) (message : String) : Reply := .error status message.toList

/-- An argument that must be readable. -/
def needed {α : Type} (value : Option α) (reply : Reply) : Except Reply α :=
  match value with
  | some v => .ok v
  | none => .error reply

/-- An argument that may be missing, but must be readable where it is given. -/
def optional {α : Type} (cmd : ParsedCommand) (index : ℕ) (value : Option α) (default : α)
    (message : String) : Except Reply α :=
  if index < cmd.args.length then needed value (errorReply .errSyntax message) else .ok default

theorem require_eq_ok {condition : Prop} [Decidable condition] {reply : Reply} {u : Unit} :
    require condition reply = .ok u ↔ condition := by
  unfold require
  by_cases h : condition
  · simp [h]
  · simp [h]

/-- A sequence of checks passes when each of them does. -/
theorem bind_eq_ok {α β : Type} {x : Except Reply α} {f : α → Except Reply β} {b : β} :
    x >>= f = .ok b ↔ ∃ a, x = .ok a ∧ f a = .ok b := by
  cases x with
  | error e => simp [bind, Except.bind]
  | ok a => simp [bind, Except.bind]

/-! ### Single values -/

/-- `_validateChannel1Based`: the channel from zero. -/
def validateChannel1Based (channel : ℤ) (name : String) : Except Reply Channel :=
  if h : 1 ≤ channel ∧ channel ≤ 4 then .ok ⟨(channel - 1).toNat, by omega⟩
  else .error (.error .errParam (name.toList ++ " must be 1-".toList ++ toText numChannels))

/-- `_validateSampleCount` -/
def validateSampleCount (numSamples : ℤ) : Except Reply Unit :=
  require (0 < numSamples ∧ numSamples ≤ Fpga.maxSamples)
    (.error .errParam ("num_samples must be 1-".toList ++ toText Fpga.maxSamples))

/-- The decimations the message of `_validateDecimation` lists. -/
def validDecimations : List ℕ := [16, 32, 64, 128, 256, 512, 1024]

/-- `_validateDecimation` -/
def validateDecimation (decimation : ℤ) : Except Reply Unit :=
  require (0 < decimation ∧ Fpga.isValidDecimation decimation.toNat = true)
    (.error .errParam ("decimation must be a power of 2 (".toList
      ++ ", ".toList.intercalate (validDecimations.map toText) ++ [')']))

/-- `_validateAmplitude` -/
def validateAmplitude (amplitude : ℚ) : Except Reply Unit :=
  require (0 < amplitude ∧ amplitude ≤ 1) (errorReply .errParam "amplitude must be in ]0, 1]")

/-- `_validateNyquist` -/
def validateNyquist (A : Arithmetic) (topHz : ℚ) (decimation : ℕ) (what : String) :
    Except Reply Unit :=
  let nyquistHz := A.double (ServerConfig.adcSampleRateHz / (2 * decimation))
  require (topHz < nyquistHz)
    (.error .errParam (what.toList ++ " exceeds Nyquist (".toList
      ++ fixed 3 (A.double (nyquistHz / 1000)) ++ " kHz) at decimation ".toList
      ++ toText decimation))

/-- `_parseMeasTailArgs`: decimation and amplitude. -/
def parseMeasTailArgs (A : Arithmetic) (cmd : ParsedCommand) (decimation : ℤ) (amplitude : ℚ) :
    Except Reply (ℤ × ℚ) := do
  let decimation ← optional cmd 3 (cmd.getArgInt 3) decimation "decimation must be an integer"
  let amplitude ← optional cmd 4 (cmd.getArgFloat A 4) amplitude "amplitude must be a finite number"
  pure (decimation, amplitude)

/-! ### What must be there -/

namespace CommandHandler

variable (A : Arithmetic) (s : CommandHandler)

/-- `_checkInitialized` -/
def checkInitialized : Except Reply Unit :=
  require (s.status.hardwareInitialized = true)
    (errorReply .errNotInit "Hardware not initialized. Use SYSTEM:INIT first")

/-- `_boardUnavailableError` -/
def boardUnavailableError : Reply :=
  if s.status.mode = .rpOnly then
    errorReply .errHardware "Electronic board disabled (RP-only mode)"
  else errorReply .errHardware "Board not connected"

/-- `_requireBoard` -/
def requireBoard : Except Reply Unit := do
  s.checkInitialized
  require (s.status.boardConnected = true) s.boardUnavailableError

/-! ### Board commands -/

/-- The checks of `_handleBoardMuxRoute`. -/
def muxRouteArgs (cmd : ParsedCommand) : Except Reply (Channel × Channel) := do
  s.requireBoard
  let usage := errorReply .errSyntax "Usage: BOARD:MUX:ROUTE <out>,<in>"
  let output ← needed (cmd.getArgInt 0) usage
  let input ← needed (cmd.getArgInt 1) usage
  let output ← validateChannel1Based output "out"
  let input ← validateChannel1Based input "in"
  pure (output, input)

/-- The checks of `_handleBoardMuxDisconnect`. -/
def muxDisconnectArgs (cmd : ParsedCommand) : Except Reply Channel := do
  s.requireBoard
  let output ← needed (cmd.getArgInt 0)
    (errorReply .errSyntax "Usage: BOARD:MUX:DISCONNECT <out>")
  validateChannel1Based output "out"

/-- The checks of `_handleBoardGain`. -/
def gainArgs (cmd : ParsedCommand) : Except Reply (Channel × GainSetting) := do
  s.requireBoard
  let usage := errorReply .errSyntax "Usage: BOARD:GAIN <ch>,<gain_index>"
  let channel ← needed (cmd.getArgInt 0) usage
  let gainIndex ← needed (cmd.getArgInt 1) usage
  let channel ← validateChannel1Based channel "channel"
  require (0 ≤ gainIndex ∧ gainIndex ≤ maxGainIndex)
    (.error .errParam ("gain_index must be 0-".toList ++ toText maxGainIndex))
  pure (channel, GainSetting.ofIndex gainIndex.toNat)

/-! ### Measurements -/

/-- What the checks of `_handleMeasSinc` let through. -/
structure SincArgs where
  numSamples : ℕ
  decimation : ℕ
  amplitude : ℚ
  centerHz : ℚ
  bandwidthHz : ℚ
  deriving DecidableEq

/-- `highFreq` of `_handleMeasSinc`, the upper end of the band. -/
def SincArgs.highFreq (a : SincArgs) : ℚ := A.double (a.centerHz + A.double (a.bandwidthHz / 2))

/-- The checks of `_handleMeasSinc`. -/
def sincArgs (cmd : ParsedCommand) : Except Reply SincArgs := do
  s.checkInitialized
  let usage := errorReply .errSyntax
    "Usage: MEASURE:SINC <center_kHz>,<bandwidth_kHz>[,<num_samples>,<decimation>,<amplitude>]"
  let centerKHz ← needed (cmd.getArgFloat A 0) usage
  let bandwidthKHz ← needed (cmd.getArgFloat A 1) usage
  let numSamples ← optional cmd 2 (cmd.getArgInt 2) 8192 "num_samples must be an integer"
  let (decimation, amplitude) ← parseMeasTailArgs A cmd 64 1
  validateSampleCount numSamples
  validateDecimation decimation
  require (0 < centerKHz) (errorReply .errParam "center_kHz must be > 0")
  require (0 < bandwidthKHz) (errorReply .errParam "bandwidth_kHz must be > 0")
  validateAmplitude amplitude
  let a : SincArgs :=
    { numSamples := numSamples.toNat
      decimation := decimation.toNat
      amplitude := amplitude
      centerHz := A.double (centerKHz * 1000)
      bandwidthHz := A.double (bandwidthKHz * 1000) }
  require (1 ≤ a.bandwidthHz) (errorReply .errParam "bandwidth must be at least 1 Hz")
  validateNyquist A (a.highFreq A) a.decimation "excitation band"
  s.checkAdcProtection A amplitude
  pure a

/-- What the checks of `_handleMeasSweep` let through. -/
structure SweepArgs where
  decimation : ℕ
  amplitude : ℚ
  startKHz : ℚ
  stopKHz : ℚ
  stepKHz : ℚ
  firstPoint : ℕ
  numPoints : ℕ
  deriving DecidableEq

/-- `c_SweepStepTolerance` -/
def sweepStepTolerance : ℚ := A.double (1 / 1000000)

/-- How many steps a distance takes, rounded down with the tolerance. -/
def sweepSteps (distanceKHz stepKHz : ℚ) : ℤ :=
  ⌊A.double (A.double (distanceKHz / stepKHz) * A.double (1 + sweepStepTolerance A))⌋

/-- `pointsEstimate` -/
def sweepPoints (startKHz stopKHz stepKHz : ℚ) : ℤ :=
  sweepSteps A (A.double (stopKHz - startKHz)) stepKHz + 1

/-- `firstPoint`: the grid skips the points at or below zero. -/
def sweepFirstPoint (startKHz stepKHz : ℚ) : ℕ :=
  if startKHz ≤ 0 then (sweepSteps A (-startKHz) stepKHz).toNat + 1 else 0

/-- The reply to a sweep with too many points. -/
def tooManyPoints (pointsEstimate : ℤ) : Reply :=
  .error .errParam ("sweep would take ".toList
    ++ (if 1000000000 < pointsEstimate then "more than 1e9".toList
        else intToText pointsEstimate)
    ++ " points (max ".toList ++ toText ServerConfig.maxSweepPoints ++ [')'])

/-- The checks of `_handleMeasSweep`. -/
def sweepArgs (cmd : ParsedCommand) : Except Reply SweepArgs := do
  s.checkInitialized
  let usage := errorReply .errSyntax
    "Usage: MEASURE:SWEEP <center_kHz>,<range_kHz>[,<step_kHz>,<decimation>,<amplitude>]"
  let centerKHz ← needed (cmd.getArgFloat A 0) usage
  let rangeKHz ← needed (cmd.getArgFloat A 1) usage
  let stepKHz ← optional cmd 2 (cmd.getArgFloat A 2) 1 "step_kHz must be a finite number"
  let (decimation, amplitude) ← parseMeasTailArgs A cmd 64 1
  validateDecimation decimation
  require (0 < centerKHz) (errorReply .errParam "center_kHz must be > 0")
  require (0 < rangeKHz) (errorReply .errParam "range_kHz must be > 0")
  require (0 < stepKHz) (errorReply .errParam "step_kHz must be > 0")
  validateAmplitude amplitude
  let startKHz := A.double (centerKHz - A.double (rangeKHz / 2))
  let stopKHz := A.double (centerKHz + A.double (rangeKHz / 2))
  validateNyquist A (A.double (stopKHz * 1000)) decimation.toNat "stop frequency"
  -- the estimate is bounded before it becomes a size
  let pointsEstimate := sweepPoints A startKHz stopKHz stepKHz
  require (pointsEstimate ≤ ServerConfig.maxSweepPoints) (tooManyPoints pointsEstimate)
  let numPoints := pointsEstimate.toNat
  -- points at or below 0 Hz are left out, which may be all of them
  let firstPoint := sweepFirstPoint A startKHz stepKHz
  require (firstPoint < numPoints) (errorReply .errParam "sweep has no point above 0 Hz")
  s.checkAdcProtection A amplitude
  pure { decimation := decimation.toNat
         amplitude := amplitude
         startKHz := startKHz
         stopKHz := stopKHz
         stepKHz := stepKHz
         firstPoint := firstPoint
         numPoints := numPoints }

/-! ### What passes the checks -/

section Valid

variable {A} {s} {cmd : ParsedCommand}

theorem requireBoard_eq_ok {u : Unit} :
    s.requireBoard = .ok u ↔ s.status.hardwareInitialized = true ∧ s.status.boardConnected = true := by
  simp only [requireBoard, checkInitialized, bind_eq_ok, require_eq_ok, exists_const]

/-- What the checks of `_handleMeasSinc` guarantee. -/
structure SincArgs.Valid (A : Arithmetic) (s : CommandHandler) (a : SincArgs) : Prop where
  initialized : s.status.hardwareInitialized = true
  pos : 0 < a.numSamples
  le_maxSamples : a.numSamples ≤ Fpga.maxSamples
  validDecimation : Fpga.isValidDecimation a.decimation = true
  amplitude_pos : 0 < a.amplitude
  amplitude_le : a.amplitude ≤ 1
  center_nonneg : 0 ≤ a.centerHz
  bandwidth_ge : 1 ≤ a.bandwidthHz
  nyquist : a.highFreq A < A.double (ServerConfig.adcSampleRateHz / (2 * a.decimation))
  protection : s.checkAdcProtection A a.amplitude = .ok ()

/-- What passes the checks of `_handleMeasSinc` is in range. -/
theorem sincArgs_valid {a : SincArgs} (h : s.sincArgs A cmd = .ok a) : a.Valid A s := by
  simp only [sincArgs, checkInitialized, validateSampleCount, validateDecimation,
    validateAmplitude, validateNyquist, bind_eq_ok, require_eq_ok] at h
  obtain ⟨-, hinit, centerKHz, -, bandwidthKHz, -, numSamples, -, ⟨decimation, amplitude⟩, -,
    -, hn, -, hd, -, hc, -, -, -, ha, -, hb, -, hnyq, ⟨⟩, hprot, h⟩ := h
  cases h
  exact
    { initialized := hinit
      pos := by simp only; omega
      le_maxSamples := by simp only; omega
      validDecimation := hd.2
      amplitude_pos := ha.1
      amplitude_le := ha.2
      center_nonneg := A.double_nonneg (by positivity)
      bandwidth_ge := hb
      nyquist := hnyq
      protection := hprot }

/-- The centre of the band is below half the sampling frequency. -/
theorem SincArgs.Valid.center_lt {a : SincArgs} (h : a.Valid A s) :
    a.centerHz < ServerConfig.adcSampleRateHz / a.decimation / 2 := by
  have hhalf : ServerConfig.adcSampleRateHz / a.decimation / 2
      = ServerConfig.adcSampleRateHz / (2 * a.decimation) := by
    rw [div_div, mul_comm (a.decimation : ℚ) 2]
  have hband : 0 ≤ A.double (a.bandwidthHz / 2) :=
    A.double_nonneg (by linarith [h.bandwidth_ge])
  rw [hhalf]
  -- rounding keeps the order, so the centre alone is below the limit that the band has met
  by_contra hge
  exact absurd h.nyquist (not_lt.2 (A.double_mono (by linarith)))

/-- What the checks of `_handleMeasSweep` guarantee. -/
structure SweepArgs.Valid (A : Arithmetic) (s : CommandHandler) (a : SweepArgs) : Prop where
  initialized : s.status.hardwareInitialized = true
  validDecimation : Fpga.isValidDecimation a.decimation = true
  amplitude_pos : 0 < a.amplitude
  amplitude_le : a.amplitude ≤ 1
  step_pos : 0 < a.stepKHz
  range : ∃ centerKHz rangeKHz : ℚ, 0 < rangeKHz ∧
    a.startKHz = A.double (centerKHz - A.double (rangeKHz / 2)) ∧
    a.stopKHz = A.double (centerKHz + A.double (rangeKHz / 2))
  nyquist : A.double (a.stopKHz * 1000)
    < A.double (ServerConfig.adcSampleRateHz / (2 * a.decimation))
  numPoints_eq : a.numPoints = (sweepPoints A a.startKHz a.stopKHz a.stepKHz).toNat
  numPoints_le : a.numPoints ≤ ServerConfig.maxSweepPoints
  firstPoint_eq : a.firstPoint = sweepFirstPoint A a.startKHz a.stepKHz
  firstPoint_lt : a.firstPoint < a.numPoints
  protection : s.checkAdcProtection A a.amplitude = .ok ()

/-- What passes the checks of `_handleMeasSweep` is in range. -/
theorem sweepArgs_valid {a : SweepArgs} (h : s.sweepArgs A cmd = .ok a) : a.Valid A s := by
  simp only [sweepArgs, checkInitialized, validateDecimation, validateAmplitude, validateNyquist,
    bind_eq_ok, require_eq_ok] at h
  obtain ⟨-, hinit, centerKHz, -, rangeKHz, -, stepKHz, -, ⟨decimation, amplitude⟩, -,
    -, hd, -, hc, -, hr, -, hstep, -, ha, -, hnyq, -, hmax, -, hfirst, ⟨⟩, hprot, h⟩ := h
  cases h
  exact
    { initialized := hinit
      validDecimation := hd.2
      amplitude_pos := ha.1
      amplitude_le := ha.2
      step_pos := hstep
      range := ⟨centerKHz, rangeKHz, hr, rfl, rfl⟩
      nyquist := hnyq
      numPoints_eq := rfl
      numPoints_le := by simp only; omega
      firstPoint_eq := rfl
      firstPoint_lt := hfirst
      protection := hprot }

end Valid

end CommandHandler

end Afm
