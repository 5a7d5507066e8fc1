/-
**What the command handler knows and calls.**

`CommandHandler` holds the system status, a cache of the board's gains and routing, and the two
devices behind their interfaces.  From these it estimates the peak at the ADC input.

Main definitions:

* `Afm.HardwareCall`, `Afm.BoardSetting`, `Afm.BoardCall`, `Afm.server` — what the handler calls;
* `Afm.SystemStatus`, `Afm.CommandHandler` — its fields;
* `Afm.CommandHandler.estimateAdcLoop` — the estimate, from the routing or from a pair given by
  hand;
* `Afm.CommandHandler.describeOverdrive`, `Afm.CommandHandler.overdriveSuffix` — what a reply
  says about it;
* `Afm.CommandHandler.takeGains`, `Afm.CommandHandler.takeRouting`,
  `Afm.CommandHandler.refreshFromStatus`, `Afm.CommandHandler.resetBoardCache` — how the cache
  follows the board.

Main results:

* `Afm.CommandHandler.peak_of_known`, `Afm.CommandHandler.loopPeak_le_of_unknown` — the estimate
  is the peak of the routed input, or covers every input when the routing is unknown.
-/

import RedPitayaAfm.Effect
import RedPitayaAfm.Protocol
import RedPitayaAfm.InputSafety
import RedPitayaAfm.SignalProcessing
import RedPitayaAfm.BoardStatus

set_option relaxedAutoImplicit false
set_option autoImplicit false

namespace Afm

open Effect

/-! ### Interfaces -/

/-- The methods of `IRedPitayaHardware` that may throw. -/
inductive HardwareCall
  | initializeHardware
  | loadGenerationSignal (signal : List ℚ)
  | setDecimation (decimation : ℕ)
  | getDecimation
  | startMeasurement (numSamples delaySamples : ℕ)
  | isMeasurementComplete
  /-- The buffer is filled in place, so its size stays. -/
  | getAcquiredSignal (size : ℕ)
  deriving DecidableEq

/-- What they return. -/
abbrev HardwareCall.Result : HardwareCall → Type
  | .getDecimation => ℕ
  | .getAcquiredSignal size => Option (Fin size → ℚ)
  | _ => Bool

/-- The methods of `IElectronicBoard` that change the board. -/
inductive BoardSetting
  | setMuxRoute (output input : Channel)
  | disconnectMux (output : Channel)
  | setGain (channel : Channel) (gain : GainSetting)
  | reset
  deriving DecidableEq

/-- The methods of `IElectronicBoard` that may throw. -/
inductive BoardCall
  | initializeBoard
  | set (c : BoardSetting)
  | getStatus
  | queryGains
  | queryRouting
  | getLastError
  deriving DecidableEq

/-- What they return.  The queries fill an array of values and one of valid flags. -/
abbrev BoardCall.Result : BoardCall → Type
  | .getStatus => Option Text
  | .queryGains => Option (Channel → GainSetting × Bool)
  | .queryRouting => Option (Channel → ℕ × Bool)
  | .getLastError => Text
  | _ => Bool

/-- What the handler calls. -/
inductive ServerCall
  /-- `m_hardware = m_hardwareFactory()`: the object it replaces is deleted. -/
  | hardwareFactory
  | hardware (c : HardwareCall)
  | resetMeasurement
  | cleanup
  | deleteHardware
  /-- `m_board = m_boardFactory()`: the object it replaces is deleted. -/
  | boardFactory
  | board (c : BoardCall)
  | closeBoard
  | deleteBoard
  /-- `m_cancelCheck` -/
  | cancelCheck
  | now
  | sleep (ms : ℕ)
  /-- The plan of the FFT library for records of a size. -/
  | planFft (size : ℕ)
  deriving DecidableEq

/-- The surroundings of the handler.  What may throw returns the text of the exception; a factory
tells whether its pointer is set. -/
abbrev server : Interface where
  Call := ServerCall
  Reply
    | .hardwareFactory => Except Text Bool
    | .hardware c => Except Text c.Result
    | .resetMeasurement => Bool
    | .cleanup => Unit
    | .deleteHardware => Unit
    | .boardFactory => Except Text Bool
    | .board c => Except Text c.Result
    | .closeBoard => Unit
    | .deleteBoard => Unit
    | .cancelCheck => Bool
    | .now => ℤ
    | .sleep _ => Unit
    | .planFft _ => Except Text Unit

/-! ### Fields -/

/-- `AdcLoopMode` -/
inductive AdcLoopMode
  | auto | manual | off
  deriving DecidableEq

/-- `SystemStatus` -/
structure SystemStatus where
  hardwareInitialized : Bool := false
  boardConnected : Bool := false
  measurementInProgress : Bool := false
  currentDecimation : ℕ := 64
  mode : OperatingMode := .full
  loopMode : AdcLoopMode := .auto
  loopExciteChannel : Channel := 0
  loopReturnChannel : Channel := 0
  adcProtectEnabled : Bool := true
  adcSampleGain : ℚ := 1
  adcOverdrive : Bool := false
  adcSaturated : Bool := false
  adcSaturationRatio : ℚ := 0
  deriving DecidableEq

/-- The fields of `CommandHandler`.  Of the two devices only the pointers are known here. -/
structure CommandHandler where
  measurementTimeoutMs : ℤ := 5000
  /-- `m_hardware` is not null. -/
  hardware : Bool := false
  /-- `m_board` is not null. -/
  board : Bool := false
  signalGen : Option (SignalGenerator ℚ) := none
  fftProcessor : Option (FFTProcessor ℚ) := none
  status : SystemStatus := {}
  channelGains : Channel → GainSetting := fun _ => .gain1
  muxRouting : Channel → ℕ := fun _ => disconnected
  muxRoutingKnown : Channel → Bool := fun _ => true
  lastExcitationAmplitude : ℚ := 1
  deriving DecidableEq

/-- The constructor: a handler in power-on state. -/
def CommandHandler.make (measurementTimeoutMs : ℤ) (mode : OperatingMode) : CommandHandler :=
  { measurementTimeoutMs := measurementTimeoutMs, status := { mode := mode } }

/-- How a command ends other than with a reply. -/
inductive Fault
  /-- An exception with its text. -/
  | thrown (what : Text)
  /-- A null pointer is used. -/
  | nullPointer
  /-- A string or an array is used out of bounds. -/
  | misuse (m : StringScan.Misuse)
  /-- No exception of the source: a loop has not ended within the rounds given to it. -/
  | running
  deriving DecidableEq

/-- A method of the handler. -/
abbrev Method (α : Type) := Act server CommandHandler Fault α

/-- What the handler runs on: its arithmetic, its libraries, and the rounds a loop may take. -/
structure Platform where
  arithmetic : Arithmetic
  numerics : Numerics ℚ
  rounds : ℕ

/-! ### The ADC monitor -/

/-- `AdcLoopEstimate` -/
structure AdcLoopEstimate where
  active : Bool := false
  returnOpen : Bool := false
  returnKnown : Bool := true
  exciteChannel : Channel := 0
  returnChannel : Channel := 0
  peak : ℚ := 0
  deriving DecidableEq

namespace CommandHandler

open InputSafety

section Monitor

variable (A : Arithmetic) (s : CommandHandler)

/-- `_loopPeak` -/
def loopPeak (amplitude : ℚ) (exciteChannel returnChannel : Channel) : ℚ :=
  InputSafety.loopPeak A amplitude s.status.adcSampleGain s.channelGains exciteChannel returnChannel

/-- One round of the search for the worst input. -/
def worseInput (amplitude : ℚ) (estimate : AdcLoopEstimate) (channel : Channel) :
    AdcLoopEstimate :=
  let peak := s.loopPeak A amplitude estimate.exciteChannel channel
  if estimate.peak ≤ peak then { estimate with peak := peak, returnChannel := channel }
  else estimate

/-- `_estimateAdcLoop` -/
def estimateAdcLoop (amplitude : ℚ) : AdcLoopEstimate :=
  if s.status.loopMode = .off ∨ s.status.boardConnected = false then {}
  else if s.status.loopMode = .manual then
    { active := true
      exciteChannel := s.status.loopExciteChannel
      returnChannel := s.status.loopReturnChannel
      peak := s.loopPeak A amplitude s.status.loopExciteChannel s.status.loopReturnChannel }
  else if s.muxRoutingKnown adcLinkOutput = false then
    (List.finRange 4).foldl (s.worseInput A amplitude)
      { active := true, returnKnown := false, exciteChannel := dacLinkInput }
  else if h : s.muxRouting adcLinkOutput < 4 then
    { active := true
      exciteChannel := dacLinkInput
      returnChannel := ⟨s.muxRouting adcLinkOutput, h⟩
      peak := s.loopPeak A amplitude dacLinkInput ⟨s.muxRouting adcLinkOutput, h⟩ }
  else { active := true, returnOpen := true, exciteChannel := dacLinkInput }

/-- The product of the gains of a loop, `gainProduct` of `_describeOverdrive`. -/
def gainProduct (estimate : AdcLoopEstimate) : ℚ :=
  let driveGain := A.single (dacFullScale * (s.channelGains estimate.exciteChannel).factor)
  if estimate.exciteChannel = estimate.returnChannel then driveGain
  else
    let returnGain := (s.channelGains estimate.returnChannel).factor
    A.single (driveGain * A.single (s.status.adcSampleGain * returnGain))

/-- `maxAmplitude` of `_describeOverdrive`: rounded down so the advice never exceeds the limit. -/
def maxAmplitude (estimate : AdcLoopEstimate) : ℚ :=
  A.single (⌊A.single (A.single (adcFullScale / s.gainProduct A estimate) * 10000)⌋ / 10000)

/-- The advice at the end of `_describeOverdrive`. -/
def overdriveAdvice (estimate : AdcLoopEstimate) (amplitude : ℚ) : Text :=
  let exciteGain := s.channelGains estimate.exciteChannel
  let returnGain := s.channelGains estimate.returnChannel
  let exciteLabel := toText (estimate.exciteChannel + 1)
  let returnLabel := toText (estimate.returnChannel + 1)
  let sampleGain := s.status.adcSampleGain
  let maxAmplitude : Text := fixed 4 (s.maxAmplitude A estimate)
  let setGain (label : Text) (gain : GainSetting) : Text :=
    "; suggested: BOARD:GAIN ".toList ++ label ++ [','] ++ toText gain.toIndex
  let orAmplitude : Text := " or excitation amplitude <= ".toList ++ maxAmplitude
  let reduce : Text := "; reduce excitation amplitude to <= ".toList ++ maxAmplitude
  if estimate.exciteChannel = estimate.returnChannel then
    match maxSafeDirectGain A amplitude with
    | some safeGain => setGain exciteLabel safeGain ++ orAmplitude
    | none => reduce
  else
    match maxSafeReturnGain A amplitude exciteGain sampleGain with
    | some safeGain => setGain returnLabel safeGain
    | none =>
        match maxSafeExciteGain A amplitude returnGain sampleGain with
        | some safeGain => setGain exciteLabel safeGain ++ orAmplitude
        | none => reduce

/-- `_describeOverdrive` -/
def describeOverdrive (estimate : AdcLoopEstimate) (amplitude : ℚ) : Text :=
  let direct := estimate.exciteChannel = estimate.returnChannel
  let sampleGain := s.status.adcSampleGain
  let unknown : Text :=
    if estimate.returnKnown then [] else " (board routing unknown, worst case assumed)".toList
  let atGain : Text :=
    if ¬direct ∧ sampleGain ≠ 1 then " at sample gain ".toList ++ general 6 sampleGain else []
  "expected ADC peak ~".toList ++ fixed 2 estimate.peak ++ " V exceeds ".toList
    ++ fixed 2 adcFullScale ++ " V full scale".toList ++ unknown ++ atGain
    ++ s.overdriveAdvice A estimate amplitude

/-- `_checkAdcProtection` -/
def checkAdcProtection (amplitude : ℚ) : Except Reply Unit :=
  let estimate := s.estimateAdcLoop A amplitude
  if s.status.adcProtectEnabled = false then .ok ()
  else if estimate.active = false ∨ estimate.peak ≤ adcFullScale then .ok ()
  else .error (.error .errParam ("ADC overdrive: ".toList ++ s.describeOverdrive A estimate amplitude
    ++ "; BOARD:ADC:PROTECT OFF overrides".toList))

/-- The flag `_updateAdcOverdriveEstimate` computes. -/
def overdriven : Bool :=
  let estimate := s.estimateAdcLoop A s.lastExcitationAmplitude
  estimate.active && adcFullScale < estimate.peak

/-- `_updateAdcOverdriveEstimate` -/
def updateAdcOverdriveEstimate : CommandHandler :=
  { s with status.adcOverdrive := s.overdriven A }

/-- `_buildOverdriveSuffix`, on the updated estimate. -/
def overdriveSuffix : Text :=
  if s.overdriven A then
    " WARN: ".toList ++ s.describeOverdrive A (s.estimateAdcLoop A s.lastExcitationAmplitude)
      s.lastExcitationAmplitude
  else []

end Monitor

/-! ### The worst input -/

section WorstInput

variable {A : Arithmetic} {s : CommandHandler} {amplitude : ℚ}

theorem worseInput_spec (estimate : AdcLoopEstimate) (channel : Channel) :
    (s.worseInput A amplitude estimate channel).exciteChannel = estimate.exciteChannel ∧
      estimate.peak ≤ (s.worseInput A amplitude estimate channel).peak ∧
      s.loopPeak A amplitude estimate.exciteChannel channel
        ≤ (s.worseInput A amplitude estimate channel).peak := by
  unfold worseInput
  by_cases h : estimate.peak ≤ s.loopPeak A amplitude estimate.exciteChannel channel
  · rw [if_pos h]
    exact ⟨rfl, h, le_refl _⟩
  · rw [if_neg h]
    exact ⟨rfl, le_refl _, le_of_lt (not_le.1 h)⟩

theorem foldl_worseInput_spec (channels : List Channel) (estimate : AdcLoopEstimate) :
    estimate.peak ≤ (channels.foldl (s.worseInput A amplitude) estimate).peak ∧
      ∀ channel ∈ channels, s.loopPeak A amplitude estimate.exciteChannel channel
        ≤ (channels.foldl (s.worseInput A amplitude) estimate).peak := by
  induction channels generalizing estimate with
  | nil => exact ⟨le_refl _, by simp⟩
  | cons channel channels ih =>
      obtain ⟨hex, hle, hch⟩ := @worseInput_spec A s amplitude estimate channel
      obtain ⟨hpeak, hall⟩ := ih (s.worseInput A amplitude estimate channel)
      rw [hex] at hall
      refine ⟨hle.trans hpeak, ?_⟩
      intro c hc
      rcases List.mem_cons.1 hc with rfl | hc
      · exact hch.trans hpeak
      · exact hall c hc

theorem foldl_worseInput_active (channels : List Channel) (estimate : AdcLoopEstimate) :
    (channels.foldl (s.worseInput A amplitude) estimate).active = estimate.active := by
  induction channels generalizing estimate with
  | nil => rfl
  | cons channel channels ih =>
      rw [List.foldl_cons, ih]
      unfold worseInput
      by_cases h : estimate.peak ≤ s.loopPeak A amplitude estimate.exciteChannel channel
      · rw [if_pos h]
      · rw [if_neg h]

/-- **With the routing unknown** the estimate covers every input. -/
theorem loopPeak_le_of_unknown (hmode : s.status.loopMode = .auto)
    (hboard : s.status.boardConnected = true) (hunknown : s.muxRoutingKnown adcLinkOutput = false)
    (channel : Channel) :
    s.loopPeak A amplitude dacLinkInput channel ≤ (s.estimateAdcLoop A amplitude).peak := by
  have hestimate : s.estimateAdcLoop A amplitude = (List.finRange 4).foldl (s.worseInput A amplitude)
      { active := true, returnKnown := false, exciteChannel := dacLinkInput } := by
    simp [estimateAdcLoop, hmode, hboard, hunknown]
  rw [hestimate]
  exact (foldl_worseInput_spec _ _).2 channel (List.mem_finRange channel)

/-- In automatic mode the monitor of a connected board is active. -/
theorem estimateAdcLoop_active (hmode : s.status.loopMode = .auto)
    (hboard : s.status.boardConnected = true) : (s.estimateAdcLoop A amplitude).active = true := by
  unfold estimateAdcLoop
  simp only [hmode, hboard]
  by_cases hknown : s.muxRoutingKnown adcLinkOutput = false
  · simp [hknown, foldl_worseInput_active]
  · by_cases h : s.muxRouting adcLinkOutput < 4 <;> simp [hknown, h]

/-- With the input known the estimate is its peak. -/
theorem peak_of_known (hmode : s.status.loopMode = .auto)
    (hboard : s.status.boardConnected = true) (hknown : s.muxRoutingKnown adcLinkOutput = true)
    {channel : Channel} (hroute : s.muxRouting adcLinkOutput = channel) :
    (s.estimateAdcLoop A amplitude).peak = s.loopPeak A amplitude dacLinkInput channel := by
  have hlt : s.muxRouting adcLinkOutput < 4 := by
    rw [hroute]
    exact channel.isLt
  have hfin : (⟨s.muxRouting adcLinkOutput, hlt⟩ : Channel) = channel := Fin.ext hroute
  simp [estimateAdcLoop, hmode, hboard, hknown, hlt, hfin]

end WorstInput

/-! ### The board cache -/

variable (s : CommandHandler)

/-- `_resetBoardCache` -/
def resetBoardCache : CommandHandler :=
  { s with
    channelGains := fun _ => .gain1
    muxRouting := fun _ => disconnected
    muxRoutingKnown := fun _ => true }

/-- The seed of `_refreshBoardCacheFromBoard`: unknown gain is x16, unknown routing the worst
input. -/
def seedBoardCache : CommandHandler :=
  { s with
    channelGains := fun _ => .gain16
    muxRoutingKnown := fun _ => false }

/-- The gains `_refreshBoardCacheFromBoard` takes over. -/
def takeGains (gains : Channel → GainSetting × Bool) : CommandHandler :=
  { s with channelGains := fun i => if (gains i).2 then (gains i).1 else .gain16 }

/-- The routing `_refreshBoardCacheFromBoard` takes over. -/
def takeRouting (routing : Channel → ℕ × Bool) : CommandHandler :=
  { s with
    muxRouting := fun i => (routing i).1
    muxRoutingKnown := fun i => (routing i).2 }

/-- `_refreshBoardCacheFromStatus`: what does not parse keeps its cached value. -/
def refreshFromStatus (statusText : Text) : Except StringScan.Misuse CommandHandler := do
  let gains ← Board.parseGainStatus statusText numChannels
  let routing ← Board.parseRoutingStatus statusText numChannels
  let gain (i : Channel) : Option GainSetting := gains.bind fun out => (out[i.val]?).join
  let route (i : Channel) : Option ℕ := routing.bind fun out => (out[i.val]?).join
  pure { s with
    channelGains := fun i => (gain i).getD (s.channelGains i)
    muxRouting := fun i => (route i).getD (s.muxRouting i)
    muxRoutingKnown := fun i => (route i).isSome || s.muxRoutingKnown i }

end CommandHandler

end Afm
