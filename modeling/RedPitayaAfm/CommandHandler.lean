/-
**The command handler.**

`CommandHandler::handleCommand` carries out one parsed command.  Its model is a method over the
calls of the two devices: the checks of the arguments come first, then what the command does.

Main definitions:

* `Afm.CommandHandler.hardwareCall`, `Afm.CommandHandler.boardCall` — calls through a pointer;
* `Afm.CommandHandler.handleSystInit`, `Afm.CommandHandler.handleMeasSinc` and the other commands;
* `Afm.CommandHandler.handleCommand` — the dispatch.
-/

import RedPitayaAfm.HandlerArgs
import RedPitayaAfm.BoardProtocol

set_option relaxedAutoImplicit false
set_option autoImplicit false

namespace Afm

namespace CommandHandler

open Effect BinaryFloat

/-! ### Calls -/

/-- A reply that may be an exception. -/
def orThrow {α : Type} : Except Text α → Method α
  | .ok a => pure a
  | .error what => Act.throw (.thrown what)

/-- Call a method of `m_hardware`. -/
def hardwareCall (c : HardwareCall) : Method c.Result := do
  let s ← Act.get
  if s.hardware then do
    let reply : Except Text c.Result ← Act.call (I := server) (.hardware c)
    orThrow reply
  else Act.throw .nullPointer

/-- Call a method of `m_board`. -/
def boardCall (c : BoardCall) : Method c.Result := do
  let s ← Act.get
  if s.board then do
    let reply : Except Text c.Result ← Act.call (I := server) (.board c)
    orThrow reply
  else Act.throw .nullPointer

/-- `m_hardware->resetMeasurement()` -/
def resetMeasurement : Method Unit := do
  let s ← Act.get
  if s.hardware then do
    let _ ← Act.call (I := server) .resetMeasurement
    pure ()
  else Act.throw .nullPointer

/-- `m_hardware = m_hardwareFactory()` -/
def makeHardware : Method Unit := do
  let reply : Except Text Bool ← Act.call (I := server) .hardwareFactory
  let made ← orThrow reply
  Act.modify fun s => { s with hardware := made }

/-- `m_board = m_boardFactory()` -/
def makeBoard : Method Unit := do
  let reply : Except Text Bool ← Act.call (I := server) .boardFactory
  let made ← orThrow reply
  Act.modify fun s => { s with board := made }

/-- `m_hardware.reset()` -/
def deleteHardware : Method Unit := do
  let s ← Act.get
  if s.hardware then do
    Act.call (I := server) .deleteHardware
    Act.modify fun s => { s with hardware := false }

/-- Clean up and release the hardware, where there is one. -/
def releaseHardware : Method Unit := do
  let s ← Act.get
  if s.hardware then do
    Act.call (I := server) .cleanup
    deleteHardware

/-- Close and release the board, where there is one. -/
def releaseBoard : Method Unit := do
  let s ← Act.get
  if s.board then do
    Act.call (I := server) .closeBoard
    Act.call (I := server) .deleteBoard
    Act.modify fun s => { s with board := false }

/-- `steady_clock::now` -/
def now : Method ℤ := Act.call (I := server) .now

/-- The error reply to a board command that failed. -/
def boardError : Method Reply := do
  let lastError ← boardCall .getLastError
  pure (.error .errHardware lastError)

/-- Carry out what passed the checks; what did not is the reply. -/
def checked {α : Type} (check : CommandHandler → Except Reply α) (body : α → Method Reply) :
    Method Reply := do
  let s ← Act.get
  match check s with
  | .error reply => pure reply
  | .ok a => body a

/-- A reply with the overdrive warning behind it. -/
def okWithSuffix (A : Arithmetic) (data : Text) : Method Reply := do
  Act.modify fun s => s.updateAdcOverdriveEstimate A
  let s ← Act.get
  pure (.ok (data ++ s.overdriveSuffix A))

/-- `_buildOkWithOverdriveWarning` -/
def okWithWarning (A : Arithmetic) : Method Reply := do
  Act.modify fun s => s.updateAdcOverdriveEstimate A
  let s ← Act.get
  pure (.ok ((s.overdriveSuffix A).drop 1))

/-! ### Common commands -/

/-- `_handleIdn` -/
def handleIdn : Method Reply := pure (.ok ("RedPitaya,AFM_SERVER,".toList ++ versionText))

/-- `_handleRst` -/
def handleRst : Method Reply := do
  releaseHardware
  releaseBoard
  Act.modify fun s =>
    { s.resetBoardCache with
      signalGen := none
      fftProcessor := none
      lastExcitationAmplitude := 1
      status := { mode := s.status.mode } }
  pure (.ok [])

/-- `_handleOpc` -/
def handleOpc : Method Reply := pure (.ok "1".toList)

/-! ### SYSTEM commands -/

/-- `_handleSystPing` -/
def handleSystPing : Method Reply := pure (.ok "PONG".toList)

/-- `_handleSystVersion` -/
def handleSystVersion : Method Reply := pure (.ok ("AFM_SERVER ".toList ++ versionText))

/-- `_handleSystMode` -/
def handleSystMode : Method Reply := do
  let s ← Act.get
  pure (.ok (operatingModeToString s.status.mode))

/-- A flag as the status prints it. -/
def flagText (flag : Bool) : Text := if flag then ['1'] else ['0']

/-- The monitored loop as the status prints it. -/
def loopText (loop : AdcLoopEstimate) : Text :=
  if loop.active then
    toText (loop.exciteChannel + 1) ++ [','] ++
      (if loop.returnOpen then ['X']
       else if !loop.returnKnown then ['?']
       else toText (loop.returnChannel + 1))
  else "OFF".toList

/-- The text of `_handleSystStatus`. -/
def statusText (A : Arithmetic) (s : CommandHandler) : Text :=
  "HW_INIT=".toList ++ flagText s.status.hardwareInitialized
    ++ " BOARD=".toList ++ flagText s.status.boardConnected
    ++ " BUSY=".toList ++ flagText s.status.measurementInProgress
    ++ " DEC=".toList ++ toText s.status.currentDecimation
    ++ " MODE=".toList ++ operatingModeToString s.status.mode
    ++ " LOOP=".toList ++ loopText (s.estimateAdcLoop A s.lastExcitationAmplitude)
    ++ " OVERDRIVE=".toList ++ flagText s.status.adcOverdrive
    ++ " SAT=".toList ++ flagText s.status.adcSaturated
    ++ " PROTECT=".toList ++ flagText s.status.adcProtectEnabled
    ++ " SAMPLEGAIN=".toList ++ general 6 s.status.adcSampleGain

/-- `_handleSystStatus` -/
def handleSystStatus (A : Arithmetic) : Method Reply := do
  Act.modify fun s => s.updateAdcOverdriveEstimate A
  let s ← Act.get
  pure (.ok (s.statusText A))

/-- `!m_hardware || !m_hardware->initialize()`, on new hardware. -/
def openHardware : Method Bool := do
  makeHardware
  let s ← Act.get
  if s.hardware then hardwareCall .initializeHardware else pure false

/-- `!m_board || !m_board->initialize()`, on a new board. -/
def openBoard : Method Bool := do
  makeBoard
  let s ← Act.get
  if s.board then boardCall .initializeBoard else pure false

/-- The part of `_handleSystInit` that finds out whether the board is there. -/
def connectBoard : Method Unit := do
  let s ← Act.get
  if s.status.mode = .rpOnly then
    Act.modify fun s => { s with status.boardConnected := false }
  else do
    let connected ← openBoard
    Act.modify fun s => { s with status.boardConnected := connected }

/-- The gains that `_refreshBoardCacheFromBoard` reads. -/
def readGains : Method Unit := do
  match ← boardCall .queryGains with
  | some gains => Act.modify fun s => s.takeGains gains
  | none => pure ()

/-- The routing that `_refreshBoardCacheFromBoard` reads. -/
def readRouting : Method Unit := do
  match ← boardCall .queryRouting with
  | some routing => Act.modify fun s => s.takeRouting routing
  | none => pure ()

/-- `_refreshBoardCacheFromBoard`: what cannot be read counts as the worst case. -/
def refreshBoardCacheFromBoard : Method Unit := do
  Act.modify seedBoardCache
  let s ← Act.get
  if s.board then do
    readGains
    readRouting
  else pure ()

/-- The cache follows the board, where one is connected. -/
def refreshIfConnected : Method Unit := do
  let s ← Act.get
  if s.status.boardConnected then refreshBoardCacheFromBoard else pure ()

/-- A new signal generator. -/
def makeSignalGen (decimation : ℕ) : Method Unit :=
  match SignalGenerator.make (ServerConfig.adcSampleRateHz / decimation) decimation with
  | .ok g => Act.modify fun s => { s with signalGen := some g }
  | .error what => Act.throw (.thrown what)

/-- A new FFT processor. -/
def makeFftProcessor (samplingFrequency : ℚ) : Method Unit :=
  match FFTProcessor.make samplingFrequency with
  | .ok p => Act.modify fun s => { s with fftProcessor := some p }
  | .error what => Act.throw (.thrown what)

/-- The reply of `_handleSystInit`. -/
def initReply (s : CommandHandler) : Reply :=
  if s.status.mode = .rpOnly then
    .ok "Red Pitaya OK, Board DISABLED (RP-only mode)".toList
  else
    .ok ("Red Pitaya OK, Board ".toList ++
      (if s.status.boardConnected then "OK".toList else "NOT CONNECTED".toList))

/-- `_handleSystInit` with the hardware running: the board and the signal chain. -/
def prepareInit : Method Unit := do
  connectBoard
  let decimation ← hardwareCall .getDecimation
  Act.modify fun s => { s with status.currentDecimation := decimation }
  makeSignalGen decimation

/-- The rest of `_handleSystInit`: the cache. -/
def finishInit : Method Reply := do
  prepareInit
  refreshIfConnected
  Act.modify fun s => { s with status.hardwareInitialized := true }
  let s ← Act.get
  pure s.initReply

/-- `_handleSystInit` -/
def handleSystInit : Method Reply := do
  let s ← Act.get
  if s.status.hardwareInitialized then pure (.ok "Already initialized".toList)
  else
    match ← openHardware with
    | false => do
        deleteHardware
        pure (errorReply .errHardware "Failed to initialize Red Pitaya")
    | true => finishInit

/-- `_handleSystDeinit` -/
def handleSystDeinit : Method Reply := do
  let s ← Act.get
  if s.status.hardwareInitialized then do
    releaseHardware
    releaseBoard
    Act.modify fun s =>
      { s with
        signalGen := none
        status.hardwareInitialized := false
        status.boardConnected := false
        status.adcOverdrive := false
        status.adcSaturated := false
        status.adcSaturationRatio := 0 }
    pure (.ok "Hardware deinitialized".toList)
  else pure (.ok "Not initialized".toList)

/-! ### BOARD commands -/

/-- `m_muxRouting[output] = input`, known from now on. -/
def setRouting (s : CommandHandler) (output : Channel) (input : ℕ) : CommandHandler :=
  { s with
    muxRouting := Function.update s.muxRouting output input
    muxRoutingKnown := Function.update s.muxRoutingKnown output true }

/-- `m_channelGains[channel] = gain` -/
def setChannelGain (s : CommandHandler) (channel : Channel) (gain : GainSetting) :
    CommandHandler :=
  { s with channelGains := Function.update s.channelGains channel gain }

/-- How the cache follows a setting of the board.  The firmware sets all gains back to x1 and
disconnects the mux on a reset. -/
def follow (s : CommandHandler) : BoardSetting → CommandHandler
  | .setMuxRoute output input => s.setRouting output input
  | .disconnectMux output => s.setRouting output disconnected
  | .setGain channel gain => s.setChannelGain channel gain
  | .reset => s.resetBoardCache

/-- A board command: the cache follows only when the board has confirmed it. -/
def boardCommand (c : BoardSetting) (done : Method Reply) : Method Reply := do
  if ← boardCall (.set c) then do
    Act.modify fun s => s.follow c
    done
  else boardError

/-- `_handleBoardMuxRoute` -/
def handleBoardMuxRoute (A : Arithmetic) (cmd : ParsedCommand) : Method Reply :=
  checked (fun s => s.muxRouteArgs cmd) fun (output, input) =>
    boardCommand (.setMuxRoute output input) (okWithWarning A)

/-- `_handleBoardMuxDisconnect` -/
def handleBoardMuxDisconnect (A : Arithmetic) (cmd : ParsedCommand) : Method Reply :=
  checked (fun s => s.muxDisconnectArgs cmd) fun output =>
    boardCommand (.disconnectMux output) (okWithWarning A)

/-- `_handleBoardGain` -/
def handleBoardGain (A : Arithmetic) (cmd : ParsedCommand) : Method Reply :=
  checked (fun s => s.gainArgs cmd) fun (channel, gain) =>
    boardCommand (.setGain channel gain) (okWithSuffix A gain.label)

/-- `_handleBoardReset` -/
def handleBoardReset (A : Arithmetic) : Method Reply :=
  checked requireBoard fun _ =>
    boardCommand .reset (okWithSuffix A "Board reset complete".toList)

/-- `_handleBoardStatus` -/
def handleBoardStatus : Method Reply :=
  checked requireBoard fun _ => do
    match ← boardCall .getStatus with
    | none => boardError
    | some boardStatus => do
        let s ← Act.get
        match s.refreshFromStatus boardStatus with
        | .error m => Act.throw (.misuse m)
        | .ok s' => do
            Act.modify fun _ => s'
            pure (.text boardStatus)

/-! ### The ADC monitor -/

/-- What `BOARD:ADC:LOOP` asks for. -/
inductive LoopRequest
  | query
  | off
  | auto
  | manual (excite ret : Channel)

/-- The checks of `_handleBoardAdcLoop`. -/
def adcLoopArgs (s : CommandHandler) (cmd : ParsedCommand) : Except Reply LoopRequest := do
  s.requireBoard
  let usage := errorReply .errSyntax "Usage: BOARD:ADC:LOOP AUTO | <excite_ch>,<return_ch> | OFF"
  match cmd.args with
  | [] => if cmd.isQuery then pure .query else throw usage
  | [arg0] =>
      if upper arg0 = "OFF".toList then pure .off
      else if upper arg0 = "AUTO".toList then pure .auto
      else throw usage
  | _ => do
      let excite ← needed (cmd.getArgInt 0) usage
      let ret ← needed (cmd.getArgInt 1) usage
      let excite ← validateChannel1Based excite "excite_ch"
      let ret ← validateChannel1Based ret "return_ch"
      pure (.manual excite ret)

/-- A pair of channels as the loop commands print it. -/
def pairText (excite ret : Channel) : Text := toText (excite + 1) ++ [','] ++ toText (ret + 1)

/-- The configured loop mode. -/
def loopModeText (s : CommandHandler) : Text :=
  match s.status.loopMode with
  | .manual => pairText s.status.loopExciteChannel s.status.loopReturnChannel
  | .off => "OFF".toList
  | .auto => "AUTO".toList

/-- `_handleBoardAdcLoop` -/
def handleBoardAdcLoop (A : Arithmetic) (cmd : ParsedCommand) : Method Reply :=
  checked (fun s => s.adcLoopArgs cmd) fun
    | .query => do
        let s ← Act.get
        pure (.ok s.loopModeText)
    | .off => do
        Act.modify fun s => { s with status.loopMode := .off, status.adcOverdrive := false }
        pure (.ok "ADC loop monitor off".toList)
    | .auto => do
        Act.modify fun s => { s with status.loopMode := .auto }
        okWithSuffix A "AUTO".toList
    | .manual excite ret => do
        Act.modify fun s =>
          { s with
            status.loopExciteChannel := excite
            status.loopReturnChannel := ret
            status.loopMode := .manual }
        okWithSuffix A (pairText excite ret)

/-- The checks of `_handleBoardAdcProtect`: nothing to set in a query. -/
def adcProtectArgs (s : CommandHandler) (cmd : ParsedCommand) : Except Reply (Option Bool) := do
  s.requireBoard
  let usage := errorReply .errSyntax "Usage: BOARD:ADC:PROTECT ON | OFF"
  match cmd.args with
  | [] => if cmd.isQuery then pure none else throw usage
  | [arg0] =>
      if upper arg0 = "ON".toList then pure (some true)
      else if upper arg0 = "OFF".toList then pure (some false)
      else throw usage
  | _ => throw usage

/-- The protection as its commands print it. -/
def protectText (enabled : Bool) : Text := if enabled then "ON".toList else "OFF".toList

/-- `_handleBoardAdcProtect` -/
def handleBoardAdcProtect (A : Arithmetic) (cmd : ParsedCommand) : Method Reply :=
  checked (fun s => s.adcProtectArgs cmd) fun
    | none => do
        let s ← Act.get
        pure (.ok (protectText s.status.adcProtectEnabled))
    | some enabled => do
        Act.modify fun s => { s with status.adcProtectEnabled := enabled }
        okWithSuffix A (protectText enabled)

/-- The checks of `_handleBoardAdcSampleGain`: nothing to set in a query. -/
def adcSampleGainArgs (A : Arithmetic) (s : CommandHandler) (cmd : ParsedCommand) :
    Except Reply (Option ℚ) := do
  s.requireBoard
  let usage := errorReply .errSyntax "Usage: BOARD:ADC:SAMPLEGAIN <factor>"
  match cmd.args with
  | [] => if cmd.isQuery then pure none else throw usage
  | [_] => do
      let sampleGain ← needed (cmd.getArgFloat A 0) usage
      require (InputSafety.minSampleGain A ≤ sampleGain ∧ sampleGain ≤ InputSafety.maxSampleGain)
        (.error .errParam ("factor must be ".toList ++ general 6 (InputSafety.minSampleGain A)
          ++ " to ".toList ++ general 6 InputSafety.maxSampleGain))
      pure (some sampleGain)
  | _ => throw usage

/-- `_handleBoardAdcSampleGain` -/
def handleBoardAdcSampleGain (A : Arithmetic) (cmd : ParsedCommand) : Method Reply :=
  checked (fun s => s.adcSampleGainArgs A cmd) fun
    | none => do
        let s ← Act.get
        pure (.ok (general 6 s.status.adcSampleGain))
    | some sampleGain => do
        Act.modify fun s => { s with status.adcSampleGain := sampleGain }
        okWithSuffix A (general 6 sampleGain)

/-! ### Measurements -/

/-- `HardwareLimits::ACQUISITION_DELAY_SAMPLES` -/
def acquisitionDelaySamples : ℕ := 1

/-- `_trackExcitationAmplitude` -/
def trackExcitationAmplitude (s : CommandHandler) (amplitude : ℚ) : CommandHandler :=
  { s with
    lastExcitationAmplitude := amplitude
    status.adcSaturated := false
    status.adcSaturationRatio := 0 }

/-- `_applyDecimation`: whether the hardware took it. -/
def applyDecimation (decimation : ℕ) : Method Bool := do
  if ← hardwareCall (.setDecimation decimation) then do
    Act.modify fun s => { s with status.currentDecimation := decimation }
    makeSignalGen decimation
    makeFftProcessor (ServerConfig.adcSampleRateHz / decimation)
    pure true
  else pure false

/-- The loop of `_waitForMeasurement`. -/
def waitLoop (start timeoutMs : ℤ) : ℕ → Method Bool
  | 0 => Act.throw .running
  | rounds + 1 => do
      if ← hardwareCall .isMeasurementComplete then pure true
      else do
        let time ← now
        if timeoutMs ≤ Board.toMs (time - start) then pure false
        else do
          Act.call (I := server) (.sleep 10)
          waitLoop start timeoutMs rounds

/-- `_waitForMeasurement` -/
def waitForMeasurement (P : Platform) : Method Bool := do
  let start ← now
  let s ← Act.get
  waitLoop start s.measurementTimeoutMs P.rounds

/-- The constructor of `ScopedMeasurement`, what runs in its scope, and its destructor. -/
def scopedMeasurement {α : Type} (body : Method α) : Method α := do
  Act.modify fun s => { s with status.measurementInProgress := true }
  Act.withDestructor body do
    Act.modify fun s => { s with status.measurementInProgress := false }
    resetMeasurement

/-- Start a measurement, wait for it and read it: the samples, or which of the three failed. -/
inductive Acquisition (size : ℕ)
  | notStarted
  | timeout
  | notRead
  | samples (record : Fin size → ℚ)

/-- Start, wait and read, as both measurements do. -/
def acquire (P : Platform) (numSamples : ℕ) : Method (Acquisition numSamples) := do
  if ← hardwareCall (.startMeasurement numSamples acquisitionDelaySamples) then do
    if ← waitForMeasurement P then do
      match ← hardwareCall (.getAcquiredSignal numSamples) with
      | none => pure .notRead
      | some record => pure (.samples record)
    else pure .timeout
  else pure .notStarted

/-- `m_signalGen->…`: the pointer must be set. -/
def generate (signal : SignalGenerator ℚ → Except Text (List ℚ)) : Method (List ℚ) := do
  let s ← Act.get
  match s.signalGen with
  | none => Act.throw .nullPointer
  | some g => orThrow (signal g)

/-- `wrapPhase` -/
def wrapPhase (phaseRad : ℚ) : ℚ := phaseRad - 2 * cPi * roundHalfEven (phaseRad / (2 * cPi))

/-- The band of `_handleMeasSinc`, cut off at zero. -/
def inBand (A : Arithmetic) (a : SincArgs) (freq : ℚ) : Bool :=
  let lowFreq := A.double (a.centerHz - A.double (a.bandwidthHz / 2))
  let lowFreq := if lowFreq < 0 then 0 else lowFreq
  lowFreq ≤ freq && freq ≤ a.highFreq A

/-- What is added to the phase of a bin: the pulse sits at sample N/2 - delay of the record, and
its linear phase is removed. -/
def sincCorrection (numSamples bin : ℕ) : ℚ :=
  cPi * bin - 2 * cPi * bin * acquisitionDelaySamples / numSamples

/-- The point of a bin. -/
def sincPoint (A : Arithmetic) (numSamples i : ℕ) (freq magnitude phase : ℚ) : SpectrumPoint :=
  { freqKHz := A.single (A.double (freq / 1000))
    magnitude := magnitude
    phaseRad := wrapPhase (phase + sincCorrection numSamples i) }

/-- The points of the bins in the band. -/
def sincSpectrum (A : Arithmetic) (a : SincArgs) (axis magnitude phase : List ℚ) :
    List SpectrumPoint :=
  (List.range (min axis.length magnitude.length)).filterMap fun i =>
    if inBand A a (axis.getD i 0) then
      some (sincPoint A a.numSamples i (axis.getD i 0) (magnitude.getD i 0) (phase.getD i 0))
    else none

/-- The reply of `_handleMeasSinc` to a spectrum. -/
def sincReply (spectrum : List SpectrumPoint) : Reply :=
  if spectrum.isEmpty then errorReply .errParam "No frequency bins in specified range"
  else .spectrum spectrum

/-- The saturation of the last acquisition. -/
def setSaturation (s : CommandHandler) (saturation : SaturationReport ℚ) : CommandHandler :=
  { s with
    status.adcSaturated := saturation.saturated
    status.adcSaturationRatio := saturation.saturatedRatio }

/-- `m_fftProcessor->computeFFT`: the plan is made anew for records of another size. -/
def transform (P : Platform) (p : FFTProcessor ℚ) (record : List ℚ) : Method (List (ℚ × ℚ)) :=
  if record.isEmpty then Act.throw (.thrown "Input signal cannot be empty".toList)
  else if p.planSize = record.length then pure (computeFFT P.numerics record)
  else do
    let reply : Except Text Unit ← Act.call (I := server) (.planFft record.length)
    orThrow reply
    Act.modify fun s => { s with fftProcessor := some { p with planSize := record.length } }
    pure (computeFFT P.numerics record)

/-- What `_handleMeasSinc` makes of a record. -/
def analyzeSinc (P : Platform) (a : SincArgs) (record : List ℚ) : Method Reply := do
  Act.modify fun s => s.setSaturation (SaturationDetector.analyze record)
  let s ← Act.get
  match s.fftProcessor with
  | none => Act.throw .nullPointer
  | some p => do
      let bins ← transform P p (applyHannWindow P.numerics record)
      pure (sincReply (sincSpectrum P.arithmetic a (p.frequencyAxis P.arithmetic a.numSamples)
        (magnitudeSpectrum P.numerics bins) (phaseSpectrum P.numerics bins)))

/-- `_handleMeasSinc` in the scope of its measurement. -/
def runSinc (P : Platform) (a : SincArgs) : Method Reply := do
  match ← acquire P a.numSamples with
  | .notStarted => pure (errorReply .errHardware "Failed to start measurement")
  | .timeout => pure (errorReply .errTimeout "Measurement timeout")
  | .notRead => pure (errorReply .errHardware "Failed to read acquired data")
  | .samples record => analyzeSinc P a (List.ofFn record)

/-- `_handleMeasSinc` after its checks. -/
def measureSinc (P : Platform) (a : SincArgs) : Method Reply := do
  if ← applyDecimation a.decimation then do
    Act.modify fun s => s.trackExcitationAmplitude a.amplitude
    let signal ← generate fun g => g.generateSincSignal P.numerics a.numSamples ⌊a.centerHz⌋.toNat
      ⌊a.bandwidthHz⌋.toNat a.amplitude
    if ← hardwareCall (.loadGenerationSignal signal) then scopedMeasurement (runSinc P a)
    else pure (errorReply .errHardware "Failed to load signal to FPGA")
  else pure (errorReply .errHardware "Failed to set decimation")

/-- `_handleMeasSinc` -/
def handleMeasSinc (P : Platform) (cmd : ParsedCommand) : Method Reply :=
  checked (fun s => s.sincArgs P.arithmetic cmd) (measureSinc P)

/-- `sweepSamples` -/
def sweepSamples : ℕ := 8192

/-- The frequency of a point of the grid. -/
def sweepFrequency (A : Arithmetic) (a : SweepArgs) (point : ℕ) : ℚ :=
  min (A.double (a.startKHz + A.double (point * a.stepKHz))) a.stopKHz

/-- An error at a point of the sweep. -/
def sweepError (status : ResponseStatus) (message : String) (freqKHz : ℚ) : Reply :=
  .error status (message.toList ++ " at ".toList ++ fixed 6 freqKHz ++ " kHz".toList)

/-- The saturation seen so far in a sweep. -/
def addSaturation (s : CommandHandler) (saturation : SaturationReport ℚ) : CommandHandler :=
  { s with
    status.adcSaturated := s.status.adcSaturated || saturation.saturated
    status.adcSaturationRatio := max s.status.adcSaturationRatio saturation.saturatedRatio }

/-- The point of the sweep a record gives. -/
def sweepPoint (P : Platform) (samplingFreq freqKHz : ℚ) (record : List ℚ) : SpectrumPoint :=
  let omega := 2 * cPi * P.arithmetic.double (freqKHz * 1000) / samplingFreq
  let fit := SineFit.fit P.numerics record (sweepSamples - acquisitionDelaySamples) omega
  { freqKHz := P.arithmetic.single freqKHz
    magnitude := fit.1
    phaseRad := wrapPhase (fit.2 - omega * acquisitionDelaySamples) }

/-- The loop of `_handleMeasSweep` over the points still to be measured. -/
def sweepLoop (P : Platform) (a : SweepArgs) : List ℕ → List SpectrumPoint → Method Reply
  | [], spectrum => pure (.spectrum spectrum)
  | point :: points, spectrum => do
      let cancelled : Bool ← Act.call (I := server) .cancelCheck
      if cancelled then
        pure (.error .errAborted ("Sweep cancelled after ".toList ++ toText spectrum.length
          ++ " points".toList))
      else do
        let freqKHz := sweepFrequency P.arithmetic a point
        let signal ← generate fun g =>
          g.generateSineWave P.numerics sweepSamples (P.arithmetic.double (freqKHz * 1000))
            a.amplitude
        if ← hardwareCall (.loadGenerationSignal signal) then do
          match ← acquire P sweepSamples with
          | .notStarted => pure (sweepError .errHardware "Failed to start measurement" freqKHz)
          | .timeout => pure (sweepError .errTimeout "Measurement timeout" freqKHz)
          | .notRead => pure (sweepError .errHardware "Failed to read data" freqKHz)
          | .samples record => do
              Act.modify fun s => s.addSaturation (SaturationDetector.analyze (List.ofFn record))
              resetMeasurement
              sweepLoop P a points (spectrum ++
                [sweepPoint P (ServerConfig.adcSampleRateHz / a.decimation) freqKHz
                  (List.ofFn record)])
        else pure (sweepError .errHardware "Failed to load signal" freqKHz)

/-- `_handleMeasSweep` after its checks. -/
def measureSweep (P : Platform) (a : SweepArgs) : Method Reply := do
  if ← applyDecimation a.decimation then do
    Act.modify fun s => s.trackExcitationAmplitude a.amplitude
    scopedMeasurement
      (sweepLoop P a (List.range' a.firstPoint (a.numPoints - a.firstPoint)) [])
  else pure (errorReply .errHardware "Failed to set decimation")

/-- `_handleMeasSweep` -/
def handleMeasSweep (P : Platform) (cmd : ParsedCommand) : Method Reply :=
  checked (fun s => s.sweepArgs P.arithmetic cmd) (measureSweep P)

/-! ### Dispatch -/

/-- `_handleUnknown` -/
def handleUnknown (cmd : ParsedCommand) : Method Reply :=
  pure (.error .errSyntax ("Unknown command: ".toList ++ cmd.rawLine))

/-- The reply to a command with too many arguments. -/
def tooManyArgs (cmd : ParsedCommand) : Reply :=
  .error .errSyntax (commandToString cmd.command ++
    (if maxArgCount cmd.command = 0 then " takes no arguments".toList
     else " takes at most ".toList ++ toText (maxArgCount cmd.command) ++ " arguments".toList) ++
    (if cmd.command = .systMode then " (the mode is set at start-up with --no-board)".toList
     else []))

/-- The command itself. -/
def dispatch (P : Platform) (cmd : ParsedCommand) : Method Reply :=
  match cmd.command with
  | .idn => handleIdn
  | .rst => handleRst
  | .opc => handleOpc
  | .systPing => handleSystPing
  | .systVersion => handleSystVersion
  | .systStatus => handleSystStatus P.arithmetic
  | .systInit => handleSystInit
  | .systDeinit => handleSystDeinit
  | .systMode => handleSystMode
  | .boardMuxRoute => handleBoardMuxRoute P.arithmetic cmd
  | .boardMuxDisconnect => handleBoardMuxDisconnect P.arithmetic cmd
  | .boardGain => handleBoardGain P.arithmetic cmd
  | .boardAdcLoop => handleBoardAdcLoop P.arithmetic cmd
  | .boardAdcProtect => handleBoardAdcProtect P.arithmetic cmd
  | .boardAdcSampleGain => handleBoardAdcSampleGain P.arithmetic cmd
  | .boardReset => handleBoardReset P.arithmetic
  | .boardStatus => handleBoardStatus
  | .measSinc => handleMeasSinc P cmd
  | .measSweep => handleMeasSweep P cmd
  | .systShutdown => handleUnknown cmd
  | .unknown => handleUnknown cmd

/-- `handleCommand` -/
def handleCommand (P : Platform) (cmd : ParsedCommand) : Method Reply :=
  if cmd.command ≠ .unknown ∧ maxArgCount cmd.command < cmd.args.length then
    pure (tooManyArgs cmd)
  else dispatch P cmd

end CommandHandler

end Afm
