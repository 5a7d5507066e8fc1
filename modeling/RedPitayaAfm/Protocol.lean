/-
**The SCPI protocol of the server.**

Command lines and replies as `cpp/Server/Protocol.h` defines them: the command table with its
keywords and argument counts, the parser of a command line, and the builders of the reply shapes.
A reply is one line `OK …` or `ERR_…`, or a header line that announces a block of text lines or of
spectrum rows.

Main definitions:

* `Afm.Command`, `Afm.commandList` — the commands, and for each its keyword and argument count;
* `Afm.ParsedCommand`, `Afm.parseLine` — a parsed command line and the parser;
* `Afm.buildOkResponse`, `Afm.buildErrorResponse`, `Afm.buildTextResponse`,
  `Afm.buildSpectrumResponse` — the reply builders;
* `Afm.Reply`, `Afm.Reply.render` — a reply as the handler builds it, and its bytes.

Main results:

* `Afm.parseCommand_commandToString` — the parser knows every keyword of the table.
-/

import RedPitayaAfm.Text

set_option relaxedAutoImplicit false
set_option autoImplicit false

namespace Afm

/-! ### Server configuration -/

namespace ServerConfig

/-- `RECV_BUFFER_SIZE`. -/
def recvBufferSize : ℕ := 4096

/-- `IDLE_TIMEOUT_SEC`: one hour. -/
def idleTimeoutSec : ℕ := 3600

/-- `ADC_SAMPLE_RATE_HZ`. -/
def adcSampleRateHz : ℚ := 125000000

/-- `MAX_SWEEP_POINTS`. -/
def maxSweepPoints : ℕ := 4096

end ServerConfig

/-! ### Commands -/

/-- `enum class Command`. -/
inductive Command
  | idn | rst | opc
  | systPing | systVersion | systStatus | systInit | systDeinit | systMode | systShutdown
  | boardMuxRoute | boardMuxDisconnect | boardGain | boardAdcLoop | boardAdcProtect
  | boardAdcSampleGain | boardReset | boardStatus
  | measSinc | measSweep
  | unknown
  deriving DecidableEq, Repr

/-- `AFM_COMMAND_LIST`: command, keyword, largest number of arguments. -/
def commandList : List (Command × Text × ℕ) :=
  [(.idn, "*IDN".toList, 0),
   (.rst, "*RST".toList, 0),
   (.opc, "*OPC".toList, 0),
   (.systPing, "SYSTEM:PING".toList, 0),
   (.systVersion, "SYSTEM:VERSION".toList, 0),
   (.systStatus, "SYSTEM:STATUS".toList, 0),
   (.systInit, "SYSTEM:INIT".toList, 0),
   (.systDeinit, "SYSTEM:DEINIT".toList, 0),
   (.systMode, "SYSTEM:MODE".toList, 0),
   (.systShutdown, "SYSTEM:SHUTDOWN".toList, 0),
   (.boardMuxRoute, "BOARD:MUX:ROUTE".toList, 2),
   (.boardMuxDisconnect, "BOARD:MUX:DISCONNECT".toList, 1),
   (.boardGain, "BOARD:GAIN".toList, 2),
   (.boardAdcLoop, "BOARD:ADC:LOOP".toList, 2),
   (.boardAdcProtect, "BOARD:ADC:PROTECT".toList, 1),
   (.boardAdcSampleGain, "BOARD:ADC:SAMPLEGAIN".toList, 1),
   (.boardReset, "BOARD:RESET".toList, 0),
   (.boardStatus, "BOARD:STATUS".toList, 0),
   (.measSinc, "MEASURE:SINC".toList, 5),
   (.measSweep, "MEASURE:SWEEP".toList, 5)]

/-- `parseCommand`: case-insensitive lookup of a keyword without its `?`. -/
def parseCommand (cmdStr : Text) : Command :=
  match commandList.find? fun e => e.2.1 == upper cmdStr with
  | some e => e.1
  | none => .unknown

/-- `commandToString`. -/
def commandToString (cmd : Command) : Text :=
  match commandList.find? fun e => e.1 == cmd with
  | some e => e.2.1
  | none => "UNKNOWN".toList

/-- `maxArgCount`. -/
def maxArgCount (cmd : Command) : ℕ :=
  match commandList.find? fun e => e.1 == cmd with
  | some e => e.2.2
  | none => 0

/-- The parser knows every keyword of the table. -/
theorem parseCommand_commandToString (cmd : Command) : parseCommand (commandToString cmd) = cmd := by
  cases cmd <;> decide

/-- `enum class OperatingMode`. -/
inductive OperatingMode
  | full | rpOnly
  deriving DecidableEq, Repr

/-- `operatingModeToString`. -/
def operatingModeToString : OperatingMode → Text
  | .rpOnly => "RP_ONLY".toList
  | .full => "FULL".toList

/-! ### Parsed commands -/

/-- `struct ParsedCommand`. -/
structure ParsedCommand where
  /-- The command. -/
  command : Command := .unknown
  /-- True when the keyword ended with `?`. -/
  isQuery : Bool := false
  /-- Comma-separated arguments. -/
  args : List Text := []
  /-- The line as received. -/
  rawLine : Text := []
  deriving DecidableEq

namespace ParsedCommand

/-- `getArgInt`. -/
def getArgInt (cmd : ParsedCommand) (index : ℕ) : Option ℤ := cmd.args[index]?.bind fromChars

/-- `getArgFloat`: a finite decimal number; hexadecimal floats are not accepted. -/
def getArgFloat (A : Arithmetic) (cmd : ParsedCommand) (index : ℕ) : Option ℚ :=
  cmd.args[index]?.bind fun s => if s.isEmpty || s.any (fun c => c == 'x' || c == 'X') then none
    else strtof A s

/-- `getArgString`. -/
def getArgString (cmd : ParsedCommand) (index : ℕ) : Option Text := cmd.args[index]?

end ParsedCommand

/-- The characters `trim` removes. -/
def isBlank (c : Char) : Bool := c == ' ' || c == '\t' || c == '\r' || c == '\n'

/-- `trim`: without leading and trailing whitespace. -/
def trim (s : Text) : Text := ((s.dropWhile isBlank).reverse.dropWhile isBlank).reverse

/-- `parseLine`: keyword up to the first space or tab, then comma-separated arguments.  Empty
arguments are kept so that positions never shift. -/
def parseLine (rawLine : Text) : ParsedCommand :=
  let line := trim rawLine
  let (word, tail) := line.span fun c => !(c == ' ' || c == '\t')
  let argPortion := trim (tail.drop 1)
  let isQuery := word.getLast? == some '?'
  let keyword := if isQuery then word.dropLast else word
  { command := parseCommand keyword
    isQuery := isQuery
    args := if argPortion.isEmpty then [] else (argPortion.splitOn ',').map trim
    rawLine := rawLine }

/-! ### Replies -/

/-- `enum class ResponseStatus`. -/
inductive ResponseStatus
  | ok | errSyntax | errParam | errHardware | errNotInit | errTimeout | errAborted | errUnknown
  deriving DecidableEq, Repr

/-- `statusToString`. -/
def statusToString : ResponseStatus → Text
  | .ok => "OK".toList
  | .errSyntax => "ERR_SYNTAX".toList
  | .errParam => "ERR_PARAM".toList
  | .errHardware => "ERR_HARDWARE".toList
  | .errNotInit => "ERR_NOT_INIT".toList
  | .errTimeout => "ERR_TIMEOUT".toList
  | .errAborted => "ERR_ABORTED".toList
  | .errUnknown => "ERR_UNKNOWN".toList

/-- `buildOkResponse`. -/
def buildOkResponse (data : Text) : Text :=
  if data.isEmpty then "OK\n".toList else "OK ".toList ++ data ++ ['\n']

/-- `buildErrorResponse`. -/
def buildErrorResponse (status : ResponseStatus) (message : Text) : Text :=
  statusToString status ++ (if message.isEmpty then [] else ": ".toList ++ message) ++ ['\n']

/-- `struct SpectrumPoint`. -/
structure SpectrumPoint where
  /-- Frequency of the bin or sweep point. -/
  freqKHz : ℚ
  /-- Magnitude of the response. -/
  magnitude : ℚ
  /-- Phase of the response. -/
  phaseRad : ℚ
  deriving DecidableEq

/-- How the three columns of a spectrum row are printed. -/
structure RowFormat where
  /-- First column. -/
  freqKHz : ℚ → Text
  /-- Second column. -/
  magnitude : ℚ → Text
  /-- Third column. -/
  phaseRad : ℚ → Text

/-- The formats `buildSpectrumResponse` selects on its stream. -/
def RowFormat.ostream : RowFormat where
  freqKHz := fixed 3
  magnitude := scientific 6
  phaseRad := fixed 6

/-- One row of a spectrum, without its newline. -/
def RowFormat.row (fmt : RowFormat) (pt : SpectrumPoint) : Text :=
  fmt.freqKHz pt.freqKHz ++ [','] ++ fmt.magnitude pt.magnitude ++ [','] ++ fmt.phaseRad pt.phaseRad

/-- The rows of a spectrum, each with its newline. -/
def spectrumPayload (fmt : RowFormat) (spectrum : List SpectrumPoint) : Text :=
  spectrum.flatMap fun pt => fmt.row pt ++ ['\n']

/-- `buildSpectrumResponse`: `OK DATA <rows> <bytes>`, then the rows. -/
def buildSpectrumResponse (fmt : RowFormat) (spectrum : List SpectrumPoint) : Text :=
  "OK DATA ".toList ++ toText spectrum.length ++ [' ']
    ++ toText (spectrumPayload fmt spectrum).length ++ ['\n'] ++ spectrumPayload fmt spectrum

/-- The lines of a text block: split at newlines, carriage returns dropped. -/
def textLines (text : Text) : List Text :=
  (text.splitOn '\n').map fun line => line.filter (· != '\r')

/-- `buildTextResponse`: `OK LINES <n>`, then the lines. -/
def buildTextResponse (text : Text) : Text :=
  "OK LINES ".toList ++ toText (textLines text).length ++ ['\n']
    ++ (textLines text).flatMap (· ++ ['\n'])

/-- `VersionInfo::toString`. -/
def versionText : Text := toText 2 ++ ['.'] ++ toText 11 ++ ['.'] ++ toText 0

/-- A reply of the handler: the builder it calls with its arguments. -/
inductive Reply
  | ok (data : Text)
  | error (status : ResponseStatus) (message : Text)
  | text (body : Text)
  | spectrum (points : List SpectrumPoint)
  deriving DecidableEq

/-- The bytes of a reply. -/
def Reply.render : Reply → Text
  | .ok data => buildOkResponse data
  | .error status message => buildErrorResponse status message
  | .text body => buildTextResponse body
  | .spectrum points => buildSpectrumResponse .ostream points

/-- The status a reply starts with. -/
def Reply.status : Reply → ResponseStatus
  | .error status _ => status
  | _ => .ok

end Afm
