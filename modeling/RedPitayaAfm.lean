import RedPitayaAfm.Effect
import RedPitayaAfm.Lines
import RedPitayaAfm.Clocked
import RedPitayaAfm.BinaryFloat
import RedPitayaAfm.Arithmetic
import RedPitayaAfm.Text
import RedPitayaAfm.LineBuffer
import RedPitayaAfm.Protocol
import RedPitayaAfm.TcpServer
import RedPitayaAfm.PyText
import RedPitayaAfm.AfmClient
import RedPitayaAfm.ClientLink
import RedPitayaAfm.WireFormat
import RedPitayaAfm.ClientSession
import RedPitayaAfm.MeasureCtrl
import RedPitayaAfm.PsPlInterface
import RedPitayaAfm.MeasureRun
import RedPitayaAfm.Averaging
import RedPitayaAfm.Board
import RedPitayaAfm.BoardProtocol
import RedPitayaAfm.StringScan
import RedPitayaAfm.BoardStatus
import RedPitayaAfm.BoardUart
import RedPitayaAfm.BoardLink
import RedPitayaAfm.SignalProcessing
import RedPitayaAfm.InputSafety
import RedPitayaAfm.HandlerState
import RedPitayaAfm.HandlerArgs
import RedPitayaAfm.CommandHandler
import RedPitayaAfm.HandlerRuns
import RedPitayaAfm.HandlerRejects
import RedPitayaAfm.OverdriveBound
import RedPitayaAfm.OverdriveRuns
import RedPitayaAfm.HandlerLifecycle
import RedPitayaAfm.OverdriveAdvice
import RedPitayaAfm.SweepGrid
import RedPitayaAfm.Spectra
import RedPitayaAfm.CommandLine
import RedPitayaAfm.CString
import RedPitayaAfm.MuxControl
import RedPitayaAfm.PinGlitches
import RedPitayaAfm.CommandParser
import RedPitayaAfm.BoardGrammar
import RedPitayaAfm.StackContents
import RedPitayaAfm.StatusText
import RedPitayaAfm.BoardCable
import RedPitayaAfm.BoardCache
import RedPitayaAfm.StatusLines
import RedPitayaAfm.StatusFormat
import RedPitayaAfm.BoardReplies
import RedPitayaAfm.LeastSquares
import RedPitayaAfm.SineFit
import RedPitayaAfm.DacCodec
import RedPitayaAfm.Excitation
import RedPitayaAfm.ArrayScan
import RedPitayaAfm.PeakDetection
import RedPitayaAfm.QueryEffects
import RedPitayaAfm.GuiMeasure
import RedPitayaAfm.BusAccess
import RedPitayaAfm.RedPitayaHardware
import RedPitayaAfm.MeasureSession
import RedPitayaAfm.Handles
import RedPitayaAfm.DriverHandles
import RedPitayaAfm.HandlerHandles
import RedPitayaAfm.ServerLoop
import RedPitayaAfm.ServerConnections
import RedPitayaAfm.SignalPath
import RedPitayaAfm.SignalSession
import RedPitayaAfm.GuiCommands
import RedPitayaAfm.ServerReplies
import RedPitayaAfm.RemoteCalls
import RedPitayaAfm.RemoteBoard
import RedPitayaAfm.FftPlan
import RedPitayaAfm.BoardPrint
import RedPitayaAfm.Schematic
