/-
**The server between two clients.**

`TCPServer::start` opens the listening socket and serves one client after the other, until someone
asks it to stop: a client with `SYST:SHUTDOWN`, or another thread with `stop`, at any moment.  The
functions are programs over the calls of the socket library; what they do on an open connection is
the program of `TcpServer.handleClient`, its calls carried out on the client's socket.

Main definitions:

* `Afm.ListenerCall`, `Afm.listener` — the calls;
* `Afm.TCPServer`, with the methods `Afm.TCPServer.start` and `Afm.TCPServer.stop`;
* `Afm.Host`, `Afm.host` — the environment: what each client has sent and received, whether the
  server was asked to stop, and the sockets that are open.

Main results:

* `Afm.TCPServer.keepsTidy_method` — a server that does not run has no socket open;
* `Afm.TCPServer.sockets_closed` — **no socket is lost**.
-/

import RedPitayaAfm.Handles
import RedPitayaAfm.TcpServer

set_option relaxedAutoImplicit false
set_option autoImplicit false

namespace Afm

open Effect

/-! ### Calls -/

/-- The options of a client socket, with the values they are given. -/
inductive SocketOption
  | rcvTimeo (seconds : ℕ)
  | sndTimeo (seconds : ℕ)
  | keepAlive (on : ℕ)
  | keepIdle (seconds : ℕ)
  | keepIntvl (seconds : ℕ)
  | keepCnt (count : ℕ)
  deriving DecidableEq

/-- What the server calls.  `m_shouldStop` is shared with other threads, so its accesses are
calls. -/
inductive ListenerCall
  | socket
  | setReuseAddr
  | bind (port : ℕ)
  | listen
  | select
  /-- `accept`: whether it returned a descriptor. -/
  | accept
  | setOption (option : SocketOption)
  | closeClient
  | closeServer
  | shouldStop
  | storeShouldStop (stop : Bool)
  /-- A call on the connection to the client, or one of the command handler. -/
  | client (c : TcpServer.Call)

/-- The socket library, and the other threads.  A call that fails reports the text of `errno`. -/
abbrev listener : Interface where
  Call := ListenerCall
  Reply
    | .socket => Except Text Unit
    | .setReuseAddr => Except Text Unit
    | .bind _ => Except Text Unit
    | .listen => Except Text Unit
    | .select => TcpServer.SelectResult
    | .accept => Bool
    | .setOption _ => Bool
    | .closeClient => Unit
    | .closeServer => Unit
    | .shouldStop => Bool
    | .storeShouldStop _ => Unit
    | .client c => TcpServer.socket.Reply c

/-! ### The server -/

/-- The fields of `TCPServer`.  Of the descriptors only whether they are open is known. -/
structure TCPServer where
  port : ℕ
  /-- `m_serverFd >= 0` -/
  serverOpen : Bool := false
  /-- `m_clientFd >= 0` -/
  clientOpen : Bool := false
  running : Bool := false
  /-- `m_commandHandler` is set. -/
  handlerSet : Bool := false
  lineBuffer : LineBuffer := { maxLength := ServerConfig.recvBufferSize * 4 }
  lastError : Text := []

/-- No exception of the source: a loop has not ended within the rounds given to it. -/
inductive StillRunning
  | running

namespace TCPServer

/-- A method of the server. -/
abbrev Method (α : Type) := Act listener TCPServer StillRunning α

/-- Report a failure. -/
def fail (message : Text) : Method Bool := do
  Act.modify fun s => { s with lastError := message }
  pure false

/-- `setCommandHandler` -/
def setCommandHandler : Method Unit := Act.modify fun s => { s with handlerSet := true }

/-- `_closeClient` -/
def closeClient : Method Unit := do
  let s ← Act.get
  if s.clientOpen then do
    Act.call (I := listener) .closeClient
    Act.modify fun s => { s with clientOpen := false }

/-- `_closeServer` -/
def closeServer : Method Unit := do
  let s ← Act.get
  if s.serverOpen then do
    Act.call (I := listener) .closeServer
    Act.modify fun s => { s with serverOpen := false }

/-- A step of `_initSocket` on the open socket: if it fails, the socket is closed. -/
def orCloseServer (message reason : Text) : Method Bool := do
  Act.modify fun s => { s with lastError := message ++ reason }
  closeServer
  pure false

/-- `_initSocket` -/
def initSocket : Method Bool := do
  let s ← Act.get
  let made : Except Text Unit ← Act.call (I := listener) .socket
  match made with
  | .error reason => fail ("Failed to create socket: ".toList ++ reason)
  | .ok () => do
      Act.modify fun s => { s with serverOpen := true }
      let reused : Except Text Unit ← Act.call (I := listener) .setReuseAddr
      match reused with
      | .error reason => orCloseServer "Failed to set SO_REUSEADDR: ".toList reason
      | .ok () => do
          let bound : Except Text Unit ← Act.call (I := listener) (.bind s.port)
          match bound with
          | .error reason =>
              orCloseServer ("Failed to bind to port ".toList ++ toText s.port ++ ": ".toList)
                reason
          | .ok () => do
              let listening : Except Text Unit ← Act.call (I := listener) .listen
              match listening with
              | .error reason => orCloseServer "Failed to listen: ".toList reason
              | .ok () => pure true

/-- What `_configureClientSocket` sets; an option that cannot be set is only logged. -/
def clientOptions : List SocketOption :=
  [.rcvTimeo 30, .sndTimeo 30, .keepAlive 1, .keepIdle 60, .keepIntvl 10, .keepCnt 6]

/-- The loop of `_configureClientSocket`. -/
def setOptions : List SocketOption → Method Unit
  | [] => pure ()
  | option :: options => do
      let _ ← Act.call (I := listener) (.setOption option)
      setOptions options

/-- `_configureClientSocket` -/
def configureClientSocket : Method Unit := setOptions clientOptions

/-- The calls of a connection, made by the server. -/
def onConnection : (c : TcpServer.Call) → Method (TcpServer.socket.Reply c)
  | .shouldStop => Act.call (I := listener) .shouldStop
  | .setShouldStop => Act.call (I := listener) (.storeShouldStop true)
  | c => Act.call (I := listener) (.client c)

/-- The greeting of a new client. -/
def welcome : Text := "AFM SCPI Server v".toList ++ versionText ++ " Ready\n".toList

/-- The end of `_acceptClient`: whether the greeting could be sent does not matter. -/
def greet (rounds : ℕ) : Method Unit := do
  match ← (TcpServer.sendToClient rounds welcome).handle onConnection with
  | some _ => pure ()
  | none => Act.throw .running

/-- `_acceptClient` -/
def acceptClient (rounds : ℕ) : Method Unit := do
  let result : TcpServer.SelectResult ← Act.call (I := listener) .select
  if result = .ready then do
    let accepted : Bool ← Act.call (I := listener) .accept
    Act.modify fun s => { s with clientOpen := accepted }
    if accepted then do
      configureClientSocket
      greet rounds

/-- `_handleClient` -/
def handleClient (rounds : ℕ) : Method Unit := do
  let s ← Act.get
  let (exit, lineBuffer) ← (TcpServer.handleClient rounds s.lineBuffer).handle onConnection
  Act.modify fun s => { s with lineBuffer := lineBuffer }
  if exit = .running then Act.throw .running else pure ()

/-- A round of the main loop, once it has been found that the server goes on. -/
def serveClient (rounds : ℕ) : Method Unit := do
  acceptClient rounds
  let s ← Act.get
  if s.clientOpen then do
    handleClient rounds
    closeClient

/-- The main loop, for at most so many rounds. -/
def mainLoop : ℕ → Method Unit
  | 0 => Act.throw .running
  | rounds + 1 => do
      let stop : Bool ← Act.call (I := listener) .shouldStop
      if stop then pure ()
      else do
        serveClient rounds
        mainLoop rounds

/-- What `start` does once the socket listens. -/
def run (rounds : ℕ) : Method Bool := do
  Act.modify fun s => { s with running := true }
  Act.call (I := listener) (.storeShouldStop false)
  mainLoop rounds
  closeServer
  Act.modify fun s => { s with running := false }
  pure true

/-- `start`, and what the thread of `startAsync` does. -/
def start (rounds : ℕ) : Method Bool := do
  let s ← Act.get
  if s.running then fail "Server already running".toList
  else if !s.handlerSet then fail "No command handler set".toList
  else if ← initSocket then run rounds
  else pure false

/-- `stop`, once the thread has ended, and the destructor. -/
def stop : Method Unit := do
  Act.call (I := listener) (.storeShouldStop true)
  closeClient
  closeServer
  Act.modify fun s => { s with running := false }

end TCPServer

/-! ### The host -/

/-- The sockets of the server. -/
inductive Socket
  | server
  | client
  deriving DecidableEq

/-- What the calls on a connection do with its socket. -/
def clientHandles : TcpServer.Call → List (HandleOp Socket)
  | .select => [.use .client]
  | .recv => [.use .client]
  | .send _ => [.use .client]
  | _ => []

/-- What the calls of the server do with its sockets. -/
def socketHandles : Handling listener Socket
  | .socket, .ok () => [.acquire .server]
  | .socket, .error _ => []
  | .setReuseAddr, _ => [.use .server]
  | .bind _, _ => [.use .server]
  | .listen, _ => [.use .server]
  | .select, _ => [.use .server]
  | .accept, accepted => .use .server :: if accepted then [.acquire .client] else []
  | .setOption _, _ => [.use .client]
  | .closeClient, _ => [.release .client]
  | .closeServer, _ => [.release .server]
  | .shouldStop, _ => []
  | .storeShouldStop _, _ => []
  | .client c, _ => clientHandles c

/-- The server's surroundings: the connections that are over and the present one, whether the server
was asked to stop, how many commands were handed to the command handler after that, and the sockets
that are open. -/
structure Host where
  past : List TcpServer.Net := []
  current : TcpServer.Net := {}
  stop : Bool := false
  late : ℕ := 0
  ledger : Ledger Socket := {}

namespace Host

/-- What a call changes of the connections. -/
def Traffic (w w' : Host) : (c : ListenerCall) → listener.Reply c → Prop
  | .accept, accepted =>
      w'.past = w.past ∧ w'.current = if (show Bool from accepted) then {} else w.current
  | .closeClient, _ => w'.past = w.past ++ [w.current] ∧ w'.current = {}
  | .client c, r => w'.past = w.past ∧ TcpServer.NetStep w.current c r w'.current
  | _, _ => w'.past = w.past ∧ w'.current = w.current

/-- The flag while a call is made: another thread may raise it at any time, and only the server
lowers it, when it starts. -/
def Flagged (w w' : Host) : (c : ListenerCall) → listener.Reply c → Prop
  | .shouldStop, stop => w'.stop = stop ∧ (w.stop = true → w'.stop = true) ∧ w'.late = w.late
  | .storeShouldStop stop, _ => w'.stop = stop ∧ w'.late = if stop then w.late else 0
  | .client (.commandHandler _), _ =>
      (w.stop = true → w'.stop = true) ∧ w'.late = w.late + w.stop.toNat
  | _, _ => (w.stop = true → w'.stop = true) ∧ w'.late = w.late

/-- What the surroundings may do. -/
structure Step (w : Host) (c : ListenerCall) (r : listener.Reply c) (w' : Host) : Prop where
  ledger : w'.ledger = w.ledger.afterAll (socketHandles c r)
  traffic : w.Traffic w' c r
  flagged : w.Flagged w' c r

end Host

/-- The surroundings of the server. -/
abbrev host : World listener := ⟨Host, Host.Step⟩

namespace TCPServer

/-! ### Sockets -/

section Sockets

variable {α : Type} {server client running : Bool} {s : TCPServer} {l : Ledger Socket}

/-- What the fields say about the sockets. -/
def held (s : TCPServer) : Socket → ℕ
  | .server => s.serverOpen.toNat
  | .client => s.clientOpen.toNat

/-- The server with these sockets open, running or not. -/
structure At (server client running : Bool) (s : TCPServer) (l : Ledger Socket) : Prop where
  owns : Owns s.held l
  serverOpen : s.serverOpen = server
  clientOpen : s.clientOpen = client
  isRunning : s.running = running

/-- Methods that leave the sockets as they are. -/
abbrev KeepsSockets (server client running : Bool) (m : Method α) : Prop :=
  Keeps socketHandles.world (At server client running) m

/-- Fields that say nothing about the sockets. -/
theorem At.same (h : At server client running s l) {s' : TCPServer} {running' : Bool}
    (hs : s'.serverOpen = s.serverOpen) (hc : s'.clientOpen = s.clientOpen)
    (hr : s'.running = running') : At server client running' s' l := by
  refine ⟨h.owns.congr fun k => ?_, hs.trans h.serverOpen, hc.trans h.clientOpen, hr⟩
  cases k with
  | server => simp [held, hs]
  | client => simp [held, hc]

/-- A call that only uses an open socket. -/
theorem At.uses (h : At server client running s l) {ops : List (HandleOp Socket)}
    (hops : ∀ op ∈ ops, (op = .use .server ∧ server = true) ∨ op = .use .client ∧ client = true) :
    l.afterAll ops = l := by
  refine h.owns.uses fun op hop => ?_
  obtain ⟨rfl, hs⟩ | ⟨rfl, hc⟩ := hops op hop
  · exact ⟨.server, rfl, by simp [held, h.serverOpen, hs]⟩
  · exact ⟨.client, rfl, by simp [held, h.clientOpen, hc]⟩

/-- A call on the listening socket. -/
theorem At.step_server (h : At true client running s l) {c : ListenerCall} {r : listener.Reply c}
    (hc : socketHandles c r = [.use .server]) {l' : Ledger Socket}
    (hl : l' = l.afterAll (socketHandles c r)) : At true client running s l' := by
  rw [hl, hc, h.uses fun op hop => .inl ⟨List.mem_singleton.1 hop, rfl⟩]
  exact h

theorem keepsSockets_call {c : ListenerCall}
    (hc : ∀ r, ∀ op ∈ socketHandles c r,
      (op = .use .server ∧ server = true) ∨ op = .use .client ∧ client = true) :
    KeepsSockets server client running (Act.call (I := listener) c) := by
  refine Triple.handles fun s l h r => ?_
  rw [h.uses (hc r)]
  exact h

theorem triple_closeClient :
    Triple socketHandles.world (At server client running) closeClient
      fun r s l => r = .ok () ∧ At server false running s l := by
  refine Triple.read fun v => Triple.ite (fun hv => ?_) fun hv => Triple.pure ?_
  · refine Triple.callThen (fun _ s l => At server false running { s with clientOpen := false } l)
      ?_ fun _ => Triple.modify fun s l h => ⟨rfl, h⟩
    rintro s l ⟨rfl, h⟩ r l' rfl
    have hone : v.held .client = 1 := by simp [held, hv]
    refine ⟨(h.owns.release (k := .client) (by omega)).congr fun k => ?_, h.serverOpen, rfl,
      h.isRunning⟩
    rw [hone]
    cases k <;> rfl
  · rintro s l ⟨rfl, h⟩
    exact ⟨rfl, h.owns, h.serverOpen, by simpa using hv, h.isRunning⟩

theorem triple_closeServer :
    Triple socketHandles.world (At server client running) closeServer
      fun r s l => r = .ok () ∧ At false client running s l := by
  refine Triple.read fun v => Triple.ite (fun hv => ?_) fun hv => Triple.pure ?_
  · refine Triple.callThen (fun _ s l => At false client running { s with serverOpen := false } l)
      ?_ fun _ => Triple.modify fun s l h => ⟨rfl, h⟩
    rintro s l ⟨rfl, h⟩ r l' rfl
    have hone : v.held .server = 1 := by simp [held, hv]
    refine ⟨(h.owns.release (k := .server) (by omega)).congr fun k => ?_, rfl, h.clientOpen,
      h.isRunning⟩
    rw [hone]
    cases k <;> rfl
  · rintro s l ⟨rfl, h⟩
    exact ⟨rfl, h.owns, by simpa using hv, h.clientOpen, h.isRunning⟩

/-- A step that fails closes the listening socket. -/
theorem triple_orCloseServer (message reason : Text) :
    Triple socketHandles.world (At server client running) (orCloseServer message reason)
      fun r s l => r = .ok false ∧ At false client running s l := by
  refine Triple.modifyThen (At server client running) (fun s l h => h.same rfl rfl h.isRunning) ?_
  refine Triple.bind triple_closeServer (fun _ => Triple.pure fun s l h => ⟨rfl, h.2⟩)
    fun e s l h => by cases h.1

/-- The socket listens, or there is none. -/
theorem triple_initSocket :
    Triple socketHandles.world (At false client running) initSocket
      fun r s l => ∃ listening, r = .ok listening ∧ At listening client running s l := by
  have hclose (message reason : Text) : Triple socketHandles.world (At true client running)
      (orCloseServer message reason)
      fun r s l => ∃ listening, r = .ok listening ∧ At listening client running s l :=
    (triple_orCloseServer message reason).conseq (fun _ _ h => h) fun _ _ _ h => ⟨false, h⟩
  refine Triple.read fun v => ?_
  refine Triple.callThen (fun made s l => (made = .ok () → At true client running
    { s with serverOpen := true } l) ∧ ((∃ reason, made = .error reason) →
    At false client running s l)) ?_ fun made => ?_
  · rintro s l ⟨rfl, h⟩ (reason | made) l' rfl
    · exact ⟨(by rintro ⟨⟩), fun _ => h⟩
    · refine ⟨fun _ => ?_, by rintro ⟨_, hmade⟩; cases hmade⟩
      have hnone : v.held .server = 0 := by simp [held, h.serverOpen]
      refine ⟨h.owns.acquire.congr fun k => ?_, rfl, h.clientOpen, h.isRunning⟩
      rw [hnone]
      cases k <;> rfl
  cases made with
  | error reason =>
      exact Triple.modifyThen (At false client running)
        (fun s l h => (h.2 ⟨reason, rfl⟩).same rfl rfl (h.2 ⟨reason, rfl⟩).isRunning)
        (Triple.pure fun s l h => ⟨false, rfl, h⟩)
  | ok _ =>
      refine Triple.modifyThen (At true client running) (fun s l h => h.1 rfl) ?_
      refine Triple.callThen (fun _ => At true client running)
        (fun s l h r l' hl => h.step_server rfl hl) fun reused => ?_
      cases reused with
      | error reason => exact hclose _ reason
      | ok _ =>
          refine Triple.callThen (fun _ => At true client running)
            (fun s l h r l' hl => h.step_server rfl hl) fun bound => ?_
          cases bound with
          | error reason => exact hclose _ reason
          | ok _ =>
              refine Triple.callThen (fun _ => At true client running)
                (fun s l h r l' hl => h.step_server rfl hl) fun listening => ?_
              cases listening with
              | error reason => exact hclose _ reason
              | ok _ => exact Triple.pure fun s l h => ⟨true, rfl, h⟩

/-- The calls on an open connection. -/
theorem keepsSockets_onConnection (c : TcpServer.Call) :
    KeepsSockets server true running (onConnection c) := by
  cases c with
  | shouldStop | setShouldStop | now | commandHandler cmd =>
      exact keepsSockets_call fun r op hop => by simp [socketHandles, clientHandles] at hop
  | select | recv | send data =>
      exact keepsSockets_call fun r op hop =>
        .inr ⟨by simpa [socketHandles, clientHandles] using hop, rfl⟩

theorem keepsSockets_setOptions (options : List SocketOption) :
    KeepsSockets server true running (setOptions options) := by
  induction options with
  | nil => exact Keeps.pure _
  | cons option options ih =>
      refine Keeps.bind (keepsSockets_call fun r op hop => .inr ⟨?_, rfl⟩) fun _ => ih
      simpa [socketHandles] using hop

theorem keepsSockets_greet (rounds : ℕ) : KeepsSockets server true running (greet rounds) := by
  refine Keeps.bind (Keeps.handle keepsSockets_onConnection _) fun sent => ?_
  cases sent with
  | some _ => exact Keeps.pure _
  | none => exact Keeps.throw _

/-- A client is accepted, or none is. -/
theorem triple_acceptClient (rounds : ℕ) :
    Triple socketHandles.world (At true false running) (acceptClient rounds)
      fun _ s l => ∃ client, At true client running s l := by
  refine Triple.callThen (fun _ => At true false running)
    (fun s l h r l' hl => h.step_server rfl hl) fun result => ?_
  refine Triple.ite (fun _ => ?_) fun _ => Triple.pure fun s l h => ⟨false, h⟩
  refine Triple.callThen (fun accepted s l =>
    At true (show Bool from accepted) running { s with clientOpen := accepted } l) ?_
    fun accepted => ?_
  · rintro s l h accepted l' rfl
    change At true accepted running _
      ((l.after (.use .server)).afterAll (if accepted then [.acquire .client] else []))
    rw [h.owns.use (by simp [held, h.serverOpen])]
    cases accepted with
    | false => exact h.same rfl h.clientOpen.symm h.isRunning
    | true =>
        have hnone : s.held .client = 0 := by simp [held, h.clientOpen]
        refine ⟨h.owns.acquire.congr fun k => ?_, h.serverOpen, rfl, h.isRunning⟩
        rw [hnone]
        cases k <;> rfl
  · refine Triple.modifyThen (At true accepted running) (fun s l h => h) ?_
    cases accepted with
    | false => exact Triple.pure fun s l h => ⟨false, h⟩
    | true =>
        have hkeeps : KeepsSockets true true running
            (configureClientSocket >>= fun _ => greet rounds) :=
          Keeps.bind (keepsSockets_setOptions _) fun _ => keepsSockets_greet rounds
        exact hkeeps.conseq (fun _ _ h => h) fun _ _ _ h => ⟨true, h⟩

theorem keepsSockets_handleClient (rounds : ℕ) :
    KeepsSockets server true running (handleClient rounds) := by
  refine Keeps.bind Keeps.get fun v => ?_
  refine Keeps.bind (Keeps.handle keepsSockets_onConnection _) fun result => ?_
  refine Keeps.bind (Keeps.modify fun s l h => h.same rfl rfl h.isRunning) fun _ => ?_
  exact Keeps.ite (fun _ => Keeps.throw _) fun _ => Keeps.pure _

/-- Between two rounds no client is connected. -/
def RoundOutcome (running : Bool) (r : Except StillRunning Unit) (s : TCPServer)
    (l : Ledger Socket) : Prop :=
  ∃ client, At true client running s l ∧ (r = .ok () → client = false)

theorem triple_serveClient (rounds : ℕ) :
    Triple socketHandles.world (At true false running) (serveClient rounds)
      (RoundOutcome running) := by
  refine Triple.bind (triple_acceptClient rounds) (fun _ => ?_) ?_
  · refine Triple.read fun v => Triple.ite (fun hv => ?_) fun hv => Triple.pure ?_
    · have hserve : Triple socketHandles.world (At true true running)
          (handleClient rounds >>= fun _ => closeClient) (RoundOutcome running) := by
        refine Triple.bind (keepsSockets_handleClient rounds) (fun _ => ?_)
          fun e s l h => ⟨true, h, fun hok => by cases hok⟩
        exact triple_closeClient.conseq (fun _ _ h => h) fun _ _ _ h => ⟨false, h.2, fun _ => rfl⟩
      refine hserve.conseq ?_ fun _ _ _ h => h
      rintro s l ⟨rfl, client, h⟩
      obtain rfl : client = true := h.clientOpen.symm.trans hv
      exact h
    · rintro s l ⟨rfl, client, h⟩
      have hclient : client = false := h.clientOpen.symm.trans (by simpa using hv)
      exact ⟨client, h, fun _ => hclient⟩
  · rintro e s l ⟨client, h⟩
    exact ⟨client, h, fun hok => by cases hok⟩

theorem triple_mainLoop (rounds : ℕ) :
    Triple socketHandles.world (At true false running) (mainLoop rounds)
      (RoundOutcome running) := by
  induction rounds with
  | zero => exact Triple.throw fun s l h => ⟨false, h, fun hok => by cases hok⟩
  | succ rounds ih =>
      refine Triple.callThen (fun _ => At true false running) ?_ fun stop => ?_
      · rintro s l h r l' rfl
        exact h
      · refine Triple.ite (fun _ => Triple.pure fun s l h => ⟨false, h, fun _ => rfl⟩) fun _ => ?_
        refine Triple.bind (triple_serveClient rounds) (fun _ => ?_) ?_
        · refine ih.conseq ?_ fun _ _ _ h => h
          rintro s l ⟨client, h, hclient⟩
          rw [← hclient rfl]
          exact h
        · rintro e s l ⟨client, h, -⟩
          exact ⟨client, h, fun hok => by cases hok⟩

/-- Between two calls: a server that does not run has no socket open. -/
structure Tidy (s : TCPServer) (l : Ledger Socket) : Prop where
  owns : Owns s.held l
  closed : s.running = false → s.serverOpen = false ∧ s.clientOpen = false

theorem At.tidy (h : At server client true s l) : Tidy s l :=
  ⟨h.owns, fun hr => by rw [h.isRunning] at hr; cases hr⟩

theorem At.tidy_of_closed (h : At false false running s l) : Tidy s l :=
  ⟨h.owns, fun _ => ⟨h.serverOpen, h.clientOpen⟩⟩

theorem triple_run (rounds : ℕ) :
    Triple socketHandles.world (At true false false) (run rounds) fun _ => Tidy := by
  refine Triple.modifyThen (At true false true) (fun s l h => h.same rfl rfl rfl) ?_
  refine Triple.callThen (fun _ => At true false true) ?_ fun _ => ?_
  · rintro s l h r l' rfl
    exact h
  refine Triple.bind (triple_mainLoop rounds) (fun _ => ?_) ?_
  · have hend : Triple socketHandles.world (At true false true)
        (do
          closeServer
          Act.modify fun s => { s with running := false }
          pure true) fun _ => Tidy := by
      refine Triple.bind triple_closeServer (fun _ => ?_) fun e s l h => by cases h.1
      exact Triple.modifyThen (At false false false) (fun s l h => h.2.same rfl rfl rfl)
        (Triple.pure fun s l h => h.tidy_of_closed)
    refine hend.conseq ?_ fun _ _ _ h => h
    rintro s l ⟨client, h, hclient⟩
    rw [← hclient rfl]
    exact h
  · rintro e s l ⟨client, h, -⟩
    exact h.tidy

theorem keepsTidy_modify {f : TCPServer → TCPServer}
    (hf : ∀ s, (f s).serverOpen = s.serverOpen ∧ (f s).clientOpen = s.clientOpen ∧
      (f s).running = s.running) :
    Keeps socketHandles.world Tidy (Act.modify f : Method Unit) := by
  refine Keeps.modify fun s l h => ?_
  obtain ⟨hs, hc, hr⟩ := hf s
  refine ⟨h.owns.congr fun k => ?_, fun hrunning => ?_⟩
  · cases k with
    | server => simp [held, hs]
    | client => simp [held, hc]
  · rw [hs, hc]
    exact h.closed (hr ▸ hrunning)

theorem keepsTidy_fail (message : Text) : Keeps socketHandles.world Tidy (fail message) :=
  Keeps.bind (keepsTidy_modify fun _ => ⟨rfl, rfl, rfl⟩) fun _ => Keeps.pure _

/-- A start, whether it succeeds, fails or is still serving. -/
theorem keepsTidy_start (rounds : ℕ) : Keeps socketHandles.world Tidy (start rounds) := by
  refine Triple.read fun v => Triple.ite (fun _ => ?_) fun hrunning => ?_
  · exact (keepsTidy_fail _).conseq (fun _ _ h => h.2) fun _ _ _ h => h
  refine Triple.ite (fun _ => ?_) fun _ => ?_
  · exact (keepsTidy_fail _).conseq (fun _ _ h => h.2) fun _ _ _ h => h
  have hstart : Triple socketHandles.world (At false false false)
      (do if ← initSocket then run rounds else pure false) fun _ => Tidy := by
    refine Triple.bind triple_initSocket (fun listening => ?_) ?_
    · cases listening with
      | true =>
          refine (triple_run rounds).conseq ?_ fun _ _ _ h => h
          rintro s l ⟨listening, hok, h⟩
          cases hok
          exact h
      | false =>
          refine Triple.pure ?_
          rintro s l ⟨listening, hok, h⟩
          cases hok
          exact h.tidy_of_closed
    · rintro e s l ⟨listening, hok, -⟩
      cases hok
  refine hstart.conseq ?_ fun _ _ _ h => h
  rintro s l ⟨rfl, h⟩
  have hstopped : v.running = false := by simpa using hrunning
  obtain ⟨hs, hc⟩ := h.closed hstopped
  exact ⟨h.owns, hs, hc, hstopped⟩

/-- `stop` and the destructor close what is open, and nothing twice. -/
theorem keepsTidy_stop : Keeps socketHandles.world Tidy stop := by
  rintro s l h
  have hat : At s.serverOpen s.clientOpen s.running s l := ⟨h.owns, rfl, rfl, rfl⟩
  revert hat
  generalize s.serverOpen = server, s.clientOpen = client, s.running = running
  intro hat
  have hstop : Triple socketHandles.world (At server client running) stop fun _ => Tidy := by
    refine Triple.callThen (fun _ => At server client running) ?_ fun _ => ?_
    · rintro s l h r l' rfl
      exact h
    refine Triple.bind triple_closeClient (fun _ => ?_) fun e s l h => by cases h.1
    refine Triple.bind (Q := fun r s l => r = .ok () ∧ At false false running s l)
      (triple_closeServer.conseq (fun _ _ h => h.2) fun _ _ _ h => h) (fun _ => ?_)
      fun e s l h => by cases h.1
    refine Triple.modify fun s l h => ?_
    have hclosed : At false false false { s with running := false } l := h.2.same rfl rfl rfl
    exact hclosed.tidy_of_closed
  exact hstop s l hat

end Sockets

/-! ### The life of a server -/

/-- What the owner of a server calls. -/
inductive Command
  | setCommandHandler
  | start (rounds : ℕ)
  /-- `stop`, or the destructor. -/
  | stop

/-- What the methods return. -/
abbrev Command.Result : Command → Type
  | .start _ => Bool
  | _ => Unit

/-- The methods. -/
def method : (c : Command) → Method c.Result
  | .setCommandHandler => setCommandHandler
  | .start rounds => start rounds
  | .stop => stop

theorem keepsTidy_method (c : Command) : Keeps socketHandles.world Tidy (method c) := by
  cases c with
  | setCommandHandler => exact keepsTidy_modify fun _ => ⟨rfl, rfl, rfl⟩
  | start rounds => exact keepsTidy_start rounds
  | stop => exact keepsTidy_stop

/-- The sockets are those of the ledger, whatever else the host remembers. -/
theorem keepsTidy_host (c : Command) :
    Keeps host (fun s (w : Host) => Tidy s w.ledger) (method c) := by
  intro s w h r s' w' hrun
  obtain ⟨l, hruns, rfl⟩ := hrun.simulates (V := socketHandles.world)
    (R := fun (w : Host) l => w.ledger = l) (fun hR hstep => ⟨_, hR ▸ hstep.ledger, rfl⟩) rfl
  exact keepsTidy_method c s w.ledger h r s' _ hruns

/-- The states of a server that was made on nothing and of its surroundings, after any calls of its
methods.  A call that has not come to its end within its rounds counts, too. -/
abbrev Lives (port : ℕ) (s : TCPServer) (w : Host) : Prop :=
  Relation.ReflTransGen (Called host method) ({ port := port }, {}) (s, w)

end TCPServer

/-! ### One client -/

/-- What the only client sends. -/
def TcpServer.Net.script : Text := "SYSTEM:PING\nSYSTEM:SHUTDOWN\n".toList

/-- A network that brings it at once, and a command handler that answers `PONG`. -/
def TcpServer.Net.reply (w : TcpServer.Net) : (c : TcpServer.Call) → TcpServer.socket.Reply c
  | .shouldStop => false
  | .setShouldStop => ()
  | .now => (0 : ℕ)
  | .select => .ready
  | .recv => if w.received.isEmpty then some TcpServer.Net.script else none
  | .commandHandler _ => .response (buildOkResponse "PONG".toList)
  | .send data => .sent data.length

/-- What it remembers. -/
def TcpServer.Net.next (w : TcpServer.Net) : TcpServer.Call → TcpServer.Net
  | .recv => if w.received.isEmpty then { w with received := TcpServer.Net.script } else w
  | .commandHandler cmd =>
      { w with handled := w.handled ++ [(cmd, .response (buildOkResponse "PONG".toList))] }
  | .send data => { w with sent := w.sent ++ data }
  | _ => w

theorem TcpServer.Net.next_step (w : TcpServer.Net) (c : TcpServer.Call) :
    TcpServer.NetStep w c (w.reply c) (w.next c) := by
  cases c with
  | shouldStop => exact .shouldStop w false
  | setShouldStop => exact .setShouldStop w
  | now => exact .now w 0
  | select => exact .select w .ready
  | recv =>
      unfold reply next
      split
      · rename_i hnone
        have hreceived : w.received = [] := by simpa using hnone
        have hstep := TcpServer.NetStep.recv w TcpServer.Net.script (by decide)
        rwa [hreceived, List.nil_append] at hstep
      · exact .recvClosed w
  | commandHandler cmd => exact .commandHandler w cmd _
  | send data =>
      have hstep := TcpServer.NetStep.send w data data.length le_rfl
      rwa [List.take_length] at hstep

/-- A host on which everything succeeds. -/
def Host.reply (w : Host) : (c : ListenerCall) → listener.Reply c
  | .socket => .ok ()
  | .setReuseAddr => .ok ()
  | .bind _ => .ok ()
  | .listen => .ok ()
  | .select => .ready
  | .accept => true
  | .setOption _ => true
  | .closeClient => ()
  | .closeServer => ()
  | .shouldStop => w.stop
  | .storeShouldStop _ => ()
  | .client c => w.current.reply c

/-- What it remembers: nobody else asks for a stop. -/
def Host.next (w : Host) (c : ListenerCall) : Host :=
  let w := { w with ledger := w.ledger.afterAll (socketHandles c (w.reply c)) }
  match c with
  | .accept => { w with current := {} }
  | .closeClient => { w with past := w.past ++ [w.current], current := {} }
  | .storeShouldStop stop => { w with stop := stop, late := if stop then w.late else 0 }
  | .client (.commandHandler cmd) =>
      { w with current := w.current.next (.commandHandler cmd), late := w.late + w.stop.toNat }
  | .client c => { w with current := w.current.next c }
  | _ => w

theorem Host.next_step (w : Host) (c : ListenerCall) : Host.Step w c (w.reply c) (w.next c) := by
  cases c with
  | client c =>
      cases c with
      | commandHandler cmd => exact ⟨rfl, ⟨rfl, w.current.next_step _⟩, id, rfl⟩
      | _ => exact ⟨rfl, ⟨rfl, w.current.next_step _⟩, id, rfl⟩
  | shouldStop => exact ⟨rfl, ⟨rfl, rfl⟩, rfl, id, rfl⟩
  | storeShouldStop stop => exact ⟨rfl, ⟨rfl, rfl⟩, rfl, rfl⟩
  | _ => exact ⟨rfl, ⟨rfl, rfl⟩, id, rfl⟩

namespace TCPServer

/-- A server with a command handler, started on such a host. -/
def started : (Except StillRunning Bool × TCPServer) × Host :=
  (start 8 { port := 5025, handlerSet := true }).eval (fun w c => (w.reply c, w.next c)) {}

theorem started_runs : Runs host {} (start 8 { port := 5025, handlerSet := true })
    started.1 started.2 :=
  @Prog.eval_runs _ host _ (fun w c => (w.reply c, w.next c)) Host.next_step
    (start 8 { port := 5025, handlerSet := true }) {}

/-- After a start. -/
theorem lives_of_runs {x : Except StillRunning Bool × TCPServer} {w : Host}
    (h : Runs host {} (start 8 { port := 5025, handlerSet := true }) x w) : Lives 5025 x.2 w := by
  obtain ⟨r, s⟩ := x
  have hset : Called host method ({ port := 5025 }, {})
      ({ port := 5025, handlerSet := true }, {}) :=
    .intro (c := .setCommandHandler) (Runs.done _ _)
  have hstart : Runs host {} (method (.start 8) { port := 5025, handlerSet := true }) (r, s) w := h
  exact .tail (.single hset) (.intro hstart)

theorem lives_started : Lives 5025 started.1.2 started.2 := lives_of_runs started_runs

variable {port : ℕ} {s : TCPServer} {w : Host}

/-- **No socket is lost.**  Over the whole life of a server no socket is used or closed that is not
open, at most one client is connected at a time, and a server that does not run has no socket open:
a failed start, the end of the main loop and a stop close everything. -/
theorem sockets_closed (h : Lives port s w) :
    w.ledger.misused = false ∧ (∀ k, w.ledger.live k ≤ 1) ∧
      (s.running = false → w.ledger = {}) := by
  have hstart : Tidy ({ port := port } : TCPServer) ({} : Ledger Socket) := by
    refine ⟨⟨?_, rfl⟩, fun _ => ⟨rfl, rfl⟩⟩
    funext k
    cases k <;> rfl
  have htidy : Tidy s w.ledger :=
    Keeps.called (P := fun s (w : Host) => Tidy s w.ledger) keepsTidy_host h hstart
  refine ⟨htidy.owns.sound, fun k => ?_, fun hstopped => ?_⟩
  · rw [htidy.owns.live]
    cases k with
    | server => exact Bool.toNat_le _
    | client => exact Bool.toNat_le _
  · obtain ⟨hs, hc⟩ := htidy.closed hstopped
    refine htidy.owns.eq_empty fun k => ?_
    cases k with
    | server => simp [held, hs]
    | client => simp [held, hc]

/-- The sockets of such a host. -/
theorem sockets_closed_started :
    started.1.2.running = false ∧ started.2.past.length = 1 ∧ started.2.ledger = {} := by
  have hstopped : started.1.2.running = false := by decide +kernel
  exact ⟨hstopped, by decide +kernel, (sockets_closed lives_started).2.2 hstopped⟩

end TCPServer

end Afm
