import SmsIrc.External
import SmsIrc.Outbox
import SmsIrc.Util

/-!
`src/irc_s2c_registration.rs` and `src/irc_s2c_v3.rs`: IRC clients that have not
registered yet.
-/

namespace SmsIrc.Registration

open SmsIrc.External SmsIrc.Outbox SmsIrc.Program SmsIrc.Text SmsIrc.Util

def serverName : Str := "sms-irc."

inductive IrcCap where
  | awayNotify
deriving DecidableEq

def supportedCaps : Str := "away-notify"

def IrcCap.capName : IrcCap → Str
  | .awayNotify => "away-notify"

def IrcCap.fromCapName (cn : Str) : Option IrcCap :=
  if cn = ("away-notify" : Str) then some .awayNotify else none

structure SocketAddr where
  ip : Str
  port : Nat
deriving DecidableEq

/-- `irc::proto::command::CapSubCommand`. -/
inductive CapSubCommand where
  | ls
  | list
  | req
  | capEnd
  | other
deriving DecidableEq

/-- `irc::proto::command::Command`, with a constructor for each variant that is
told apart when a client sends it. -/
inductive ClientCommand where
  | pass (password : Str)
  | nick (name : Str)
  | user (user mode realname : Str)
  | cap (target : Option Str) (sub : CapSubCommand) (code params : Option Str)
  | quit (reason : Option Str)
  | ping (tok : Str) (dest : Option Str)
  | join (chans : Str) (keys realname : Option Str)
  | part (chan : Str) (reason : Option Str)
  | channelMode (target : Str) (modes : List Str)
  | privmsg (target msg : Str)
  | raw (cmd : Str) (args : List Str) (trailing : Option Str)
  | other
deriving DecidableEq

/-- A message of a client; `line` is what `String::from(&command)` makes of it. -/
structure ClientMessage where
  command : ClientCommand
  line : Str
deriving DecidableEq

/-- What `sock.poll()` yields while it is ready. -/
inductive Readable where
  | message (m : ClientMessage)
  | disconnected
  | failed (e : Str)
deriving DecidableEq

/-- The answers of a socket's sink in one poll. -/
structure Wire where
  startSend : Nat → SinkAnswer
  complete : Except Str Unit
  /-- The `poll_complete` of `is_done`: whether everything is written. -/
  flushed : Except Str Bool

/-- A socket that takes everything at once. -/
def Wire.writable : Wire := ⟨fun _ => .ready, .ok (), .ok true⟩

/-- The loop over the messages of a socket. -/
def readAll {σ : Type} (serve : ClientMessage → Prog Failure σ Unit) (items : List Readable) :
    Prog Failure σ Unit :=
  forM items fun item =>
    match item with
    | .message m => serve m
    | .disconnected => throw (.error ("Socket disconnected" : Str))
    | .failed e => throw (.error e)

/-- `sink_outbox!`, on the outbox of a connection. -/
def sinkInto {σ : Type} (get : σ → Socket IrcMessage) (set : σ → Socket IrcMessage → σ)
    (w : Wire) : Prog Failure σ Unit :=
  ExceptT.mk fun s =>
    match exec (sinkOutbox w.startSend w.complete) (get s) with
    | (.ok _, out) => (.ok (), set s out)
    | (.error e, out) => (.error (.error e), set s out)

theorem exec_sinkInto {σ : Type} (get : σ → Socket IrcMessage)
    (set : σ → Socket IrcMessage → σ) (w : Wire) (s : σ) :
    exec (sinkInto get set w) s =
      match exec (sinkOutbox w.startSend w.complete) (get s) with
      | (.ok _, out) => (.ok (), set s out)
      | (.error e, out) => (.error (.error e), set s out) := rfl

structure RegistrationInformation where
  nick : Str
  user : Str
  realname : Str
  caps : List IrcCap
deriving DecidableEq

structure PendingIrcConnection where
  /-- What can be read from the socket. -/
  sock : List Readable
  addr : SocketAddr
  capEnded : Bool
  nick : Option Str
  user : Option Str
  realname : Option Str
  caps : List IrcCap
  outbox : Socket IrcMessage
  new : Bool
  /-- Not in the source: the messages that have been handled. -/
  handled : List ClientMessage
deriving DecidableEq

abbrev PendingM := Prog Failure PendingIrcConnection

/-- `PendingIrcConnectionWrapper::from_incoming`. -/
def fromIncoming (sock : List Readable) (addr : SocketAddr) : PendingIrcConnection where
  sock := sock
  addr := addr
  capEnded := true
  nick := none
  user := none
  realname := none
  caps := []
  outbox := .new
  new := true
  handled := []

def reply (cmd : String) (args : List Str) (suffix : Option Str) : PendingM Unit :=
  modify fun p =>
    { p with
      outbox := push p.outbox
        (IrcMessage.new (some serverName) cmd.toList (("*" : Str) :: args) suffix) }

def onNew : PendingM Unit :=
  reply "NOTICE" [] (some ("sms-irc initialized, please go on" : Str))

/-- One of the capabilities of `CAP REQ`. -/
def requestCap (cap : Str) : PendingM Unit :=
  match IrcCap.fromCapName cap with
  | some c => do
      modify fun p => { p with caps := p.caps ++ [c] }
      reply "CAP" [("ACK" : Str)] (some cap)
  | none => reply "CAP" [("NAK" : Str)] (some cap)

def notRegistered : PendingM Unit :=
  reply "451" [] (some ("You have not registered" : Str))

def setUser (user realname : Str) : PendingM Unit :=
  modify fun p => { p with user := some user, realname := some realname }

/-- The user and the real name of a `USER` command that the crate has not parsed. -/
def rawUser (cmd : Str) (args : List Str) (trailing : Option Str) : Option (Str × Str) :=
  if cmd = ("USER" : Str) then
    match args with
    | user :: next :: rest => some (user, trailing.getD ((next :: rest).getLast (by simp)))
    | _ => none
  else none

def handleRemoteMessage (msg : ClientMessage) : PendingM Unit :=
  match msg.command with
  | .nick name => modify fun p => { p with nick := some name }
  | .user user _ realname => setUser user realname
  | .cap _ .ls _ _ => do
      modify fun p => { p with capEnded := false }
      reply "CAP" [("LS" : Str)] (some supportedCaps)
  | .cap _ .req (some caps) none => forM (splitOn ' ' caps) requestCap
  | .cap _ .req none (some caps) => forM (splitOn ' ' caps) requestCap
  | .cap _ .list _ _ => do
      let p ← get
      reply "CAP" [("LIST" : Str)] (some (join [' '] (p.caps.map IrcCap.capName)))
  | .cap _ .capEnd _ _ => modify fun p => { p with capEnded := true }
  | .pass _ => pure ()
  | .quit _ => throw (.error ("Client quit" : Str))
  | .raw cmd args trailing =>
      match rawUser cmd args trailing with
      | some (user, realname) => setUser user realname
      | none => notRegistered
  | _ => notRegistered

/-- Handle a message that has been read. -/
def serve (msg : ClientMessage) : PendingM Unit := do
  modify fun p => { p with handled := p.handled ++ [msg] }
  handleRemoteMessage msg

/-- The first part of `is_done`: everything has been said. -/
def PendingIrcConnection.complete (p : PendingIrcConnection) : Bool :=
  p.capEnded && p.nick.isSome && p.user.isSome && p.realname.isSome

def isDone (w : Wire) : PendingM Bool := do
  let p ← get
  if p.complete then
    match w.flushed with
    | .ok ready => pure ready
    | .error e => throw (.error e)
  else pure false

/-- Greet a client when it is polled for the first time. -/
def greet : PendingM Unit := do
  let p ← get
  when p.new do
    modify fun p => { p with new := false }
    onNew

/-- Handle everything that can be read. -/
def readSock : PendingM Unit := do
  let p ← get
  set { p with sock := [] }
  readAll serve p.sock

/-- `PendingIrcConnectionWrapper::poll`; `true` is `Ready`. -/
def poll (w : Wire) : PendingM Bool := do
  greet
  readSock
  sinkInto PendingIrcConnection.outbox (fun p out => { p with outbox := out }) w
  isDone w

/-- The information of a connection that is complete. -/
def registrationInformation (p : PendingIrcConnection) : Option RegistrationInformation :=
  match p.nick, p.user, p.realname with
  | some nick, some user, some realname => some ⟨nick, user, realname, p.caps⟩
  | _, _, _ => none

end SmsIrc.Registration
