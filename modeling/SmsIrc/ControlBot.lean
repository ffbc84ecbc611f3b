import SmsIrc.ControlCommands
import SmsIrc.SenderCommon

/-!
`src/control.rs`: the IRC bot that allows users to control the bridge.
-/

namespace SmsIrc.ControlBot

open SmsIrc.Comm SmsIrc.ControlCommands SmsIrc.Database SmsIrc.External SmsIrc.Models
open SmsIrc.Program SmsIrc.SenderCommon SmsIrc.Text SmsIrc.Util

/-- A call of the IRC client that sends something. -/
inductive ClientCall where
  | raw (cmd : Str) (args : List Str)
  | identify
  | notice (target msg : Str)
  | privmsg (target msg : Str)
  | join (chan : Str)
  | part (chan : Str)
deriving DecidableEq

/-- `irc::proto::command::Command`, with a constructor for each variant that the bot
tells apart. -/
inductive BotCommand where
  /-- `RPL_ENDOFMOTD` or `ERR_NOMOTD`. -/
  | endOfMotd
  | privmsg (target msg : Str)
  | error (msg : Str)
  | other
deriving DecidableEq

structure BotMessage where
  prefixStr : Option Str
  command : BotCommand
deriving DecidableEq

/-- What `irc_stream.poll()` yields while it is ready. -/
inductive StreamItem where
  | message (m : BotMessage)
  | stopped
  | failed (e : Str)
deriving DecidableEq

variable [Crates]

structure Bot where
  /-- What the client has been asked to send. -/
  sent : List ClientCall
  /-- The error of such a call, by its number. -/
  refuses : Nat → Option Str
  calls : Nat
  /-- What can be read from the stream. -/
  stream : List StreamItem
  chan : Str
  admin : Str
  channels : List Str
  logBacklog : List Str
  store : Store
  id : Bool
  connected : Bool
  webircPassword : Option Str
  rx : List ControlBotCommand
  /-- The commands sent to the other parts so far. -/
  cfTx : List ContactFactoryCommand
  waTx : List Comm.WhatsappCommand
  mTx : List Comm.ModemCommand

abbrev BotM := Prog Failure Bot

instance : HasStore Bot where
  getStore b := b.store
  setStore b st := { b with store := st }

/-- A call of `irc.0`. -/
def call (c : ClientCall) : BotM Unit := do
  let b ← get
  set { b with calls := b.calls + 1 }
  match b.refuses b.calls with
  | some e => throw (.error e)
  | none => modify fun b => { b with sent := b.sent ++ [c] }

def cfSend (c : ContactFactoryCommand) : BotM Unit :=
  modify fun b => { b with cfTx := b.cfTx ++ [c] }

def waSend (c : Comm.WhatsappCommand) : BotM Unit :=
  modify fun b => { b with waTx := b.waTx ++ [c] }

def mSend (c : Comm.ModemCommand) : BotM Unit :=
  modify fun b => { b with mTx := b.mTx ++ [c] }

def controlResponse (msg : Str) : BotM Unit := do
  let b ← get
  call (.notice b.admin msg)

instance : ControlCommon Bot where
  waSend := waSend
  cfSend := cfSend
  mSend := mSend
  processInsp _ := pure false
  controlResponse := controlResponse

def processGroups : BotM Unit := do
  let grps ← store getAllGroups
  let chans := grps.map fun grp => grp.channel
  forM chans fun ch => call (.join ch)
  let b ← get
  set { b with channels := chans }
  forM b.channels fun ch => when (ch ∉ chans) (call (.part ch))

def clearLogBacklog : BotM Unit := do
  let b ← get
  set { b with logBacklog := [] }
  forM b.logBacklog fun log => call (.notice b.chan log)

def handlePrivmsg (nick target mesg : Str) : BotM Unit := do
  let b ← get
  if nick ≠ b.admin then pure ()
  else if target = b.chan then processAdminCommand mesg
  else if target ∈ b.channels then waSend (.sendGroupMessage target mesg)
  else pure ()

def handleIrcMessage (im : BotMessage) : BotM Unit :=
  match im.command with
  | .endOfMotd => do
      modify fun b => { b with connected := true }
      clearLogBacklog
      processGroups
  | .privmsg target mesg =>
      match im.prefixStr with
      | some source => handlePrivmsg ((splitOn '!' source).headD []) target mesg
      | none => pure ()
  | .error msg => throw (.error (("Error from server: " : Str) ++ msg))
  | .other => pure ()

def handleIntRx : ControlBotCommand → BotM Unit
  | .log log => do
      let b ← get
      if b.connected then call (.notice b.chan log)
      else set { b with logBacklog := b.logBacklog ++ [log] }
  | .reportFailure err => do
      let b ← get
      call (.privmsg b.admin (b.admin ++ (": \x02\x0304" : Str) ++ err ++ ['\x0f']))
  | .commandResponse resp => controlResponse resp
  | .processGroups => processGroups

def sendWebirc : Option Str → BotM Unit
  | some pw =>
      call (.raw ("WEBIRC" : Str)
        [pw, ("sms-irc" : Str), ("sms-irc.theta.eu.org" : Str), ("127.0.0.1" : Str)])
  | none => pure ()

/-- The first poll. -/
def identify : BotM Unit := do
  let b ← get
  when (!b.id) do
    sendWebirc b.webircPassword
    call .identify
    modify fun b => { b with id := true }

/-- The client's own future, which is driven along. -/
def drive : Except Str Unit → BotM Unit
  | .ok _ => pure ()
  | .error e => throw (.error e)

def readItem : StreamItem → BotM Unit
  | .message m => handleIrcMessage m
  | .stopped => throw (.error ("irc_stream stopped" : Str))
  | .failed e => throw (.error e)

def readStream : BotM Unit := do
  let b ← get
  set { b with stream := [] }
  forM b.stream readItem

def receive : BotM Unit := do
  let b ← get
  set { b with rx := [] }
  forM b.rx handleIntRx

/-- `ControlBot::poll`. -/
def poll (driver : Except Str Unit) : BotM Unit := do
  identify
  drive driver
  readStream
  receive

end SmsIrc.ControlBot
