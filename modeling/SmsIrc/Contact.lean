import SmsIrc.Comm
import SmsIrc.SenderCommon

/-!
`src/contact.rs`: individual IRC virtual users, each with a connection of its own.
-/

namespace SmsIrc.Contact

open SmsIrc.Comm SmsIrc.Database SmsIrc.External SmsIrc.Models SmsIrc.Program
open SmsIrc.SenderCommon SmsIrc.Text SmsIrc.Util

/-- A call of the IRC client that sends something. -/
inductive ClientCall where
  | raw (cmd : Str) (args : List Str)
  | identify
  | notice (target msg : Str)
  | privmsg (target msg : Str)
  | join (chan : Str)
  | part (chan : Str)
  | nick (nick : Str)
  | away (text : Option Str)
deriving DecidableEq

/-- `irc::proto::command::Command`, with a constructor for each variant that a contact
does something for. -/
inductive ContactCommand where
  /-- `RPL_ENDOFMOTD` or `ERR_NOMOTD`. -/
  | endOfMotd
  | nick (nick : Str)
  | privmsg (target msg : Str)
  | raw (cmd : Str) (args : List Str)
  | error (msg : Str)
  | other
deriving DecidableEq

structure ContactMessage where
  prefixStr : Option Str
  command : ContactCommand
deriving DecidableEq

/-- What `irc_stream.poll()` yields while it is ready. -/
inductive StreamItem where
  | message (m : ContactMessage)
  | stopped
  | failed (e : Str)
deriving DecidableEq

variable [Crates]

structure ContactManager where
  /-- What the client has been asked to send. -/
  sent : List ClientCall
  /-- The error of such a call, by its number. -/
  refuses : Nat → Option Str
  calls : Nat
  admin : Str
  nick : Str
  addr : PduAddress
  store : Store
  id : Bool
  waMode : Bool
  adminIsOnline : Bool
  connected : Bool
  presence : Option Str
  channels : List Str
  webircPassword : Option Str
  /-- The commands sent to the other parts so far. -/
  waTx : List Comm.WhatsappCommand
  mTx : List Comm.ModemCommand
  rx : List ContactManagerCommand
  /-- `chrono::Utc::now()`. -/
  now : NaiveDateTime

abbrev ContactM := Prog Failure ContactManager

instance : HasStore ContactManager where
  getStore c := c.store
  setStore c st := { c with store := st }

/-- A call of `irc.0`. -/
def call (k : ClientCall) : ContactM Unit := do
  let c ← get
  set { c with calls := c.calls + 1 }
  match c.refuses c.calls with
  | some e => throw (.error e)
  | none => modify fun c => { c with sent := c.sent ++ [k] }

instance : Sender ContactManager where
  reportError _ err := do
    let c ← get
    call (.notice c.admin err)
  privateTarget := do
    let c ← get
    pure c.admin
  sendIrcMessage _ dest msg := call (.privmsg dest msg)
  ensureJoined _ := pure ()
  utcNow := do
    let c ← get
    pure c.now
  record _ := pure ()

def addCommand (c : ContactManager) (cmd : ContactManagerCommand) : ContactManager :=
  { c with rx := c.rx ++ [cmd] }

def processGroups : ContactM Unit := do
  let c ← get
  when c.connected do
    let grps ← store (getGroupsForRecipient c.addr)
    let chans := grps.map fun grp => grp.channel
    forM chans fun ch => call (.join ch)
    modify fun c => { c with channels := chans }
    forM c.channels fun ch => when (ch ∉ chans) (call (.part ch))

/-- Go into the mode of a message. -/
def switchMode (wa : Bool) : ContactM Unit := do
  let c ← get
  when (c.waMode ≠ wa) do
    set { c with waMode := wa }
    store (updateRecipientWa c.addr wa)
    call (.notice c.admin
      (if wa then ("Notice: WhatsApp mode automatically enabled." : Str)
        else ("Notice: SMS mode automatically enabled." : Str)))

/-- The body of the loop of `process_messages`. -/
def processMessage (msg : Message) : ContactM Unit :=
  match msg.pdu with
  | some raw =>
      match Crates.deliverPduTryFrom raw with
      | .error e => throw (.error e)
      | .ok pdu => do
          switchMode false
          processMsgPdu [] msg pdu
  | none => do
      switchMode true
      processMsgPlain [] msg

def processMessages : ContactM Unit := do
  let c ← get
  when (c.connected ∧ c.adminIsOnline) do
    let msgs ← store (getMessagesForRecipient c.addr)
    forM msgs processMessage

def updateAway : ContactM Unit := do
  let c ← get
  when c.connected (call (.away c.presence))

def changeNick (nick : Str) (src : Int) : ContactM Unit := do
  let c ← get
  store (updateRecipientNick c.addr nick src)
  call (.nick nick)

def handleIntRx : ContactManagerCommand → ContactM Unit
  | .processMessages => processMessages
  | .processGroups => processGroups
  | .updateAway msg => do
      modify fun c => { c with presence := msg }
      updateAway
  | .changeNick nick src => changeNick nick src
  | .setWhatsapp wam => do
      modify fun c => { c with waMode := wam }
      let c ← get
      store (updateRecipientWa c.addr wam)

def initializeWatch : ContactM Unit := do
  let c ← get
  call (.raw ("WATCH" : Str) [("+" : Str) ++ c.admin])

def handlePrivmsg (source target mesg : Str) : ContactM Unit := do
  let c ← get
  if source ≠ c.admin then
    call (.notice source
      ("Message not delivered; you aren't the SMS bridge administrator!" : Str))
  else if target = c.nick then
    if c.waMode then
      modify fun c => { c with waTx := c.waTx ++ [.sendDirectMessage c.addr mesg] }
    else modify fun c => { c with mTx := c.mTx ++ [.sendMessage c.addr mesg] }
  else pure ()

/-- The replies to `WATCH`. -/
def handleRaw (cmd : Str) (args : List Str) : ContactM Unit := do
  let c ← get
  if args[1]? ≠ some c.admin then pure ()
  else if cmd = ("600" : Str) ∨ cmd = ("604" : Str) then
    when (!c.adminIsOnline) do
      set { c with adminIsOnline := true }
      processMessages
  else if cmd = ("601" : Str) ∨ cmd = ("605" : Str) then
    set { c with adminIsOnline := false }
  else pure ()

def handleIrcMessage (im : ContactMessage) : ContactM Unit :=
  match im.command with
  | .endOfMotd => do
      modify fun c => { c with connected := true }
      processMessages
      initializeWatch
      updateAway
      processGroups
  | .nick nick =>
      match im.prefixStr with
      | some source =>
          modify fun c =>
            if (splitOn '!' source).headD [] = c.nick then { c with nick := nick } else c
      | none => pure ()
  | .privmsg target mesg =>
      match im.prefixStr with
      | some source => handlePrivmsg ((splitOn '!' source).headD []) target mesg
      | none => pure ()
  | .raw cmd args => handleRaw cmd args
  | .error msg => throw (.error (("Error from server: " : Str) ++ msg))
  | .other => pure ()

def sendWebirc (c : ContactManager) : ContactM Unit :=
  match c.webircPassword with
  | some pw =>
      call (.raw ("WEBIRC" : Str)
        [pw, ("sms-irc" : Str),
          stringToIrcNick (Crates.displayAddress c.addr) ++ (".sms-irc.theta.eu.org" : Str),
          ("127.0.0.1" : Str)])
  | none => pure ()

/-- The first poll. -/
def identify : ContactM Unit := do
  let c ← get
  when (!c.id) do
    sendWebirc c
    call .identify
    modify fun c => { c with id := true }

/-- The client's own future, which is driven along. -/
def drive : Except Str Unit → ContactM Unit
  | .ok _ => pure ()
  | .error e => throw (.error e)

def readItem : StreamItem → ContactM Unit
  | .message m => handleIrcMessage m
  | .stopped => throw (.error ("irc_stream stopped" : Str))
  | .failed e => throw (.error e)

def receive : ContactM Unit := do
  let c ← get
  set { c with rx := [] }
  forM c.rx handleIntRx

/-- What a connection yields when it is polled. -/
structure Activity where
  before : Except Str Unit
  items : List StreamItem
  after : Except Str Unit

/-- `ContactManager::poll`. -/
def poll (i : Activity) : ContactM Unit := do
  identify
  drive i.before
  forM i.items readItem
  receive
  drive i.after

end SmsIrc.Contact
