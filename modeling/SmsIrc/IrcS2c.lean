import SmsIrc.ControlCommands
import SmsIrc.Registration
import SmsIrc.SenderCommon

/-!
`src/irc_s2c.rs`: acting as an IRC server, for clients that connect to the bridge.
-/

namespace SmsIrc.IrcS2c

open SmsIrc.Comm SmsIrc.ControlCommands SmsIrc.Database SmsIrc.External SmsIrc.HashMaps
open SmsIrc.Models SmsIrc.Outbox SmsIrc.Program SmsIrc.Registration SmsIrc.SenderCommon
open SmsIrc.Text SmsIrc.Util

def userModes : Str := "i"

def channelModes : Str := "nt"

/-- `CARGO_PKG_VERSION`. -/
def version : Str := "0.2.0"

def motd : List Str :=
  ["Welcome to sms-irc!", "", "This is the experimental IRC server backend.",
    "Please refer to https://git.theta.eu.org/sms-irc.git/about/",
    "for more information about sms-irc.", "",
    "Alternatively, come and chat to us in #sms-irc on chat.freenode.net",
    "if you have comments or want help using the software!"].map String.toList

variable [Crates]

structure IrcConnection where
  /-- What can be read from the socket. -/
  sock : List Readable
  addr : SocketAddr
  reginfo : RegistrationInformation
  outbox : Socket IrcMessage
  store : Store
  joinedGroups : HashMap Str Group
  waOutbox : List Comm.WhatsappCommand
  mOutbox : List Comm.ModemCommand
  cfOutbox : List ContactFactoryCommand
  new : Bool
  /-- `chrono::Utc::now()`. -/
  now : NaiveDateTime
  /-- Not in the source: the calls made as a `Sender`. -/
  calls : List SenderCall
  /-- Not in the source: the information at the time of the registration. -/
  registered : RegistrationInformation
  /-- Not in the source: the messages that were handled before the registration. -/
  before : List ClientMessage
  /-- Not in the source: the messages that have been handled since. -/
  handled : List ClientMessage

abbrev ConnM := Prog Failure IrcConnection

instance : HasStore IrcConnection where
  getStore c := c.store
  setStore c st := { c with store := st }

/-- `IrcConnection::from_pending`. -/
def fromPending (p : PendingIrcConnection) (reginfo : RegistrationInformation) (store : Store)
    (now : NaiveDateTime) : IrcConnection where
  sock := p.sock
  addr := p.addr
  reginfo := reginfo
  outbox := .new
  store := store
  joinedGroups := ∅
  waOutbox := []
  mOutbox := []
  cfOutbox := []
  new := true
  now := now
  calls := []
  registered := reginfo
  before := p.handled
  handled := []

def queueReply (prefixStr : Str) (cmd : String) (args : List Str) (suffix : Option Str) :
    ConnM Unit :=
  modify fun c =>
    { c with outbox := push c.outbox (IrcMessage.new (some prefixStr) cmd.toList args suffix) }

def replyS2c (cmd : String) (args : List Str) (suffix : Option Str) : ConnM Unit := do
  let c ← get
  queueReply serverName cmd (c.reginfo.nick :: args) suffix

def replyFromUser (cmd : String) (args : List Str) (suffix : Option Str) : ConnM Unit := do
  let c ← get
  queueReply (c.reginfo.nick ++ ['!'] ++ c.reginfo.user ++ ['@'] ++ c.addr.ip) cmd args suffix

def replyFromNick (nick : Str) (cmd : String) (args : List Str) (suffix : Option Str) :
    ConnM Unit :=
  queueReply (nick ++ ['!'] ++ nick ++ ("@sms-irc." : Str)) cmd args suffix

def waSend (cmd : Comm.WhatsappCommand) : ConnM Unit :=
  modify fun c => { c with waOutbox := c.waOutbox ++ [cmd] }

def mSend (cmd : Comm.ModemCommand) : ConnM Unit :=
  modify fun c => { c with mOutbox := c.mOutbox ++ [cmd] }

def cfSend (cmd : ContactFactoryCommand) : ConnM Unit :=
  modify fun c => { c with cfOutbox := c.cfOutbox ++ [cmd] }

/-- A message in the control channel. -/
def controlMessage (line : Str) : ConnM Unit :=
  queueReply "root" "PRIVMSG" [("&smsirc" : Str)] (some line)

instance : ControlCommon IrcConnection where
  waSend := waSend
  cfSend := cfSend
  mSend := mSend
  processInsp _ := pure false
  controlResponse := controlMessage

instance : Sender IrcConnection where
  reportError nick err := do
    let c ← get
    replyFromNick nick "NOTICE" [c.reginfo.nick] (some err)
  privateTarget := do
    let c ← get
    pure c.reginfo.nick
  sendIrcMessage nick dest msg := replyFromNick nick "PRIVMSG" [dest] (some msg)
  ensureJoined _ := pure ()
  utcNow := do
    let c ← get
    pure c.now
  record call := modify fun c => { c with calls := c.calls ++ [call] }

/-- `IrcConnection::handle_control`. -/
def handleConnControl : ControlBotCommand → ConnM Unit
  | .log thing => controlMessage thing
  | .reportFailure thing => replyS2c "PRIVMSG" [] (some thing)
  | .commandResponse thing => controlMessage thing
  | .processGroups => pure ()

/-- The body of the loop of `process_messages`. -/
def processMessage (msg : Message) : ConnM Unit := do
  let addr ← msg.getAddr
  match ← store (getRecipientByAddrOpt addr) with
  | none => pure ()
  | some recip =>
      match msg.pdu with
      | some raw =>
          match Crates.deliverPduTryFrom raw with
          | .error e => throw (.error e)
          | .ok pdu => processMsgPdu recip.nick msg pdu
      | none => processMsgPlain recip.nick msg

def processMessages : ConnM Unit := do
  let msgs ← store getAllMessages
  forM msgs processMessage

/-- The recipients with some ids. -/
def recipientsById (ids : List Nat) : ConnM (List Recipient) :=
  ids.mapM fun id => do
    match ← store (getRecipientByIdOpt id) with
    | some recip => pure recip
    | none => throw (.error ("recipient group wat" : Str))

/-- The nicks of a line of names, each followed by a space. -/
def nameList (op : Recipient → Str) (recips : List Recipient) : Str :=
  recips.flatMap fun r => op r ++ r.nick ++ [' ']

def setupGroup (grp : Group) : ConnM Unit := do
  replyFromUser "JOIN" [grp.channel] none
  replyS2c "332" [grp.channel] (some grp.topic)
  let c ← get
  replyS2c "353" [['='], grp.channel] (some ('&' :: c.reginfo.nick))
  let recips ← recipientsById grp.participants
  forM (recips.toChunks 5) fun rs =>
    replyS2c "353" [['@'], grp.channel]
      (some (nameList (fun r => if grp.admins.contains r.id then ['@'] else []) rs))
  replyS2c "366" [grp.channel] (some ("End of /NAMES list." : Str))
  modify fun c => { c with joinedGroups := c.joinedGroups.insert grp.channel grp }

def setupControlChannel : ConnM Unit := do
  let chan : Str := "&smsirc"
  replyFromUser "JOIN" [chan] none
  replyS2c "332" [chan] (some ("sms-irc admin channel" : Str))
  let c ← get
  replyS2c "353" [['@'], chan] (some ('&' :: c.reginfo.nick ++ (" ~root" : Str)))
  let recips ← store getAllRecipients
  forM (recips.toChunks 5) fun rs => replyS2c "353" [['@'], chan] (some (nameList (fun _ => []) rs))
  replyS2c "366" [chan] (some ("End of /NAMES list." : Str))
  replyS2c "324" [chan] none

def sendMotd : ConnM Unit := do
  replyS2c "375" [] (some ("- Message of the day -" : Str))
  forM motd fun line => replyS2c "372" [] (some line)
  replyS2c "376" [] (some ("End of /MOTD command." : Str))

def onNew : ConnM Unit := do
  replyS2c "001" [] (some ("Welcome to sms-irc, a SMS/WhatsApp to IRC bridge!" : Str))
  replyS2c "002" [] (some (("This is sms-irc version " : Str) ++ version ++
    (", running in IRC server mode." : Str)))
  replyS2c "003" []
    (some ("(This server doesn't keep creation timestamp information at present.)" : Str))
  replyS2c "004" [serverName, ("sms-irc-" : Str) ++ version, userModes, channelModes] none
  replyS2c "005" [("AWAYLEN=200" : Str), ("CASEMAPPING=ascii" : Str), ("NETWORK=sms-irc" : Str),
    ("NICKLEN=100" : Str), ("PREFIX=(qaohv)~&@%+" : Str)]
    (some ("are supported by this server" : Str))
  sendMotd
  setupControlChannel
  let grps ← store getAllGroups
  forM grps setupGroup

/-- A message to someone who is neither the control channel nor a channel. -/
def sendDirect (target msg : Str) : ConnM Unit := do
  match ← store (getRecipientByNickOpt target) with
  | some recip => do
      let addr ← recip.getAddr
      if recip.whatsapp then waSend (.sendDirectMessage addr msg)
      else mSend (.sendMessage addr msg)
  | none => replyS2c "401" [target] (some ("Unknown nickname." : Str))

def handlePrivmsg (target msg : Str) : ConnM Unit :=
  if target = ("&smsirc" : Str) then processAdminCommand msg
  else if startsWith target ['#'] then waSend (.sendGroupMessage target msg)
  else sendDirect target msg

/-- `IrcConnection::handle_remote_message`. -/
def handleRemoteMessage (msg : ClientMessage) : ConnM Unit :=
  match msg.command with
  | .ping tok _ => replyS2c "PONG" [] (some tok)
  | .quit _ => throw (.error ("Client quit" : Str))
  | .nick name => do
      replyFromUser "NICK" [name] none
      modify fun c => { c with reginfo := { c.reginfo with nick := name } }
  | .join _ _ _ => pure ()
  | .part chan _ => replyS2c "442" [chan] (some ("You may not part." : Str))
  | .channelMode target modes =>
      if modes.length > 0 then
        replyS2c "482" [target] (some ("You may not alter channel modes." : Str))
      else replyS2c "324" [target, ("+nt" : Str)] none
  | .privmsg target text => handlePrivmsg target text
  | _ =>
      replyS2c "421" [(splitOn ' ' msg.line).headD []]
        (some ("Unknown or unimplemented command." : Str))

/-- Handle a message that has been read. -/
def serve (msg : ClientMessage) : ConnM Unit := do
  modify fun c => { c with handled := c.handled ++ [msg] }
  handleRemoteMessage msg

/-- Welcome a client when its connection is polled for the first time. -/
def welcome : ConnM Unit := do
  let c ← get
  when c.new do
    modify fun c => { c with new := false }
    onNew

/-- Handle everything that can be read. -/
def readSock : ConnM Unit := do
  let c ← get
  set { c with sock := [] }
  readAll serve c.sock

/-- `IrcConnection::poll`. -/
def pollConn (w : Wire) : ConnM Unit := do
  welcome
  readSock
  sinkInto IrcConnection.outbox (fun c out => { c with outbox := out }) w

structure IrcServer where
  cfRx : List ContactFactoryCommand
  cbRx : List ControlBotCommand
  /-- The commands sent to the other parts so far. -/
  waTx : List Comm.WhatsappCommand
  mTx : List Comm.ModemCommand
  store : Store
  /-- What the listener yields: sockets, or the error that ends it. -/
  incoming : List (Except Str (SocketAddr × List Readable))
  connections : List IrcConnection
  pending : List PendingIrcConnection
  /-- `chrono::Utc::now()`. -/
  now : NaiveDateTime
  /-- Not in the source: registered connections that have ended, as they were then. -/
  closed : List IrcConnection

abbrev ServerM := Prog Failure IrcServer

/-- Run a method of a connection, on the database that all share. An `Err` is the
caller's business, a panic is not. -/
def onConnection (c : IrcConnection) (p : ConnM Unit) :
    ServerM (Except Failure Unit × IrcConnection) := do
  let s ← get
  match exec p { c with store := s.store, now := s.now } with
  | (.error (.panic site), c') => do
      set { s with store := c'.store, closed := s.closed ++ [c'] }
      throw (.panic site)
  | (r, c') => do
      set { s with store := c'.store }
      pure (r, c')

/-- Run a method of each connection, whatever it returns. -/
def eachConnection (p : ConnM Unit) : ServerM Unit := do
  let s ← get
  let cs ← s.connections.mapM fun c => do
    let ran ← onConnection c p
    pure ran.2
  modify fun s => { s with connections := cs }

def handleControl (cmd : ControlBotCommand) : ServerM Unit :=
  eachConnection (handleConnControl cmd)

def handleContact (cfc : ContactFactoryCommand) : ServerM Unit :=
  match cfc with
  | .processMessages => eachConnection processMessages
  | _ => pure ()

def accept : Except Str (SocketAddr × List Readable) → ServerM Unit
  | .ok (addr, sock) => modify fun s => { s with pending := s.pending ++ [fromIncoming sock addr] }
  | .error e => throw (.error e)

/-- Poll a pending connection; it is given back if it stays one. -/
def pollPending (w : Wire) (p : PendingIrcConnection) : ServerM (Option PendingIrcConnection) :=
  match exec (Registration.poll w) p with
  | (.ok true, p') => do
      let reginfo ← unwrap .registrationField (registrationInformation p')
      modify fun s =>
        { s with connections := s.connections ++ [fromPending p' reginfo s.store s.now] }
      pure none
  | (.ok false, p') => pure (some p')
  | (.error (.panic site), _) => throw (.panic site)
  | (.error _, _) => pure none

/-- Poll a connection, and hand on the commands that it has queued for the managers. -/
def pollConnection (w : Wire) (c : IrcConnection) : ServerM (Option IrcConnection) := do
  let (r, c') ← onConnection c (pollConn w)
  modify fun s => { s with waTx := s.waTx ++ c'.waOutbox, mTx := s.mTx ++ c'.mOutbox }
  let drained := { c' with waOutbox := [], mOutbox := [] }
  match r with
  | .ok _ => pure (some drained)
  | .error _ => do
      modify fun s => { s with closed := s.closed ++ [drained] }
      pure none

def acceptAll : ServerM Unit := do
  let s ← get
  set { s with incoming := [] }
  forM s.incoming accept

def pollPendings (wire : SocketAddr → Wire) : ServerM Unit := do
  let s ← get
  let kept ← s.pending.mapM fun p => pollPending (wire p.addr) p
  modify fun s => { s with pending := kept.reduceOption }

def receive : ServerM Unit := do
  let s ← get
  set { s with cbRx := [], cfRx := [] }
  forM s.cbRx handleControl
  forM s.cfRx handleContact

def pollConnections (wire : SocketAddr → Wire) : ServerM Unit := do
  let s ← get
  let kept ← s.connections.mapM fun c => pollConnection (wire c.addr) c
  modify fun s => { s with connections := kept.reduceOption }

/-- `IrcServer::poll`. -/
def poll (wire : SocketAddr → Wire) : ServerM Unit := do
  acceptAll
  pollPendings wire
  receive
  pollConnections wire

end SmsIrc.IrcS2c
