import SmsIrc.ContactCommon
import SmsIrc.ControlCommands
import SmsIrc.InspUsers
import SmsIrc.Logging

/-!
`src/insp_s2s.rs`: InspIRCd server-to-server linking.
-/

namespace SmsIrc.Link

open SmsIrc.Admin SmsIrc.Comm SmsIrc.ContactCommon SmsIrc.ControlCommands
open SmsIrc.Database SmsIrc.External SmsIrc.HashMaps SmsIrc.InspUsers SmsIrc.Models
open SmsIrc.Program SmsIrc.SenderCommon SmsIrc.Text SmsIrc.Util
open SmsIrc.Logging (Level enabled)

structure InspContact where
  uuid : Str
  channels : List Str
  waMode : Bool
deriving DecidableEq

inductive LinkState where
  | tcpConnected
  | serverSent
  | burstSent
  | linked
deriving DecidableEq

/-- `InspConfig`, without the address of the server, and what `log::max_level` is. -/
structure InspConfig where
  sid : Str
  controlNick : Str
  adminNick : Str
  sendpass : Str
  recvpass : Str
  serverDesc : Str
  serverName : Str
  logChan : Str
  setTopics : Bool
  clobberTopics : Bool
  ensureJoined : Bool
  maxLevel : Option Level
deriving DecidableEq

variable [Crates]

structure InspLink where
  cfg : InspConfig
  controlUuid : Str
  nextUserId : Nat
  remoteSid : Str
  /-- The commands sent to the other parts so far, this link included. -/
  cfTx : List ContactFactoryCommand
  cbTx : List ControlBotCommand
  waTx : List Comm.WhatsappCommand
  mTx : List Comm.ModemCommand
  users : HashMap Str InspUser
  contacts : HashMap PduAddress InspContact
  contactsUuidPdua : HashMap Str PduAddress
  channelTopics : HashMap Str Str
  store : Store
  /-- Everything pushed so far; what has been written to the connection stays. -/
  outbox : List IrcMessage
  channels : List Str
  state : LinkState
  /-- `chrono::Utc::now()`. -/
  now : NaiveDateTime
  /-- Not in the source: the calls made as a `Sender`. -/
  calls : List SenderCall
  /-- Not in the source: the results of `get_uuid`. -/
  issued : List Str

abbrev LinkM := Prog Failure InspLink

instance : HasStore InspLink where
  getStore l := l.store
  setStore l st := { l with store := st }

def InspLink.new (cfg : InspConfig) (store : Store) (now : NaiveDateTime) : InspLink where
  cfg := cfg
  controlUuid := cfg.sid ++ ("A00000" : Str)
  nextUserId := 1
  remoteSid := "XXX"
  cfTx := []
  cbTx := []
  waTx := []
  mTx := []
  users := ∅
  contacts := ∅
  contactsUuidPdua := ∅
  channelTopics := ∅
  store := store
  outbox := []
  channels := []
  state := .tcpConnected
  now := now
  calls := []
  issued := []

/-- `outbox.push` of a new message. -/
def push (prefixStr : Str) (cmd : String) (args : List Str) (suffix : Option Str) :
    LinkM Unit :=
  modify fun l =>
    { l with outbox := l.outbox ++ [IrcMessage.new (some prefixStr) cmd.toList args suffix] }

def sendSidLine (cmd : String) (args : List Str) (suffix : Option Str) : LinkM Unit := do
  let l ← get
  push l.cfg.sid cmd args suffix

def hostForWa (l : InspLink) (wa : Bool) : Str :=
  if wa then ("wa." : Str) ++ l.cfg.serverName else ("s." : Str) ++ l.cfg.serverName

def waSend (c : Comm.WhatsappCommand) : LinkM Unit :=
  modify fun l => { l with waTx := l.waTx ++ [c] }

def mSend (c : Comm.ModemCommand) : LinkM Unit :=
  modify fun l => { l with mTx := l.mTx ++ [c] }

def cfSend (c : ContactFactoryCommand) : LinkM Unit :=
  modify fun l => { l with cfTx := l.cfTx ++ [c] }

def cbSend (c : ControlBotCommand) : LinkM Unit :=
  modify fun l => { l with cbTx := l.cbTx ++ [c] }

/-- The users in the order of iteration. -/
def userList (l : InspLink) : List (Str × InspUser) := Crates.hashOrder.run (pairs l.users)

def nickExists (l : InspLink) (nick : Str) : Bool :=
  ((userList l).any fun u => u.2.nick = nick) || decide (nick = l.cfg.adminNick)

/-- The search for a suffix that makes a nick free. -/
def freeNick (taken : Str → Bool) (nick : Str) : Nat → Nat → Str
  | 0, idx => nick ++ decimal idx
  | fuel + 1, idx =>
      if taken (nick ++ decimal idx) then freeNick taken nick fuel (idx + 1)
      else nick ++ decimal idx

def checkNickForCollisions (l : InspLink) (nick : Str) : Option Str :=
  if nickExists l nick then
    some (freeNick (nickExists l) nick (l.users.entries.length + 1) 0)
  else none

def adminUuid (l : InspLink) : Option Str :=
  ((userList l).find? fun u => u.2.nick = l.cfg.adminNick).map fun u => u.1

/-- The line that introduces a user. -/
def uidLine (sid uid : Str) (user : InspUser) : IrcMessage :=
  IrcMessage.new (some sid) ("UID" : Str)
    [uid, decimalInt user.ts, user.nick, user.hostname, user.displayedHostname, user.ident,
      user.ip, decimalInt user.signonTime, user.modes]
    (some user.gecos)

def makeUidLine (uid : Str) : LinkM IrcMessage := do
  let l ← get
  match l.users.lookup uid with
  | some user => pure (uidLine l.cfg.sid uid user)
  | none => throw (.error ("no user found in make_uid_line()" : Str))

def send (m : IrcMessage) : LinkM Unit :=
  modify fun l => { l with outbox := l.outbox ++ [m] }

def insertUser (uuid : Str) (user : InspUser) : LinkM Unit :=
  modify fun l => { l with users := l.users.insert uuid user }

/-- `{}Z{:05}`. -/
def uuidOf (sid : Str) (n : Nat) : Str := sid ++ 'Z' :: zeroPadded 5 n

def getUuid : LinkM Str := do
  let l ← get
  if l.nextUserId > 99999 then throw (.error ("UUIDs exhausted" : Str))
  else do
    let ret := uuidOf l.cfg.sid l.nextUserId
    set { l with nextUserId := l.nextUserId + 1, issued := l.issued ++ [ret] }
    pure ret

def newUser (user : InspUser) : LinkM Str := do
  let uuid ← getUuid
  insertUser uuid user
  let line ← makeUidLine uuid
  send line
  pure uuid

/-- `HashSet::insert`. -/
def joinChannel (ch : Str) : LinkM Unit :=
  modify fun l => { l with channels := if ch ∈ l.channels then l.channels else l.channels ++ [ch] }

def processGroupsForRecipient (a : PduAddress) : LinkM Unit := do
  let l ← get
  let ct ← unwrap .processGroupsContact (l.contacts.lookup a)
  let grps ← store (getGroupsForRecipient a)
  forM grps fun grp => do
    push ct.uuid "JOIN" [grp.channel] none
    joinChannel grp.channel
  let inGroups := grps.map fun grp => grp.channel
  when (l.cfg.logChan ∉ inGroups) (push ct.uuid "JOIN" [l.cfg.logChan] none)
  let chans := if l.cfg.logChan ∈ inGroups then inGroups else inGroups ++ [l.cfg.logChan]
  forM ct.channels fun ch =>
    when (ch ∉ chans) (push ct.uuid "PART" [ch] (some ("Left group" : Str)))
  modify fun l => { l with contacts := l.contacts.insert a { ct with channels := chans } }

def addContact (addr : PduAddress) (ct : InspContact) : LinkM Unit :=
  modify fun l =>
    { l with
      contacts := l.contacts.insert addr ct
      contactsUuidPdua := l.contactsUuidPdua.insert ct.uuid addr }

/-- The nick that a new ghost gets; a nick that collides is changed in the
database as well. -/
def nickFor (recip : Recipient) (addr : PduAddress) : LinkM Str := do
  let l ← get
  match checkNickForCollisions l recip.nick with
  | some n => do
      store (updateRecipientNick addr n nicksrcCollision)
      pure n
  | none => pure recip.nick

def setupContactFor (recip : Recipient) (addr : PduAddress) : LinkM Unit := do
  let nick ← nickFor recip addr
  let l ← get
  let uuid ← newUser (newFromRecipient l.now addr nick (hostForWa l recip.whatsapp))
  addContact addr { uuid := uuid, channels := [], waMode := recip.whatsapp }
  when (l.state = .linked) (processGroupsForRecipient addr)

def hasContact (addr : PduAddress) : LinkM Bool := do
  let l ← get
  pure (l.contacts.lookup addr).isSome

instance : ContactSetup InspLink where
  waSend := waSend
  mSend := mSend
  cbSend := cbSend
  setupContactFor := setupContactFor
  hasContact := hasContact

def removeUser (uuid : Str) (recreate : Bool) : LinkM Unit := do
  let l ← get
  let addr := l.contactsUuidPdua.lookup uuid
  set { l with
    contacts := match addr with
      | some pdua => l.contacts.erase pdua
      | none => l.contacts
    contactsUuidPdua := l.contactsUuidPdua.erase uuid
    users := l.users.erase uuid }
  match addr with
  | some a => when recreate (setupContact a)
  | none => pure ()

/-- The ghost of a contact that is removed quits. -/
def quitGhost : Option InspContact → LinkM Unit
  | some ct => do
      push ct.uuid "QUIT" [] (some ("Contact removed" : Str))
      removeUser ct.uuid false
  | none => pure ()

def removeContactFor (addr : PduAddress) : LinkM Unit := do
  let l ← get
  quitGhost (l.contacts.lookup addr)
  modify fun l =>
    { l with
      contacts := l.contacts.erase addr
      contactsUuidPdua := retain (fun _ v => decide (v ≠ addr)) l.contactsUuidPdua }

def resolveNick (nick : Str) : LinkM (Option PduAddress) := do
  let l ← get
  pure ((userList l).findSome? fun u =>
    if u.2.nick = nick then l.contactsUuidPdua.lookup u.1 else none)

def setWaState (addr : PduAddress) (waState : Bool) : LinkM Unit := do
  let l ← get
  let ct ← unwrap .setWaStateContact (l.contacts.lookup addr)
  modify fun l => { l with contacts := l.contacts.insert addr { ct with waMode := waState } }
  store (updateRecipientWa addr waState)
  let host := hostForWa l waState
  push ct.uuid "FHOST" [host] none
  modify fun l =>
    match l.users.lookup ct.uuid with
    | some user =>
        { l with users := l.users.insert ct.uuid { user with displayedHostname := host } }
    | none => l

/-- `forward_cmd` for `ChangeNick`, once the contact is known to exist. -/
def changeNick (a : PduAddress) (ct : InspContact) (st : Str) (osrc : Int) : LinkM Unit := do
  let l ← get
  let u ← unwrap .forwardCmdUser (l.users.lookup ct.uuid)
  if u.nick = st then pure ()
  else do
    let (nick, src) := match checkNickForCollisions l st with
      | some n => (n, nicksrcCollision)
      | none => (st, osrc)
    insertUser ct.uuid { u with nick := nick }
    push ct.uuid "NICK" [nick, decimalInt (timestamp l.now)] none
    store (updateRecipientNick a nick src)

def forwardCmd (a : PduAddress) (cmd : ContactManagerCommand) : LinkM Unit := do
  let l ← get
  if (l.contacts.lookup a).isSome then
    match cmd with
    | .updateAway text => do
        let ct ← unwrap .forwardCmdContact (l.contacts.lookup a)
        push ct.uuid "AWAY" [] text
    | .changeNick st osrc => do
        let ct ← unwrap .forwardCmdContact (l.contacts.lookup a)
        changeNick a ct st osrc
    | .setWhatsapp wam => do
        let ct ← unwrap .forwardCmdContact (l.contacts.lookup a)
        modify fun l => { l with contacts := l.contacts.insert a { ct with waMode := wam } }
        setWaState a wam
    | _ => pure ()
  else pure ()

instance : ContactManagerManager InspLink where
  removeContactFor := removeContactFor
  forwardCmd := forwardCmd
  resolveNick := resolveNick

def controlResponse (msg : Str) : LinkM Unit := do
  let l ← get
  match adminUuid l with
  | some admu => push l.controlUuid "NOTICE" [admu] (some msg)
  | none => pure ()

/-- `{:?}` of an optional string. -/
def debugOption : Option Str → Str
  | none => "None"
  | some s => ("Some(" : Str) ++ debugStr Crates.printed s ++ (")" : Str)

/-- `INSP RAW`. -/
def sendRaw (msg : Str) : LinkM Unit :=
  match Crates.parseMessage msg with
  | .ok m => send m
  | .error e => controlResponse (("parse err: " : Str) ++ e)

def processInsp : InspCommand → LinkM Bool
  | .raw msg => do
      sendRaw msg
      pure true
  | .queryUuid uu => do
      let l ← get
      forM (lines (debugPretty (l.users.lookup uu))) controlResponse
      pure true
  | .queryNickUuid qnu => do
      let l ← get
      let nick := ((userList l).filter fun u => u.2.nick = qnu).getLast?.map fun u => u.1
      controlResponse (("result = " : Str) ++ debugOption nick)
      pure true

instance : ControlCommon InspLink where
  waSend := waSend
  cfSend := cfSend
  mSend := mSend
  processInsp := processInsp
  controlResponse := controlResponse

def contactMessage (uid : Str) (kind : String) (target message : Str) : LinkM Unit := do
  let l ← get
  if (l.users.lookup uid).isNone then
    throw (.error (("contact_message called with unknown uid " : Str) ++ uid))
  else if !startsWith uid l.cfg.sid then
    throw (.error (("Got contact_message for uid " : Str) ++ uid ++
      (" that isn't owned by us" : Str)))
  else push uid kind [target] (some message)

instance : Sender InspLink where
  reportError uid err := do
    let l ← get
    contactMessage uid "NOTICE" l.cfg.adminNick err
  privateTarget := do
    let l ← get
    pure ((adminUuid l).getD l.cfg.logChan)
  sendIrcMessage uid dest msg := contactMessage uid "PRIVMSG" dest msg
  ensureJoined ch := do
    let l ← get
    if l.cfg.ensureJoined then
      match adminUuid l with
      | some admu => sendSidLine "SVSJOIN" [admu, ch] none
      | none => pure ()
    else pure ()
  utcNow := do
    let l ← get
    pure l.now
  record c := modify fun l => { l with calls := l.calls ++ [c] }

/-- The mode line that `process_groups` sends for a participant. -/
def processParticipant (grp : Group) (part : Nat) : LinkM Unit := do
  match ← store (getRecipientByIdOpt part) with
  | none => pure ()
  | some recip => do
      let num ← recip.getAddr
      let l ← get
      match l.contacts.lookup num with
      | none => pure ()
      | some ct =>
          let mode : Str := if grp.admins.contains part then "+o" else "-o"
          push l.cfg.sid "MODE" [grp.channel, mode, ct.uuid] none

/-- The topic line that `process_groups` sends for a group. -/
def processTopic (grp : Group) : LinkM Unit := do
  let l ← get
  let topic := (l.channelTopics.lookup grp.channel).getD []
  if topic = [] ∨ l.cfg.clobberTopics = true ∧ topic ≠ grp.topic then do
    push l.cfg.sid "TOPIC" [grp.channel] (some grp.topic)
    modify fun l => { l with channelTopics := l.channelTopics.insert grp.channel grp.topic }
  else
    modify fun l => { l with channelTopics := l.channelTopics.insert grp.channel topic }

def processGroup (grp : Group) : LinkM Unit := do
  forM grp.participants (processParticipant grp)
  let l ← get
  when l.cfg.setTopics (processTopic grp)

def processGroups : LinkM Unit := do
  modify fun l => { l with channels := [] }
  let l ← get
  forM (Crates.hashOrder.run l.contacts.keys) processGroupsForRecipient
  let grps ← store getAllGroups
  forM grps processGroup

/-- The contact of a row is set up, if it is not there and can be. -/
def contactReady (addr : PduAddress) (src : Nat) : LinkM Bool := do
  let present ← hasContact addr
  if present then pure true else requestContact addr src

/-- Put a contact into the mode of a message that it sends. -/
def switchMode (addr : PduAddress) (auid : Str) (ct : InspContact) (wa : Bool) : LinkM Unit :=
  when (ct.waMode ≠ wa) do
    setWaState addr wa
    contactMessage ct.uuid "NOTICE" auid
      (if wa then ("Notice: WhatsApp mode automatically enabled." : Str)
        else ("Notice: SMS mode automatically enabled." : Str))

/-- The body of the loop of `process_messages`. -/
def processMessage (auid : Str) (msg : Message) : LinkM Unit := do
  let addr ← msg.getAddr
  let ready ← contactReady addr msg.source
  when ready do
    let l ← get
    let ct ← unwrap .processMessagesContact (l.contacts.lookup addr)
    match msg.pdu with
    | some raw =>
        match Crates.deliverPduTryFrom raw with
        | .error e => throw (.error e)
        | .ok pdu => do
            switchMode addr auid ct false
            processMsgPdu ct.uuid msg pdu
    | none => do
        switchMode addr auid ct true
        processMsgPlain ct.uuid msg

def processMessages : LinkM Unit := do
  let l ← get
  match adminUuid l with
  | none => pure ()
  | some auid => do
      let msgs ← store getAllMessages
      forM msgs (processMessage auid)

def doCapabAndServer : LinkM Unit := do
  sendSidLine "CAPAB" [("START" : Str), ("1202" : Str)] none
  forM ["PROTOCOL=1202", "NICKMAX=100", "CHANMAX=100", "MAXMODES=100", "IDENTMAX=100",
      "MAXQUIT=100", "MAXTOPIC=100", "MAXKICK=100", "MAXGECOS=100", "MAXAWAY=100"]
    fun capab => sendSidLine "CAPAB" [("CAPABILITIES" : Str)] (some capab.toList)
  sendSidLine "CAPAB" [("END" : Str)] none
  let l ← get
  push l.cfg.sid "SERVER" [l.cfg.serverName, l.cfg.sendpass, ("0" : Str), l.cfg.sid]
    (some l.cfg.serverDesc)

def doBurst : LinkM Unit := do
  let l ← get
  sendSidLine "BURST" [decimalInt (timestamp l.now)] none
  insertUser l.controlUuid (newForControlbot l.now l.cfg.controlNick l.cfg.serverName)
  let line ← makeUidLine l.controlUuid
  send line
  sendSidLine "ENDBURST" [] none

def doQuasiburst : LinkM Unit := do
  let recips ← store getAllRecipients
  forM recips setupRecipient

def onLinked : LinkM Unit := do
  let l ← get
  push l.controlUuid "JOIN" [l.cfg.logChan] none
  processGroups
  processMessages

/-- The `info!` of an accepted server; its arguments are only evaluated when it is logged. -/
def logVerified (suffix : Option Str) : LinkM Unit := do
  let l ← get
  when (enabled l.cfg.maxLevel .info = true) do
    let _ ← unwrap .serverSuffix suffix

theorem wp_logVerified {suffix : Option Str} {Q : Unit → InspLink → Prop}
    {E : Failure → InspLink → Prop} {l : InspLink}
    (hpanic : suffix = none → enabled l.cfg.maxLevel .info = true → E (.panic .serverSuffix) l)
    (hok : Q () l) : wp (logVerified suffix) Q E l := by
  rw [logVerified, wp_bind, wp_get, wp_when]
  split
  · rename_i hinfo
    cases suffix with
    | none => exact hpanic rfl hinfo
    | some s => exact hok
  · exact hok

theorem steps_logVerified {R : InspLink → InspLink → Prop} [IsPreorder InspLink R]
    {P : Failure → Prop} (h : P (.panic .serverSuffix)) (suffix : Option Str) :
    Steps R P (logVerified suffix) :=
  fun l => wp_logVerified (fun _ _ => ⟨refl l, h⟩) (refl l)

/-- `SERVER` as the first line of the other side. -/
def handleServer (args : List Str) (suffix : Option Str) : LinkM Unit := do
  let l ← get
  match args with
  | [_, pass, hops, sid] =>
      if pass ≠ l.cfg.recvpass then
        throw (.error ("Invalid password from remote server" : Str))
      else if hops ≠ ("0" : Str) then
        throw (.error (("Received 1-to-1 SERVER with hopcount != 0: " : Str) ++
          debugList args))
      else do
        logVerified suffix
        modify fun l => { l with remoteSid := sid }
        doBurst
        modify fun l => { l with state := .burstSent }
  | _ =>
      throw (.error (("Received invalid 1-to-1 SERVER: " : Str) ++ debugList args))

def handleUnprefixed : IrcCommand → LinkM Unit
  | .error details => throw (.error (("Error from server: " : Str) ++ details))
  | .raw cmd args suffix =>
      when (cmd = ("SERVER" : Str)) (handleServer args suffix)
  | _ => pure ()

/-- A message of the admin. -/
def handlePrivmsg (source target msg : Str) : LinkM Unit := do
  let l ← get
  if some source ≠ adminUuid l then pure ()
  else if target = l.controlUuid then processAdminCommand msg
  else if target ∈ l.channels then waSend (.sendGroupMessage target msg)
  else
    match l.contactsUuidPdua.lookup target with
    | none => pure ()
    | some addr =>
        match l.contacts.lookup addr with
        | none => pure ()
        | some ct =>
            if ct.waMode then waSend (.sendDirectMessage addr msg)
            else mSend (.sendMessage addr msg)

def handleUid (args : List Str) (suffix : Option Str) : LinkM Unit :=
  match newFromUidLine args suffix with
  | .error e => throw e
  | .ok (uuid, user) => do
      insertUser uuid user
      let l ← get
      when (user.nick = l.cfg.adminNick) processMessages

/-- Change the user a line comes from, if it is known. -/
def updateUser (uuid : Str) (f : InspUser → InspUser) : LinkM Unit :=
  modify fun l =>
    match l.users.lookup uuid with
    | some user => { l with users := l.users.insert uuid (f user) }
    | none => l

def handleEndburst (source : Str) : LinkM Unit := do
  let l ← get
  when (l.remoteSid = source) do
    doQuasiburst
    modify fun l => { l with state := .linked }
    onLinked

def handleRaw (source cmd : Str) (args : List Str) (suffix : Option Str) : LinkM Unit :=
  if cmd = ("UID" : Str) then handleUid args suffix
  else if cmd = ("NICK" : Str) then
    match args with
    | [] => pure ()
    | nick :: _ => updateUser source fun user => { user with nick := nick }
  else if cmd = ("FTOPIC" : Str) then
    match args, suffix with
    | chan :: _ :: _ :: _, some topic =>
        modify fun l => { l with channelTopics := l.channelTopics.insert chan topic }
    | _, _ => pure ()
  else if cmd = ("FHOST" : Str) then
    match args with
    | [] => pure ()
    | host :: _ => updateUser source fun user => { user with displayedHostname := host }
  else if cmd = ("ENDBURST" : Str) then handleEndburst source
  else pure ()

/-- The users of a server that is gone. -/
def handleSquit (server : Str) : LinkM Unit :=
  modify fun l => { l with users := retain (fun k _ => !startsWith k server) l.users }

def handleRemoteMessage (m : IrcMessage) : LinkM Unit :=
  match m.prefixStr with
  | none => handleUnprefixed m.command
  | some source =>
      match m.command with
      | .privmsg target msg => handlePrivmsg source target msg
      | .error details => throw (.error (("Error from server: " : Str) ++ details))
      | .kill uuid _ => removeUser uuid true
      | .quit _ => removeUser source true
      | .ping data none => sendSidLine "PONG" [data] none
      | .ping src (some dest) => sendSidLine "PONG" [dest, src] none
      | .squit server _ => handleSquit server
      | .raw cmd args suffix => handleRaw source cmd args suffix
      | .other _ => pure ()

def handleCfCommand : ContactFactoryCommand → LinkM Unit
  | .processMessages => processMessages
  | .processGroups => processGroups
  | .setupContact a => setupContact a
  | .queryContact a src => queryContact a src
  | .dropContact a => dropContact a
  | .dropContactByNick a => dropContactByNick a
  | .loadRecipients => pure ()
  | .forwardCommand a cmd => forwardCmd a cmd
  | .forwardCommandByNick a cmd => forwardCmdByNick a cmd
  | .subscribePresenceByNick nick => subscribePresenceByNick nick
  | .processAvatars => pure ()

def handleCbCommand : ControlBotCommand → LinkM Unit
  | .log line => do
      let l ← get
      push l.cfg.sid "NOTICE" [l.cfg.logChan] (some line)
  | .reportFailure fail => do
      let l ← get
      match adminUuid l with
      | some admu =>
          push l.cfg.sid "PRIVMSG" [admu]
            (some (l.cfg.adminNick ++ (": \x02\x0304" : Str) ++ fail ++ ['\x0f']))
      | none => pure ()
  | .commandResponse resp => controlResponse resp
  | .processGroups => processGroups

end SmsIrc.Link
