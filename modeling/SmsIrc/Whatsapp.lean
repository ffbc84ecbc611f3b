import SmsIrc.Logging
import SmsIrc.WaAck
import SmsIrc.WaConn
import SmsIrc.WhatsappMsg

/-!
`src/whatsapp.rs`: the WhatsApp side of the bridge. The ids that are generated,
the clocks and what the outside world answers are fields of the state.
-/

namespace SmsIrc.Whatsapp

open SmsIrc.Comm SmsIrc.Database SmsIrc.External SmsIrc.HashMaps SmsIrc.Logging
open SmsIrc.Models SmsIrc.Program SmsIrc.SenderCommon SmsIrc.Text SmsIrc.Util
open SmsIrc.WaAck SmsIrc.WaConn SmsIrc.WhatsappMsg

/-- The section `whatsapp` of the configuration. -/
structure WhatsappConfig where
  mediaPath : Option Str
  dlPath : Option Str
  autocreatePrefix : Option Str
  backlogStart : Option NaiveDateTime
  markRead : Bool
  autoupdateNicks : Bool
  trackPresence : Bool
  ackWarnMs : Option Nat
  ackWarnPendingMs : Option Nat
  ackExpiryMs : Option Nat

variable [Crates]

structure WhatsappManager where
  conn : WebConnectionWrapper
  rx : List WhatsappCommand
  cfTx : List ContactFactoryCommand
  cbTx : List ControlBotCommand
  contacts : HashMap Jid WaContact
  chats : HashMap Jid WaChat
  /-- When presence updates were last requested, on the monotonic clock. -/
  presenceRequests : HashMap Jid Nat
  /-- It holds the handle of the database, of which the manager has a clone. -/
  msgproc : WaMessageProcessor
  ackp : WaAckTracker
  backlogStart : Option NaiveDateTime
  connected : Bool
  qrPath : Str
  autocreate : Option Str
  autoupdateNicks : Bool
  markRead : Bool
  trackPresence : Bool
  ourJid : Option Jid
  prevJid : Option Jid
  outbox : List WaRequest
  now : NaiveDateTime
  /-- The monotonic clock, in nanoseconds. -/
  instant : Nat
  /-- What `MessageId::generate` returns, by the number of the call. -/
  generated : Nat → Str
  generations : Nat
  chanLoglevel : Option Level
  /-- What is said of an error that comes from outside. -/
  errorText : Str
  /-- Not in the source: the requests that the connection has accepted. -/
  sent : List WaRequest
  /-- Not in the source: all requests that have been put in the outbox. -/
  requested : List WaRequest
  /-- Not in the source: the messages that have been accepted for sending. -/
  accepted : List (Jid × ChatMessageContent)
  /-- Not in the source: the messages that a check of the tracker has dropped. -/
  expired : List MessageSendStatus

abbrev WaM := Prog Failure WhatsappManager

instance : HasStore WhatsappManager where
  getStore m := m.msgproc.store
  setStore m st := { m with msgproc := { m.msgproc with store := st } }

/-- A new manager, which logs on as its first command. -/
def WhatsappManager.new (cfg : WhatsappConfig) (store : Store) (now : NaiveDateTime)
    (instant : Nat) (generated : Nat → Str) (contactFile : Nat → Except Str Str)
    (chanLoglevel : Option Level) (errorText : Str) : WhatsappManager where
  conn := .new
  rx := [.logonIfSaved]
  cfTx := []
  cbTx := []
  contacts := ∅
  chats := ∅
  presenceRequests := ∅
  msgproc :=
    { store := store
      dlPath := cfg.dlPath.getD ("file:///tmp/wa_media" : Str)
      contactFile := contactFile
      contactFiles := 0
      downloads := [] }
  ackp := .new cfg.ackWarnMs cfg.ackWarnPendingMs cfg.ackExpiryMs
  backlogStart := cfg.backlogStart
  connected := false
  qrPath := cfg.mediaPath.getD ("/tmp/wa_media" : Str) ++ ("/qr.png" : Str)
  autocreate := cfg.autocreatePrefix
  autoupdateNicks := cfg.autoupdateNicks
  markRead := cfg.markRead
  trackPresence := cfg.trackPresence
  ourJid := none
  prevJid := none
  outbox := []
  now := now
  instant := instant
  generated := generated
  generations := 0
  chanLoglevel := chanLoglevel
  errorText := errorText
  sent := []
  requested := []
  accepted := []
  expired := []

def cbSend (c : ControlBotCommand) : WaM Unit :=
  modify fun m => { m with cbTx := m.cbTx ++ [c] }

def cfSend (c : ContactFactoryCommand) : WaM Unit :=
  modify fun m => { m with cfTx := m.cfTx ++ [c] }

def cbRespond (s : Str) : WaM Unit := cbSend (.commandResponse s)

/-- `outbox.push_back`. -/
def pushBack (r : WaRequest) : WaM Unit :=
  modify fun m => { m with outbox := m.outbox ++ [r], requested := m.requested ++ [r] }

/-- A log record; those that carry a text of a peer are modelled. -/
def logRecord (level : Level) (args : Str) : WaM Unit :=
  modify fun m =>
    { m with cbTx := m.cbTx ++ log m.chanLoglevel ("sms_irc::whatsapp" : Str) level args }

/-- A method of the message processor. -/
def withMsgproc {α : Type} (p : MsgM α) : WaM α :=
  zoom (fun m => m.msgproc) (fun m q => { m with msgproc := q }) p

/-- `MessageId::generate`. -/
def generateId : WaM Str := do
  let m ← get
  set { m with generations := m.generations + 1 }
  pure (m.generated m.generations)

/-- The text of an error. -/
def failureText (m : WhatsappManager) : Failure → Str
  | .error msg => msg
  | _ => m.errorText

def setConn (f : WebConnectionWrapper → WebConnectionWrapper) : WaM Unit :=
  modify fun m => { m with conn := f m.conn }

def notAddress (jid : Jid) : Failure :=
  .error (("couldn't translate jid " : Str) ++ Crates.displayJid jid ++ (" to address" : Str))

def getNickForJid (jid : Jid) : WaM (Str × Int) := do
  let m ← get
  let ct := m.contacts.lookup jid
  match ct.bind WaContact.name, ct.bind WaContact.notify with
  | some name, _ => pure (stringToIrcNick name, nicksrcWaContact)
  | none, some name => pure (stringToIrcNick name, nicksrcWaNotify)
  | none, none => do
      match ← jidToAddress jid with
      | some addr => pure (makeNickForAddress addr, nicksrcAuto)
      | none => throw (notAddress jid)

/-- The part of `get_wa_recipient` that follows the translation of the JID. -/
def recipientFor (jid : Jid) (addr : PduAddress) : WaM Recipient := do
  match ← store (getRecipientByAddrOpt addr) with
  | some recip => pure recip
  | none => do
      let (nick, nicksrc) ← getNickForJid jid
      let m ← get
      let ntf := (m.contacts.lookup jid).bind WaContact.notify
      let ret ← store (storeWaRecipient addr nick ntf nicksrc)
      cfSend (.setupContact addr)
      pure ret

def getWaRecipient (jid : Jid) : WaM Recipient := do
  match ← jidToAddress jid with
  | some addr => recipientFor jid addr
  | none => throw (notAddress jid)

def storeMessage (fromJid : Jid) (text : Str) (group : Option Nat) (ts : NaiveDateTime) :
    WaM Unit := do
  match ← jidToAddress fromJid with
  | some addr => do
      let _ ← getWaRecipient fromJid
      store (storeWaMessage addr text group ts)
      cfSend .processMessages
  | none => pure ()

def requestUpdateGroup (jid : Jid) : WaM Unit := pushBack (.getGroupMetadata jid)

def onGroupsChanged : WaM Unit := do
  cfSend .processGroups
  cbSend .processGroups

/-- Whether both the session and the connection are up. -/
def online (m : WhatsappManager) : Bool := m.connected && m.conn.isConnected

/-- The conditions under which a group is not bridged, after those about the
tables. -/
def checkOnline (jid : Jid) : WaM Unit := do
  let m ← get
  if !online m then throw (.error ("we aren't connected to WhatsApp!" : Str))
  else if !jid.isGroup then throw (.error ("that jid isn't a group!" : Str))
  else pure ()

def checkUnbridged (jid : Jid) : WaM Unit := do
  match ← store (getGroupByJidOpt jid) with
  | some grp =>
      throw (.error (("that group already exists (channel " : Str) ++ grp.channel ++
        (")!" : Str)))
  | none => pure ()

def checkUnused (chan : Str) : WaM Unit := do
  match ← store (getGroupByChanOpt chan) with
  | some grp =>
      throw (.error (("that channel is already used for a group (jid " : Str) ++ grp.jid ++
        (")!" : Str)))
  | none => pure ()

def groupAssociate (jid : Jid) (chan : Str) (requestUpdate : Bool) : WaM Nat := do
  checkUnbridged jid
  checkUnused chan
  checkOnline jid
  let grp ← store (storeGroup jid chan [] []
    ("*** Group setup in progress, please wait... ***" : Str))
  when requestUpdate (requestUpdateGroup jid)
  onGroupsChanged
  pure grp.id

def groupAssociateHandler (jid : Jid) (chan : Str) : WaM Unit := do
  match ← attempt (groupAssociate jid chan true) with
  | .ok _ => cbRespond ("Group creation successful." : Str)
  | .error e => do
      let m ← get
      cbRespond (("Group creation failed: " : Str) ++ failureText m e)

/-- The channel that a group is bridged to automatically. -/
def autocreateChan (subject : Str) : WaM Str := do
  let m ← get
  let pre ← unwrap .autocreatePrefix m.autocreate
  pure (pre ++ ['-'] ++ stringToIrcChan subject)

def groupAutocreateFromUnbridged (jid : Jid) : WaM Nat := do
  let m ← get
  match m.chats.lookup jid with
  | none => throw (.error ("chat not in chat list" : Str))
  | some chat =>
      match chat.name with
      | none => throw (.error ("chat unnamed" : Str))
      | some name => do
          let chan ← autocreateChan name
          groupAssociate jid chan true

def autocreated (subject chan : Str) (id : Nat) : Str :=
  ("Automatically bridged new group '" : Str) ++ subject ++ ("' to channel " : Str) ++ chan ++
    (" (id " : Str) ++ decimal id ++ [')']

def notAutocreated (jid : Jid) : Str :=
  ("Failed to autocreate new group " : Str) ++ Crates.displayJid jid ++
    (" - check logs for details." : Str)

/-- What is said about an attempt to bridge a group. -/
def reportAutocreation (metadata : GroupMetadata) : Except Failure (Nat × Str) → WaM Unit
  | .ok (id, chan) => cbRespond (autocreated metadata.subject chan id)
  | .error _ => cbRespond (notAutocreated metadata.id)

/-- The recipient of a participant, and whether it is an admin. -/
def participantOf (p : Jid × Bool) : WaM (Nat × Bool) := do
  let recip ← getWaRecipient p.1
  pure (recip.id, p.2)

/-- The end of `on_got_group_metadata`. -/
def updateFromMetadata (grp : GroupMetadata) : WaM Unit := do
  let recips ← grp.participants.mapM participantOf
  let _ ← store (updateGroup grp.id (recips.map Prod.fst)
    ((recips.filter fun r => r.2).map Prod.fst) grp.subject)
  onGroupsChanged

/-- `group_autocreate`; `gotMetadata` is `on_got_group_metadata`, which calls this
again. -/
def groupAutocreate (gotMetadata : GroupMetadata → WaM Unit) (metadata : GroupMetadata) :
    WaM (Nat × Str) := do
  let chan ← autocreateChan metadata.subject
  let id ← groupAssociate metadata.id chan false
  gotMetadata metadata
  pure (id, chan)

/-- The start of `on_got_group_metadata`. -/
def bridgeFromMetadata (gotMetadata : GroupMetadata → WaM Unit) (grp : GroupMetadata) :
    WaM Unit := do
  match ← store (getGroupByJidOpt grp.id) with
  | some g =>
      logRecord .info (("Got metadata for group '" : Str) ++ grp.subject ++ ("' (jid " : Str) ++
        Crates.displayJid grp.id ++ (", id " : Str) ++ decimal g.id ++ [')'])
  | none => do
      logRecord .warn (("Got metadata for unbridged group '" : Str) ++ grp.subject ++
        ("' (jid " : Str) ++ Crates.displayJid grp.id ++ [')'])
      let m ← get
      when m.autocreate.isSome do
        let r ← attempt (groupAutocreate gotMetadata grp)
        reportAutocreation grp r

/-- `on_got_group_metadata`; `depth` is how deep its calls may be nested. -/
def onGotGroupMetadata : Nat → GroupMetadata → WaM Unit
  | 0, _ => throw (.panic .stackOverflow)
  | depth + 1, grp => do
      bridgeFromMetadata (onGotGroupMetadata depth) grp
      updateFromMetadata grp

/-- The bound that is set to it. -/
def metadataDepth : Nat := 2

def groupAutocreateFromIntro (metadata : GroupMetadata) : WaM Unit := do
  let r ← attempt (groupAutocreate (onGotGroupMetadata metadataDepth) metadata)
  reportAutocreation metadata r

/-- Whether presence updates are to be requested again, after five minutes. -/
def presenceDue (m : WhatsappManager) (jid : Jid) : Bool :=
  match m.presenceRequests.lookup jid with
  | some inst => 300000000000 ≤ m.instant - inst
  | none => true

def registerSend (dest : Jid) (content : ChatMessageContent) (mid : Str) (isUnsent : Bool) :
    WaM Unit :=
  modify fun m => { m with ackp := m.ackp.registerSend m.now dest content mid isUnsent }

def queueMessage (content : ChatMessageContent) (jid : Jid) : WaM Unit := do
  let mid ← generateId
  registerSend jid content mid true
  let m ← get
  when m.conn.isDisabled (cbSend (.reportFailure
    ("Warning: WhatsApp Web is currently not set up, but you've tried to send something." : Str)))

/-- `WaMessage::new`. -/
def newMessage (jid : Jid) (content : ChatMessageContent) (mid : Str) (now : NaiveDateTime) :
    WaMessage := ⟨.sending jid, now, mid, content, none⟩

/-- The end of `send_message`. -/
def subscribePresenceOf (jid : Jid) : WaM Unit := do
  let m ← get
  when (!jid.isGroup && m.trackPresence && presenceDue m jid) do
    modify fun m => { m with presenceRequests := m.presenceRequests.insert jid m.instant }
    pushBack (.subscribePresence jid)

def sendMessage (content : ChatMessageContent) (jid : Jid) : WaM Unit := do
  let mid ← generateId
  store (storeWaMsgid mid)
  registerSend jid content mid false
  let m ← get
  pushBack (.sendMessage (newMessage jid content mid m.now))
  subscribePresenceOf jid

/-- A message is accepted: it is sent, or queued while the session is down. -/
def acceptMessage (content : ChatMessageContent) (jid : Jid) : WaM Unit := do
  let m ← get
  set { m with accepted := m.accepted ++ [(jid, content)] }
  if online m then sendMessage content jid else queueMessage content jid

def sendDirectMessage (addr : PduAddress) (content : Str) : WaM Unit :=
  match addressToJid addr with
  | .ok jid => acceptMessage (.text content) jid
  | .error e =>
      cbSend (.reportFailure (("Failed to send to WA contact " : Str) ++
        Crates.displayAddress addr ++ (": " : Str) ++ e))

def sendGroupMessage (chan content : Str) : WaM Unit := do
  match ← store (getGroupByChanOpt chan) with
  | some grp => do
      let jid ← unwrap .groupJid (Crates.parseJid grp.jid)
      acceptMessage (.text content) jid
  | none => pure ()

def subscribePresence (addr : PduAddress) : WaM Unit :=
  match addressToJid addr with
  | .ok jid => do
      let recip ← getWaRecipient jid
      let m ← get
      if m.connected then do
        cbRespond (("Subscribing to presence updates from '" : Str) ++ recip.nick ++
          ("' (jid " : Str) ++ Crates.displayJid jid ++ (")\x60" : Str))
        pushBack (.subscribePresence jid)
      else cbRespond ("Error subscribing: not connected to WA" : Str)
  | .error _ => cbRespond ("Error subscribing: invalid PduAddress" : Str)

def makeContact (addr : PduAddress) : WaM Unit :=
  match addressToJid addr with
  | .ok jid => do
      let _ ← getWaRecipient jid
      cfSend .processMessages
  | .error _ => pure ()

def printAcks : WaM Unit := do
  let m ← get
  forM (m.ackp.printAcks m.now) cbRespond

/-- The line for a download. -/
def resultText : Except Str Str → Str
  | .ok ret => ret
  | .error _ => ("\x01ACTION uploaded media (couldn't download)\x01" : Str)

/-- `WaRequest::MessageRead`, for a peer if there is one. -/
def markAsRead (mid : Str) : Option Peer → WaM Unit
  | some p => pushBack (.messageRead mid p)
  | none => pure ()

def mediaFinished (r : MediaResult) : WaM Unit := do
  storeMessage r.fromJid (resultText r.result) r.group r.ts
  store (storeWaMsgid r.mi)
  let m ← get
  when m.markRead (markAsRead r.mi r.peer)

def logonIfSaved : WaM Unit := do
  match ← store getWaPersistenceOpt with
  | some wap => setConn fun c => c.connectPersistent wap
  | none => pure ()

def startRegistration : WaM Unit := setConn fun c => c.connectNew

def onQr (saved : Bool) : WaM Unit := do
  let m ← get
  if saved then do
    cbRespond (("Scan the QR code saved at " : Str) ++ m.qrPath ++ (" to log in!" : Str))
    cbRespond ("NB: The code is only valid for a few seconds, so scan quickly!" : Str)
  else throw (.error m.errorText)

/-- Who a message is from, and whether that is us. -/
structure Sender where
  peer : Option Peer
  isOurs : Bool
  fromJid : Jid
  group : Option Jid
deriving DecidableEq

/-- The sender of a message, unless it is one of ours in a chat of two. -/
def senderOf (msg : WaMessage) : WaM (Option Sender) :=
  match msg.direction with
  | .sending jid => do
      let m ← get
      match m.ourJid with
      | none => throw (.error ("our_jid empty" : Str))
      | some ojid =>
          if jid.isGroup then pure (some ⟨none, true, ojid, some jid⟩)
          else do
            store (storeWaMsgid msg.id)
            pure none
  | .receiving (.individual j) => pure (some ⟨some (.individual j), false, j, none⟩)
  | .receiving (.group g participant) =>
      pure (some ⟨some (.group g participant), false, participant, some g⟩)

/-- A group that a message was sent to: its id, or nothing if the message is to be
ignored. -/
def bridgedGroup (gid : Jid) : WaM (Option Nat) := do
  if gid.id = ("status" : Str) then pure none
  else do
    match ← store (getGroupByJidOpt gid) with
    | some grp => pure (some grp.id)
    | none => do
        let m ← get
        if m.autocreate.isSome then do
          match ← attempt (groupAutocreateFromUnbridged gid) with
          | .ok id => pure (some id)
          | .error _ => do
              requestUpdateGroup gid
              pure none
        else pure none

/-- The target of a message: none, a group, or nothing at all if the message is to
be ignored. -/
def targetOf (group : Option Jid) : WaM (Option (Option Nat)) :=
  match group with
  | some gid => do
      let id ← bridgedGroup gid
      pure (id.map some)
  | none => pure (some none)

/-- The end of `on_message`: the lines are stored and the message is marked as
seen. -/
def bridgeMessage (msg : WaMessage) (sender : Sender) (group : Option Nat) : WaM Unit := do
  let (msgs, media) ← withMsgproc (processWaIncoming
    ⟨msg.id, sender.peer, sender.fromJid, group, msg.content, msg.quoted, msg.time⟩)
  forM msgs fun line => storeMessage line.fromJid line.text line.group line.ts
  when (msgs ≠ [] ∧ ¬ media) (store (storeWaMsgid msg.id))
  let m ← get
  when (¬ media ∧ ¬ sender.isOurs ∧ m.markRead) (markAsRead msg.id sender.peer)

/-- Whether the ids that are stored are looked at, and the id is one of them. -/
def alreadyStored (msg : WaMessage) (isNew : Bool) : WaM Bool := do
  let m ← get
  if !m.markRead || !isNew then store (isWaMsgidStored msg.id) else pure false

/-- Whether a message is older than the backlog that is wanted. -/
def beforeBacklog (m : WhatsappManager) (msg : WaMessage) (isNew : Bool) : Bool :=
  !isNew && match m.backlogStart with
    | some bsf => msg.time < bsf
    | none => false

def onMessage (msg : WaMessage) (isNew : Bool) : WaM Unit := do
  let known ← alreadyStored msg isNew
  let m ← get
  if known || beforeBacklog m msg isNew then pure ()
  else do
    match ← senderOf msg with
    | none => pure ()
    | some sender => do
        match ← targetOf sender.group with
        | none => pure ()
        | some group => bridgeMessage msg sender group

/-- The line of `group_list` for a chat. -/
def chatLine (e : Jid × WaChat) : WaM Str := do
  let status ← (do
    match ← store (getGroupByJidOpt e.1) with
    | some grp => pure (("\x02\x0309group bridged to " : Str) ++ grp.channel ++ ['\x0f'])
    | none =>
        pure (if e.1.isGroup then ("\x02\x0304unbridged group\x0f" : Str)
          else ("\x021-to-1 chat\x0f" : Str)))
  pure (("- '" : Str) ++ e.2.name.getD ("<unnamed>" : Str) ++ ("' (jid " : Str) ++
    Crates.displayJid e.1 ++ (") - " : Str) ++ status)

def groupList : WaM Unit := do
  let m ← get
  let list ← (Crates.hashOrder.run (pairs m.chats)).mapM chatLine
  cbRespond (if list = [] then ("no WhatsApp chats (yet?)" : Str) else ("WhatsApp chats:" : Str))
  forM list cbRespond

def groupUpdateAll : WaM Unit := do
  let groups ← store getAllGroups
  forM groups fun grp =>
    match Crates.parseJid grp.jid with
    | some j => requestUpdateGroup j
    | none => pure ()

def groupRemove (chan : Str) : WaM Unit := do
  match ← store (getGroupByChanOpt chan) with
  | some grp => do
      store (deleteGroupWithId grp.id)
      onGroupsChanged
      cbRespond (("Group with jid " : Str) ++ grp.jid ++ (" deleted." : Str))
  | none => cbRespond (("no group with channel " : Str) ++ chan ++ (" found!" : Str))

/-- Whether the phone number is another one than before. -/
def numberChanged (m : WhatsappManager) (jid : Jid) : Bool :=
  m.prevJid.isSome && m.prevJid ≠ some jid

def extractUnsent : WaM (List MessageSendStatus) := do
  let m ← get
  set { m with ackp := m.ackp.extractUnsent.2 }
  pure m.ackp.extractUnsent.1

def onEstablished (jid : Jid) (ps : Crates.PersistentSession) : WaM Unit := do
  let m ← get
  set { m with ourJid := some jid }
  when (numberChanged m jid) (cbSend (.reportFailure
    ("Warning: You've logged in with a different phone number." : Str)))
  let unsent ← extractUnsent
  forM unsent fun mss => sendMessage mss.content mss.destination
  store (storeWaPersistence ps)
  setConn fun c => c.setPersistent (some ps)
  modify fun m => { m with prevJid := some jid, connected := true }

/-- The errors after which the user has to set up the connection anew, with what is
said about them. -/
def fatalError : WaError → Option Str
  | .disconnected .removed =>
      some (("Error: WhatsApp Web connection removed in the mobile app! " : Str) ++
        ("Use the WHATSAPP SETUP command to restore connectivity." : Str))
  | .statusCode 401 =>
      some (("Error: WhatsApp Web credentials are invalid. " : Str) ++
        ("Use the WHATSAPP SETUP command to restore connectivity." : Str))
  | _ => none

def disableOn (err : WaError) : WaM Unit :=
  match fatalError err with
  | some report => do
      cbSend (.reportFailure report)
      setConn fun c => c.disable
  | none => pure ()

def onWaError (err : WaError) : WaM Unit := do
  disableOn err
  modify fun m => { m with ourJid := none, connected := false }

/-- The decision of `on_contact_change` whether a nick is to be replaced. -/
def shouldUpdate (oldsrc newsrc : Int) : Bool :=
  if oldsrc = nicksrcMigrated then true
  else if oldsrc = nicksrcAuto then newsrc ≠ nicksrcAuto
  else if oldsrc = nicksrcWaNotify then
    newsrc = nicksrcWaContact || newsrc = nicksrcWaNotify
  else if oldsrc = nicksrcWaContact then newsrc = nicksrcWaContact
  else false

/-- The part of `on_contact_change` for a contact that has an address. -/
def contactChanged (ct : WaContact) (addr : PduAddress) : WaM Unit := do
  modify fun m => { m with contacts := m.contacts.insert ct.jid ct }
  let recip ← getWaRecipient ct.jid
  let (newNick, newsrc) ← getNickForJid ct.jid
  when ct.notify.isSome (store (updateRecipientNotify addr ct.notify))
  let m ← get
  when (recip.nick ≠ newNick ∧ shouldUpdate recip.nicksrc newsrc ∧ m.autoupdateNicks)
    (cfSend (.forwardCommand addr (.changeNick newNick newsrc)))

def onContactChange (ct : WaContact) : WaM Unit :=
  if ct.jid.id = ("status" : Str) ∨ ct.jid.isGroup then pure ()
  else do
    match ← jidToAddress ct.jid with
    | some addr => contactChanged ct addr
    | none => pure ()

/-- What a contact is said to be away for. -/
def awayText (presence : PresenceStatus) (ts : Option Str) : Option Str :=
  match presence, ts with
  | .unavailable, some ts => some (("last seen " : Str) ++ ts)
  | .unavailable, none => some ("currently offline" : Str)
  | .other, _ => none

def onPresenceChange (jid : Jid) (presence : PresenceStatus) (ts : Option Str) : WaM Unit := do
  match ← jidToAddress jid with
  | some num => cfSend (.forwardCommand num (.updateAway (awayText presence ts)))
  | none => pure ()

def onMessageAck (ack : MessageAck) : WaM Unit :=
  modify fun m =>
    { m with
      ackp := (m.ackp.onMessageAck ack).1
      cbTx := m.cbTx ++ (m.ackp.onMessageAck ack).2 }

def onGroupIntroduce (newlyCreated : Bool) (metadata : GroupMetadata) : WaM Unit := do
  logRecord .info (("Introduced" : Str) ++
    (if newlyCreated then (" newly created" : Str) else []) ++ (" group '" : Str) ++
    metadata.subject ++ ("' (jid " : Str) ++ Crates.displayJid metadata.id ++ [')'])
  let m ← get
  when (newlyCreated ∧ m.autocreate.isSome) (groupAutocreateFromIntro metadata)

def onGroupSubjectChange (jid : Jid) (subject : Str) (inducer : Jid) : WaM Unit := do
  match ← store (getGroupByJidOpt jid) with
  | some grp => do
      let m ← get
      storeMessage inducer (action (("changed the subject to '" : Str) ++ subject ++
        ("'" : Str))) (some grp.id) m.now
      requestUpdateGroup jid
  | none => pure ()

def changeName : GroupParticipantsChange → Str
  | .add => ("added" : Str)
  | .remove => ("removed" : Str)
  | .promote => ("promoted" : Str)
  | .demote => ("demoted" : Str)

def participantNick (participant : Jid) : WaM Str := do
  let recip ← getWaRecipient participant
  pure recip.nick

/-- What a message about a change of participants says. -/
def participantsText (change : GroupParticipantsChange) (inducer : Jid)
    (participants : List Jid) : WaM Str :=
  if participants = [inducer] then pure (action ("left the group" : Str))
  else do
    let nicks ← participants.mapM participantNick
    pure (action (changeName change ++ (": " : Str) ++ join (", " : Str) nicks))

def announceChange (change : GroupParticipantsChange) (participants : List Jid) (id : Nat)
    (ts : NaiveDateTime) : Option Jid → WaM Unit
  | some inducer => do
      let text ← participantsText change inducer participants
      storeMessage inducer text (some id) ts
  | none => pure ()

def onGroupParticipantsChange (jid : Jid) (change : GroupParticipantsChange)
    (inducer : Option Jid) (participants : List Jid) : WaM Unit := do
  let m ← get
  match ← store (getGroupByJidOpt jid) with
  | some grp => do
      announceChange change participants grp.id m.now inducer
      requestUpdateGroup jid
  | none => pure ()

def onProfileStatus (jid : Jid) (status : Str) (wasRequest : Bool) : WaM Unit :=
  if jid.isGroup then pure ()
  else do
    let recip ← getWaRecipient jid
    when (!wasRequest) (logRecord .info (recip.nick ++ (" changed their status to: " : Str) ++
      status))

def onPictureChange (jid : Jid) (removed : Bool) : WaM Unit :=
  if jid.isGroup then pure ()
  else do
    let recip ← getWaRecipient jid
    logRecord .info (recip.nick ++ if removed then (" removed their profile photo." : Str)
      else (" changed their profile photo." : Str))

def onWaEvent : WaEvent → WaM Unit
  | .websocketConnected => pure ()
  | .scanCode saved => onQr saved
  | .sessionEstablished jid persistent => onEstablished jid persistent
  | .message isNew msg => onMessage msg isNew
  | .initialContacts cts => forM cts onContactChange
  | .addContact ct => onContactChange ct
  | .deleteContact _ => pure ()
  | .initialChats cts =>
      forM cts fun ct => modify fun m => { m with chats := m.chats.insert ct.jid ct }
  | .chatRemoved jid => modify fun m => { m with chats := m.chats.erase jid }
  | .chatAction _ => pure ()
  | .presenceChange jid presence ts => onPresenceChange jid presence ts
  | .messageAck ack => onMessageAck ack
  | .groupIntroduce newlyCreated metadata => onGroupIntroduce newlyCreated metadata
  | .groupMetadata (.ok metadata) => onGotGroupMetadata metadataDepth metadata
  | .groupMetadata (.error _) => pure ()
  | .groupSubjectChange jid subject inducer => onGroupSubjectChange jid subject inducer
  | .groupParticipantsChange jid change inducer participants =>
      onGroupParticipantsChange jid change inducer participants
  | .profileStatus jid status wasRequest => onProfileStatus jid status wasRequest
  | .pictureChange jid removed => onPictureChange jid removed
  | .messageSendFail mid status =>
      cbSend (.reportFailure (("Error: Sending WhatsApp message ID " : Str) ++ mid ++
        (" failed with code " : Str) ++ decimal status ++ ['!']))
  | .batteryLevel _ => pure ()
  | .other => pure ()

def handleIntRx : WhatsappCommand → WaM Unit
  | .startRegistration => startRegistration
  | .logonIfSaved => logonIfSaved
  | .sendGroupMessage chan text => sendGroupMessage chan text
  | .sendDirectMessage addr text => sendDirectMessage addr text
  | .groupAssociate jid chan => groupAssociateHandler jid chan
  | .groupList => groupList
  | .groupUpdateAll => groupUpdateAll
  | .groupRemove chan => groupRemove chan
  | .mediaFinished r => mediaFinished r
  | .printAcks => printAcks
  | .makeContact addr => makeContact addr
  | .subscribePresence addr => subscribePresence addr

/-- What the connection answers to a request. -/
inductive SendAnswer where
  | ready
  | notReady
  | failed (e : WaError)

/-- `WebConnectionWrapper::start_send`; the result is the error, if there is one. -/
def startSend (req : WaRequest) (a : SendAnswer) : WaM (Option WaError) := do
  let m ← get
  if m.conn.isConnected then
    match a with
    | .ready => do
        set { m with sent := m.sent ++ [req] }
        pure none
    | .notReady => pure none
    | .failed e => do
        set { m with conn := m.conn.backoff }
        pure (some e)
  else throw (.panic .disconnectedSink)

/-- The loop that empties the outbox, for the answers that it meets. -/
def sendQueued : List WaRequest → List SendAnswer → WaM Unit
  | [], _ => pure ()
  | req :: rest, answers => do
      modify fun m => { m with outbox := rest }
      match ← startSend req (answers.headD .ready) with
      | some e => onWaError e
      | none => sendQueued rest answers.tail

/-- What `poll` does with the outbox. -/
def drainOutbox (answers : List SendAnswer) : WaM Unit := do
  let m ← get
  if m.conn.isConnected then sendQueued m.outbox answers
  else set { m with outbox := [] }

/-- `poll_complete`, which the connection may fail. -/
def pollComplete (done : Bool) : WaM Unit := do
  let m ← get
  when (m.conn.isConnected ∧ ¬ done) (throw (.error m.errorText))

/-- What `poll` does when it has polled the connection. -/
def handlePolled : Polled → WaM Unit
  | .notReady => pure ()
  | .item (.ok e) => onWaEvent e
  | .item (.error e) => onWaError e
  | .failed => do
      let m ← get
      throw (.error m.errorText)

def pollConn (answers : List Answer) : WaM Unit := do
  let m ← get
  set { m with conn := (m.conn.poll answers).2 }
  handlePolled (m.conn.poll answers).1

/-- The command at the head of the queue. -/
def handleNext : WaM Unit := do
  let m ← get
  match m.rx with
  | [] => pure ()
  | c :: rest => do
      set { m with rx := rest }
      handleIntRx c

/-- `check_acks`, when the timer fires. -/
def checkAcks : WaM Unit :=
  modify fun m =>
    { m with
      ackp := (m.ackp.checkAcks m.now).1
      cbTx := m.cbTx ++ (m.ackp.checkAcks m.now).2
      expired := m.expired ++
        ((pairs m.ackp.outgoingMessages).map Prod.snd).filter fun mss =>
          !m.ackp.retained m.now mss }

end SmsIrc.Whatsapp
