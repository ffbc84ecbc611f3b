import SmsIrc.Contact
import SmsIrc.ContactCommon

/-!
`src/contact_factory.rs`: the creation and maintenance of contacts that have
connections of their own.
-/

namespace SmsIrc.Factory

open SmsIrc.Comm SmsIrc.Contact SmsIrc.ContactCommon SmsIrc.Database SmsIrc.External
open SmsIrc.HashMaps SmsIrc.Models SmsIrc.Program SmsIrc.SenderCommon SmsIrc.Text SmsIrc.Util

/-- `IrcClientConfig`, without what only the client uses. -/
structure ClientConfig where
  adminNick : Str
  webircPassword : Option Str
deriving DecidableEq

variable [Crates]

structure ContactFactory where
  /-- The commands sent to the other parts so far. -/
  cbTx : List ControlBotCommand
  waTx : List Comm.WhatsappCommand
  mTx : List Comm.ModemCommand
  /-- The attempts to connect that are under way, each with the row that it is for. -/
  contactsStarting : HashMap PduAddress Recipient
  contacts : HashMap PduAddress ContactManager
  contactsPresence : HashMap PduAddress (Option Str)
  failedContacts : List PduAddress
  messagesProcessed : List Nat
  cfg : ClientConfig
  store : Store
  /-- `chrono::Utc::now()`. -/
  now : NaiveDateTime
  /-- Not in the source: the addresses that `setup_contact_for` has been called with and
  `remove_contact_for` has not been called with since. -/
  setUp : List PduAddress

abbrev FactoryM := Prog Failure ContactFactory

instance : HasStore ContactFactory where
  getStore f := f.store
  setStore f st := { f with store := st }

def ContactFactory.new (cfg : ClientConfig) (store : Store) (now : NaiveDateTime) :
    ContactFactory where
  cbTx := []
  waTx := []
  mTx := []
  contactsStarting := ∅
  contacts := ∅
  contactsPresence := ∅
  failedContacts := []
  messagesProcessed := []
  cfg := cfg
  store := store
  now := now
  setUp := []

def waSend (c : Comm.WhatsappCommand) : FactoryM Unit :=
  modify fun f => { f with waTx := f.waTx ++ [c] }

def mSend (c : Comm.ModemCommand) : FactoryM Unit :=
  modify fun f => { f with mTx := f.mTx ++ [c] }

def cbSend (c : ControlBotCommand) : FactoryM Unit :=
  modify fun f => { f with cbTx := f.cbTx ++ [c] }

def setupContactFor (recip : Recipient) (addr : PduAddress) : FactoryM Unit :=
  modify fun f =>
    { f with
      contactsStarting := f.contactsStarting.insert addr recip
      setUp := f.setUp ++ [addr] }

def hasContact (addr : PduAddress) : FactoryM Bool := do
  let f ← get
  pure ((f.contactsStarting.lookup addr).isSome || (f.contacts.lookup addr).isSome)

instance : ContactSetup ContactFactory where
  waSend := waSend
  mSend := mSend
  cbSend := cbSend
  setupContactFor := setupContactFor
  hasContact := hasContact

def removeContactFor (addr : PduAddress) : FactoryM Unit :=
  modify fun f =>
    { f with
      contacts := f.contacts.erase addr
      setUp := f.setUp.filter fun a => a ≠ addr }

def resolveNick (nick : Str) : FactoryM (Option PduAddress) := do
  let f ← get
  pure (((Crates.hashOrder.run (pairs f.contacts)).find? fun c => c.2.nick = nick).map
    fun c => c.1)

/-- `add_command` of a contact, if there is one. -/
def addCommandTo (addr : PduAddress) (cmd : ContactManagerCommand) : FactoryM Unit :=
  modify fun f =>
    match f.contacts.lookup addr with
    | some c => { f with contacts := f.contacts.insert addr (addCommand c cmd) }
    | none => f

def updateAway (addr : PduAddress) (away : Option Str) : FactoryM Unit := do
  addCommandTo addr (.updateAway away)
  modify fun f => { f with contactsPresence := f.contactsPresence.insert addr away }

def forwardCmd (addr : PduAddress) : ContactManagerCommand → FactoryM Unit
  | .updateAway away => updateAway addr away
  | cmd => addCommandTo addr cmd

instance : ContactManagerManager ContactFactory where
  removeContactFor := removeContactFor
  forwardCmd := forwardCmd
  resolveNick := resolveNick

def processFailures : FactoryM Unit := do
  let f ← get
  set { f with failedContacts := [] }
  forM (Crates.hashOrder.run f.failedContacts) setupContact

def loadRecipients : FactoryM Unit := do
  let recips ← store getAllRecipients
  forM recips setupRecipient

def processGroups : FactoryM Unit :=
  modify fun f =>
    { f with contacts := mapValues (fun _ c => addCommand c .processGroups) f.contacts }

/-- The body of the loop of `process_messages`, for a message that it has not seen. -/
def processMessage (msg : Message) : FactoryM Unit := do
  let addr ← msg.getAddr
  let f ← get
  if (f.contactsStarting.lookup addr).isSome then pure ()
  else if (f.contacts.lookup addr).isSome then addCommandTo addr .processMessages
  else do
    let _ ← requestContact addr msg.source

def processMessages : FactoryM Unit := do
  let msgs ← store getAllMessages
  forM msgs fun msg => do
    let f ← get
    when (msg.id ∉ f.messagesProcessed) do
      set { f with messagesProcessed := f.messagesProcessed ++ [msg.id] }
      processMessage msg

def handleCommand : ContactFactoryCommand → FactoryM Unit
  | .processMessages => processMessages
  | .processGroups => processGroups
  | .loadRecipients => loadRecipients
  | .setupContact addr => setupContact addr
  | .queryContact addr src => queryContact addr src
  | .dropContact addr => dropContact addr
  | .dropContactByNick nick => dropContactByNick nick
  | .forwardCommand addr cmd => forwardCmd addr cmd
  | .forwardCommandByNick nick cmd => forwardCmdByNick nick cmd
  | .subscribePresenceByNick nick => subscribePresenceByNick nick
  | .processAvatars => pure ()

/-- What an attempt to connect yields when it is polled. -/
inductive Answer where
  /-- A client with its current nickname, and the errors that its calls will have. -/
  | ready (nick : Str) (refuses : Nat → Option Str)
  | notReady
  | failed (e : Str)

/-- `failed_contacts.insert`. -/
def noteFailure (addr : PduAddress) : FactoryM Unit :=
  modify fun f =>
    { f with failedContacts :=
        if addr ∈ f.failedContacts then f.failedContacts else f.failedContacts ++ [addr] }

/-- The contact that `ContactManager::new` makes of a row when its client is ready. -/
def newContact (f : ContactFactory) (recip : Recipient) (addr : PduAddress) (nick : Str)
    (refuses : Nat → Option Str) : ContactManager where
  sent := []
  refuses := refuses
  calls := 0
  admin := f.cfg.adminNick
  nick := nick
  addr := addr
  store := f.store
  id := false
  waMode := recip.whatsapp
  adminIsOnline := true
  connected := false
  presence := none
  channels := []
  webircPassword := f.cfg.webircPassword
  waTx := f.waTx
  mTx := f.mTx
  rx := match f.contactsPresence.lookup addr with
    | some pre => [.updateAway pre]
    | none => []
  now := f.now

/-- Poll an attempt to connect; it is removed later if it has come to an end. -/
def pollAttempt (addr : PduAddress) (recip : Recipient) : Answer → FactoryM (Option PduAddress)
  | .ready nick refuses => do
      modify fun f =>
        { f with contacts := f.contacts.insert addr (newContact f recip addr nick refuses) }
      pure (some addr)
  | .notReady => pure none
  | .failed _ => do
      noteFailure addr
      pure (some addr)

def pollStarting (answers : PduAddress → Answer) : FactoryM Unit := do
  let f ← get
  let toRemove ← (Crates.hashOrder.run (pairs f.contactsStarting)).mapM
    fun e => pollAttempt e.1 e.2 (answers e.1)
  forM toRemove.reduceOption fun tr =>
    modify fun f => { f with contactsStarting := f.contactsStarting.erase tr }

/-- What a contact has in common with the others. -/
def sharing (f : ContactFactory) (c : ContactManager) : ContactManager :=
  { c with store := f.store, waTx := f.waTx, mTx := f.mTx, now := f.now }

def putContact (addr : PduAddress) (f : ContactFactory) (c : ContactManager) : ContactFactory :=
  { f with
    contacts := f.contacts.insert addr c
    store := c.store
    waTx := c.waTx
    mTx := c.mTx }

/-- Poll a contact; it is removed later if it has failed. -/
def pollContact (addr : PduAddress) (c : ContactManager) (i : Activity) :
    FactoryM (Option PduAddress) := do
  match ← attempt (zoom (fun f => sharing f c) (putContact addr) (Contact.poll i)) with
  | .ok _ => pure none
  | .error _ => do
      noteFailure addr
      pure (some addr)

def pollContacts (activity : PduAddress → Activity) : FactoryM Unit := do
  let f ← get
  let toRemove ← (Crates.hashOrder.run (pairs f.contacts)).mapM
    fun e => pollContact e.1 e.2 (activity e.1)
  forM toRemove.reduceOption fun tr =>
    modify fun f => { f with contacts := f.contacts.erase tr }

/-- What the interval yields when it is polled. -/
def onTick : Except Str Unit → FactoryM Unit
  | .ok _ => processFailures
  | .error e => throw (.error e)

/-- What there is to do at a poll. -/
structure Polled where
  rx : List ContactFactoryCommand
  answers : PduAddress → Answer
  activity : PduAddress → Activity
  ticks : List (Except Str Unit)

/-- `ContactFactory::poll`. -/
def poll (i : Polled) : FactoryM Unit := do
  forM i.rx handleCommand
  pollStarting i.answers
  pollContacts i.activity
  forM i.ticks onTick

end SmsIrc.Factory
