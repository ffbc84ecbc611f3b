import SmsIrc.Comm

/-!
`src/whatsapp_conn.rs`: connecting to WhatsApp Web. What the connection and its
timers answer is given to each method from outside.
-/

namespace SmsIrc.WaConn

open SmsIrc.External SmsIrc.Text

/-- `whatsappweb::errors::DisconnectReason`. -/
inductive DisconnectReason where
  | replaced
  | removed
deriving DecidableEq

/-- `whatsappweb::errors::WaError`, with a constructor for each variant that the
bridge tells apart. -/
inductive WaError where
  | disconnected (reason : DisconnectReason)
  | statusCode (sc : Nat)
  | other
deriving DecidableEq

inductive PresenceStatus where
  | unavailable
  | other
deriving DecidableEq

inductive GroupParticipantsChange where
  | add
  | remove
  | promote
  | demote
deriving DecidableEq

section Connection

variable [Crates]

/-- `whatsappweb::event::WaEvent`. A QR code is whether the image of it could be
saved, the time of a presence change is its display. -/
inductive WaEvent where
  | websocketConnected
  | scanCode (saved : Bool)
  | sessionEstablished (jid : Jid) (persistent : Crates.PersistentSession)
  | message (isNew : Bool) (msg : WaMessage)
  | initialContacts (cts : List WaContact)
  | addContact (ct : WaContact)
  | deleteContact (jid : Jid)
  | initialChats (cts : List WaChat)
  | chatRemoved (jid : Jid)
  | chatAction (jid : Jid)
  | presenceChange (jid : Jid) (presence : PresenceStatus) (ts : Option Str)
  | messageAck (ack : MessageAck)
  | groupIntroduce (newlyCreated : Bool) (metadata : GroupMetadata)
  | groupMetadata (metadata : Except Str GroupMetadata)
  | groupSubjectChange (jid : Jid) (subject : Str) (inducer : Jid)
  | groupParticipantsChange (jid : Jid) (change : GroupParticipantsChange)
      (inducer : Option Jid) (participants : List Jid)
  | profileStatus (jid : Jid) (status : Str) (wasRequest : Bool)
  | pictureChange (jid : Jid) (removed : Bool)
  | messageSendFail (mid : Str) (status : Nat)
  | batteryLevel (level : Nat)
  | other

inductive WrapperState where
  | disabled
  | waiting
  | initializing
  | running
deriving DecidableEq

structure WebConnectionWrapper where
  inner : WrapperState
  persist : Option Crates.PersistentSession

/-- What a delay, an initialisation or a connection answers when it is polled. -/
inductive Answer where
  | notReady
  | ready
  | event (e : WaEvent)
  | failed (e : WaError)

/-- What polling the wrapper returns. -/
inductive Polled where
  | notReady
  | item (r : Except WaError WaEvent)
  | failed

namespace WebConnectionWrapper

def new : WebConnectionWrapper := ⟨.disabled, none⟩

def isDisabled (c : WebConnectionWrapper) : Bool := c.inner = .disabled

def disable (c : WebConnectionWrapper) : WebConnectionWrapper := { c with inner := .disabled }

def setPersistent (c : WebConnectionWrapper) (persist : Option Crates.PersistentSession) :
    WebConnectionWrapper := { c with persist := persist }

def isConnected (c : WebConnectionWrapper) : Bool := c.inner = .running

/-- `initialize`; whether it connects anew depends on `persist`. -/
def initialise (c : WebConnectionWrapper) : WebConnectionWrapper :=
  { c with inner := .initializing }

def connectNew (c : WebConnectionWrapper) : WebConnectionWrapper :=
  (c.setPersistent none).initialise

def connectPersistent (c : WebConnectionWrapper) (persist : Crates.PersistentSession) :
    WebConnectionWrapper := (c.setPersistent (some persist)).initialise

def backoff (c : WebConnectionWrapper) : WebConnectionWrapper := { c with inner := .waiting }

/-- `poll`, for the answers that it meets; a timer that fails leaves the wrapper
disabled. -/
def poll (c : WebConnectionWrapper) : List Answer → Polled × WebConnectionWrapper
  | [] => (.notReady, c)
  | a :: answers =>
      match c.inner, a with
      | .disabled, _ => (.notReady, c)
      | .waiting, .ready => poll c.initialise answers
      | .waiting, .failed _ => (.failed, c.disable)
      | .waiting, _ => (.notReady, c)
      | .initializing, .ready => poll { c with inner := .running } answers
      | .initializing, .failed _ => poll c.backoff answers
      | .initializing, _ => (.notReady, c)
      | .running, .event e => (.item (.ok e), c)
      | .running, .failed e => (.item (.error e), c.backoff)
      | .running, _ => (.notReady, c)

end WebConnectionWrapper

end Connection

end SmsIrc.WaConn
