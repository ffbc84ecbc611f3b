import SmsIrc.Models

/-!
`src/comm.rs`: the commands that the parts of the bridge send to each other.
-/

namespace SmsIrc.Comm

open SmsIrc.External SmsIrc.Text

variable [Crates]

/-- `huawei_modem::cmd::sms::MessageStatus`, without `All`, which no message has. -/
inductive MessageStatus where
  | receivedUnread
  | receivedRead
  | storedUnsent
  | storedSent
deriving DecidableEq

/-- `huawei_modem::cmd::sms::SmsMessage`. -/
structure SmsMessage where
  status : MessageStatus
  pdu : DeliverPdu
  rawPdu : List UInt8

inductive ModemCommand where
  | doCmgl
  | cmglComplete (msgs : List SmsMessage)
  | cmglFailed (e : Str)
  | sendMessage (addr : PduAddress) (msg : Str)
  | requestCsq
  | requestReg
  | forceReinit
  | updatePath (path : Option Str)
  | commandTimeout
  | makeContact (addr : PduAddress)

/-- `whatsapp_media::MediaResult`. -/
structure MediaResult where
  fromJid : Jid
  group : Option Nat
  mi : Str
  peer : Option Peer
  ts : NaiveDateTime
  result : Except Str Str

inductive WhatsappCommand where
  | startRegistration
  | logonIfSaved
  | sendGroupMessage (chan text : Str)
  | sendDirectMessage (addr : PduAddress) (text : Str)
  | groupAssociate (jid : Jid) (chan : Str)
  | groupList
  | groupRemove (chan : Str)
  | groupUpdateAll
  | mediaFinished (r : MediaResult)
  | printAcks
  | makeContact (addr : PduAddress)
  | subscribePresence (addr : PduAddress)

inductive ContactManagerCommand where
  | processMessages
  | processGroups
  | updateAway (text : Option Str)
  | changeNick (nick : Str) (src : Int)
  | setWhatsapp (wam : Bool)
deriving DecidableEq

inductive ContactFactoryCommand where
  | processMessages
  | processGroups
  | processAvatars
  | setupContact (addr : PduAddress)
  | dropContact (addr : PduAddress)
  | queryContact (addr : PduAddress) (src : Nat)
  | dropContactByNick (nick : Str)
  | loadRecipients
  | forwardCommand (addr : PduAddress) (cmd : ContactManagerCommand)
  | forwardCommandByNick (nick : Str) (cmd : ContactManagerCommand)
  | subscribePresenceByNick (nick : Str)
deriving DecidableEq

inductive ControlBotCommand where
  | log (line : Str)
  | reportFailure (err : Str)
  | commandResponse (resp : Str)
  | processGroups
deriving DecidableEq

end SmsIrc.Comm
