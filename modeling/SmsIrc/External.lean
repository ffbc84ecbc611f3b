import SmsIrc.HashMaps
import SmsIrc.Text

/-!
What the bridge takes from other crates. Plain data is modelled by structures
with the fields that the bridge reads; every function of those crates that it
calls is a field of the class `Crates`, about which nothing is assumed here.
-/

namespace SmsIrc.External

open SmsIrc.HashMaps SmsIrc.Text

/-- `huawei_modem::pdu::PduAddress`, over the type of address types. -/
structure PduAddressOf (τ : Type) where
  typeAddr : τ
  number : List UInt8
deriving DecidableEq

structure ConcatenatedSmsData where
  reference : UInt16
  parts : UInt8
  sequence : UInt8
deriving DecidableEq

/-- `huawei_modem::gsm_encoding::udh::UserDataHeader`. -/
structure UserDataHeader where
  getConcatenatedSmsData : Option ConcatenatedSmsData
deriving DecidableEq

structure DecodedMessage where
  text : Str
  udh : Option UserDataHeader
deriving DecidableEq

/-- `huawei_modem::pdu::DeliverPdu`; `decodeMessage` is what
`get_message_data().decode_message()` returns. -/
structure DeliverPduOf (τ : Type) where
  originatingAddress : PduAddressOf τ
  decodeMessage : Except Str DecodedMessage

/-- `irc::proto::command::Command`, with a constructor for each variant that
the bridge tells apart. -/
inductive IrcCommand where
  | privmsg (target msg : Str)
  | error (details : Str)
  | kill (uuid reason : Str)
  | quit (reason : Option Str)
  | ping (source : Str) (dest : Option Str)
  | squit (server reason : Str)
  | raw (cmd : Str) (args : List Str) (suffix : Option Str)
  | other (params : List Str)
deriving DecidableEq

structure IrcMessage where
  prefixStr : Option Str
  command : IrcCommand
deriving DecidableEq

/-- `Message::new`. The crate sorts some messages into variants of their own,
which the bridge does not look at again, so the parts are kept as given. -/
def IrcMessage.new (prefixStr : Option Str) (cmd : Str) (args : List Str)
    (suffix : Option Str) : IrcMessage :=
  ⟨prefixStr, .raw cmd args suffix⟩

/-- All arguments of a command, its trailing parameter included. -/
def IrcCommand.params : IrcCommand → List Str
  | .privmsg target msg => [target, msg]
  | .error details => [details]
  | .kill uuid reason => [uuid, reason]
  | .quit reason => reason.toList
  | .ping source dest => source :: dest.toList
  | .squit server reason => [server, reason]
  | .raw _ args suffix => args ++ suffix.toList
  | .other params => params

/-- Nanoseconds since the epoch. -/
abbrev NaiveDateTime := Int

/-- `num_seconds` of the time that passed between two instants. -/
def secondsBetween (now ts : NaiveDateTime) : Int := (now - ts).tdiv 1000000000

/-- The number of the day an instant falls on. -/
def date (t : NaiveDateTime) : Int := t.fdiv 86400000000000

structure Jid where
  id : Str
  isGroup : Bool
deriving DecidableEq

inductive Peer where
  | individual (jid : Jid)
  | group (group participant : Jid)
deriving DecidableEq

inductive Direction where
  | sending (jid : Jid)
  | receiving (peer : Peer)
deriving DecidableEq

/-- `whatsappweb::message::ChatMessageContent`. Coordinates and speeds are the
texts that formatting makes of them. -/
inductive ChatMessageContent where
  | text (s : Str)
  | unimplemented (det : Str)
  | liveLocation (lat long : Str) (speed : Option Str)
  | location (lat long : Str) (name : Option Str)
  | redaction (mid : Str)
  | contact (displayName vcard : Str)
  | image (caption : Option Str)
  | video (caption : Option Str)
  | audio
  | document (filename : Str)
deriving DecidableEq

structure QuotedChatMessage where
  participant : Jid
  content : ChatMessageContent
deriving DecidableEq

/-- `whatsappweb::message::ChatMessage`. -/
structure WaMessage where
  direction : Direction
  time : NaiveDateTime
  id : Str
  content : ChatMessageContent
  quoted : Option QuotedChatMessage
deriving DecidableEq

inductive MessageAckLevel where
  | error
  | pendingSend
  | other (name : Str)
deriving DecidableEq

structure MessageAck where
  level : MessageAckLevel
  id : Str
deriving DecidableEq

structure GroupMetadata where
  id : Jid
  subject : Str
  participants : List (Jid × Bool)
deriving DecidableEq

structure WaContact where
  jid : Jid
  name : Option Str
  notify : Option Str
deriving DecidableEq

structure WaChat where
  jid : Jid
  name : Option Str
deriving DecidableEq

inductive WaRequest where
  | sendMessage (msg : WaMessage)
  | messageRead (mid : Str) (peer : Peer)
  | subscribePresence (jid : Jid)
  | getGroupMetadata (jid : Jid)
deriving DecidableEq

/-- The functions of other crates that the bridge calls, and the orders it
leaves to its hash maps and to the database. -/
class Crates where
  AddressType : Type
  [decEqAddressType : DecidableEq AddressType]
  /-- `u8::from`. -/
  toaToU8 : AddressType → UInt8
  /-- `AddressType::try_from`. -/
  toaTryFrom : UInt8 → Option AddressType
  /-- `HexData`'s display. -/
  hexDisplay : List UInt8 → Str
  /-- `HexData::decode`. -/
  hexDecode : Str → Option (List UInt8)
  displayAddress : PduAddressOf AddressType → Str
  parseAddress : Str → Option (PduAddressOf AddressType)
  /-- `DeliverPdu::try_from`. -/
  deliverPduTryFrom : List UInt8 → Except Str (DeliverPduOf AddressType)
  displayJid : Jid → Str
  parseJid : Str → Option Jid
  /-- `Jid::phonenumber`. -/
  phonenumber : Jid → Option Str
  /-- `Jid::from_phonenumber`. -/
  fromPhonenumber : Str → Except Str Jid
  /-- `ChatMessageContent::take_caption`. -/
  takeCaption : ChatMessageContent → Option Str
  /-- `ChatMessageContent::quoted_description`. -/
  quotedDescription : ChatMessageContent → Str
  PersistentSession : Type
  /-- `Message::from_str`. -/
  parseMessage : Str → Except Str IrcMessage
  unidecode : Str → Str
  /-- `UnicodeSegmentation::graphemes`. -/
  graphemes : Str → List Str
  /-- The property `Cased` of Unicode. -/
  cased : Char → Bool
  /-- The property `Case_Ignorable` of Unicode. -/
  caseIgnorable : Char → Bool
  /-- The class `\d` of the `regex` crate. -/
  regexDigit : Char → Bool
  /-- Whether `{:?}` leaves a character beyond ASCII as it is. -/
  printed : Char → Bool
  /-- `Local.from_utc_datetime(&ts).naive_local().date()`, formatted. -/
  localDate : NaiveDateTime → Str
  /-- The same with `time()`. -/
  localTime : NaiveDateTime → Str
  /-- The order in which a hash map is iterated. -/
  hashOrder : Shuffle
  /-- The order of rows in a query without an `ORDER BY`. -/
  scanOrder : Shuffle

variable [Crates]

instance : DecidableEq Crates.AddressType := Crates.decEqAddressType

abbrev PduAddress := PduAddressOf Crates.AddressType

abbrev DeliverPdu := DeliverPduOf Crates.AddressType

end SmsIrc.External
