import SmsIrc.Comm

/-!
`src/whatsapp_ack.rs`: the tracker of the acknowledgements of sent messages. Its
methods take the current time, and return what they send to the control bot.
-/

namespace SmsIrc.WaAck

open SmsIrc.Comm SmsIrc.External SmsIrc.HashMaps SmsIrc.Text

structure MessageSendStatus where
  ackLevel : Option MessageAckLevel
  sentTs : NaiveDateTime
  content : ChatMessageContent
  destination : Jid
  isUnsent : Bool
  alerted : Bool
  alertedPending : Bool
deriving DecidableEq

structure WaAckTracker where
  outgoingMessages : HashMap Str MessageSendStatus
  ackWarn : Nat
  ackWarnPending : Nat
  ackExpiry : Nat

/-- `num_milliseconds() as u64` of the time between two instants. -/
def millisBetween (now ts : NaiveDateTime) : Nat :=
  (((now - ts).tdiv 1000000) % 2 ^ 64).toNat

namespace WaAckTracker

def new (ackWarnMs ackWarnPendingMs ackExpiryMs : Option Nat) : WaAckTracker where
  outgoingMessages := ∅
  ackWarn := ackWarnMs.getD 5000
  ackWarnPending := ackWarnPendingMs.getD (ackWarnMs.getD 5000 * 2 % 2 ^ 64)
  ackExpiry := ackExpiryMs.getD 60000

def registerSend (t : WaAckTracker) (now : NaiveDateTime) (dest : Jid)
    (content : ChatMessageContent) (mid : Str) (isUnsent : Bool) : WaAckTracker :=
  { t with
    outgoingMessages := t.outgoingMessages.insert mid
      { ackLevel := none, sentTs := now, content := content, destination := dest,
        isUnsent := isUnsent, alerted := false, alertedPending := false } }

def onMessageAck (t : WaAckTracker) (ack : MessageAck) : WaAckTracker × List ControlBotCommand :=
  match t.outgoingMessages.lookup ack.id with
  | some mss =>
      ({ t with
        outgoingMessages :=
          t.outgoingMessages.insert ack.id { mss with ackLevel := some ack.level } },
        if ack.level = .error then
          [.reportFailure (("Error: WhatsApp reported an error in sending message ID " : Str) ++
            ack.id ++ ['!'])]
        else [])
  | none => (t, [])

/-- Whether an un-acked message is to be reported. -/
def warns (t : WaAckTracker) (now : NaiveDateTime) (mss : MessageSendStatus) : Bool :=
  mss.ackLevel.isNone && t.ackWarn ≤ millisBetween now mss.sentTs && !mss.alerted

/-- Whether a message that is still pending is to be reported. -/
def warnsPending (t : WaAckTracker) (now : NaiveDateTime) (mss : MessageSendStatus) : Bool :=
  mss.ackLevel = some .pendingSend && t.ackWarnPending ≤ millisBetween now mss.sentTs &&
    !mss.alertedPending

/-- The body of the loop of `check_acks`, on the entry. -/
def checkEntry (t : WaAckTracker) (now : NaiveDateTime) (mss : MessageSendStatus) :
    MessageSendStatus :=
  { mss with
    alerted := mss.alerted || t.warns now mss
    alertedPending := mss.alertedPending || t.warnsPending now mss }

/-- What it sends. -/
def entryWarnings (t : WaAckTracker) (now : NaiveDateTime) (mid : Str)
    (mss : MessageSendStatus) : List ControlBotCommand :=
  (if t.warns now mss then
    if mss.isUnsent then
      [.reportFailure (("Warning: Message ID " : Str) ++ mid ++
        (" is still unsent, because we aren't connected to WhatsApp Web." : Str))]
    else
      [.reportFailure (("Warning: Sending message ID " : Str) ++ mid ++
        (" has failed, or is taking longer than usual!" : Str))]
  else []) ++
  if t.warnsPending now mss then
    [.reportFailure (("Warning: Sending message ID " : Str) ++ mid ++
      (" is still pending. Is WhatsApp running and connected?" : Str))]
  else []

/-- Whether a message outlives a check; failures always do. -/
def retained (t : WaAckTracker) (now : NaiveDateTime) (mss : MessageSendStatus) : Bool :=
  match mss.ackLevel with
  | some .pendingSend => true
  | none => true
  | some _ => millisBetween now mss.sentTs < t.ackExpiry

variable [Crates]

def extractUnsent (t : WaAckTracker) : List MessageSendStatus × WaAckTracker :=
  (((Crates.hashOrder.run (pairs t.outgoingMessages)).filter fun e => e.2.isUnsent).map Prod.snd,
    { t with outgoingMessages := retain (fun _ mss => !mss.isUnsent) t.outgoingMessages })

def checkAcks (t : WaAckTracker) (now : NaiveDateTime) :
    WaAckTracker × List ControlBotCommand :=
  ({ t with
    outgoingMessages := retain (fun _ mss => t.retained now mss)
      (mapValues (fun _ mss => t.checkEntry now mss) t.outgoingMessages) },
    (Crates.hashOrder.run (pairs t.outgoingMessages)).flatMap fun e =>
      t.entryWarnings now e.1 e.2)

/-- `{:?}` of an acknowledgement level. -/
def ackLevelName : MessageAckLevel → Str
  | .error => ("Error" : Str)
  | .pendingSend => ("PendingSend" : Str)
  | .other name => name

/-- The summary of a message, shortened if it is long. -/
def summary (content : ChatMessageContent) : Str :=
  let text := Crates.quotedDescription content
  if 15 < byteLen text then ((Crates.graphemes text).take 10).flatten ++ ['…'] else text

def entryLines (now : NaiveDateTime) (mid : Str) (mss : MessageSendStatus) : List Str :=
  let al := match mss.ackLevel with
    | some al => ackLevelName al
    | none => ("undelivered" : Str)
  [("- \"\x1d" : Str) ++ summary mss.content ++ ("\x1d\" to \x02" : Str) ++
    Crates.displayJid mss.destination ++ ("\x02 (" : Str) ++
    decimalInt (secondsBetween now mss.sentTs) ++ ("s ago) is \x02" : Str) ++ al ++ ['\x02'],
    ("  (message ID \x11" : Str) ++ mid ++ ("\x0f)" : Str)]

def printAcks (t : WaAckTracker) (now : NaiveDateTime) : List Str :=
  let lines := (Crates.hashOrder.run (pairs t.outgoingMessages)).flatMap fun e =>
    entryLines now e.1 e.2
  if lines = [] then [("No outgoing messages" : Str)] else lines

end WaAckTracker

end SmsIrc.WaAck
