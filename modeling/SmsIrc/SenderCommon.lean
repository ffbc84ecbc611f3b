import SmsIrc.Database

/-!
`src/sender_common.rs`: common behaviours for senders, the things which decode
PDUs and send the plaintext over IRC.
-/

namespace SmsIrc.SenderCommon

open SmsIrc.Database SmsIrc.External SmsIrc.Models SmsIrc.Program
open SmsIrc.Text SmsIrc.Util

/-- The maximum message size sent over IRC. -/
def messageMaxLen : Nat := 350

/-- A call that a sender makes while it processes a stored message. -/
inductive SenderCall where
  | sendRawMessage (fromNick msg : Str) (groupTarget : Option Nat)
  | sendIrcMessage (fromNick dest msg : Str)
  | reportError (fromNick err : Str)
  | deleteMessage (id : Nat)
deriving DecidableEq

variable [Crates]

/-- States that hold a handle to the database: `store(&mut self)`. -/
class HasStore (σ : Type) where
  getStore : σ → Store
  setStore : σ → Store → σ

/-- Use the database of a state. -/
def store {σ α : Type} [HasStore σ] (p : StoreM α) : Prog Failure σ α :=
  zoom HasStore.getStore HasStore.setStore p

/-- The trait `Sender`. Its last method is not in the source: it is where the
calls that theorems speak about are observed, and changes nothing else. -/
class Sender (σ : Type) [HasStore σ] where
  reportError : Str → Str → Prog Failure σ Unit
  privateTarget : Prog Failure σ Str
  sendIrcMessage : Str → Str → Str → Prog Failure σ Unit
  ensureJoined : Str → Prog Failure σ Unit
  /-- `chrono::Utc::now().naive_utc()`. -/
  utcNow : Prog Failure σ NaiveDateTime
  record : SenderCall → Prog Failure σ Unit

/-- The iterator over the fragments of a line: `last` is where the next one
starts. -/
def fragmentsFrom (line : Str) : Nat → List (Nat × Char) → List Str
  | _, [] => []
  | last, (i, _) :: rest =>
      if i ≥ last + messageMaxLen then
        slice line last i :: fragmentsFrom line i rest
      else if last + messageMaxLen ≥ byteLen line then
        slice line last (byteLen line) :: fragmentsFrom line (byteLen line) rest
      else fragmentsFrom line last rest

def fragments (line : Str) : List Str := fragmentsFrom line 0 (charIndices line)

/-- The text that `process_msg_plain` sends for a message of the time `ts`. -/
def renderPlain (now ts : NaiveDateTime) (text : Str) : Str :=
  let action : Str := "\x01ACTION "
  let (output, text) :=
    if startsWith text action then (action, text.drop 8) else ([], text)
  let stamp : Str :=
    if secondsBetween now ts > 5 then
      ("\x0315\x02[\x02" : Str) ++
        (if date now ≠ date ts then Crates.localDate ts ++ (" " : Str) else []) ++
        Crates.localTime ts ++ ("\x02]\x02\x0f " : Str)
    else []
  output ++ stamp ++ text

/-- The concatenation header of a decoded message. -/
def concatenation (m : DecodedMessage) : Option ConcatenatedSmsData :=
  m.udh.bind fun x => x.getConcatenatedSmsData

/-- Decode the row of a part. -/
def decodePart (m : Message) : Except Failure DecodedMessage :=
  match m.pdu with
  | none => .error (.panic .concatenatedPdu)
  | some pdu =>
      match Crates.deliverPduTryFrom pdu with
      | .error e => .error (.error e)
      | .ok p =>
          match p.decodeMessage with
          | .error e => .error (.error e)
          | .ok d => .ok d

/-- The sort key of a part. -/
def sequenceOf (d : DecodedMessage) : Nat :=
  ((concatenation d).map fun cd => cd.sequence.toNat).getD 0

/-- `sort_by_key` by the sequence number. The key of an element is only computed
when there is another one to compare it with. -/
def sortParts (pdus : List DecodedMessage) : Except Failure (List DecodedMessage) :=
  if pdus.length < 2 || pdus.all fun d => (concatenation d).isSome then
    .ok (pdus.insertionSort fun a b => sequenceOf a ≤ sequenceOf b)
  else .error (.panic .concatenatedHeader)

/-- The text of the parts in the order of their sequence numbers. -/
def joinParts (msgs : List Message) : Except Failure Str := do
  let pdus ← msgs.mapM decodePart
  let sorted ← sortParts pdus
  pure (sorted.flatMap fun d => d.text)

/-- The operator `?`. -/
def liftResult {σ α : Type} : Except Failure α → Prog Failure σ α
  | .ok a => pure a
  | .error e => throw e

section Methods

variable {σ : Type} [HasStore σ] [Sender σ]

/-- The channel or user that a message goes to. -/
def destination : Option Nat → Prog Failure σ Str
  | some g => do
      let grp ← store (getGroupById g)
      Sender.ensureJoined grp.channel
      pure grp.channel
  | none => Sender.privateTarget

def sendFragment (fromNick dest chunk : Str) : Prog Failure σ Unit :=
  if byteLen chunk > 0 then do
    Sender.record (.sendIrcMessage fromNick dest chunk)
    Sender.sendIrcMessage fromNick dest chunk
  else pure ()

def sendRawMessage (fromNick msg : Str) (groupTarget : Option Nat) :
    Prog Failure σ Unit := do
  Sender.record (.sendRawMessage fromNick msg groupTarget)
  let dest ← destination groupTarget
  forM (lines msg) fun line =>
    forM (fragments line) fun chunk => sendFragment fromNick dest chunk

def removeMessage (id : Nat) : Prog Failure σ Unit := do
  Sender.record (.deleteMessage id)
  store (deleteMessage id)

def processMsgPlain (nick : Str) (msg : Message) : Prog Failure σ Unit := do
  let text ← unwrap .messageText msg.text
  let now ← Sender.utcNow
  sendRawMessage nick (renderPlain now msg.ts text) msg.groupTarget
  removeMessage msg.id

def processMsgPdu (nick : Str) (msg : Message) (pdu : DeliverPdu) :
    Prog Failure σ Unit :=
  match pdu.decodeMessage with
  | .ok m =>
      match concatenation m with
      | some cd => do
          let msgs ← store (getAllConcatenated msg.phoneNumber cd.reference.toNat)
          if msgs.length ≠ cd.parts.toNat then pure ()
          else do
            let concatenated ← liftResult (joinParts msgs)
            sendRawMessage nick concatenated msg.groupTarget
            forM msgs fun m => removeMessage m.id
      | none => do
          sendRawMessage nick m.text msg.groupTarget
          removeMessage msg.id
  | .error e => do
      let err := ("indecipherable message: " : Str) ++ e
      Sender.record (.reportError nick err)
      Sender.reportError nick err

end Methods

end SmsIrc.SenderCommon
