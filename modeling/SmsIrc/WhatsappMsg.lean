import SmsIrc.Comm
import SmsIrc.SenderCommon

/-!
`src/whatsapp_msg.rs` and `src/whatsapp_media.rs`: incoming WhatsApp messages
become lines of text, and their media are downloaded in the background.
-/

namespace SmsIrc.WhatsappMsg

open SmsIrc.Comm SmsIrc.Database SmsIrc.External SmsIrc.Models SmsIrc.Program
open SmsIrc.SenderCommon SmsIrc.Text SmsIrc.Util

structure IncomingMessage where
  id : Str
  peer : Option Peer
  fromJid : Jid
  group : Option Nat
  content : ChatMessageContent
  quoted : Option QuotedChatMessage
  ts : NaiveDateTime
deriving DecidableEq

structure ProcessedIncomingMessage where
  fromJid : Jid
  text : Str
  group : Option Nat
  ts : NaiveDateTime
deriving DecidableEq

/-- `whatsapp_media::MediaInfo`, without what only the download itself needs. -/
structure MediaInfo where
  mi : Str
  peer : Option Peer
  fromJid : Jid
  group : Option Nat
  ts : NaiveDateTime
deriving DecidableEq

/-- What the thread of a download sends when it is done. -/
def MediaInfo.finished (mi : MediaInfo) (result : Except Str Str) : MediaResult where
  fromJid := mi.fromJid
  group := mi.group
  mi := mi.mi
  peer := mi.peer
  ts := mi.ts
  result := result

/-- `replace_all` of a text between two delimiters, in which the delimiter does
not occur, by the same text between two marks. `body` is the text since a
delimiter. -/
def replaceDelimited (delim mark : Char) : Option Str → Str → Str
  | none, [] => []
  | some body, [] => delim :: body
  | none, c :: cs =>
      if c = delim then replaceDelimited delim mark (some []) cs
      else c :: replaceDelimited delim mark none cs
  | some body, c :: cs =>
      if c = delim then
        if body = [] then delim :: replaceDelimited delim mark (some []) cs
        else mark :: body ++ mark :: replaceDelimited delim mark none cs
      else replaceDelimited delim mark (some (body ++ [c])) cs

/-- A piece of a text: a character, or a mention with its digits. -/
inductive Piece where
  | plain (c : Char)
  | mention (digits : Str)
deriving DecidableEq

/-- Whether a text is only blanks, `det.trim() == ""`. -/
def isBlank (s : Str) : Bool := s.all isWhitespace

variable [Crates]

/-- The matches of `@(\d+)` and what is between them. `digits` are those since
an `@`. -/
def mentionPieces : Option Str → Str → List Piece
  | none, [] => []
  | some digits, [] => if digits = [] then [.plain '@'] else [.mention digits]
  | none, c :: cs =>
      if c = '@' then mentionPieces (some []) cs else .plain c :: mentionPieces none cs
  | some digits, c :: cs =>
      if Crates.regexDigit c then mentionPieces (some (digits ++ [c])) cs
      else
        (if digits = [] then .plain '@' else .mention digits) ::
          if c = '@' then mentionPieces (some []) cs else .plain c :: mentionPieces none cs

structure WaMessageProcessor where
  store : Store
  dlPath : Str
  /-- Which contact card is written under which name, or else the error. -/
  contactFile : Nat → Except Str Str
  contactFiles : Nat
  /-- The downloads that have not ended. -/
  downloads : List MediaInfo

abbrev MsgM := Prog Failure WaMessageProcessor

instance : HasStore WaMessageProcessor where
  getStore p := p.store
  setStore p st := { p with store := st }

/-- `whatsapp_media::store_contact`; the result is the link. -/
def storeContact : MsgM (Except Str Str) := do
  let p ← get
  set { p with contactFiles := p.contactFiles + 1 }
  pure ((p.contactFile p.contactFiles).map fun uu =>
    p.dlPath ++ ['/'] ++ uu ++ (".vcf" : Str))

def processIncomingMedia (id : Str) (peer : Option Peer) (fromJid : Jid) (group : Option Nat)
    (ts : NaiveDateTime) : MsgM Unit :=
  modify fun p => { p with downloads := p.downloads ++ [⟨id, peer, fromJid, group, ts⟩] }

/-- What a mention is replaced by. -/
def replacePiece : Piece → MsgM Str
  | .plain c => pure [c]
  | .mention digits => do
      let pdua ← unwrap .mentionAddress (Crates.parseAddress ('+' :: digits))
      match ← attempt (store (getRecipientByAddrOpt pdua)) with
      | .ok (some recip) => pure recip.nick
      | .ok none => pure (("<+" : Str) ++ digits ++ ['>'])
      | .error _ => pure ('@' :: digits)

def processWaTextMessage (msg : Str) : MsgM Str := do
  let emboldened := replaceDelimited '*' '\x02' none msg
  let italicised := replaceDelimited '_' '\x1d' none emboldened
  let pieces ← (mentionPieces none italicised).mapM replacePiece
  pure pieces.flatten

def jidToNick (jid : Jid) : MsgM (Option Str) :=
  match Crates.phonenumber jid with
  | some num =>
      match Crates.parseAddress num with
      | some pdua => do
          let recip ← store (getRecipientByAddrOpt pdua)
          pure (recip.map fun r => r.nick)
      | none => pure none
  | none => pure none

/-- A text that is cut if it is longer than 128 bytes. -/
def cutText (s : Str) : Str :=
  if 128 < byteLen s then ((Crates.graphemes s).take 128).flatten ++ ['…'] else s

/-- A place on a map. -/
def mapLink (lat long : Str) : Str :=
  ("https://google.com/maps?q=" : Str) ++ lat ++ [','] ++ long

/-- A text as a CTCP action. -/
def action (s : Str) : Str := ("\x01ACTION " : Str) ++ s ++ ['\x01']

/-- Media of which the caption is the text. -/
def isMedia : ChatMessageContent → Bool
  | .image _ => true
  | .video _ => true
  | .audio => true
  | .document _ => true
  | _ => false

/-- The text of a message, if it has one. -/
def contentText (inc : IncomingMessage) : MsgM (Option Str) :=
  match inc.content with
  | .text s => some <$> processWaTextMessage s
  | .unimplemented det =>
      pure (if isBlank det then none
        else some (("[\x02\x0304unimplemented\x0f] " : Str) ++ cutText det))
  | .liveLocation lat long speed =>
      pure (some (action (("is " : Str) ++ match speed with
        | some s => ("travelling at " : Str) ++ s ++ (" m/s - " : Str) ++ mapLink lat long
        | none => ("broadcasting live location - " : Str) ++ mapLink lat long)))
  | .location lat long name =>
      pure (some (action (("is " : Str) ++ (match name with
        | some n => ("at '" : Str) ++ n ++ ("'" : Str)
        | none => ("somewhere" : Str)) ++ (" - " : Str) ++ mapLink lat long)))
  | .redaction mid =>
      pure (some (action (("redacted message ID \x11" : Str) ++ mid ++ ['\x11'])))
  | .contact displayName _ => do
      match ← storeContact with
      | .ok link =>
          pure (some (action (("uploaded a contact for '" : Str) ++ displayName ++
            ("' - " : Str) ++ link)))
      | .error _ =>
          pure (some (action (("uploaded a contact for '" : Str) ++ displayName ++
            ("' (couldn't download)" : Str))))
  | .image _ => mediaText
  | .video _ => mediaText
  | .audio => mediaText
  | .document _ => mediaText
where
  mediaText : MsgM (Option Str) := do
    processIncomingMedia inc.id inc.peer inc.fromJid inc.group inc.ts
    pure (Crates.takeCaption inc.content)

/-- Who is quoted, in a group. -/
def quotedNick (inc : IncomingMessage) (qm : QuotedChatMessage) : MsgM Str :=
  if inc.group.isSome then do
    let nick ← jidToNick qm.participant
    pure (['<'] ++ nick.getD (Crates.displayJid qm.participant) ++ ("> " : Str))
  else pure []

/-- The line that quotes another message. -/
def quoteLine (inc : IncomingMessage) (qm : QuotedChatMessage) :
    MsgM ProcessedIncomingMessage := do
  let nick ← quotedNick inc qm
  let message := cutText (Crates.quotedDescription qm.content)
  pure ⟨inc.fromJid, ("\x0315> \x1d" : Str) ++ nick ++ message, inc.group, inc.ts⟩

/-- `process_wa_incoming`: the lines of a message, and whether it has media. -/
def processWaIncoming (inc : IncomingMessage) :
    MsgM (List ProcessedIncomingMessage × Bool) := do
  match ← contentText inc with
  | none => pure ([], isMedia inc.content)
  | some text => do
      let line : ProcessedIncomingMessage := ⟨inc.fromJid, text, inc.group, inc.ts⟩
      match inc.quoted with
      | some qm => do
          let quote ← quoteLine inc qm
          pure ([quote, line], isMedia inc.content)
      | none => pure ([line], isMedia inc.content)

example : replaceDelimited '*' '\x02' none ['*', 'a', '*', 'b', '*', '*', 'c', '*'] =
    ['\x02', 'a', '\x02', 'b', '*', '\x02', 'c', '\x02'] := by decide

end SmsIrc.WhatsappMsg
