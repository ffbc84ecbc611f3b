import SmsIrc.Link
import SmsIrc.Sample
import SmsIrc.Transition

/-!
Runs of the link: messages of the other server, commands of the other parts of
the program, and what those parts do to the database, in any order.
-/

namespace SmsIrc.LinkRuns

open SmsIrc.Comm SmsIrc.Database SmsIrc.External SmsIrc.HashMaps SmsIrc.Link SmsIrc.Models
open SmsIrc.Program SmsIrc.SerialTable SmsIrc.Text SmsIrc.Transition SmsIrc.Util

section Runs

variable [Crates]

/-- The uses that other parts of the program make of the database. -/
inductive StoreOp where
  | smsMessage (addr : PduAddress) (pdu : List UInt8) (csmsData : Option Nat)
  | waMessage (addr : PduAddress) (text : Str) (groupTarget : Option Nat) (ts : NaiveDateTime)
  | recipient (addr : PduAddress) (nick : Str)
  | waRecipient (addr : PduAddress) (nick : Str) (notify : Option Str) (nicksrc : Int)
  | notify (addr : PduAddress) (n : Option Str)
  | group (jid : Jid) (chan : Str) (parts adms : List Nat) (topic : Str)
  | updateGroup (jid : Jid) (parts adms : List Nat) (topic : Str)
  | deleteGroup (id : Nat)
  | waMsgid (id : Str)
  | waPersistence (p : Crates.PersistentSession)

def StoreOp.run : StoreOp → StoreM Unit
  | .smsMessage addr pdu csmsData => storeSmsMessage addr pdu csmsData
  | .waMessage addr text groupTarget ts => storeWaMessage addr text groupTarget ts
  | .recipient addr nick => do
      let _ ← storeRecipient addr nick
  | .waRecipient addr nick ntf nicksrc => do
      let _ ← storeWaRecipient addr nick ntf nicksrc
  | .notify addr n => updateRecipientNotify addr n
  | .group jid chan parts adms topic => do
      let _ ← storeGroup jid chan parts adms topic
  | .updateGroup jid parts adms topic => do
      let _ ← Database.updateGroup jid parts adms topic
  | .deleteGroup id => deleteGroupWithId id
  | .waMsgid id => storeWaMsgid id
  | .waPersistence p => storeWaPersistence p

/-- A link, and what ended it, if anything has. -/
structure Session where
  link : InspLink
  outcome : Option Failure

inductive Event where
  /-- The first poll. -/
  | connect
  | remote (m : IrcMessage)
  | cb (c : ControlBotCommand)
  | cf (c : ContactFactoryCommand)
  | storeOp (op : StoreOp)
  /-- Time passes, here and in the database. -/
  | clock (now dbNow : NaiveDateTime)

/-- Let a handler run; a failure ends the link. -/
def perform (s : Session) (p : LinkM Unit) : Session where
  link := (exec p s.link).2
  outcome := match (exec p s.link).1 with
    | .ok _ => none
    | .error e => some e

def connect : LinkM Unit := do
  doCapabAndServer
  modify fun l => { l with state := .serverSent }

/-- What an event does to a link that has not ended. -/
def step (s : Session) : Event → Option Session
  | .connect => if s.link.state = .tcpConnected then some (perform s connect) else none
  | .remote m =>
      if s.link.state = .tcpConnected then none else some (perform s (handleRemoteMessage m))
  | .cb c => if s.link.state = .linked then some (perform s (handleCbCommand c)) else none
  | .cf c => if s.link.state = .linked then some (perform s (handleCfCommand c)) else none
  | .storeOp op =>
      some { s with link := { s.link with store := (exec op.run s.link.store).2 } }
  | .clock now dbNow =>
      some { s with link := { s.link with now := now, store := { s.link.store with now := dbNow } } }

def next (s : Session) (e : Event) : Option Session :=
  match s.outcome with
  | none => step s e
  | some _ => none

theorem outcome_of_next {s t : Session} {e : Event} (h : next s e = some t) :
    s.outcome = none := by
  unfold next at h
  split at h
  · assumption
  · cases h

/-- The link when it has just been made. -/
def initial (cfg : InspConfig) (store : Store) (now : NaiveDateTime) : Session :=
  ⟨InspLink.new cfg store now, none⟩

/-- A handler that is run in a session that meets its precondition leaves a
session as its specification says. -/
theorem wp_perform {I : InspLink → Prop} {P : Failure → Prop} {s : Session} {p : LinkM Unit}
    (h : wp p (fun _ t => I t) (fun e t => I t ∧ P e) s.link) :
    I (perform s p).link ∧ ∀ e, (perform s p).outcome = some e → P e := by
  unfold wp at h
  unfold perform
  rcases hp : exec p s.link with ⟨e | _, l⟩
  · rw [hp] at h
    refine ⟨h.1, ?_⟩
    rintro _ ⟨⟩
    exact h.2
  · rw [hp] at h
    exact ⟨h, by simp⟩

theorem exec_of_perform {s : Session} {p : LinkM Unit} (h : (perform s p).outcome = none) :
    exec p s.link = (.ok (), (perform s p).link) := by
  unfold perform at h ⊢
  rcases hp : exec p s.link with ⟨_ | _, l⟩
  · rw [hp] at h
    cases h
  · rfl

end Runs

section Samples

attribute [local instance] Sample.crates

def sampleConfig : InspConfig where
  sid := "00A"
  controlNick := "ctl"
  adminNick := "admin"
  sendpass := "send"
  recvpass := "receive"
  serverDesc := "bridge"
  serverName := "sms.example"
  logChan := "#sms"
  setTopics := false
  clobberTopics := false
  ensureJoined := false
  maxLevel := some .info

/-- The link is established, and the admin is online. -/
def linking : List Event :=
  [.connect,
    .remote ⟨none, .raw ("SERVER" : Str)
      [("irc.example" : Str), ("receive" : Str), ("0" : Str), ("00B" : Str)] (some [])⟩,
    .remote ⟨some ("00B" : Str), .raw ("UID" : Str)
      [("00BAAAAAA" : Str), ['1'], ("admin" : Str), ['h'], ['h'], ['i'], ['0'], ['1'],
        ("+i" : Str)] (some [])⟩,
    .remote ⟨some ("00B" : Str), .raw ("ENDBURST" : Str) [] none⟩]

def sampleStart : Session := initial sampleConfig Sample.store 0

example : ((run next sampleStart (.storeOp (.recipient Sample.alice ['a']) :: linking)).map
    fun t => (t.outcome, t.link.state, t.link.issued)) =
      some (none, .linked, [("00AZ00001" : Str)]) := by decide +kernel

end Samples

end SmsIrc.LinkRuns
