import SmsIrc.LinkRuns
import SmsIrc.ModemMemory
import SmsIrc.Simulation
import SmsIrc.WhatsappRuns

/-!
`src/main.rs` and the channels of `src/comm.rs`, for a bridge that is linked to a server:
the modem manager, the WhatsApp manager and the link share the database, and send each
other commands that are received in order.
-/

namespace SmsIrc.Main

open SmsIrc.Comm SmsIrc.Database SmsIrc.External SmsIrc.Link SmsIrc.LinkRuns SmsIrc.Modem
open SmsIrc.Logging (Level maxLevel)
open SmsIrc.Simulation SmsIrc.Text SmsIrc.Transition SmsIrc.Util SmsIrc.Whatsapp

section Parts

variable [Crates]

/-- The parts of the program, with the commands that the link has not received. The other
two hold those that they have not received themselves. -/
structure Parts where
  modem : ModemMemory.Bridge
  wa : WhatsappRuns.Session
  link : LinkRuns.Session
  cfRx : List ContactFactoryCommand
  cbRx : List ControlBotCommand

/-- The sections of the configuration that the parts use. -/
structure Config where
  modemPath : Option Str
  whatsapp : WhatsappConfig
  insp : InspConfig
  chanLoglevel : Option Level
  stdoutLoglevel : Option Level

/-- The link's section, with the level that the logger is registered with. -/
def Config.inspS2s (cfg : Config) : InspConfig :=
  { cfg.insp with maxLevel := maxLevel cfg.chanLoglevel cfg.stdoutLoglevel }

/-- What is outside of the program when it is started. -/
structure World where
  store : Store
  /-- The messages in the memory of the modem. -/
  memory : List SmsMessage
  now : NaiveDateTime
  instant : Nat
  generated : Nat → Str
  contactFile : Nat → Except Str Str
  errorText : Str

def start (cfg : Config) (w : World) : Parts where
  modem :=
    { manager := ModemManager.new w.store cfg.modemPath
      ended := false
      memory := w.memory
      deleted := [] }
  wa :=
    ⟨WhatsappManager.new cfg.whatsapp w.store w.now w.instant w.generated w.contactFile
      cfg.chanLoglevel w.errorText, none⟩
  link := LinkRuns.initial cfg.inspS2s w.store w.now
  cfRx := []
  cbRx := []

inductive Event where
  | modem (e : ModemMemory.Event)
  | whatsapp (e : WhatsappRuns.Event)
  | connect
  | remote (m : IrcMessage)
  /-- The link takes a command from one of its channels. -/
  | receiveCf
  | receiveCb
  /-- A log record of any part or library. -/
  | log (line : Str)
  /-- Time passes, here and in the database. -/
  | clock (now dbNow : NaiveDateTime) (instant : Nat)

/-- What the modem, its timers and the manager do by themselves. -/
def ownModem : ModemMemory.Event → Bool
  | .arrive _ _ => true
  | .poll _ => true
  | .handle _ => true
  | .request .doCmgl => true
  | .execute _ _ => true
  | .answer _ => true
  | .fail _ _ => true
  | _ => false

def ownWhatsapp : WhatsappRuns.Event → Bool
  | .request _ => false
  | .otherOp _ => false
  | .clock _ _ _ => false
  | _ => true

/-- The modem manager with the database as it is now, and more commands to receive. -/
def modemNow (b : ModemMemory.Bridge) (st : Store) (cs : List ModemCommand) :
    ModemMemory.Bridge :=
  { b with manager := { b.manager with store := st, rx := b.manager.rx ++ cs } }

def whatsappNow (s : WhatsappRuns.Session) (st : Store) (cs : List WhatsappCommand) :
    WhatsappRuns.Session :=
  { s with manager := { WhatsappRuns.setStore s.manager st with rx := s.manager.rx ++ cs } }

def linkNow (s : LinkRuns.Session) (st : Store) : LinkRuns.Session :=
  { s with link := { s.link with store := st } }

def afterModem (s : Parts) (t : ModemMemory.Bridge) : Parts where
  modem := t
  wa := whatsappNow s.wa t.manager.store []
  link := linkNow s.link t.manager.store
  cfRx := s.cfRx ++ since s.modem.manager.cfTx t.manager.cfTx
  cbRx := s.cbRx ++ since s.modem.manager.cbTx t.manager.cbTx

def afterWhatsapp (s : Parts) (t : WhatsappRuns.Session) : Parts where
  modem := modemNow s.modem t.manager.msgproc.store []
  wa := t
  link := linkNow s.link t.manager.msgproc.store
  cfRx := s.cfRx ++ since s.wa.manager.cfTx t.manager.cfTx
  cbRx := s.cbRx ++ since s.wa.manager.cbTx t.manager.cbTx

def afterLink (s : Parts) (t : LinkRuns.Session) : Parts where
  modem := modemNow s.modem t.link.store (since s.link.link.mTx t.link.mTx)
  wa := whatsappNow s.wa t.link.store (since s.link.link.waTx t.link.waTx)
  link := t
  cfRx := s.cfRx ++ since s.link.link.cfTx t.link.cfTx
  cbRx := s.cbRx ++ since s.link.link.cbTx t.link.cbTx

/-- The database at another time. -/
def storeAt (st : Store) (dbNow : NaiveDateTime) : Store := { st with now := dbNow }

def step (s : Parts) : Event → Option Parts
  | .modem e => if ownModem e then (ModemMemory.next s.modem e).map (afterModem s) else none
  | .whatsapp e =>
      if ownWhatsapp e then (WhatsappRuns.next s.wa e).map (afterWhatsapp s) else none
  | .connect => (LinkRuns.next s.link .connect).map (afterLink s)
  | .remote m => (LinkRuns.next s.link (.remote m)).map (afterLink s)
  | .receiveCf =>
      match s.cfRx with
      | [] => none
      | c :: rest => (LinkRuns.next s.link (.cf c)).map (afterLink { s with cfRx := rest })
  | .receiveCb =>
      match s.cbRx with
      | [] => none
      | c :: rest => (LinkRuns.next s.link (.cb c)).map (afterLink { s with cbRx := rest })
  | .log line => some { s with cbRx := s.cbRx ++ [.log line] }
  | .clock now dbNow instant => do
      let wa ← WhatsappRuns.next s.wa (.clock now dbNow instant)
      let link ← LinkRuns.next s.link (.clock now dbNow)
      pure { s with
        modem := modemNow s.modem (storeAt s.modem.manager.store dbNow) []
        wa := wa
        link := link }

/-- No part has failed; if one does, so does the program. -/
def running (s : Parts) : Bool :=
  !s.modem.ended && s.wa.outcome.isNone && s.link.outcome.isNone

def next (s : Parts) (e : Event) : Option Parts := if running s then step s e else none

/-- All parts have the same database. -/
structure Shared (s : Parts) : Prop where
  modem : s.modem.manager.store = s.link.link.store
  wa : s.wa.manager.msgproc.store = s.link.link.store

theorem shared_start (cfg : Config) (w : World) : Shared (start cfg w) := ⟨rfl, rfl⟩

theorem running_of_next {s t : Parts} {e : Event} (h : next s e = some t) :
    running s = true ∧ step s e = some t := by
  unfold next at h
  split at h
  · exact ⟨by assumption, h⟩
  · cases h

/-- What a step of the program is for the part that takes it. -/
inductive Stepped (s : Parts) : Event → Parts → Prop
  | modem {e : ModemMemory.Event} {t : ModemMemory.Bridge} (hown : ownModem e = true)
      (h : ModemMemory.next s.modem e = some t) : Stepped s (.modem e) (afterModem s t)
  | whatsapp {e : WhatsappRuns.Event} {t : WhatsappRuns.Session} (hown : ownWhatsapp e = true)
      (h : WhatsappRuns.next s.wa e = some t) : Stepped s (.whatsapp e) (afterWhatsapp s t)
  | connect {t : LinkRuns.Session} (h : LinkRuns.next s.link .connect = some t) :
      Stepped s .connect (afterLink s t)
  | remote {m : IrcMessage} {t : LinkRuns.Session}
      (h : LinkRuns.next s.link (.remote m) = some t) : Stepped s (.remote m) (afterLink s t)
  | cf {c : ContactFactoryCommand} {rest : List ContactFactoryCommand} {t : LinkRuns.Session}
      (hrx : s.cfRx = c :: rest) (h : LinkRuns.next s.link (.cf c) = some t) :
      Stepped s .receiveCf (afterLink { s with cfRx := rest } t)
  | cb {c : ControlBotCommand} {rest : List ControlBotCommand} {t : LinkRuns.Session}
      (hrx : s.cbRx = c :: rest) (h : LinkRuns.next s.link (.cb c) = some t) :
      Stepped s .receiveCb (afterLink { s with cbRx := rest } t)
  | log {line : Str} : Stepped s (.log line) { s with cbRx := s.cbRx ++ [.log line] }
  | clock {now dbNow : NaiveDateTime} {instant : Nat} :
      Stepped s (.clock now dbNow instant)
        { s with
          modem := modemNow s.modem (storeAt s.modem.manager.store dbNow) []
          wa :=
            { s.wa with
              manager :=
                { WhatsappRuns.setStore s.wa.manager
                    (storeAt s.wa.manager.msgproc.store dbNow) with
                  now := now, instant := instant } }
          link :=
            { s.link with
              link := { s.link.link with now := now, store := storeAt s.link.link.store dbNow } } }

theorem stepped_of_next {s t : Parts} {e : Event} (h : next s e = some t) : Stepped s e t := by
  obtain ⟨hrun, h⟩ := running_of_next h
  cases e with
  | modem e =>
      simp only [step] at h
      split at h
      · obtain ⟨u, hu, rfl⟩ := Option.map_eq_some_iff.mp h
        exact .modem (by assumption) hu
      · cases h
  | whatsapp e =>
      simp only [step] at h
      split at h
      · obtain ⟨u, hu, rfl⟩ := Option.map_eq_some_iff.mp h
        exact .whatsapp (by assumption) hu
      · cases h
  | connect =>
      obtain ⟨u, hu, rfl⟩ := Option.map_eq_some_iff.mp h
      exact .connect hu
  | remote m =>
      obtain ⟨u, hu, rfl⟩ := Option.map_eq_some_iff.mp h
      exact .remote hu
  | receiveCf =>
      simp only [step] at h
      split at h
      · cases h
      · obtain ⟨u, hu, rfl⟩ := Option.map_eq_some_iff.mp h
        exact .cf (by assumption) hu
  | receiveCb =>
      simp only [step] at h
      split at h
      · cases h
      · obtain ⟨u, hu, rfl⟩ := Option.map_eq_some_iff.mp h
        exact .cb (by assumption) hu
  | log line =>
      cases h
      exact .log
  | clock now dbNow instant =>
      simp only [running, Bool.and_eq_true, Option.isNone_iff_eq_none] at hrun
      simp only [step, WhatsappRuns.next, LinkRuns.next, hrun.1.2, hrun.2] at h
      cases h
      exact .clock

theorem shared_stepped {s t : Parts} {e : Event} (hs : Shared s) (h : Stepped s e t) :
    Shared t := by
  cases h with
  | modem hown h => exact ⟨rfl, rfl⟩
  | whatsapp hown h => exact ⟨rfl, rfl⟩
  | connect h => exact ⟨rfl, rfl⟩
  | remote h => exact ⟨rfl, rfl⟩
  | cf hrx h => exact ⟨rfl, rfl⟩
  | cb hrx h => exact ⟨rfl, rfl⟩
  | log => exact ⟨hs.modem, hs.wa⟩
  | clock =>
      constructor
      · exact congrArg (storeAt · _) hs.modem
      · exact congrArg (storeAt · _) hs.wa

/-- In every state of a run all parts see the same database. -/
theorem shared_of_run {cfg : Config} {w : World} {es : List Event} {s : Parts}
    (hrun : run next (start cfg w) es = some s) : Shared s :=
  invariant (fun _ _ _ hs ht => shared_stepped hs (stepped_of_next ht)) (shared_start cfg w) hrun

end Parts

section Samples

attribute [local instance] Sample.crates

def sampleConfig : Config where
  modemPath := some ("/dev/modem" : Str)
  whatsapp := WhatsappRuns.sampleConfig
  insp := LinkRuns.sampleConfig
  chanLoglevel := none
  stdoutLoglevel := some .info

def sampleWorld : World where
  store := Sample.store
  memory := []
  now := 0
  instant := 0
  generated := decimal
  contactFile n := .ok (decimal n)
  errorText := ("error" : Str)

/-- The link is established, and the admin is online. -/
def linking : List Event :=
  [.connect,
    .remote ⟨none, .raw ("SERVER" : Str)
      [("irc.example" : Str), ("receive" : Str), ("0" : Str), ("00B" : Str)] (some [])⟩,
    .remote ⟨some ("00B" : Str), .raw ("UID" : Str)
      [("00BAAAAAA" : Str), ['1'], ("admin" : Str), ['h'], ['h'], ['i'], ['0'], ['1'],
        ("+i" : Str)] (some [])⟩,
    .remote ⟨some ("00B" : Str), .raw ("ENDBURST" : Str) [] none⟩]

def samplePdu : DeliverPduOf UInt8 := ⟨Sample.alice, .ok ⟨("hi" : Str), none⟩⟩

/-- An SMS arrives, and the modem manager stores it. -/
def receiving : List Event :=
  [.modem (.handle []), .modem (.arrive samplePdu (Sample.pdu none ("hi" : Str))),
    .modem (.poll [⟨[.done], []⟩]), .modem (.execute 0 ([], [])), .modem (.answer 0),
    .modem (.handle []), .modem (.execute 1 ([], []))]

/-- The link has a ghost made for its sender, and delivers it. -/
def delivering : List Event := [.receiveCf, .modem (.handle []), .receiveCf, .receiveCf]

/-- The state in which it has been delivered. -/
def delivered : Parts :=
  (run next (start sampleConfig sampleWorld) (linking ++ receiving ++ delivering)).get
    (by decide +kernel)

theorem run_delivered : run next (start sampleConfig sampleWorld)
    (linking ++ receiving ++ delivering) = some delivered := (Option.some_get _).symm

theorem running_delivered : running delivered = true := by decide +kernel

example : (delivered.modem.deleted.length, delivered.link.link.store.messages.rows.length) =
    (1, 0) := by decide +kernel

/-- A line of the admin to the control bot. -/
def asking (line : Str) : Event :=
  .remote ⟨some ("00BAAAAAA" : Str), .privmsg ("00AA00000" : Str) line⟩

/-- The admin has a group bridged, its metadata arrive, and a ghost is made for its member. -/
def grouping : List Event :=
  linking ++ [asking ("WHATSAPP SETUP" : Str), .whatsapp .handle, .whatsapp .handle,
    .whatsapp (.poll [.ready]),
    .whatsapp (.poll [.event (.sessionEstablished ⟨("1" : Str), false⟩ ())]),
    asking ("GROUP BRIDGE 2@g.us #g" : Str), .whatsapp .handle,
    .whatsapp (.poll [.event (.groupMetadata (.ok ⟨⟨("2" : Str), true⟩, ("s" : Str),
      [(⟨("44123" : Str), false⟩, true)]⟩))]),
    .receiveCf, .receiveCf, .receiveCf]

def grouped : Parts := (run next (start sampleConfig sampleWorld) grouping).get (by decide +kernel)

example : grouped.link.link.store.groups.rows.map Models.Group.channel = [("#g" : Str)] := by
  decide +kernel

end Samples

end SmsIrc.Main
