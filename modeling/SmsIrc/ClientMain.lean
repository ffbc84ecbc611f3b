import SmsIrc.BotChannels
import SmsIrc.FactoryRuns
import SmsIrc.Main

/-!
`src/main.rs` and the channels of `src/comm.rs`, for a bridge in traditional IRC client
mode: instead of a link there are the control bot and the contact factory, which share the
database with the modem manager and the WhatsApp manager.
-/

namespace SmsIrc.ClientMain

open SmsIrc.Comm SmsIrc.ControlBot SmsIrc.Database SmsIrc.External SmsIrc.Factory
open SmsIrc.FactoryRuns SmsIrc.Main SmsIrc.Program SmsIrc.Simulation SmsIrc.Text
open SmsIrc.Transition SmsIrc.Util SmsIrc.Whatsapp

section Parts

variable [Crates]

/-- The parts of the program, with the commands that the factory and the bot have not
received. The managers hold those that they have not received themselves. -/
structure Parts where
  modem : ModemMemory.Bridge
  wa : WhatsappRuns.Session
  factory : FactoryRuns.Session
  bot : BotChannels.Session
  cfRx : List ContactFactoryCommand
  cbRx : List ControlBotCommand
  /-- Whether the client of the bot has become ready, so that there are a bot and a factory. -/
  begun : Bool

/-- The sections of the configuration that the parts use. -/
structure Config where
  modemPath : Option Str
  whatsapp : WhatsappConfig
  client : ClientConfig
  ircChannel : Str
  chanLoglevel : Option Level

/-- `ControlBot::new`, when the client is ready. -/
def newBot (cfg : Config) (st : Store) (refuses : Nat → Option Str) : Bot where
  sent := []
  refuses := refuses
  calls := 0
  stream := []
  chan := cfg.ircChannel
  admin := cfg.client.adminNick
  channels := []
  logBacklog := []
  store := st
  id := false
  connected := false
  webircPassword := cfg.client.webircPassword
  rx := []
  cfTx := []
  waTx := []
  mTx := []

/-- The managers run before the bot and the factory do. -/
def start (cfg : Config) (w : World) (refuses : Nat → Option Str) : Parts where
  modem :=
    { manager := .new w.store cfg.modemPath
      ended := false
      memory := w.memory
      deleted := [] }
  wa :=
    ⟨.new cfg.whatsapp w.store w.now w.instant w.generated w.contactFile cfg.chanLoglevel
      w.errorText, none⟩
  factory := FactoryRuns.initial cfg.client w.store w.now
  bot := ⟨newBot cfg w.store refuses, none⟩
  cfRx := []
  cbRx := []
  begun := false

inductive Event where
  /-- `ControlBot::new` has resolved; `ContactFactory::new` sends a command to itself. -/
  | begin
  | modem (e : ModemMemory.Event)
  | whatsapp (e : WhatsappRuns.Event)
  /-- The factory polls its attempts, its contacts or its interval. -/
  | turn (t : Turn)
  | receiveCf
  | bot (e : BotChannels.Event)
  | receiveCb
  /-- A log record of any part or library. -/
  | log (line : Str)
  /-- Time passes, here and in the database. -/
  | clock (now dbNow : NaiveDateTime) (instant : Nat)

def ownTurn : Turn → Bool
  | .command _ => false
  | _ => true

/-- What can happen while there are only the managers. -/
def early : Event → Bool
  | .begin => true
  | .modem _ => true
  | .whatsapp _ => true
  | .log _ => true
  | .clock _ _ _ => true
  | _ => false

/-- What the bot does without a command. -/
def ownBot : BotChannels.Event → Bool
  | .command _ => false
  | .storeOp _ => false
  | _ => true

def factoryNow (s : FactoryRuns.Session) (st : Store) : FactoryRuns.Session :=
  { s with factory := { s.factory with store := st } }

def botNow (s : BotChannels.Session) (st : Store) : BotChannels.Session :=
  { s with bot := { s.bot with store := st } }

def afterModem (s : Parts) (t : ModemMemory.Bridge) : Parts where
  modem := t
  wa := whatsappNow s.wa t.manager.store []
  factory := factoryNow s.factory t.manager.store
  bot := botNow s.bot t.manager.store
  cfRx := s.cfRx ++ since s.modem.manager.cfTx t.manager.cfTx
  cbRx := s.cbRx ++ since s.modem.manager.cbTx t.manager.cbTx
  begun := s.begun

def afterWhatsapp (s : Parts) (t : WhatsappRuns.Session) : Parts where
  modem := modemNow s.modem t.manager.msgproc.store []
  wa := t
  factory := factoryNow s.factory t.manager.msgproc.store
  bot := botNow s.bot t.manager.msgproc.store
  cfRx := s.cfRx ++ since s.wa.manager.cfTx t.manager.cfTx
  cbRx := s.cbRx ++ since s.wa.manager.cbTx t.manager.cbTx
  begun := s.begun

def afterFactory (s : Parts) (t : FactoryRuns.Session) : Parts where
  modem := modemNow s.modem t.factory.store (since s.factory.factory.mTx t.factory.mTx)
  wa := whatsappNow s.wa t.factory.store (since s.factory.factory.waTx t.factory.waTx)
  factory := t
  bot := botNow s.bot t.factory.store
  cfRx := s.cfRx
  cbRx := s.cbRx ++ since s.factory.factory.cbTx t.factory.cbTx
  begun := s.begun

def afterBot (s : Parts) (t : BotChannels.Session) : Parts where
  modem := modemNow s.modem t.bot.store (since s.bot.bot.mTx t.bot.mTx)
  wa := whatsappNow s.wa t.bot.store (since s.bot.bot.waTx t.bot.waTx)
  factory := factoryNow s.factory t.bot.store
  bot := t
  cfRx := s.cfRx ++ since s.bot.bot.cfTx t.bot.cfTx
  cbRx := s.cbRx
  begun := s.begun

def step (s : Parts) : Event → Option Parts
  | .begin =>
      if s.begun then none
      else some { s with cfRx := s.cfRx ++ [.loadRecipients], begun := true }
  | .modem e => if ownModem e then (ModemMemory.next s.modem e).map (afterModem s) else none
  | .whatsapp e =>
      if ownWhatsapp e then (WhatsappRuns.next s.wa e).map (afterWhatsapp s) else none
  | .turn t =>
      if ownTurn t then (FactoryRuns.next s.factory (.turn t)).map (afterFactory s) else none
  | .receiveCf =>
      match s.cfRx with
      | [] => none
      | c :: rest =>
          (FactoryRuns.next s.factory (.turn (.command c))).map
            (afterFactory { s with cfRx := rest })
  | .bot e => if ownBot e then (BotChannels.next s.bot e).map (afterBot s) else none
  | .receiveCb =>
      match s.cbRx with
      | [] => none
      | c :: rest => (BotChannels.next s.bot (.command c)).map (afterBot { s with cbRx := rest })
  | .log line => some { s with cbRx := s.cbRx ++ [.log line] }
  | .clock now dbNow instant => do
      let wa ← WhatsappRuns.next s.wa (.clock now dbNow instant)
      let factory ← FactoryRuns.next s.factory (.clock now dbNow)
      pure { s with
        modem := modemNow s.modem (storeAt s.modem.manager.store dbNow) []
        wa := wa
        factory := factory
        bot := botNow s.bot (storeAt s.bot.bot.store dbNow) }

/-- No part has failed; if one does, so does the program. -/
def running (s : Parts) : Bool :=
  !s.modem.ended && s.wa.outcome.isNone && s.factory.outcome.isNone && s.bot.outcome.isNone

def next (s : Parts) (e : Event) : Option Parts :=
  if running s && (s.begun || early e) then step s e else none

/-- All parts have the same database. -/
structure Shared (s : Parts) : Prop where
  modem : s.modem.manager.store = s.factory.factory.store
  wa : s.wa.manager.msgproc.store = s.factory.factory.store
  bot : s.bot.bot.store = s.factory.factory.store

theorem shared_start (cfg : Config) (w : World) (refuses : Nat → Option Str) :
    Shared (start cfg w refuses) := ⟨rfl, rfl, rfl⟩

theorem running_of_next {s t : Parts} {e : Event} (h : next s e = some t) :
    running s = true ∧ step s e = some t := by
  unfold next at h
  split at h
  · rename_i hrun
    exact ⟨(Bool.and_eq_true_iff.mp hrun).1, h⟩
  · cases h

theorem running_of_run {s t : Parts} {es : List Event} (hrun : run next s es = some t)
    (ht : running t = true) : running s = true := by
  cases es with
  | nil =>
      cases hrun
      exact ht
  | cons e es =>
      rw [run_cons, Option.bind_eq_some_iff] at hrun
      obtain ⟨u, hu, -⟩ := hrun
      exact (running_of_next hu).1

theorem outcomes_of_running {s : Parts} (h : running s = true) :
    s.modem.ended = false ∧ s.wa.outcome = none ∧ s.factory.outcome = none ∧
      s.bot.outcome = none := by
  simp only [running, Bool.and_eq_true, Bool.not_eq_true', Option.isNone_iff_eq_none] at h
  exact ⟨h.1.1.1, h.1.1.2, h.1.2, h.2⟩

/-- What a step of the program is for the part that takes it. -/
inductive Stepped (s : Parts) : Event → Parts → Prop
  | begin : Stepped s .begin { s with cfRx := s.cfRx ++ [.loadRecipients], begun := true }
  | modem {e : ModemMemory.Event} {t : ModemMemory.Bridge} (hown : ownModem e = true)
      (h : ModemMemory.next s.modem e = some t) : Stepped s (.modem e) (afterModem s t)
  | whatsapp {e : WhatsappRuns.Event} {t : WhatsappRuns.Session} (hown : ownWhatsapp e = true)
      (h : WhatsappRuns.next s.wa e = some t) : Stepped s (.whatsapp e) (afterWhatsapp s t)
  | turn {u : Turn} {t : FactoryRuns.Session} (hown : ownTurn u = true)
      (h : FactoryRuns.next s.factory (.turn u) = some t) : Stepped s (.turn u) (afterFactory s t)
  | cf {c : ContactFactoryCommand} {rest : List ContactFactoryCommand} {t : FactoryRuns.Session}
      (hrx : s.cfRx = c :: rest) (h : FactoryRuns.next s.factory (.turn (.command c)) = some t) :
      Stepped s .receiveCf (afterFactory { s with cfRx := rest } t)
  | bot {e : BotChannels.Event} {t : BotChannels.Session} (hown : ownBot e = true)
      (h : BotChannels.next s.bot e = some t) : Stepped s (.bot e) (afterBot s t)
  | cb {c : ControlBotCommand} {rest : List ControlBotCommand} {t : BotChannels.Session}
      (hrx : s.cbRx = c :: rest) (h : BotChannels.next s.bot (.command c) = some t) :
      Stepped s .receiveCb (afterBot { s with cbRx := rest } t)
  | log {line : Str} : Stepped s (.log line) { s with cbRx := s.cbRx ++ [.log line] }
  | clock {now dbNow : NaiveDateTime} {instant : Nat} :
      Stepped s (.clock now dbNow instant)
        { s with
          modem := modemNow s.modem (storeAt s.modem.manager.store dbNow) []
          wa :=
            { s.wa with
              manager :=
                { WhatsappRuns.setStore s.wa.manager
                    (storeAt s.wa.manager.msgproc.store dbNow) with
                  now := now, instant := instant } }
          factory :=
            { s.factory with
              factory :=
                { s.factory.factory with
                  now := now, store := storeAt s.factory.factory.store dbNow } }
          bot := botNow s.bot (storeAt s.bot.bot.store dbNow) }

theorem stepped_of_next {s t : Parts} {e : Event} (h : next s e = some t) : Stepped s e t := by
  obtain ⟨hrun, h⟩ := running_of_next h
  cases e with
  | begin =>
      simp only [step] at h
      split at h
      · cases h
      · cases h
        exact .begin
  | modem e =>
      simp only [step] at h
      split at h
      · obtain ⟨u, hu, rfl⟩ := Option.map_eq_some_iff.mp h
        exact .modem (by assumption) hu
      · cases h
  | whatsapp e =>
      simp only [step] at h
      split at h
      · obtain ⟨u, hu, rfl⟩ := Option.map_eq_some_iff.mp h
        exact .whatsapp (by assumption) hu
      · cases h
  | turn u =>
      simp only [step] at h
      split at h
      · obtain ⟨u, hu, rfl⟩ := Option.map_eq_some_iff.mp h
        exact .turn (by assumption) hu
      · cases h
  | receiveCf =>
      simp only [step] at h
      split at h
      · cases h
      · obtain ⟨u, hu, rfl⟩ := Option.map_eq_some_iff.mp h
        exact .cf (by assumption) hu
  | bot e =>
      simp only [step] at h
      split at h
      · obtain ⟨u, hu, rfl⟩ := Option.map_eq_some_iff.mp h
        exact .bot (by assumption) hu
      · cases h
  | receiveCb =>
      simp only [step] at h
      split at h
      · cases h
      · obtain ⟨u, hu, rfl⟩ := Option.map_eq_some_iff.mp h
        exact .cb (by assumption) hu
  | log line =>
      cases h
      exact .log
  | clock now dbNow instant =>
      obtain ⟨-, hwa, hfactory, -⟩ := outcomes_of_running hrun
      simp only [step, WhatsappRuns.next, FactoryRuns.next, hwa, hfactory] at h
      cases h
      exact .clock

theorem shared_stepped {s t : Parts} {e : Event} (hs : Shared s) (h : Stepped s e t) :
    Shared t := by
  cases h with
  | begin => exact ⟨hs.modem, hs.wa, hs.bot⟩
  | modem hown h => exact ⟨rfl, rfl, rfl⟩
  | whatsapp hown h => exact ⟨rfl, rfl, rfl⟩
  | turn hown h => exact ⟨rfl, rfl, rfl⟩
  | cf hrx h => exact ⟨rfl, rfl, rfl⟩
  | bot hown h => exact ⟨rfl, rfl, rfl⟩
  | cb hrx h => exact ⟨rfl, rfl, rfl⟩
  | log => exact ⟨hs.modem, hs.wa, hs.bot⟩
  | clock =>
      constructor
      · exact congrArg (storeAt · _) hs.modem
      · exact congrArg (storeAt · _) hs.wa
      · exact congrArg (storeAt · _) hs.bot

end Parts

section Samples

attribute [local instance] Sample.crates

def sampleConfig : Config where
  modemPath := some ("/dev/modem" : Str)
  whatsapp := WhatsappRuns.sampleConfig
  client := ⟨("admin" : Str), none⟩
  ircChannel := ("#sms" : Str)
  chanLoglevel := none

def sampleStart : Parts := start sampleConfig sampleWorld fun _ => none

/-- What the server tells a contact, which has nothing else to do. -/
def hearing (ms : List Contact.ContactCommand) : Event :=
  .turn (.contacts fun _ =>
    ⟨.ok (), ms.map fun m => .message ⟨some ("irc.example" : Str), m⟩, .ok ()⟩)

/-- An SMS arrives and is stored before there is a factory; its sender gets a connection,
which delivers it. -/
def texting : List Event :=
  [.modem (.handle []), .modem (.arrive samplePdu (Sample.pdu none ("hi" : Str))),
    .modem (.poll [⟨[.done], []⟩]), .modem (.execute 0 ([], [])), .modem (.answer 0),
    .modem (.handle []), .begin, .receiveCf, .receiveCf, .modem (.handle []), .receiveCf,
    .receiveCf, .turn (.starting fun _ => .ready ("alice" : Str) fun _ => none),
    hearing [.endOfMotd]]

example : ((run next sampleStart texting).map fun t =>
    (running t, t.factory.factory.store.messages.rows.length,
      ((t.factory.factory.contacts.lookup Sample.alice).map fun c => c.sent))) =
    some (true, 0, some [.identify, .privmsg ("admin" : Str) ("hi" : Str),
      .raw ("WATCH" : Str) [("+admin" : Str)], .away none]) := by decide +kernel

end Samples

end SmsIrc.ClientMain
