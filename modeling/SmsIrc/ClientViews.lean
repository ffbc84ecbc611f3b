import SmsIrc.ClientMain
import SmsIrc.FactoryFrame
import SmsIrc.MainViews

/-!
What each part sees of a run of the program in client mode: a run of its own, in which the
other parts use the database and send commands.
-/

namespace SmsIrc.ClientViews

open SmsIrc.ClientMain SmsIrc.Comm SmsIrc.ControlBot SmsIrc.ControlCommands SmsIrc.Database
open SmsIrc.External SmsIrc.Factory SmsIrc.FactoryFrame
open SmsIrc.FactoryRuns (Turn step_of_next)
open SmsIrc.Main (World modemNow whatsappNow ownModem ownWhatsapp storeAt)
open SmsIrc.MainViews (LinkOther WhatsappOther linkOther_tick whatsappOther_tick modem_of_uses
  whatsapp_of_uses modem_linkOther whatsapp_linkOther modem_whatsappOther link_whatsappOther
  whatsapp_runOf_uses whatsapp_runOf_requests modem_runOf_requests)
open SmsIrc.Models SmsIrc.PartFrames SmsIrc.Program SmsIrc.SenderCommon SmsIrc.Simulation
open SmsIrc.Text SmsIrc.Transition SmsIrc.Util

section Bots

variable [Crates]

/-- What the program learns of a step of the bot. -/
structure Heard (S : Store → Store → Prop) (s t : Bot) : Prop where
  store : S s.store t.store
  waTx : Requested s.waTx t.waTx
  mTx : RequestedModem s.mTx t.mTx
  cfTx : Appends (fun _ => True) s.cfTx t.cfTx

variable {S : Store → Store → Prop} [IsPreorder Store S]

instance isPreorder_heard : IsPreorder Bot (Heard S) where
  refl b := ⟨refl b.store, refl b.waTx, refl b.mTx, refl b.cfTx⟩
  trans _ _ _ hst htu :=
    ⟨IsTrans.trans _ _ _ hst.store htu.store, IsTrans.trans _ _ _ hst.waTx htu.waTx,
      IsTrans.trans _ _ _ hst.mTx htu.mTx, IsTrans.trans _ _ _ hst.cfTx htu.cfTx⟩

theorem heard_of_eq {s t : Bot} (hstore : t.store = s.store) (hwa : t.waTx = s.waTx)
    (hm : t.mTx = s.mTx) (hcf : t.cfTx = s.cfTx) : Heard S s t := by
  refine ⟨?_, ?_, ?_, ?_⟩
  · rw [hstore]
    exact refl _
  · rw [hwa]
    exact refl _
  · rw [hm]
    exact refl _
  · rw [hcf]
    exact refl _

theorem heard_call (k : ClientCall) : Moves (Heard S) (ControlBot.call k) := by
  refine steps_get_bind fun b => ?_
  rw [wp_bind, wp_set]
  cases b.refuses b.calls with
  | some e => exact ⟨heard_of_eq rfl rfl rfl rfl, trivial⟩
  | none => exact heard_of_eq rfl rfl rfl rfl

theorem heard_controlResponse (msg : Str) : Moves (Heard S) (ControlBot.controlResponse msg) :=
  Steps.bind steps_get fun _ => heard_call _

theorem heard_clearLogBacklog : Moves (Heard S) clearLogBacklog := by
  refine steps_get_bind fun b => ?_
  rw [wp_bind, wp_set]
  apply (Steps.forM fun _ _ => heard_call _).after
  exact heard_of_eq rfl rfl rfl rfl

theorem heard_waSend {c : Comm.WhatsappCommand} (hc : WhatsappRuns.isRequest c = true) :
    Moves (Heard S) (ControlBot.waSend c) :=
  steps_modify fun b => ⟨refl b.store, requested hc b.waTx, refl b.mTx, refl b.cfTx⟩

theorem heard_handlePrivmsg (nick target mesg : Str) :
    Moves (Heard S) (ControlBot.handlePrivmsg nick target mesg) := by
  refine Steps.bind steps_get fun b => ?_
  split
  · exact steps_pure _
  · split
    · refine moves_processAdminCommand (fun c => ?_) (fun c => ?_) (fun c => ?_) (fun c => ?_)
        heard_controlResponse fun _ _ => steps_pure _
      · refine steps_modify fun b => ?_
        exact ⟨refl b.store, refl b.waTx, requestedModem (by cases c <;> rfl) b.mTx, refl b.cfTx⟩
      · exact heard_waSend (by cases c <;> rfl)
      · exact heard_waSend (by cases c <;> rfl)
      · refine steps_modify fun b => ?_
        exact ⟨refl b.store, refl b.waTx, refl b.mTx, appends_single trivial b.cfTx⟩
    · split
      · exact heard_waSend rfl
      · exact steps_pure _

theorem heard_processGroups (htick : ∀ st, S st st.tick) :
    Moves (Heard S) ControlBot.processGroups := by
  have hquery : Moves (Heard S) (store getAllGroups : BotM (List Group)) :=
    Steps.zoom (moves_query htick _) fun b _ hst => ⟨hst, refl b.waTx, refl b.mTx, refl b.cfTx⟩
  refine Steps.bind hquery fun grps => Steps.bind (Steps.forM fun ch _ => heard_call _) fun _ => ?_
  refine steps_get_bind fun b => ?_
  rw [wp_bind, wp_set]
  apply (Steps.forM fun ch _ => Steps.when (heard_call _)).after
  exact heard_of_eq rfl rfl rfl rfl

theorem heard_handleIrcMessage (htick : ∀ st, S st st.tick) (m : BotMessage) :
    Moves (Heard S) (ControlBot.handleIrcMessage m) := by
  obtain ⟨source, command⟩ := m
  cases command with
  | endOfMotd =>
      refine Steps.bind (steps_modify fun b => heard_of_eq rfl rfl rfl rfl) fun _ => ?_
      exact Steps.bind heard_clearLogBacklog fun _ => heard_processGroups htick
  | privmsg target mesg =>
      cases source with
      | none => exact steps_pure _
      | some source => exact heard_handlePrivmsg _ _ _
  | error msg => exact steps_throw trivial
  | other => exact steps_pure _

theorem heard_handleIntRx (htick : ∀ st, S st st.tick) (c : ControlBotCommand) :
    Moves (Heard S) (ControlBot.handleIntRx c) := by
  cases c with
  | log line =>
      refine steps_get_bind fun b => ?_
      split
      · exact heard_call _ b
      · exact heard_of_eq rfl rfl rfl rfl
  | reportFailure err => exact Steps.bind steps_get fun _ => heard_call _
  | commandResponse resp => exact heard_controlResponse resp
  | processGroups => exact heard_processGroups htick

theorem heard_identify : Moves (Heard S) ControlBot.identify := by
  refine Steps.bind steps_get fun b => Steps.when (Steps.bind ?_ fun _ => ?_)
  · cases b.webircPassword with
    | some pw => exact heard_call _
    | none => exact steps_pure _
  · refine Steps.bind (heard_call _) fun _ => ?_
    exact steps_modify fun b => heard_of_eq rfl rfl rfl rfl

theorem heard_of_next (htick : ∀ st, S st st.tick) {s t : BotChannels.Session}
    {e : BotChannels.Event} (hstore : ∀ op, e ≠ .storeOp op)
    (h : BotChannels.next s e = some t) : Heard S s.bot t.bot := by
  unfold BotChannels.next at h
  split at h
  · cases h
    cases e with
    | identify => exact heard_identify.exec s.bot
    | drive r =>
        cases r with
        | ok _ => exact refl s.bot
        | error e => exact refl s.bot
    | item i =>
        cases i with
        | message m => exact (heard_handleIrcMessage htick m).exec s.bot
        | stopped => exact refl s.bot
        | failed e => exact refl s.bot
    | command c => exact (heard_handleIntRx htick c).exec s.bot
    | storeOp op => exact absurd rfl (hstore op)
  · cases h

end Bots

section Views

variable [Crates]

theorem ne_storeOp_of_ownBot {e : BotChannels.Event} (h : ownBot e = true) :
    ∀ op, e ≠ .storeOp op := by
  rintro op rfl
  cases h

theorem dealt_of_next {S : Store → Store → Prop} [IsPreorder Store S] (h : LinkUses S)
    {s t : FactoryRuns.Session} {u : Turn} (hnext : FactoryRuns.next s (.turn u) = some t) :
    Dealt S s.factory t.factory := by
  obtain ⟨-, rfl⟩ := step_of_next hnext
  exact (dealt_turn h u).exec s.factory

theorem factory_runOf_uses {D : FactoryRuns.Session → FactoryRuns.Event → Prop}
    (hD : ∀ s op, D s (.storeOp op)) {s : FactoryRuns.Session} (hs : s.outcome = none)
    {st st' : Store} (h : LinkOther st st') :
    RunOf FactoryRuns.next D (factoryNow s st) (factoryNow s st') := by
  refine runOf_follows (factoryNow s) .storeOp ?_ hD h
  intro st op
  simp only [FactoryRuns.next, factoryNow, hs, FactoryRuns.step]

theorem factory_of_stepped {D : FactoryRuns.Session → FactoryRuns.Event → Prop}
    (hD : ∀ s e, D s e) {s t : Parts} {e : Event} (hs : Shared s) (hrun : running s = true)
    (h : Stepped s e t) : RunOf FactoryRuns.next D s.factory t.factory := by
  obtain ⟨-, -, hout, -⟩ := outcomes_of_running hrun
  have huses : ∀ {st : Store}, LinkOther s.factory.factory.store st →
      RunOf FactoryRuns.next D s.factory (factoryNow s.factory st) :=
    fun hst => factory_runOf_uses (fun s op => hD s _) hout hst
  cases h with
  | begin => exact .refl _
  | modem hown h =>
      apply huses
      rw [← hs.modem]
      exact modem_of_uses modem_linkOther hown h
  | whatsapp hown h =>
      apply huses
      rw [← hs.wa]
      exact whatsapp_of_uses whatsapp_linkOther hown h
  | turn hown h => exact .single (hD _ _) h
  | cf hrx h => exact .single (hD _ _) h
  | bot hown h =>
      apply huses
      rw [← hs.bot]
      exact (heard_of_next linkOther_tick (ne_storeOp_of_ownBot hown) h).store
  | cb hrx h =>
      apply huses
      rw [← hs.bot]
      exact (heard_of_next linkOther_tick (by simp) h).store
  | log => exact .refl _
  | clock =>
      rename_i now dbNow instant
      refine .single (e := .clock now dbNow) (hD _ _) ?_
      simp only [FactoryRuns.next, hout, FactoryRuns.step, storeAt]

theorem whatsapp_of_stepped {s t : Parts} {e : Event} (hs : Shared s) (hrun : running s = true)
    (h : Stepped s e t) : RunOf WhatsappRuns.next (fun _ _ => True) s.wa t.wa := by
  obtain ⟨-, hout, -, -⟩ := outcomes_of_running hrun
  have huses : ∀ {st : Store}, WhatsappOther s.wa.manager.msgproc.store st →
      RunOf WhatsappRuns.next (fun _ _ => True) s.wa (whatsappNow s.wa st []) := by
    intro st hst
    have hnow := whatsapp_runOf_uses (D := fun _ _ => True) (fun _ _ => trivial) hout hst
    rw [show whatsappNow s.wa s.wa.manager.msgproc.store [] = s.wa by
      simp [whatsappNow, WhatsappRuns.setStore]] at hnow
    exact hnow
  have hasked : ∀ {st : Store} {xs ys : List Comm.WhatsappCommand},
      WhatsappOther s.wa.manager.msgproc.store st → Requested xs ys →
        RunOf WhatsappRuns.next (fun _ _ => True) s.wa (whatsappNow s.wa st (since xs ys)) :=
    fun hst hreq => (huses hst).trans
      (whatsapp_runOf_requests (fun _ _ => trivial) hout hreq.eq_since.2 _)
  have hbot : ∀ {u : BotChannels.Session} {e : BotChannels.Event}, (∀ op, e ≠ .storeOp op) →
      BotChannels.next s.bot e = some u →
        RunOf WhatsappRuns.next (fun _ _ => True) s.wa
          (whatsappNow s.wa u.bot.store (since s.bot.bot.waTx u.bot.waTx)) := by
    intro u e he hu
    have hheard := heard_of_next (S := WhatsappOther) whatsappOther_tick he hu
    refine hasked ?_ hheard.waTx
    rw [hs.wa, ← hs.bot]
    exact hheard.store
  cases h with
  | begin => exact .refl _
  | modem hown h =>
      apply huses
      rw [hs.wa, ← hs.modem]
      exact modem_of_uses modem_whatsappOther hown h
  | whatsapp hown h => exact .single trivial h
  | turn hown h =>
      have hdealt := dealt_of_next link_whatsappOther h
      exact hasked (by rw [hs.wa]; exact hdealt.store) hdealt.waTx
  | cf hrx h =>
      have hdealt := dealt_of_next link_whatsappOther h
      exact hasked (by rw [hs.wa]; exact hdealt.store) hdealt.waTx
  | bot hown h => exact hbot (ne_storeOp_of_ownBot hown) h
  | cb hrx h => exact hbot (by simp) h
  | log => exact .refl _
  | clock =>
      rename_i now dbNow instant
      refine .single (e := .clock now dbNow instant) trivial ?_
      simp only [WhatsappRuns.next, hout, WhatsappRuns.step, storeAt]

theorem modem_of_stepped {s t : Parts} {e : Event} (hrun : running s = true)
    (h : Stepped s e t) : RunOf ModemMemory.next (fun _ _ => True) s.modem t.modem := by
  obtain ⟨hend, -, -, -⟩ := outcomes_of_running hrun
  have hasked : ∀ {st : Store} {cs : List Comm.ModemCommand},
      (∀ c ∈ cs, ModemMemory.isRequest c = true) →
        RunOf ModemMemory.next (fun _ _ => True) s.modem (modemNow s.modem st cs) :=
    fun hcs => modem_runOf_requests (fun _ _ => trivial) (fun _ _ => trivial) hend hcs _
  cases h with
  | begin => exact .refl _
  | modem hown h => exact .single trivial h
  | whatsapp hown h => exact hasked (by simp)
  | turn hown h =>
      exact hasked (dealt_of_next link_whatsappOther h).mTx.eq_since.2
  | cf hrx h => exact hasked (dealt_of_next link_whatsappOther h).mTx.eq_since.2
  | bot hown h =>
      refine hasked (Appends.eq_since ?_).2
      exact (heard_of_next linkOther_tick (ne_storeOp_of_ownBot hown) h).mTx
  | cb hrx h =>
      exact hasked (heard_of_next linkOther_tick (by simp) h).mTx.eq_since.2
  | log => exact .refl _
  | clock => exact hasked (by simp)

theorem reachable_view {τ κ : Type} {part : τ → κ → Option τ} (view : Parts → τ)
    (hstep : ∀ {s t : Parts} {e : Event}, Shared s → running s = true → Stepped s e t →
      RunOf part (fun _ _ => True) (view s) (view t))
    {cfg : Config} {w : World} {refuses : Nat → Option Str} {s : Parts}
    (h : Reachable next (start cfg w refuses) s) :
    Reachable part (view (start cfg w refuses)) (view s) := by
  obtain ⟨es, hes⟩ := h
  have hrun : RunOf next (fun _ _ => True) (start cfg w refuses) s :=
    ⟨es, allSteps_of_forall_mem (fun _ _ _ => trivial) _, hes⟩
  apply RunOf.reachable (C := fun _ _ => True)
  refine runOf_view Shared view (fun s e t _ hs hnext => ?_) (shared_start cfg w refuses) hrun
  have hstepped := stepped_of_next hnext
  exact ⟨shared_stepped hs hstepped, hstep hs (running_of_next hnext).1 hstepped⟩

theorem reachable_factory {cfg : Config} {w : World} {refuses : Nat → Option Str} {s : Parts}
    (h : Reachable next (start cfg w refuses) s) :
    Reachable FactoryRuns.next (FactoryRuns.initial cfg.client w.store w.now) s.factory :=
  reachable_view Parts.factory
    (fun hs hrun h => factory_of_stepped (fun _ _ => trivial) hs hrun h) h

/-- In client mode, a run of the program is a run of the contact factory, a run of the
WhatsApp manager, and a run of the modem manager and its modem. -/
theorem reachable_clientParts {cfg : Config} {w : World} {refuses : Nat → Option Str} {s : Parts}
    (h : Reachable next (start cfg w refuses) s) :
    Reachable FactoryRuns.next (FactoryRuns.initial cfg.client w.store w.now) s.factory ∧
      Reachable WhatsappRuns.next (start cfg w refuses).wa s.wa ∧
      Reachable ModemMemory.next (start cfg w refuses).modem s.modem := by
  refine ⟨reachable_factory h, ?_, ?_⟩
  · exact reachable_view Parts.wa (fun hs hrun h => whatsapp_of_stepped hs hrun h) h
  · exact reachable_view Parts.modem (fun _ hrun h => modem_of_stepped hrun h) h

end Views

section Samples

attribute [local instance] Sample.crates

def texted : Parts := (run next sampleStart texting).get (by decide +kernel)

/-- An SMS that arrives, is stored, and is delivered by a contact. -/
theorem reachable_clientParts_texting :
    Reachable FactoryRuns.next
        (FactoryRuns.initial sampleConfig.client Main.sampleWorld.store Main.sampleWorld.now)
        texted.factory ∧
      Reachable WhatsappRuns.next sampleStart.wa texted.wa ∧
      Reachable ModemMemory.next sampleStart.modem texted.modem ∧
      (texted.factory.factory.contacts.lookup Sample.alice).map (fun c => c.sent) =
        some [.identify, .privmsg ("admin" : Str) ("hi" : Str),
          .raw ("WATCH" : Str) [("+admin" : Str)], .away none] := by
  have hreach : Reachable next sampleStart texted := ⟨_, (Option.some_get _).symm⟩
  obtain ⟨hfactory, hwa, hmodem⟩ := reachable_clientParts hreach
  exact ⟨hfactory, hwa, hmodem, by decide +kernel⟩

end Samples

end SmsIrc.ClientViews
