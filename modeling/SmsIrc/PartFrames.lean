import SmsIrc.LinkFrame
import SmsIrc.ModemMemory
import SmsIrc.Simulation
import SmsIrc.WhatsappFrame

/-!
What the steps of the modem manager and of the WhatsApp manager leave alone: a relation
that is kept by the primitive steps is kept by whatever these parts do by themselves. For
a relation between databases these steps are the uses that each part makes of it.
-/

namespace SmsIrc.PartFrames

open SmsIrc.Comm SmsIrc.Database SmsIrc.External SmsIrc.HashMaps SmsIrc.Modem SmsIrc.Models
open SmsIrc.Program SmsIrc.SafeNames SmsIrc.SenderCommon SmsIrc.Simulation SmsIrc.Text
open SmsIrc.Util SmsIrc.WaConn SmsIrc.WhatsappFrame SmsIrc.WhatsappMsg

section ModemManager

variable [Crates]

/-- Commands that are not messages. -/
def isPlain : AtCommand → Bool
  | .sendSms _ _ => false
  | _ => true

/-- The part of `make_contact` for an address that has no recipient. -/
def createContact (a : PduAddress) : ModemM Unit := do
  let _ ← store (storeRecipient a (makeNickForAddress a))
  Modem.cfSend (.setupContact a)
  Modem.cfSend .processMessages

/-- The part of `cmgl_complete` that comes before the deletion. -/
def storeListing (msgs : List SmsMessage) : ModemM Unit := do
  forM msgs storeListed
  Modem.cfSend .processMessages

/-- The primitive steps of the modem manager keep the relation, but for those that store a
listing and those that send an SMS. -/
structure ModemFrame (R : ModemManager → ModemManager → Prop) : Prop where
  inner : ∀ i path mgr, R mgr { mgr with inner := i, modemPath := path }
  spawn : ∀ c, isPlain c = true → Moves R (spawn c)
  cb : ∀ desc, desc ≠ ("Sending message" : Str) →
    Moves R (Modem.cbSend (.reportFailure (desc ++ (" failed: Modem is not initialized" : Str))))
  tick : ∀ mgr, R mgr { mgr with store := mgr.store.tick }
  created : ∀ a, Moves R (createContact a)

variable {R : ModemManager → ModemManager → Prop} [IsPreorder ModemManager R]

namespace ModemFrame

variable (h : ModemFrame R)
include h

omit [IsPreorder ModemManager R] in
theorem waitAgain : Moves R waitAgain := steps_modify fun mgr => h.inner _ mgr.modemPath mgr

theorem cmgl : Moves R cmgl := Steps.bind steps_get fun _ => Steps.when (h.spawn _ rfl)

theorem pollUrcRx (urcs : List Urc) : Moves R (pollUrcRx urcs) := by
  refine Steps.bind steps_get fun mgr => ?_
  split
  · split
    · exact steps_pure _
    · exact Steps.bind (Steps.when h.cmgl) fun _ => steps_pure _
  · exact steps_pure _

theorem pollModemOnce (p : Poll) : Moves R (pollModemOnce p) := by
  refine steps_get_bind fun mgr => ?_
  have hrest : Moves R (do
      when (mgr.inner.poll mgr.modemPath p.inner).1 Modem.cmgl
      Modem.pollUrcRx p.urcs) :=
    Steps.bind (Steps.when h.cmgl) fun _ => h.pollUrcRx _
  exact hrest.after (h.inner _ mgr.modemPath mgr)

theorem pollModem (ps : List Poll) : Moves R (pollModem ps) := by
  induction ps with
  | nil => exact Steps.bind (h.pollModemOnce _) fun _ => steps_pure _
  | cons p ps ih =>
      refine Steps.bind (h.pollModemOnce p) fun again => Steps.when ?_
      exact Steps.bind h.waitAgain fun _ => ih

theorem reinitModem (ps : List Poll) : Moves R (reinitModem ps) :=
  Steps.bind h.waitAgain fun _ => h.pollModem ps

theorem makeContact (a : PduAddress) : Moves R (Modem.makeContact a) := by
  refine Steps.bind (fun mgr => ?_) fun row => ?_
  · rw [SenderCommon.store, wp_zoom]
    exact wp_query_of ⟨h.tick mgr, trivial⟩ (h.tick mgr)
  · cases row with
    | some _ => exact steps_pure _
    | none => exact h.created a

theorem cmglComplete {msgs : List SmsMessage} (hlisted : Moves R (storeListing msgs)) :
    Moves R (cmglComplete msgs) := by
  have hsplit : Modem.cmglComplete msgs = (do
      storeListing msgs
      let mgr ← get
      when (mgr.inner = .running) (Modem.spawn .delSms)) := by
    simp only [Modem.cmglComplete, storeListing, bind_assoc]
  rw [hsplit]
  refine Steps.bind hlisted fun _ => ?_
  exact Steps.bind steps_get fun mgr => Steps.when (h.spawn _ rfl)

theorem withModem {desc : Str} {c : AtCommand} (hdesc : desc ≠ ("Sending message" : Str))
    (hc : isPlain c = true) : Moves R (withModem desc c) := by
  refine Steps.bind steps_get fun mgr => ?_
  split
  · exact h.spawn _ hc
  · exact h.cb desc hdesc

theorem handleCommand (ps : List Poll) {c : ModemCommand}
    (hlisted : ∀ msgs, c = .cmglComplete msgs → Moves R (storeListing msgs))
    (hsms : ∀ addr msg, c = .sendMessage addr msg → Moves R (Modem.sendMessage addr msg)) :
    Moves R (handleCommand ps c) := by
  cases c with
  | doCmgl => exact h.cmgl
  | cmglComplete msgs => exact h.cmglComplete (hlisted msgs rfl)
  | cmglFailed e => exact h.reinitModem ps
  | sendMessage addr msg => exact hsms addr msg rfl
  | requestCsq => exact h.withModem (by decide) rfl
  | requestReg => exact h.withModem (by decide) rfl
  | forceReinit => exact h.reinitModem ps
  | updatePath path =>
      exact Steps.bind (steps_modify fun mgr => h.inner mgr.inner path mgr)
        fun _ => h.reinitModem ps
  | commandTimeout => exact h.reinitModem ps
  | makeContact a => exact h.makeContact a

end ModemFrame

/-- So do the steps of the manager that deal with its queue or with a command that the modem
has got. -/
structure Managing (R : ModemManager → ModemManager → Prop) : Prop extends ModemFrame R where
  handle : ∀ ps, Moves R (Modem.handleNext ps)
  doCmgl : Moves R (Modem.intSend [.doCmgl])
  executed : ∀ i c a w mgr, mgr.commands[i]? = some ⟨c, none, w⟩ →
    R mgr { mgr with commands := mgr.commands.set i ⟨c, some a, w⟩ }
  answered : ∀ i c a mgr, mgr.commands[i]? = some ⟨c, some a, true⟩ →
    R mgr (exec (Modem.commandAnswered c a)
      { mgr with commands := mgr.commands.set i ⟨c, some a, false⟩ }).2
  failed : ∀ i c a e mgr, mgr.commands[i]? = some ⟨c, a, true⟩ →
    R mgr (exec (Modem.commandFailed e c)
      { mgr with commands := mgr.commands.set i ⟨c, a, false⟩ }).2

/-- It is enough to know the steps that they are made of, if it does not matter what is in
the queue. -/
theorem ModemFrame.managing (h : ModemFrame R) (hlisted : ∀ msgs, Moves R (storeListing msgs))
    (hsms : ∀ addr msg, Moves R (Modem.sendMessage addr msg))
    (hrx : ∀ rx mgr, R mgr { mgr with rx := rx })
    (hcommands : ∀ commands mgr, R mgr { mgr with commands := commands })
    (hcb : ∀ c, Moves R (Modem.cbSend c)) : Managing R := by
  have hqueue : ∀ cs, Moves R (Modem.intSend cs) := fun cs => steps_modify fun mgr => hrx _ mgr
  refine
    { toModemFrame := h
      handle := fun ps => ?_
      doCmgl := hqueue _
      executed := fun i c a w mgr _ => hcommands _ mgr
      answered := fun i c a mgr _ => ?_
      failed := fun i c a e mgr _ => ?_ }
  · refine steps_get_bind fun mgr => ?_
    split
    · exact (steps_pure (R := R) ()) mgr
    · exact (h.handleCommand ps (fun msgs _ => hlisted msgs)
        fun a msg _ => hsms a msg).after (hrx _ mgr)
  · have hanswered : Moves R (Modem.commandAnswered c a) := by
      unfold Modem.commandAnswered
      split
      · exact hqueue _
      · exact hcb _
      · exact hcb _
      · exact steps_pure _
    exact IsTrans.trans (r := R) _ _ _ (hcommands _ mgr) (hanswered.exec _)
  · have hfailed : Moves R (Modem.commandFailed e c) := by
      cases c with
      | sendSms addr msg => exact hcb _
      | listSms => exact hqueue _
      | delSms => exact hqueue _
      | getRegistration => exact hqueue _
      | getSignalQuality => exact hqueue _
    exact IsTrans.trans (r := R) _ _ _ (hcommands _ mgr) (hfailed.exec _)

theorem Managing.of_next (h : Managing R) {s t : ModemMemory.Bridge} {e : ModemMemory.Event}
    (hnext : ModemMemory.next s e = some t) (hrequest : ∀ c, e = .request c → c = .doCmgl)
    (hstore : ∀ st, e ≠ .database st) (hrestart : ∀ path, e ≠ .restart path) :
    R s.manager t.manager := by
  have hmanage : ∀ {s t : ModemMemory.Bridge} {p : ModemM Unit},
      ModemMemory.manage s p = some t → t.manager = (exec p s.manager).2 := by
    intro s t p ht
    unfold ModemMemory.manage at ht
    split at ht
    · cases ht
    · cases ht
      rfl
  cases e with
  | arrive pdu rawPdu =>
      cases hnext
      exact Std.Refl.refl (r := R) s.manager
  | poll ps =>
      rw [hmanage hnext]
      exact (h.toModemFrame.pollModem ps).exec s.manager
  | handle ps =>
      rw [hmanage hnext]
      exact (h.handle ps).exec s.manager
  | request c =>
      obtain rfl := hrequest c rfl
      rw [hmanage hnext]
      exact h.doCmgl.exec s.manager
  | execute i shown =>
      simp only [ModemMemory.next, ModemMemory.execute] at hnext
      split at hnext
      · rename_i c w hcommand
        cases c with
        | listSms =>
            cases hnext
            exact h.executed i _ _ w s.manager hcommand
        | delSms =>
            cases hnext
            exact h.executed i _ _ w s.manager hcommand
        | getRegistration =>
            cases hnext
            exact h.executed i _ _ w s.manager hcommand
        | getSignalQuality =>
            cases hnext
            exact h.executed i _ _ w s.manager hcommand
        | sendSms addr msg =>
            cases hnext
            exact h.executed i _ _ w s.manager hcommand
      · cases hnext
  | answer i =>
      simp only [ModemMemory.next] at hnext
      split at hnext
      · rename_i c a hcommand
        rw [hmanage hnext]
        exact h.answered i c a s.manager hcommand
      · cases hnext
  | fail i e =>
      simp only [ModemMemory.next] at hnext
      split at hnext
      · rename_i c a hcommand
        rw [hmanage hnext]
        exact h.failed i c a e s.manager hcommand
      · cases hnext
  | database st => exact absurd rfl (hstore st)
  | restart path => exact absurd rfl (hrestart path)

end ModemManager

section WhatsappManager

open SmsIrc.Whatsapp

variable [Crates]

/-- So does all that the WhatsApp manager does. -/
structure Whole (R : WhatsappManager → WhatsappManager → Prop) : Prop
    extends Tracking R, Reception R where
  removed : ∀ chan, Moves R (groupRemove chan)
  outbox : ∀ outbox sent m, R m { m with outbox := outbox, sent := sent }

variable {R : WhatsappManager → WhatsappManager → Prop} [IsPreorder WhatsappManager R]

namespace Whole

variable (h : Whole R)
include h

theorem handleIntRx (c : WhatsappCommand) : Moves R (Whatsapp.handleIntRx c) :=
  h.toTracking.handleIntRx c (fun r _ => h.toReception.mediaFinished r)
    fun chan _ => h.removed chan

theorem handlePolled (polled : Polled) : Moves R (handlePolled polled) := by
  cases polled with
  | notReady => exact steps_pure _
  | failed => exact Steps.bind steps_get fun _ => steps_throw trivial
  | item r =>
      cases r with
      | error e => exact h.toFrame.onWaError e
      | ok e =>
          exact h.toTracking.onWaEvent e h.toReception.onContactChange
            fun msg isNew _ => h.toReception.onMessage msg isNew

theorem pollConn (answers : List WaConn.Answer) : Moves R (pollConn answers) :=
  steps_get_bind fun m => (h.handlePolled _).after (h.conn _ m)

theorem of_step {s t : WhatsappRuns.Session} {e : WhatsappRuns.Event}
    (hnext : WhatsappRuns.next s e = some t) (hrx : ∀ rx m, R m { m with rx := rx })
    (hfinished : ∀ i mi result, s.manager.msgproc.downloads[i]? = some mi →
      R s.manager (WhatsappRuns.finish s.manager i mi result))
    (hother : ∀ op, e ≠ .otherOp op) (hclock : ∀ now dbNow instant, e ≠ .clock now dbNow instant) :
    R s.manager t.manager := by
  obtain ⟨-, hstep⟩ := WhatsappRuns.next_eq_some hnext
  cases e with
  | poll answers =>
      cases hstep
      exact (h.pollConn answers).exec s.manager
  | handle =>
      cases hstep
      refine Steps.exec (R := R) (P := fun _ => True) ?_ s.manager
      refine steps_get_bind fun m => ?_
      split
      · exact (steps_pure (R := R) ()) m
      · exact (h.handleIntRx _).after (hrx _ m)
  | request c =>
      simp only [WhatsappRuns.step] at hstep
      split at hstep
      · cases hstep
        exact hrx _ _
      · cases hstep
  | finished i result =>
      obtain ⟨mi, hmi, rfl⟩ := Option.map_eq_some_iff.mp hstep
      exact hfinished i mi result hmi
  | drain answers =>
      cases hstep
      exact (h.toFrame.drainOutbox h.outbox answers).exec s.manager
  | complete done =>
      cases hstep
      exact (Frame.pollComplete done).exec s.manager
  | check =>
      cases hstep
      exact h.toTracking.checkAcks.exec s.manager
  | otherOp op => exact absurd rfl (hother op)
  | clock now dbNow instant => exact absurd rfl (hclock now dbNow instant)

end Whole

end WhatsappManager

section Stores

open SmsIrc.Link SmsIrc.LinkFrame SmsIrc.Whatsapp

variable [Crates]

/-- The uses that the modem manager makes of the database keep to a relation. -/
structure ModemUses (S : Store → Store → Prop) : Prop where
  tick : ∀ st, S st st.tick
  recipient : ∀ a, Moves S (storeRecipient a (makeNickForAddress a))
  sms : ∀ addr raw csms, Moves S (storeSmsMessage addr raw csms)

/-- So do those of the WhatsApp manager. -/
structure WhatsappUses (S : Store → Store → Prop) : Prop where
  tick : ∀ st, S st st.tick
  recipient : ∀ a nick ntf src, FromName nick → Moves S (storeWaRecipient a nick ntf src)
  group : ∀ jid chan topic, Moves S (storeGroup jid chan [] [] topic)
  update : ∀ jid parts adms topic, Moves S (updateGroup jid parts adms topic)
  message : ∀ a text group ts, Moves S (storeWaMessage a text group ts)
  ntf : ∀ a n, Moves S (updateRecipientNotify a n)
  msgid : ∀ id, Moves S (storeWaMsgid id)
  persistence : ∀ ps, Moves S (storeWaPersistence ps)
  deleteGroup : ∀ id, Moves S (deleteGroupWithId id)

/-- So do those of the link. -/
structure LinkUses (S : Store → Store → Prop) : Prop where
  tick : ∀ st, S st st.tick
  nick : ∀ a n src, Moves S (updateRecipientNick a n src)
  mode : ∀ a wa, Moves S (updateRecipientWa a wa)
  dropRecipient : ∀ a, Moves S (deleteRecipientWithAddr a)
  deleteMessage : ∀ id, Moves S (deleteMessage id)

variable {S : Store → Store → Prop} [IsPreorder Store S]

omit [IsPreorder Store S] in
theorem moves_modemStore {α : Type} {p : StoreM α} (hp : Moves S p) :
    Moves (InvImage S ModemManager.store) (store p : ModemM α) := Steps.zoom hp fun _ _ hst => hst

theorem ModemUses.managing (h : ModemUses S) : Managing (InvImage S ModemManager.store) := by
  have hsame : ∀ {f : ModemManager → ModemManager}, (∀ mgr, (f mgr).store = mgr.store) →
      Moves (InvImage S ModemManager.store) (modify f : ModemM PUnit) := by
    refine fun hf => steps_modify fun mgr => ?_
    rw [InvImage, hf]
    exact Std.Refl.refl (r := S) _
  have hframe : ModemFrame (InvImage S ModemManager.store) :=
    { inner := fun _ _ mgr => Std.Refl.refl (r := S) mgr.store
      spawn := fun _ _ => hsame fun _ => rfl
      cb := fun _ _ => hsame fun _ => rfl
      tick := fun mgr => h.tick mgr.store
      created := fun a =>
        Steps.bind (moves_modemStore (h.recipient a)) fun _ =>
          Steps.bind (hsame fun _ => rfl) fun _ => hsame fun _ => rfl }
  refine hframe.managing (fun msgs => ?_) (fun addr msg => ?_) (fun _ mgr => ?_)
    (fun _ mgr => ?_) fun _ => hsame fun _ => rfl
  · refine Steps.bind (Steps.forM fun msg _ => ?_) fun _ => hsame fun _ => rfl
    unfold storeListed
    split
    · exact steps_pure _
    · exact Steps.bind (moves_modemStore (h.sms _ _ _)) fun _ => hsame fun _ => rfl
  · refine Steps.bind steps_get fun mgr => ?_
    split
    · exact hsame fun _ => rfl
    · exact hsame fun _ => rfl
  · exact Std.Refl.refl (r := S) mgr.store
  · exact Std.Refl.refl (r := S) mgr.store

/-- The database of the WhatsApp manager. -/
def waStore (m : WhatsappManager) : Store := m.msgproc.store

omit [IsPreorder Store S] in
theorem moves_waStore {α : Type} {p : StoreM α} (hp : Moves S p) :
    Moves (InvImage S waStore) (store p : WaM α) := moves_store hp fun _ _ hst => hst

omit [IsPreorder Store S] in
theorem waStore_modify [Std.Refl S] {f : WhatsappManager → WhatsappManager}
    (hf : ∀ m, waStore (f m) = waStore m) :
    Moves (InvImage S waStore) (modify f : WaM PUnit) := by
  refine steps_modify fun m => ?_
  rw [InvImage, hf]
  exact Std.Refl.refl (r := S) _

theorem WhatsappUses.whole (h : WhatsappUses S) : Whole (InvImage S waStore) := by
  have hsame : ∀ {m m' : WhatsappManager}, waStore m' = waStore m → InvImage S waStore m m' := by
    intro m m' heq
    rw [InvImage, heq]
    exact Std.Refl.refl (r := S) _
  have hbridging : Bridging (InvImage S waStore) :=
    { query := fun f => moves_waStore (moves_query h.tick f)
      newRecipient := fun _ _ _ _ hnick => moves_waStore (h.recipient _ _ _ _ hnick)
      cf := fun _ _ => waStore_modify fun _ => rfl
      newGroup := fun _ _ _ => moves_waStore (h.group _ _ _)
      cb := fun _ _ => hsame rfl
      metadata := fun _ => waStore_modify fun _ => rfl }
  have hprocess : Processing (InvImage S WaMessageProcessor.store) :=
    { query := fun f => Steps.zoom (moves_query h.tick f) fun _ _ hst => hst
      contactFiles := fun _ p => Std.Refl.refl (r := S) p.store
      downloads := fun _ p => Std.Refl.refl (r := S) p.store }
  exact
    { toBridging := hbridging
      insert := fun _ _ _ _ => moves_waStore (h.message _ _ _ _)
      updated := fun grp => hbridging.updateFromMetadata grp
        fun _ _ _ _ => moves_waStore (h.update _ _ _ _)
      subscribe := fun _ => waStore_modify fun _ => rfl
      chats := fun _ _ => hsame rfl
      conn := fun _ _ => hsame rfl
      session := fun _ _ _ => hsame rfl
      generate := fun _ => hsame rfl
      ackp := fun _ _ => hsame rfl
      accept := fun _ _ => hsame rfl
      presence := fun _ _ => hsame rfl
      send := fun _ => waStore_modify fun _ => rfl
      msgid := fun _ => moves_waStore (h.msgid _)
      expire := fun _ _ => hsame rfl
      persistence := fun _ => moves_waStore (h.persistence _)
      established := fun _ _ => hsame rfl
      contacts := fun _ _ => hsame rfl
      ntf := fun _ _ => moves_waStore (h.ntf _ _)
      rename := fun _ _ _ _ => waStore_modify fun _ => rfl
      read := fun _ _ => waStore_modify fun _ => rfl
      process := fun inc => Steps.zoom (hprocess.processWaIncoming inc) fun _ _ hst => hst
      removed := fun chan => hbridging.groupRemove chan fun _ => moves_waStore (h.deleteGroup _)
      outbox := fun _ _ _ => hsame rfl }

omit [IsPreorder Store S] in
theorem moves_linkStore {α : Type} {p : StoreM α} (hp : Moves S p) :
    Moves (InvImage S InspLink.store) (store p : LinkM α) := Steps.zoom hp fun _ _ hst => hst

theorem LinkUses.commanding (h : LinkUses S) : Commanding (InvImage S InspLink.store) := by
  have hmodify : ∀ {f : InspLink → InspLink}, (∀ l, (f l).store = l.store) →
      Moves (InvImage S InspLink.store) (modify f : LinkM PUnit) := by
    refine fun hf => steps_modify fun l => ?_
    rw [InvImage, hf]
    exact Std.Refl.refl (r := S) _
  exact
    { inside := fun s t hst => by
        rw [InvImage, hst.store]
        exact Std.Refl.refl (r := S) _
      query := fun f => moves_linkStore (moves_query h.tick f)
      nick := fun _ _ _ => moves_linkStore (h.nick _ _ _)
      mode := fun _ _ => moves_linkStore (h.mode _ _)
      dropRecipient := fun _ => moves_linkStore (h.dropRecipient _)
      deleteMessage := fun _ => moves_linkStore (h.deleteMessage _)
      askModem := fun _ => hmodify fun _ => rfl
      askWhatsapp := fun _ => hmodify fun _ => rfl
      subscribe := fun _ => hmodify fun _ => rfl
      respond := fun _ => hmodify fun _ => rfl
      modem := fun _ => hmodify fun _ => rfl
      whatsapp := fun _ => hmodify fun _ => rfl
      group := fun _ => hmodify fun _ => rfl
      ghost := fun _ _ => hmodify fun _ => rfl
      contact := fun _ => hmodify fun _ => rfl }

end Stores

end SmsIrc.PartFrames
