import SmsIrc.Main
import SmsIrc.PartFrames

/-!
What each part sees of a run of the program: a run of its own, in which the other parts
use the database and send commands.
-/

namespace SmsIrc.MainViews

open SmsIrc.Comm SmsIrc.Database SmsIrc.External SmsIrc.Link SmsIrc.LinkFrame SmsIrc.Main
open SmsIrc.Modem SmsIrc.PartFrames SmsIrc.Program SmsIrc.Sample SmsIrc.SerialTable
open SmsIrc.Simulation SmsIrc.Text SmsIrc.Transition SmsIrc.Util SmsIrc.Whatsapp

section Uses

variable [Crates]

/-- What the database is after one of the uses that the link knows of. -/
abbrev LinkOther : Store → Store → Prop :=
  Follows fun st (op : LinkRuns.StoreOp) => (exec op.run st).2

/-- What it is after one of those that the WhatsApp manager knows of. -/
abbrev WhatsappOther : Store → Store → Prop :=
  Follows fun st (op : WhatsappRuns.OtherOp) => (exec op.run st).2

/-- The next key is not that of a row, so deleting the group that has it only asks. -/
theorem exec_deleteGroup_next (st : Store) :
    (exec (deleteGroupWithId st.groups.next) st).2 = st.tick := by
  have habsent : (st.tick.groups.rows.any fun grp => grp.id = st.groups.next) = false := by
    rw [List.any_eq_false]
    intro grp hgrp
    have := st.groups.lt_next grp hgrp
    simp only [decide_eq_true_eq]
    omega
  apply wp_exec_snd (P := fun t => t = st.tick)
  rw [deleteGroupWithId, wp_bind]
  refine wp_query_of rfl ?_
  rw [habsent]
  rfl

theorem exec_deleteMessage_next (st : Store) :
    (exec (deleteMessage st.messages.next) st).2 = st.tick := by
  have habsent : (st.tick.messages.rows.any fun m => m.id = st.messages.next) = false := by
    rw [List.any_eq_false]
    intro m hm
    have := st.messages.lt_next m hm
    simp only [decide_eq_true_eq]
    omega
  apply wp_exec_snd (P := fun t => t = st.tick)
  rw [deleteMessage, wp_bind]
  refine wp_query_of rfl ?_
  rw [habsent]
  rfl

theorem linkOther_tick (st : Store) : LinkOther st st.tick :=
  ⟨[.deleteGroup st.groups.next], exec_deleteGroup_next st⟩

theorem whatsappOther_tick (st : Store) : WhatsappOther st st.tick :=
  ⟨[.deleteMessage st.messages.next], exec_deleteMessage_next st⟩

/-- What a computation leaves does not depend on whether its result is used. -/
theorem exec_discard {α : Type} (p : StoreM α) (st : Store) :
    (exec (do let _ ← p) st).2 = (exec p st).2 := by
  rw [exec_bind]
  rcases exec p st with ⟨_ | _, t⟩
  all_goals rfl

theorem modem_linkOther : ModemUses LinkOther where
  tick := linkOther_tick
  recipient a := moves_follows (LinkRuns.StoreOp.recipient a _) fun st => (exec_discard _ st).symm
  sms addr raw csms := moves_follows (LinkRuns.StoreOp.smsMessage addr raw csms) fun _ => rfl

theorem whatsapp_linkOther : WhatsappUses LinkOther where
  tick := linkOther_tick
  recipient a nick ntf src _ :=
    moves_follows (LinkRuns.StoreOp.waRecipient a nick ntf src) fun st => (exec_discard _ st).symm
  group jid chan topic :=
    moves_follows (LinkRuns.StoreOp.group jid chan [] [] topic) fun st => (exec_discard _ st).symm
  update jid parts adms topic :=
    moves_follows (LinkRuns.StoreOp.updateGroup jid parts adms topic)
      fun st => (exec_discard _ st).symm
  message a text group ts :=
    moves_follows (LinkRuns.StoreOp.waMessage a text group ts) fun _ => rfl
  ntf a n := moves_follows (LinkRuns.StoreOp.notify a n) fun _ => rfl
  msgid id := moves_follows (LinkRuns.StoreOp.waMsgid id) fun _ => rfl
  persistence ps := moves_follows (LinkRuns.StoreOp.waPersistence ps) fun _ => rfl
  deleteGroup id := moves_follows (LinkRuns.StoreOp.deleteGroup id) fun _ => rfl

theorem modem_whatsappOther : ModemUses WhatsappOther where
  tick := whatsappOther_tick
  recipient a :=
    moves_follows (WhatsappRuns.OtherOp.recipient a _) fun st => (exec_discard _ st).symm
  sms addr raw csms := moves_follows (WhatsappRuns.OtherOp.smsMessage addr raw csms) fun _ => rfl

theorem link_whatsappOther : LinkUses WhatsappOther where
  tick := whatsappOther_tick
  nick a n src := moves_follows (WhatsappRuns.OtherOp.recipientNick a n src) fun _ => rfl
  mode a wa := moves_follows (WhatsappRuns.OtherOp.recipientWa a wa) fun _ => rfl
  dropRecipient a := moves_follows (WhatsappRuns.OtherOp.dropRecipient a) fun _ => rfl
  deleteMessage id := moves_follows (WhatsappRuns.OtherOp.deleteMessage id) fun _ => rfl

end Uses

section Commands

variable [Crates]

/-- What the link sends to the modem manager, but for messages of the admin. -/
theorem commanding_mTx {P : ModemCommand → Prop} (hmake : ∀ a, P (.makeContact a))
    (hcmd : ∀ c, P (ControlCommands.toModem c)) :
    Commanding (InvImage (Appends P) InspLink.mTx) := by
  have hsame : ∀ {f : InspLink → InspLink}, (∀ l, (f l).mTx = l.mTx) →
      Moves (InvImage (Appends P) InspLink.mTx) (modify f : LinkM PUnit) := by
    refine fun hf => steps_modify fun l => ?_
    rw [InvImage, hf]
    exact Std.Refl.refl (r := Appends P) _
  have hstore : ∀ {α : Type} (p : StoreM α),
      Moves (InvImage (Appends P) InspLink.mTx) (SenderCommon.store p : LinkM α) :=
    fun p => moves_zoom p fun l _ => Std.Refl.refl (r := Appends P) l.mTx
  exact
    { inside := fun s t hst => by
        rw [InvImage, hst.mTx]
        exact Std.Refl.refl (r := Appends P) _
      query := fun _ => hstore _
      nick := fun _ _ _ => hstore _
      mode := fun _ _ => hstore _
      dropRecipient := fun _ => hstore _
      deleteMessage := fun _ => hstore _
      askModem := fun a => steps_modify fun l => appends_single (hmake a) l.mTx
      askWhatsapp := fun _ => hsame fun _ => rfl
      subscribe := fun _ => hsame fun _ => rfl
      respond := fun _ => hsame fun _ => rfl
      modem := fun c => steps_modify fun l => appends_single (hcmd c) l.mTx
      whatsapp := fun _ => hsame fun _ => rfl
      group := fun _ => hsame fun _ => rfl
      ghost := fun _ _ => hsame fun _ => rfl
      contact := fun _ => hsame fun _ => rfl }

theorem commanding_waTx {P : WhatsappCommand → Prop} (hmake : ∀ a, P (.makeContact a))
    (hsubscribe : ∀ a, P (.subscribePresence a)) (hcmd : ∀ c, P (ControlCommands.toWhatsapp c))
    (hgroup : ∀ c, P (ControlCommands.groupToWhatsapp c)) :
    Commanding (InvImage (Appends P) InspLink.waTx) := by
  have hsame : ∀ {f : InspLink → InspLink}, (∀ l, (f l).waTx = l.waTx) →
      Moves (InvImage (Appends P) InspLink.waTx) (modify f : LinkM PUnit) := by
    refine fun hf => steps_modify fun l => ?_
    rw [InvImage, hf]
    exact Std.Refl.refl (r := Appends P) _
  have hstore : ∀ {α : Type} (p : StoreM α),
      Moves (InvImage (Appends P) InspLink.waTx) (SenderCommon.store p : LinkM α) :=
    fun p => moves_zoom p fun l _ => Std.Refl.refl (r := Appends P) l.waTx
  exact
    { inside := fun s t hst => by
        rw [InvImage, hst.waTx]
        exact Std.Refl.refl (r := Appends P) _
      query := fun _ => hstore _
      nick := fun _ _ _ => hstore _
      mode := fun _ _ => hstore _
      dropRecipient := fun _ => hstore _
      deleteMessage := fun _ => hstore _
      askModem := fun _ => hsame fun _ => rfl
      askWhatsapp := fun a => steps_modify fun l => appends_single (hmake a) l.waTx
      subscribe := fun a => steps_modify fun l => appends_single (hsubscribe a) l.waTx
      respond := fun _ => hsame fun _ => rfl
      modem := fun _ => hsame fun _ => rfl
      whatsapp := fun c => steps_modify fun l => appends_single (hcmd c) l.waTx
      group := fun c => steps_modify fun l => appends_single (hgroup c) l.waTx
      ghost := fun _ _ => hsame fun _ => rfl
      contact := fun _ => hsame fun _ => rfl }

/-- No command that comes from a future of the manager comes from the link. -/
theorem requests_modem {s t : LinkRuns.Session} {e : LinkRuns.Event}
    (hnext : LinkRuns.next s e = some t) (hstore : ∀ op, e ≠ .storeOp op)
    (hclock : ∀ now dbNow, e ≠ .clock now dbNow) :
    Appends (fun c => ModemMemory.isRequest c = true) s.link.mTx t.link.mTx := by
  have hframe : Commanding
      (InvImage (Appends fun c => ModemMemory.isRequest c = true) InspLink.mTx) :=
    commanding_mTx (fun _ => rfl) fun c => by cases c <;> rfl
  refine hframe.toFrame.of_next hnext (fun source target msg _ => ?_) hstore hclock
  refine hframe.handlePrivmsg source target msg ?_ (fun a => ?_) fun a => ?_
  · exact steps_modify fun l => Std.Refl.refl (r := Appends _) l.mTx
  · exact steps_modify fun l => Std.Refl.refl (r := Appends _) l.mTx
  · exact steps_modify fun l =>
      appends_single (P := fun c => ModemMemory.isRequest c = true) rfl l.mTx

theorem requests_whatsapp {s t : LinkRuns.Session} {e : LinkRuns.Event}
    (hnext : LinkRuns.next s e = some t) (hstore : ∀ op, e ≠ .storeOp op)
    (hclock : ∀ now dbNow, e ≠ .clock now dbNow) :
    Appends (fun c => WhatsappRuns.isRequest c = true) s.link.waTx t.link.waTx := by
  have hframe : Commanding
      (InvImage (Appends fun c => WhatsappRuns.isRequest c = true) InspLink.waTx) :=
    commanding_waTx (fun _ => rfl) (fun _ => rfl) (fun c => by cases c <;> rfl)
      fun c => by cases c <;> rfl
  refine hframe.toFrame.of_next hnext (fun source target msg _ => ?_) hstore hclock
  refine hframe.handlePrivmsg source target msg ?_ (fun a => ?_) fun a => ?_
  · exact steps_modify fun l =>
      appends_single (P := fun c => WhatsappRuns.isRequest c = true) rfl l.waTx
  · exact steps_modify fun l =>
      appends_single (P := fun c => WhatsappRuns.isRequest c = true) rfl l.waTx
  · exact steps_modify fun l => Std.Refl.refl (r := Appends _) l.waTx

end Commands

section Views

variable [Crates]

theorem link_runOf_uses {D : LinkRuns.Session → LinkRuns.Event → Prop}
    (hD : ∀ s op, D s (.storeOp op)) {s : LinkRuns.Session} (hs : s.outcome = none)
    {st st' : Store} (h : LinkOther st st') :
    RunOf LinkRuns.next D (linkNow s st) (linkNow s st') := by
  refine runOf_follows (linkNow s) .storeOp ?_ hD h
  intro st op
  simp only [LinkRuns.next, linkNow, hs, LinkRuns.step]

theorem whatsapp_runOf_uses {D : WhatsappRuns.Session → WhatsappRuns.Event → Prop}
    (hD : ∀ s op, D s (.otherOp op)) {s : WhatsappRuns.Session} (hs : s.outcome = none)
    {st st' : Store} (h : WhatsappOther st st') :
    RunOf WhatsappRuns.next D (whatsappNow s st []) (whatsappNow s st' []) := by
  refine runOf_follows (fun st => whatsappNow s st []) .otherOp ?_ hD h
  intro st op
  simp only [WhatsappRuns.next, whatsappNow, hs, WhatsappRuns.step, WhatsappRuns.setStore,
    List.append_nil]

theorem whatsapp_runOf_requests {D : WhatsappRuns.Session → WhatsappRuns.Event → Prop}
    (hD : ∀ s c, D s (.request c)) {s : WhatsappRuns.Session} (hs : s.outcome = none)
    {cs : List WhatsappCommand} (hcs : ∀ c ∈ cs, WhatsappRuns.isRequest c = true) (st : Store) :
    RunOf WhatsappRuns.next D (whatsappNow s st []) (whatsappNow s st cs) := by
  induction cs using List.reverseRecOn with
  | nil => exact .refl _
  | append_singleton cs c ih =>
      refine (ih fun c hc => hcs c (by simp [hc])).trans (.single (hD _ c) ?_)
      have hc : WhatsappRuns.isRequest c = true := hcs c (by simp)
      simp only [WhatsappRuns.next, whatsappNow, hs, WhatsappRuns.step, hc, if_pos,
        List.append_assoc]

theorem modem_runOf_requests {D : ModemMemory.Bridge → ModemMemory.Event → Prop}
    (hdb : ∀ s st, D s (.database st)) (hD : ∀ s c, D s (.request c)) {s : ModemMemory.Bridge}
    (hs : s.ended = false) {cs : List ModemCommand}
    (hcs : ∀ c ∈ cs, ModemMemory.isRequest c = true) (st : Store) :
    RunOf ModemMemory.next D s (modemNow s st cs) := by
  induction cs using List.reverseRecOn with
  | nil =>
      refine .single (hdb s st) ?_
      simp only [ModemMemory.next, modemNow, List.append_nil]
  | append_singleton cs c ih =>
      refine (ih fun c hc => hcs c (by simp [hc])).trans (.single (hD _ c) ?_)
      have hc : ModemMemory.isRequest c = true := hcs c (by simp)
      simp only [ModemMemory.next, hc, if_pos, ModemMemory.manage, modemNow, hs, intSend,
        exec_modify, List.append_assoc]
      rfl

theorem managing_of_own {R : ModemManager → ModemManager → Prop} [IsPreorder ModemManager R]
    (h : Managing R) {s t : ModemMemory.Bridge} {e : ModemMemory.Event} (hown : ownModem e = true)
    (hnext : ModemMemory.next s e = some t) : R s.manager t.manager := by
  refine h.of_next hnext ?_ ?_ ?_
  · rintro c rfl
    cases c with
    | doCmgl => rfl
    | _ => cases hown
  · rintro st rfl
    cases hown
  · rintro path rfl
    cases hown

theorem modem_of_uses {S : Store → Store → Prop} [IsPreorder Store S] (h : ModemUses S)
    {s t : ModemMemory.Bridge} {e : ModemMemory.Event} (hown : ownModem e = true)
    (hnext : ModemMemory.next s e = some t) : S s.manager.store t.manager.store := by
  exact managing_of_own h.managing hown hnext

theorem whatsapp_of_uses {S : Store → Store → Prop} [IsPreorder Store S] (h : WhatsappUses S)
    {s t : WhatsappRuns.Session} {e : WhatsappRuns.Event} (hown : ownWhatsapp e = true)
    (hnext : WhatsappRuns.next s e = some t) :
    S s.manager.msgproc.store t.manager.msgproc.store := by
  refine h.whole.of_step hnext (fun rx m => Std.Refl.refl (r := S) m.msgproc.store)
    (fun i mi result _ => Std.Refl.refl (r := S) s.manager.msgproc.store) (fun op he => ?_)
    fun now dbNow instant he => ?_
  · rw [he] at hown
    cases hown
  · rw [he] at hown
    cases hown

theorem link_of_uses {S : Store → Store → Prop} [IsPreorder Store S] (h : LinkUses S)
    {s t : LinkRuns.Session} {e : LinkRuns.Event} (hnext : LinkRuns.next s e = some t)
    (hstore : ∀ op, e ≠ .storeOp op) (hclock : ∀ now dbNow, e ≠ .clock now dbNow) :
    S s.link.store t.link.store := by
  have hframe := h.commanding
  refine hframe.toFrame.of_next hnext (fun source target msg _ => ?_) hstore hclock
  refine hframe.handlePrivmsg source target msg ?_ (fun a => ?_) fun a => ?_
  · exact steps_modify fun l => Std.Refl.refl (r := S) l.store
  · exact steps_modify fun l => Std.Refl.refl (r := S) l.store
  · exact steps_modify fun l => Std.Refl.refl (r := S) l.store

theorem link_of_stepped {D : LinkRuns.Session → LinkRuns.Event → Prop}
    (hD : ∀ s e, (∀ m, e ≠ .remote m) → D s e) {s t : Parts} {e : Event}
    (hremote : ∀ m, e = .remote m → D s.link (.remote m)) (hs : Shared s)
    (hrun : running s = true) (h : Stepped s e t) : RunOf LinkRuns.next D s.link t.link := by
  have hout : s.link.outcome = none := by
    simp only [running, Bool.and_eq_true, Option.isNone_iff_eq_none] at hrun
    exact hrun.2
  have huses : ∀ {st : Store}, LinkOther s.link.link.store st →
      RunOf LinkRuns.next D s.link (linkNow s.link st) :=
    fun hst => link_runOf_uses (fun s op => hD s _ (by simp)) hout hst
  cases h with
  | modem hown h =>
      apply huses
      rw [← hs.modem]
      exact modem_of_uses modem_linkOther hown h
  | whatsapp hown h =>
      apply huses
      rw [← hs.wa]
      exact whatsapp_of_uses whatsapp_linkOther hown h
  | connect h => exact .single (hD _ _ (by simp)) h
  | remote h => exact .single (hremote _ rfl) h
  | cf hrx h => exact .single (hD _ _ (by simp)) h
  | cb hrx h => exact .single (hD _ _ (by simp)) h
  | log => exact .refl _
  | clock =>
      rename_i now dbNow instant
      refine .single (e := .clock now dbNow) (hD _ _ (by simp)) ?_
      simp only [LinkRuns.next, hout, LinkRuns.step, storeAt]

theorem whatsapp_of_stepped {D : WhatsappRuns.Session → WhatsappRuns.Event → Prop}
    (hD : ∀ s e, ownWhatsapp e = false → D s e) {s t : Parts} {e : Event}
    (howned : ∀ w, e = .whatsapp w → D s.wa w) (hs : Shared s) (hrun : running s = true)
    (h : Stepped s e t) : RunOf WhatsappRuns.next D s.wa t.wa := by
  have hout : s.wa.outcome = none := by
    simp only [running, Bool.and_eq_true, Option.isNone_iff_eq_none] at hrun
    exact hrun.1.2
  have huses : ∀ {st : Store}, WhatsappOther s.wa.manager.msgproc.store st →
      RunOf WhatsappRuns.next D s.wa (whatsappNow s.wa st []) := by
    intro st hst
    have hnow := whatsapp_runOf_uses (fun s op => hD s (.otherOp op) rfl) hout hst
    rw [show whatsappNow s.wa s.wa.manager.msgproc.store [] = s.wa by
      simp [whatsappNow, WhatsappRuns.setStore]] at hnow
    exact hnow
  have hlink : ∀ {u : LinkRuns.Session} {e : LinkRuns.Event},
      LinkRuns.next s.link e = some u → (∀ op, e ≠ .storeOp op) →
      (∀ now dbNow, e ≠ .clock now dbNow) →
      RunOf WhatsappRuns.next D s.wa
        (whatsappNow s.wa u.link.store (since s.link.link.waTx u.link.waTx)) := by
    intro u e hu hstore hclock
    have hst := link_of_uses link_whatsappOther hu hstore hclock
    rw [← hs.wa] at hst
    refine (huses hst).trans (whatsapp_runOf_requests (fun s c => hD s (.request c) rfl) hout ?_ _)
    exact (requests_whatsapp hu hstore hclock).eq_since.2
  cases h with
  | modem hown h =>
      apply huses
      have hst := modem_of_uses modem_whatsappOther hown h
      rw [hs.modem, ← hs.wa] at hst
      exact hst
  | whatsapp _ h => exact .single (howned _ rfl) h
  | connect h => exact hlink h (by simp) (by simp)
  | remote h => exact hlink h (by simp) (by simp)
  | cf hrx h => exact hlink h (by simp) (by simp)
  | cb hrx h => exact hlink h (by simp) (by simp)
  | log => exact .refl _
  | clock =>
      rename_i now dbNow instant
      refine .single (e := .clock now dbNow instant) (hD _ _ rfl) ?_
      simp only [WhatsappRuns.next, hout, WhatsappRuns.step, storeAt]

theorem modem_of_stepped {D : ModemMemory.Bridge → ModemMemory.Event → Prop}
    (hdb : ∀ s st, D s (.database st)) (hreq : ∀ s c, D s (.request c)) {s t : Parts} {e : Event}
    (howned : ∀ m, e = .modem m → D s.modem m) (hrun : running s = true) (h : Stepped s e t) :
    RunOf ModemMemory.next D s.modem t.modem := by
  have hend : s.modem.ended = false := by
    simp only [running, Bool.and_eq_true, Bool.not_eq_true'] at hrun
    exact hrun.1.1
  have hlink : ∀ {u : LinkRuns.Session} {e : LinkRuns.Event},
      LinkRuns.next s.link e = some u → (∀ op, e ≠ .storeOp op) →
      (∀ now dbNow, e ≠ .clock now dbNow) →
      RunOf ModemMemory.next D s.modem
        (modemNow s.modem u.link.store (since s.link.link.mTx u.link.mTx)) := by
    intro u e hu hstore hclock
    refine modem_runOf_requests hdb hreq hend ?_ _
    exact (requests_modem hu hstore hclock).eq_since.2
  cases h with
  | modem _ h => exact .single (howned _ rfl) h
  | whatsapp _ h => exact modem_runOf_requests hdb hreq hend (by simp) _
  | connect h => exact hlink h (by simp) (by simp)
  | remote h => exact hlink h (by simp) (by simp)
  | cf hrx h => exact hlink h (by simp) (by simp)
  | cb hrx h => exact hlink h (by simp) (by simp)
  | log => exact .refl _
  | clock => exact modem_runOf_requests hdb hreq hend (by simp) _

/-- What is asked of the events of the parts. -/
structure Asked (D : LinkRuns.Session → LinkRuns.Event → Prop)
    (E : WhatsappRuns.Session → WhatsappRuns.Event → Prop)
    (F : ModemMemory.Bridge → ModemMemory.Event → Prop) (s : Parts) (e : Event) : Prop where
  remote : ∀ m, e = .remote m → D s.link (.remote m)
  whatsapp : ∀ w, e = .whatsapp w → E s.wa w
  modem : ∀ m, e = .modem m → F s.modem m

section

variable {D : LinkRuns.Session → LinkRuns.Event → Prop}
  {E : WhatsappRuns.Session → WhatsappRuns.Event → Prop}
  {F : ModemMemory.Bridge → ModemMemory.Event → Prop} {cfg : Config} {w : World} {s : Parts}

theorem link_of_run (hD : ∀ s e, (∀ m, e ≠ .remote m) → D s e)
    (h : RunOf next (Asked D E F) (start cfg w) s) :
    RunOf LinkRuns.next D (LinkRuns.initial cfg.inspS2s w.store w.now) s.link := by
  refine runOf_view Shared Parts.link ?_ (shared_start cfg w) h
  intro s e t hask hs hnext
  have hstep := stepped_of_next hnext
  exact ⟨shared_stepped hs hstep,
    link_of_stepped hD hask.remote hs (running_of_next hnext).1 hstep⟩

theorem whatsapp_of_run (hE : ∀ s e, ownWhatsapp e = false → E s e)
    (h : RunOf next (Asked D E F) (start cfg w) s) :
    RunOf WhatsappRuns.next E (start cfg w).wa s.wa := by
  refine runOf_view Shared Parts.wa ?_ (shared_start cfg w) h
  intro s e t hask hs hnext
  have hstep := stepped_of_next hnext
  exact ⟨shared_stepped hs hstep,
    whatsapp_of_stepped hE hask.whatsapp hs (running_of_next hnext).1 hstep⟩

theorem modem_of_run (hdb : ∀ s st, F s (.database st)) (hreq : ∀ s c, F s (.request c))
    (h : RunOf next (Asked D E F) (start cfg w) s) :
    RunOf ModemMemory.next F (start cfg w).modem s.modem := by
  refine runOf_view Shared Parts.modem ?_ (shared_start cfg w) h
  intro s e t hask hs hnext
  have hstep := stepped_of_next hnext
  exact ⟨shared_stepped hs hstep,
    modem_of_stepped hdb hreq hask.modem (running_of_next hnext).1 hstep⟩

end

theorem runOf_of_run {cfg : Config} {w : World} {s : Parts} {es : List Event}
    (hrun : run next (start cfg w) es = some s) :
    RunOf next (Asked (fun _ _ => True) (fun _ _ => True) fun _ _ => True) (start cfg w) s :=
  ⟨es, allSteps_of_forall_mem
    (fun _ _ _ => ⟨fun _ _ => trivial, fun _ _ => trivial, fun _ _ => trivial⟩) _, hrun⟩

/-- A run of the program is a run of the link, a run of the WhatsApp manager, and a run of
the modem manager and its modem. -/
theorem reachable_parts {cfg : Config} {w : World} {s : Parts}
    (h : Reachable next (start cfg w) s) :
    Reachable LinkRuns.next (LinkRuns.initial cfg.inspS2s w.store w.now) s.link ∧
      Reachable WhatsappRuns.next (start cfg w).wa s.wa ∧
      Reachable ModemMemory.next (start cfg w).modem s.modem := by
  obtain ⟨es, hes⟩ := h
  have hrun := runOf_of_run hes
  refine ⟨?_, ?_, ?_⟩
  · exact (link_of_run (fun _ _ _ => trivial) hrun).reachable
  · exact (whatsapp_of_run (fun _ _ _ => trivial) hrun).reachable
  · exact (modem_of_run (fun _ _ => trivial) (fun _ _ => trivial) hrun).reachable

end Views

section Samples

attribute [local instance] Sample.crates

/-- An SMS that arrives, is stored, and is delivered by the link. -/
theorem reachable_parts_delivering :
    Reachable LinkRuns.next
        (LinkRuns.initial sampleConfig.insp sampleWorld.store sampleWorld.now) delivered.link ∧
      Reachable WhatsappRuns.next (start sampleConfig sampleWorld).wa delivered.wa ∧
      Reachable ModemMemory.next (start sampleConfig sampleWorld).modem delivered.modem :=
  reachable_parts ⟨_, run_delivered⟩

end Samples

end SmsIrc.MainViews
