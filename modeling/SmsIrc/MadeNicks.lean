import SmsIrc.LinkNames
import SmsIrc.MainViews

/-!
Where the nicks that reach a link come from, in a run of the whole program: the other parts
make all that they store and ask for of names and addresses.
-/

namespace SmsIrc.MadeNicks

open SmsIrc.Comm SmsIrc.Database SmsIrc.External SmsIrc.Link SmsIrc.LinkFrame SmsIrc.Main
open SmsIrc.MainViews SmsIrc.Modem SmsIrc.Models SmsIrc.PartFrames SmsIrc.Program
open SmsIrc.SenderCommon SmsIrc.Simulation SmsIrc.Text SmsIrc.Transition SmsIrc.Util
open SmsIrc.Whatsapp SmsIrc.WhatsappFrame SmsIrc.WhatsappMsg
open SmsIrc.LinkNames (Made)
open SmsIrc.SafeNames (FromName)

section Uses

variable [Crates]

/-- Uses of the database that bring only such nicks. -/
abbrev LinkMade : Store → Store → Prop :=
  Follows fun st (op : {op : LinkRuns.StoreOp // Made (.storeOp op)}) => (exec op.val.run st).2

theorem moves_made {α : Type} {p : StoreM α} (op : LinkRuns.StoreOp) (hop : Made (.storeOp op))
    (h : ∀ st, (exec p st).2 = (exec op.run st).2) : Moves LinkMade p :=
  @moves_follows _ _ _ _ (fun op : {op // Made (.storeOp op)} => op.val.run) p ⟨op, hop⟩ h

theorem linkMade_tick (st : Store) : LinkMade st st.tick :=
  ⟨[⟨.deleteGroup st.groups.next, trivial⟩], exec_deleteGroup_next st⟩

theorem modem_linkMade : ModemUses LinkMade where
  tick := linkMade_tick
  recipient a := moves_made (.recipient a _) rfl fun st => (exec_discard _ st).symm
  sms addr raw csms := moves_made (.smsMessage addr raw csms) trivial fun _ => rfl

theorem whatsapp_linkMade : WhatsappUses LinkMade where
  tick := linkMade_tick
  recipient a nick ntf src hnick :=
    moves_made (.waRecipient a nick ntf src) hnick fun st => (exec_discard _ st).symm
  group jid chan topic :=
    moves_made (.group jid chan [] [] topic) trivial fun st => (exec_discard _ st).symm
  update jid parts adms topic :=
    moves_made (.updateGroup jid parts adms topic) trivial fun st => (exec_discard _ st).symm
  message a text group ts := moves_made (.waMessage a text group ts) trivial fun _ => rfl
  ntf a n := moves_made (.notify a n) trivial fun _ => rfl
  msgid id := moves_made (.waMsgid id) trivial fun _ => rfl
  persistence ps := moves_made (.waPersistence ps) trivial fun _ => rfl
  deleteGroup id := moves_made (.deleteGroup id) trivial fun _ => rfl

end Uses

section Commands

variable [Crates]

/-- A channel of the factory with more commands, which bring only such nicks. -/
abbrev CfMade : List ContactFactoryCommand → List ContactFactoryCommand → Prop :=
  Appends fun c => Made (.cf c)

theorem made_of_isRename {c : ContactFactoryCommand} (h : isRename c = false) : Made (.cf c) := by
  cases c with
  | forwardCommand a cmd =>
      cases cmd with
      | changeNick nick src => cases h
      | _ => trivial
  | _ => trivial

theorem modem_made {s t : ModemMemory.Bridge} {e : ModemMemory.Event} (hown : ownModem e = true)
    (h : ModemMemory.next s e = some t) : CfMade s.manager.cfTx t.manager.cfTx := by
  have hsame : ∀ {f : ModemManager → ModemManager}, (∀ mgr, (f mgr).cfTx = mgr.cfTx) →
      Moves (InvImage CfMade ModemManager.cfTx) (modify f : ModemM PUnit) := by
    refine fun hf => steps_modify fun mgr => ?_
    rw [InvImage, hf]
    exact Std.Refl.refl (r := CfMade) _
  have hsend : ∀ c, isRename c = false →
      Moves (InvImage CfMade ModemManager.cfTx) (Modem.cfSend c) :=
    fun c hc => steps_modify fun mgr =>
      appends_single (P := fun c => Made (.cf c)) (made_of_isRename hc) mgr.cfTx
  have hstore : ∀ {α : Type} (p : StoreM α),
      Moves (InvImage CfMade ModemManager.cfTx) (store p : ModemM α) :=
    fun p => moves_zoom p fun mgr _ => Std.Refl.refl (r := CfMade) mgr.cfTx
  have hframe : ModemFrame (InvImage CfMade ModemManager.cfTx) :=
    { inner := fun _ _ mgr => Std.Refl.refl (r := CfMade) mgr.cfTx
      spawn := fun _ _ => hsame fun _ => rfl
      cb := fun _ _ => hsame fun _ => rfl
      tick := fun mgr => Std.Refl.refl (r := CfMade) mgr.cfTx
      created := fun _ => Steps.bind (hstore _) fun _ =>
        Steps.bind (hsend _ rfl) fun _ => hsend _ rfl }
  refine managing_of_own (hframe.managing (fun msgs => ?_) (fun addr msg => ?_)
    (fun _ mgr => ?_) (fun _ mgr => ?_) fun _ => hsame fun _ => rfl) hown h
  · refine Steps.bind (Steps.forM fun msg _ => ?_) fun _ => hsend _ rfl
    unfold storeListed
    split
    · exact steps_pure _
    · exact Steps.bind (hstore _) fun _ => hsame fun _ => rfl
  · refine Steps.bind steps_get fun mgr => ?_
    split
    · exact hsame fun _ => rfl
    · exact hsame fun _ => rfl
  · exact Std.Refl.refl (r := CfMade) mgr.cfTx
  · exact Std.Refl.refl (r := CfMade) mgr.cfTx

theorem waMade_modify {f : WhatsappManager → WhatsappManager} (hf : ∀ m, (f m).cfTx = m.cfTx) :
    Moves (InvImage CfMade WhatsappManager.cfTx) (modify f : WaM PUnit) := by
  refine steps_modify fun m => ?_
  rw [InvImage, hf]
  exact Std.Refl.refl (r := CfMade) _

theorem waMade_cfSend {c : ContactFactoryCommand} (hc : Made (.cf c)) :
    Moves (InvImage CfMade WhatsappManager.cfTx) (Whatsapp.cfSend c) :=
  steps_modify fun m => appends_single (P := fun c => Made (.cf c)) hc m.cfTx

theorem waMade_store {α : Type} (p : StoreM α) :
    Moves (InvImage CfMade WhatsappManager.cfTx) (store p : WaM α) :=
  moves_zoom p fun m _ => Std.Refl.refl (r := CfMade) m.cfTx

theorem whole_made : Whole (InvImage CfMade WhatsappManager.cfTx) := by
  have hsame : ∀ m : WhatsappManager, CfMade m.cfTx m.cfTx := fun m =>
    Std.Refl.refl (r := CfMade) m.cfTx
  have hbridging : Bridging (InvImage CfMade WhatsappManager.cfTx) :=
    { query := fun _ => waMade_store _
      newRecipient := fun _ _ _ _ _ => waMade_store _
      cf := fun _ hc => waMade_cfSend (made_of_isRename hc)
      newGroup := fun _ _ _ => waMade_store _
      cb := fun _ m => hsame m
      metadata := fun _ => waMade_modify fun _ => rfl }
  exact
    { toBridging := hbridging
      insert := fun _ _ _ _ => waMade_store _
      updated := fun grp => hbridging.updateFromMetadata grp fun _ _ _ _ => waMade_store _
      subscribe := fun _ => waMade_modify fun _ => rfl
      chats := fun _ m => hsame m
      conn := fun _ m => hsame m
      session := fun _ _ m => hsame m
      generate := fun m => hsame m
      ackp := fun _ m => hsame m
      accept := fun _ m => hsame m
      presence := fun _ m => hsame m
      send := fun _ => waMade_modify fun _ => rfl
      msgid := fun _ => waMade_store _
      expire := fun _ m => hsame m
      persistence := fun _ => waMade_store _
      established := fun _ m => hsame m
      contacts := fun _ m => hsame m
      ntf := fun _ _ => waMade_store _
      rename := fun _ _ _ hnick => waMade_cfSend hnick
      read := fun _ _ => waMade_modify fun _ => rfl
      process := fun inc => moves_zoom _ fun m _ => hsame m
      removed := fun chan => hbridging.groupRemove chan fun _ => waMade_store _
      outbox := fun _ _ m => hsame m }

theorem whatsapp_made {s t : WhatsappRuns.Session} {e : WhatsappRuns.Event}
    (hown : ownWhatsapp e = true) (h : WhatsappRuns.next s e = some t) :
    CfMade s.manager.cfTx t.manager.cfTx := by
  refine whole_made.of_step h (fun rx m => Std.Refl.refl (r := CfMade) m.cfTx)
    (fun i mi result _ => Std.Refl.refl (r := CfMade) s.manager.cfTx) (fun op he => ?_)
    fun now dbNow instant he => ?_
  · rw [he] at hown
    cases hown
  · rw [he] at hown
    cases hown

/-- The link itself asks for no nicks but those of the admin, by the nick of a ghost. -/
theorem commanding_made : Commanding (InvImage CfMade InspLink.cfTx) := by
  have hsame : ∀ {f : InspLink → InspLink}, (∀ l, (f l).cfTx = l.cfTx) →
      Moves (InvImage CfMade InspLink.cfTx) (modify f : LinkM PUnit) := by
    refine fun hf => steps_modify fun l => ?_
    rw [InvImage, hf]
    exact Std.Refl.refl (r := CfMade) _
  have hstore : ∀ {α : Type} (p : StoreM α),
      Moves (InvImage CfMade InspLink.cfTx) (SenderCommon.store p : LinkM α) :=
    fun p => moves_zoom p fun l _ => Std.Refl.refl (r := CfMade) l.cfTx
  have hsend : ∀ c, isRename c = false →
      Moves (InvImage CfMade InspLink.cfTx) (Link.cfSend c) :=
    fun c hc => steps_modify fun l =>
      appends_single (P := fun c => Made (.cf c)) (made_of_isRename hc) l.cfTx
  exact
    { inside := fun s t hst => by
        rw [InvImage, hst.cfTx]
        exact Std.Refl.refl (r := CfMade) _
      query := fun _ => hstore _
      nick := fun _ _ _ => hstore _
      mode := fun _ _ => hstore _
      dropRecipient := fun _ => hstore _
      deleteMessage := fun _ => hstore _
      askModem := fun _ => hsame fun _ => rfl
      askWhatsapp := fun _ => hsame fun _ => rfl
      subscribe := fun _ => hsame fun _ => rfl
      respond := fun _ => hsame fun _ => rfl
      modem := fun _ => hsame fun _ => rfl
      whatsapp := fun _ => hsame fun _ => rfl
      group := fun _ => hsame fun _ => rfl
      ghost := fun nick c => hsend _ (by cases c <;> rfl)
      contact := fun c => hsend _ (by cases c <;> rfl) }

theorem link_made {s t : LinkRuns.Session} {e : LinkRuns.Event}
    (h : LinkRuns.next s e = some t) (hstore : ∀ op, e ≠ .storeOp op)
    (hclock : ∀ now dbNow, e ≠ .clock now dbNow) : CfMade s.link.cfTx t.link.cfTx := by
  refine commanding_made.toFrame.of_next h (fun source target msg _ => ?_) hstore hclock
  refine commanding_made.handlePrivmsg source target msg ?_ (fun a => ?_) fun a => ?_
  · exact steps_modify fun l => Std.Refl.refl (r := CfMade) l.cfTx
  · exact steps_modify fun l => Std.Refl.refl (r := CfMade) l.cfTx
  · exact steps_modify fun l => Std.Refl.refl (r := CfMade) l.cfTx

end Commands

section Program

variable [Crates]

/-- More commands have come into a queue, of which the first one may have gone. -/
theorem made_append {xs ys zs rest : List ContactFactoryCommand}
    (hrest : ∀ c ∈ rest, Made (.cf c)) (h : CfMade xs ys) (hzs : zs = since xs ys) :
    ∀ c ∈ rest ++ zs, Made (.cf c) := by
  intro c hc
  rcases List.mem_append.mp hc with hc | hc
  · exact hrest c hc
  · rw [hzs] at hc
    exact h.eq_since.2 c hc

/-- A step of the program, seen from the link: what the other parts do brings only nicks that
are made of names and addresses, and so does what waits for the link. -/
theorem made_stepped {s t : Parts} {e : Main.Event} (hs : Shared s) (hrun : running s = true)
    (hqueue : ∀ c ∈ s.cfRx, Made (.cf c)) (h : Stepped s e t) :
    RunOf LinkRuns.next (fun _ e => Made e) s.link t.link ∧ ∀ c ∈ t.cfRx, Made (.cf c) := by
  have hout : s.link.outcome = none := by
    simp only [running, Bool.and_eq_true, Option.isNone_iff_eq_none] at hrun
    exact hrun.2
  have huses : ∀ {st : Store}, LinkMade s.link.link.store st →
      RunOf LinkRuns.next (fun _ e => Made e) s.link (linkNow s.link st) := by
    refine fun hst => runOf_follows (linkNow s.link) (fun op => .storeOp op.val) ?_
      (fun _ op => op.property) hst
    intro st op
    simp only [LinkRuns.next, linkNow, hout, LinkRuns.step]
  cases h with
  | modem hown h =>
      refine ⟨huses ?_, made_append hqueue (modem_made hown h) rfl⟩
      rw [← hs.modem]
      exact modem_of_uses modem_linkMade hown h
  | whatsapp hown h =>
      refine ⟨huses ?_, made_append hqueue (whatsapp_made hown h) rfl⟩
      rw [← hs.wa]
      exact whatsapp_of_uses whatsapp_linkMade hown h
  | connect h =>
      refine ⟨.single (e := .connect) trivial h, ?_⟩
      exact made_append hqueue (link_made h (by simp) (by simp)) rfl
  | @remote m t h =>
      refine ⟨.single (e := .remote m) trivial h, ?_⟩
      exact made_append hqueue (link_made h (by simp) (by simp)) rfl
  | cf hrx h =>
      rw [hrx] at hqueue
      have hrest := fun c hc => hqueue c (List.mem_cons_of_mem _ hc)
      refine ⟨.single (hqueue _ List.mem_cons_self) h, ?_⟩
      exact made_append hrest (link_made h (by simp) (by simp)) rfl
  | @cb c rest t hrx h =>
      refine ⟨.single (e := .cb c) trivial h, ?_⟩
      exact made_append hqueue (link_made h (by simp) (by simp)) rfl
  | log => exact ⟨.refl _, hqueue⟩
  | clock =>
      rename_i now dbNow instant
      refine ⟨.single (e := .clock now dbNow) trivial ?_, hqueue⟩
      simp only [LinkRuns.next, hout, LinkRuns.step, storeAt]

/-- In every run of the program, all steps of the link bring only such nicks, but for those
that the admin asks for. -/
theorem made_of_run {cfg : Config} {w : World} {s : Parts} {es : List Main.Event}
    (hrun : run Main.next (start cfg w) es = some s) :
    RunOf LinkRuns.next (fun _ e => Made e) (LinkRuns.initial cfg.inspS2s w.store w.now)
      s.link := by
  refine runOf_view
    (fun s => Shared s ∧ ∀ c ∈ s.cfRx, Made (.cf c)) Parts.link (fun s e t _ hs hnext => ?_)
    ⟨shared_start cfg w, fun c hc => by cases hc⟩ (runOf_of_run hrun)
  have hstep := stepped_of_next hnext
  obtain ⟨hview, hqueue⟩ := made_stepped hs.1 (running_of_next hnext).1 hs.2 hstep
  exact ⟨⟨shared_stepped hs.1 hstep, hqueue⟩, hview⟩

end Program

end SmsIrc.MadeNicks
