import SmsIrc.WhatsappIncoming
import SmsIrc.WhatsappMetadata

/-!
Downloads that end after the group that they were started for has been removed.
-/

namespace SmsIrc.WhatsappDownloads

open SmsIrc.Comm SmsIrc.Database SmsIrc.External SmsIrc.HashMaps SmsIrc.Models SmsIrc.Program
open SmsIrc.SenderCommon SmsIrc.SerialTable SmsIrc.Text SmsIrc.Transition SmsIrc.Util
open SmsIrc.WaConn SmsIrc.Whatsapp SmsIrc.WhatsappFrame SmsIrc.WhatsappIncoming
open SmsIrc.WhatsappMetadata SmsIrc.WhatsappMsg SmsIrc.WhatsappRuns

section Downloads

variable [Crates]

/-- The group of a download that has ended. -/
def finishedGroup : WhatsappCommand → Option Nat
  | .mediaFinished r => r.group
  | _ => none

/-- The channel of the group that is to be removed. -/
def removedChan : WhatsappCommand → Option Str
  | .groupRemove chan => some chan
  | _ => none

/-- The groups for which downloads are running, or have ended without having been
handled yet. -/
def awaited (m : WhatsappManager) : List Nat :=
  m.msgproc.downloads.filterMap MediaInfo.group ++ m.rx.filterMap finishedGroup

/-- A group has a row with an id. -/
def HasGroup (st : Store) (g : Nat) : Prop := ∃ grp ∈ st.groups.rows, grp.id = g

/-- The groups that have a row keep it. -/
structure KeepsGroups (st st' : Store) : Prop where
  dbDown : st'.dbDown = st.dbDown
  groups : ∀ g, HasGroup st g → HasGroup st' g

/-- New downloads are for groups that have a row. -/
structure Keeps (m m' : WhatsappManager) : Prop where
  store : KeepsGroups m.msgproc.store m'.msgproc.store
  awaited : ∀ g ∈ awaited m', g ∈ awaited m ∨ HasGroup m'.msgproc.store g

/-- No query fails, and the groups of all downloads have rows. -/
structure Live (m : WhatsappManager) : Prop where
  up : Up m.msgproc.store
  awaited : ∀ g ∈ awaited m, HasGroup m.msgproc.store g

instance : IsPreorder Store KeepsGroups where
  refl _ := ⟨rfl, fun _ h => h⟩
  trans _ _ _ h h' := ⟨h'.dbDown.trans h.dbDown, fun g hg => h'.groups g (h.groups g hg)⟩

instance : IsPreorder WhatsappManager Keeps where
  refl _ := ⟨Std.Refl.refl _, fun _ h => .inl h⟩
  trans _ _ _ h h' := by
    refine ⟨IsTrans.trans _ _ _ h.store h'.store, fun g hg => ?_⟩
    rcases h'.awaited g hg with hg | hg
    · exact (h.awaited g hg).imp id (h'.store.groups g)
    · exact .inr hg

theorem Keeps.live {m m' : WhatsappManager} (h : Keeps m m') (hm : Live m) : Live m' where
  up n := by
    rw [h.store.dbDown]
    exact hm.up n
  awaited g hg := by
    rcases h.awaited g hg with hg | hg
    · exact h.store.groups g (hm.awaited g hg)
    · exact hg

theorem keepsGroups_of_eq {st st' : Store} (hdown : st'.dbDown = st.dbDown)
    (hgroups : st'.groups = st.groups) : KeepsGroups st st' :=
  ⟨hdown, fun g hg => by rwa [HasGroup, hgroups]⟩

theorem keepsGroups_tick (st : Store) : KeepsGroups st st.tick := keepsGroups_of_eq rfl rfl

theorem keepsGroups_execute {f : Store → Store} (hdown : ∀ st, (f st).dbDown = st.dbDown)
    (hgroups : ∀ st, (f st).groups = st.groups) : Moves KeepsGroups (execute f) :=
  moves_execute keepsGroups_tick fun st => keepsGroups_of_eq (hdown st) (hgroups st)

theorem keepsGroups_insertRecipient (addr : PduAddress) (row : Nat → Recipient)
    (hrow : ∀ n, (row n).id = n) : Moves KeepsGroups (insertRecipient addr row hrow) :=
  moves_insertRecipient keepsGroups_tick fun _ => keepsGroups_of_eq rfl rfl

theorem keepsGroups_storeGroup (jid : Jid) (chan : Str) (parts adms : List Nat) (topic : Str) :
    Moves KeepsGroups (storeGroup jid chan parts adms topic) := by
  refine moves_storeGroup keepsGroups_tick fun st row hrow _ => ⟨rfl, ?_⟩
  rintro g ⟨grp, hgrp, rfl⟩
  exact ⟨grp, List.mem_append_left _ hgrp, rfl⟩

theorem keepsGroups_updateGroup (jid : Jid) (parts adms : List Nat) (topic : Str) :
    Moves KeepsGroups (updateGroup jid parts adms topic) := by
  refine moves_updateGroup keepsGroups_tick fun st change hid _ => ⟨rfl, ?_⟩
  rintro g ⟨grp, hgrp, rfl⟩
  exact ⟨_, List.mem_map_of_mem hgrp, hid grp⟩

theorem keepsGroups_otherOp (op : OtherOp) : Moves KeepsGroups op.run := by
  cases op with
  | smsMessage addr pdu csmsData => exact keepsGroups_execute (fun _ => rfl) fun _ => rfl
  | recipient addr nick =>
      exact Steps.bind (keepsGroups_insertRecipient _ _ _) fun _ => steps_pure _
  | recipientNick addr nick src => exact keepsGroups_execute (fun _ => rfl) fun _ => rfl
  | recipientWa addr wa => exact keepsGroups_execute (fun _ => rfl) fun _ => rfl
  | dropRecipient addr =>
      exact moves_checked keepsGroups_tick fun _ => keepsGroups_of_eq rfl rfl
  | deleteMessage id => exact moves_checked keepsGroups_tick fun _ => keepsGroups_of_eq rfl rfl

theorem keeps_store {α : Type} {p : StoreM α} (hp : Moves KeepsGroups p) :
    Moves Keeps (store p : WaM α) := moves_store hp fun _ _ h => ⟨h, fun _ hg => .inl hg⟩

theorem keeps_of_eq {m m' : WhatsappManager} (hmsgproc : m'.msgproc = m.msgproc)
    (hrx : m'.rx = m.rx) : Keeps m m' := by
  refine ⟨keepsGroups_of_eq (by rw [hmsgproc]) (by rw [hmsgproc]), fun g hg => .inl ?_⟩
  rwa [awaited, hmsgproc, hrx] at hg

theorem keeps_pushBack (r : WaRequest) : Moves Keeps (pushBack r) :=
  steps_modify fun _ => keeps_of_eq rfl rfl

theorem bridging_keeps : Bridging Keeps where
  query f := keeps_store (moves_query keepsGroups_tick f)
  newRecipient _ _ _ _ _ := keeps_store (keepsGroups_insertRecipient _ _ _)
  cf _ _ := steps_modify fun _ => keeps_of_eq rfl rfl
  newGroup _ _ _ := keeps_store (keepsGroups_storeGroup _ _ _ _ _)
  cb _ _ := keeps_of_eq rfl rfl
  metadata _ := keeps_pushBack _

theorem naming_keeps : Naming Keeps where
  toBridging := bridging_keeps
  insert _ _ _ _ := keeps_store
    (moves_checked keepsGroups_tick fun _ => keepsGroups_of_eq rfl rfl)
  updated grp := bridging_keeps.updateFromMetadata grp fun _ _ _ _ =>
    keeps_store (keepsGroups_updateGroup _ _ _ _)
  subscribe _ := keeps_pushBack _
  conn _ _ := keeps_of_eq rfl rfl
  session _ _ _ := keeps_of_eq rfl rfl
  chats _ _ := keeps_of_eq rfl rfl
  generate _ := keeps_of_eq rfl rfl
  ackp _ _ := keeps_of_eq rfl rfl
  accept _ _ := keeps_of_eq rfl rfl
  expire _ _ := keeps_of_eq rfl rfl
  presence _ _ := keeps_of_eq rfl rfl
  send _ := keeps_pushBack _
  msgid _ := keeps_store (keepsGroups_execute (fun _ => rfl) fun _ => rfl)
  persistence _ := keeps_store (keepsGroups_execute (fun _ => rfl) fun _ => rfl)
  established _ _ := keeps_of_eq rfl rfl
  contacts _ _ := keeps_of_eq rfl rfl
  ntf _ _ := keeps_store (keepsGroups_execute (fun _ => rfl) fun _ => rfl)
  rename _ _ _ _ := steps_modify fun _ => keeps_of_eq rfl rfl

theorem marking_keeps : Marking Keeps where
  toHandlers := naming_keeps.toHandlers
  msgid := naming_keeps.msgid
  read _ _ := keeps_pushBack _

theorem wp_targetOf (group : Option Jid) (m : WhatsappManager) :
    wp (targetOf group) (fun r t => ∀ target ∈ r, ∀ id ∈ target, HasGroup t.msgproc.store id)
      (fun _ _ => True) m := by
  refine wp_mono (WhatsappIncoming.wp_targetOf group m) ?_ fun _ _ h => h
  intro r t hr target htarget id hid
  cases hid
  have hplaced := hr (some id) htarget
  cases group with
  | none => cases hplaced
  | some gid =>
      obtain ⟨grp, hgrp, -, heq⟩ := hplaced
      exact ⟨grp, hgrp, (Option.some.inj heq).symm⟩

theorem processing_keepsGroups : Processing fun p q : WaMessageProcessor =>
    KeepsGroups p.store q.store where
  query f := Steps.zoom (moves_query keepsGroups_tick f) fun _ _ h => h
  contactFiles _ p := Std.Refl.refl (r := KeepsGroups) p.store
  downloads _ p := Std.Refl.refl (r := KeepsGroups) p.store

instance : IsPreorder WaMessageProcessor fun p q => KeepsGroups p.store q.store where
  refl p := Std.Refl.refl (r := KeepsGroups) p.store
  trans _ _ _ h h' := IsTrans.trans (r := KeepsGroups) _ _ _ h h'

theorem wp_withMsgproc {α : Type} {p : MsgM α} {Q : α → WhatsappManager → Prop}
    {E : Failure → WhatsappManager → Prop} {m : WhatsappManager} :
    wp (withMsgproc p : WaM α) Q E m ↔
      wp p (fun a q => Q a { m with msgproc := q }) (fun e q => E e { m with msgproc := q })
        m.msgproc := wp_zoom p

theorem wp_bridgeMessage (msg : WaMessage) (sender : Sender) {group : Option Nat}
    {m : WhatsappManager} (hgroup : ∀ id ∈ group, HasGroup m.msgproc.store id) :
    wp (bridgeMessage msg sender group) (fun _ t => Keeps m t) (fun _ _ => True) m := by
  rw [bridgeMessage, wp_bind, wp_withMsgproc]
  refine wp_mono (wp_and (wp_processWaIncoming _ _)
    (processing_keepsGroups.processWaIncoming _ _)) ?_ fun _ _ _ => trivial
  rintro ⟨lines, media⟩ q ⟨⟨hlooked, -⟩, hstore⟩
  have hkeeps : Keeps m { m with msgproc := q } := by
    refine ⟨hstore, fun g hg => ?_⟩
    rw [awaited, hlooked.downloads, List.filterMap_append, List.append_assoc,
      List.mem_append, List.mem_append] at hg
    rcases hg with hg | hg | hg
    · exact .inl (List.mem_append_left _ hg)
    · obtain ⟨mi, hmi, hg⟩ := List.mem_filterMap.mp hg
      unfold started at hmi
      split at hmi
      · rw [List.mem_singleton.mp hmi] at hg
        exact .inr (hstore.groups g (hgroup g hg))
      · cases hmi
    · exact .inl (List.mem_append_right _ hg)
  have hrest : Moves Keeps (do
      forM lines fun line => storeMessage line.fromJid line.text line.group line.ts
      when (lines ≠ [] ∧ ¬ media) (store (storeWaMsgid msg.id))
      let m ← get
      when (¬ media ∧ ¬ sender.isOurs ∧ m.markRead) (markAsRead msg.id sender.peer)) :=
    Steps.bind (Steps.forM fun _ _ => marking_keeps.storeMessage _ _ _ _) fun _ =>
      Steps.bind (Steps.when (marking_keeps.msgid _)) fun _ => Steps.bind steps_get fun _ =>
        Steps.when (marking_keeps.markAsRead _ _)
  exact wp_mono (hrest.after hkeeps) (fun _ _ h => h) fun _ _ _ => trivial

theorem wp_onMessage (msg : WaMessage) (isNew : Bool) (m : WhatsappManager) :
    wp (onMessage msg isNew) (fun _ t => Keeps m t) (fun _ _ => True) m := by
  have hknown : Moves Keeps (alreadyStored msg isNew) := by
    refine Steps.bind steps_get fun m => ?_
    split
    · exact naming_keeps.query _
    · exact steps_pure _
  rw [onMessage, wp_bind]
  refine wp_mono (hknown m) ?_ fun _ _ _ => trivial
  intro known t ht
  rw [wp_bind, wp_get]
  split
  · exact ht
  rw [wp_bind]
  refine wp_mono ((marking_keeps.senderOf msg).after ht) ?_ fun _ _ _ => trivial
  rintro (_ | sender) u hu
  · exact hu
  dsimp only
  rw [wp_bind]
  refine wp_mono (wp_and ((bridging_keeps.targetOf sender.group).after hu)
    (wp_targetOf sender.group u)) ?_ fun _ _ _ => trivial
  rintro (_ | group) v ⟨hv, hgroup⟩
  · exact hv
  exact wp_mono (wp_bridgeMessage msg sender (hgroup group rfl))
    (fun _ _ h => IsTrans.trans _ _ _ hv h) fun _ _ _ => trivial

/-- The group that a channel names is none for which a download is awaited. -/
def NotAwaited (m : WhatsappManager) (chan : Str) : Prop :=
  ∀ grp ∈ m.msgproc.store.groups.rows.find? (fun g => g.channel = chan), grp.id ∉ awaited m

instance (m : WhatsappManager) (chan : Str) : Decidable (NotAwaited m chan) :=
  inferInstanceAs (Decidable (∀ grp ∈ _, _))

theorem wp_groupRemove {chan : Str} {m : WhatsappManager} (hlive : Live m)
    (hno : NotAwaited m chan) :
    wp (groupRemove chan) (fun _ t => Live t) (fun _ _ => True) m := by
  have hup : Up m.msgproc.store.tick := hlive.up
  rw [groupRemove, wp_bind, WhatsappFrame.wp_store, getGroupByChanOpt, hlive.up.wp_query]
  split
  · rename_i grp hgrp
    rw [wp_bind, WhatsappFrame.wp_store, deleteGroupWithId, wp_bind]
    change wp _ _ _ m.msgproc.store.tick
    rw [hup.wp_query]
    split
    · rw [wp_modify]
      have hkept : Live (setStore m { m.msgproc.store.tick.tick with
          groups := m.msgproc.store.tick.tick.groups.keep fun g => g.id ≠ grp.id
          messages := m.msgproc.store.tick.tick.messages.keep fun msg =>
            msg.groupTarget ≠ some grp.id }) := by
        refine ⟨hlive.up, fun g hg => ?_⟩
        obtain ⟨row, hrow, rfl⟩ := hlive.awaited g hg
        refine ⟨row, List.mem_filter.mpr ⟨hrow, ?_⟩, rfl⟩
        rw [decide_eq_true_eq]
        intro heq
        exact hno grp hgrp (heq ▸ hg)
      have hrest : Moves Keeps (do
          onGroupsChanged
          cbRespond (("Group with jid " : Str) ++ grp.jid ++ (" deleted." : Str))) :=
        Steps.bind bridging_keeps.onGroupsChanged fun _ => bridging_keeps.cbRespond _
      exact wp_mono (hrest _) (fun _ _ h => h.live hkept) fun _ _ _ => trivial
    · trivial
  · exact wp_mono (bridging_keeps.cbRespond _ _)
      (fun _ _ h => h.live ⟨hlive.up, hlive.awaited⟩) fun _ _ _ => trivial

theorem wp_storeMessage
    (hparse : ∀ jid pn, Crates.phonenumber jid = some pn → (Crates.parseAddress pn).isSome)
    (jid : Jid) (text : Str) {group : Option Nat} (ts : NaiveDateTime) {m : WhatsappManager}
    (hup : Up m.msgproc.store) (hgroup : ∀ id ∈ group, HasGroup m.msgproc.store id) :
    wp (storeMessage jid text group ts) (fun _ t => Up t.msgproc.store) (fun _ _ => False) m := by
  rw [storeMessage, wp_bind]
  refine wp_mono (WhatsappFrame.wp_jidToAddress jid m) ?_ ?_
  swap
  · rintro _ _ ⟨-, pn, hpn, hnone⟩
    have hsome := hparse jid pn hpn
    rw [hnone] at hsome
    cases hsome
  rintro (_ | a) _ ⟨rfl, haddr, -⟩
  · exact hup
  obtain ⟨pn, hpn, ha, hne⟩ := haddr a rfl
  dsimp only
  rw [wp_bind]
  refine wp_mono (wp_getWaRecipient ⟨pn, a, hpn, ha, List.length_pos_of_ne_nil hne⟩ hup) ?_
    fun _ _ h => h
  intro _ t ht
  rw [wp_bind, WhatsappFrame.wp_store, storeWaMessage, wp_bind, (ht.up hup).wp_query]
  have hexists : groupExists t.msgproc.store.tick group = true := by
    cases group with
    | none => rfl
    | some id =>
        obtain ⟨grp, hgrp, hid⟩ := hgroup id rfl
        rw [groupExists, List.any_eq_true]
        refine ⟨grp, ?_, by simpa using hid⟩
        rw [Store.tick_groups, ht.groups]
        exact hgrp
  rw [if_pos hexists, wp_modify]
  exact ht.up hup

theorem wp_mediaFinished
    (hparse : ∀ jid pn, Crates.phonenumber jid = some pn → (Crates.parseAddress pn).isSome)
    {r : MediaResult} {m : WhatsappManager} (hup : Up m.msgproc.store)
    (hgroup : ∀ id ∈ r.group, HasGroup m.msgproc.store id) :
    wp (mediaFinished r) (fun _ _ => True) (fun _ _ => False) m := by
  have hread : ∀ u, wp (do
      let m ← get
      when m.markRead (markAsRead r.mi r.peer)) (fun _ _ => True) (fun _ _ => False) u := by
    intro u
    rw [wp_bind, wp_get, wp_when]
    split
    · cases r.peer <;> trivial
    · trivial
  rw [mediaFinished, wp_bind]
  refine wp_mono (wp_storeMessage hparse _ _ _ hup hgroup) ?_ fun _ _ h => h
  intro _ t ht
  rw [wp_bind, WhatsappFrame.wp_store, storeWaMsgid, execute, wp_bind, ht.wp_query, wp_modify]
  exact hread _

/-- No group is removed for which a download is running or waits to be handled. -/
def Unremoved (s : Session) : Event → Prop
  | .handle => ∀ chan ∈ s.manager.rx.head?.bind removedChan, NotAwaited s.manager chan
  | _ => True

instance (s : Session) : ∀ e, Decidable (Unremoved s e)
  | .handle => inferInstanceAs (Decidable (∀ chan ∈ _, _))
  | .poll _ => .isTrue trivial
  | .request _ => .isTrue trivial
  | .finished _ _ => .isTrue trivial
  | .drain _ => .isTrue trivial
  | .complete _ => .isTrue trivial
  | .check => .isTrue trivial
  | .otherOp _ => .isTrue trivial
  | .clock _ _ _ => .isTrue trivial

theorem live_perform {s : Session} {p : WaM Unit}
    (h : wp p (fun _ t => Live t) (fun _ _ => True) s.manager)
    (hout : (perform s p).outcome = none) : Live (perform s p).manager :=
  wp_of_ok (exec_of_perform hout) h

theorem live_moves {s : Session} {p : WaM Unit} (hs : Live s.manager) (hp : Moves Keeps p) :
    Live (perform s p).manager := (hp.exec s.manager).live hs

theorem live_poll {s : Session} (answers : List Answer) (hs : Live s.manager)
    (hout : (perform s (pollConn answers)).outcome = none) :
    Live (perform s (pollConn answers)).manager := by
  rw [perform_pollConn] at hout ⊢
  have hconn : Live { s.manager with conn := (s.manager.conn.poll answers).2 } :=
    ⟨hs.up, hs.awaited⟩
  have hevent : ∀ e, (∀ msg isNew, e ≠ .message isNew msg) →
      Moves Keeps (handlePolled (.item (.ok e))) :=
    fun e he => naming_keeps.toTracking.onWaEvent e naming_keeps.onContactChange
      fun msg isNew h => absurd h (he msg isNew)
  revert hout
  generalize (s.manager.conn.poll answers).1 = polled
  intro hout
  cases polled with
  | notReady => exact hconn
  | failed => exact live_moves hconn (Steps.bind steps_get fun _ => steps_throw trivial)
  | item r =>
      cases r with
      | error e => exact live_moves hconn (naming_keeps.onWaError e)
      | ok e =>
          cases e
          case message isNew msg =>
            exact live_perform (wp_mono (wp_onMessage msg isNew _) (fun _ _ h => h.live hconn)
              fun _ _ h => h) hout
          all_goals exact live_moves hconn (hevent _ (by simp))

theorem awaited_pop {m : WhatsappManager} {c : WhatsappCommand} {rest : List WhatsappCommand}
    (hrx : m.rx = c :: rest) : ∀ g ∈ awaited { m with rx := rest }, g ∈ awaited m := by
  intro g hg
  rw [awaited] at hg ⊢
  rw [hrx]
  rcases List.mem_append.mp hg with hg | hg
  · exact List.mem_append_left _ hg
  · obtain ⟨c', hc', hg⟩ := List.mem_filterMap.mp hg
    exact List.mem_append_right _ (List.mem_filterMap.mpr ⟨c', List.mem_cons_of_mem _ hc', hg⟩)

theorem live_handle {s : Session} (hs : Live s.manager) (hno : Unremoved s .handle)
    (hout : (perform s handleNext).outcome = none) : Live (perform s handleNext).manager := by
  cases hrx : s.manager.rx with
  | nil =>
      have heq : (perform s handleNext).manager = s.manager := by
        rw [perform_manager, handleNext, exec_bind, exec_get]
        dsimp only
        rw [hrx]
        rfl
      rwa [heq]
  | cons c rest =>
      have heq : perform s handleNext =
          perform { s with manager := { s.manager with rx := rest } } (handleIntRx c) := by
        rw [perform, perform, handleNext, exec_bind, exec_get]
        dsimp only
        rw [hrx]
        rfl
      rw [heq] at hout ⊢
      have hpop : Live { s.manager with rx := rest } :=
        ⟨hs.up, fun g hg => hs.awaited g (awaited_pop hrx g hg)⟩
      cases c
      case groupRemove chan =>
        refine live_perform (wp_groupRemove hpop ?_) hout
        intro grp hgrp hmem
        exact hno chan (by rw [hrx]; rfl) grp hgrp (awaited_pop hrx _ hmem)
      all_goals
        exact live_moves hpop (naming_keeps.toTracking.handleIntRx _
          (fun r _ => marking_keeps.mediaFinished r) (by simp))

theorem live_next {s t : Session} {e : Event} (hno : Unremoved s e) (hs : Live s.manager)
    (ht : next s e = some t) (hout : t.outcome = none) : Live t.manager := by
  obtain ⟨-, hstep⟩ := next_eq_some ht
  cases e with
  | poll answers =>
      cases hstep
      exact live_poll answers hs hout
  | handle =>
      cases hstep
      exact live_handle hs hno hout
  | request c =>
      simp only [step] at hstep
      split at hstep
      · rename_i hc
        cases hstep
        have hnone : finishedGroup c = none := by
          cases c with
          | mediaFinished r => cases hc
          | _ => rfl
        refine ⟨hs.up, fun g hg => hs.awaited g ?_⟩
        simpa [awaited, hnone] using hg
      · cases hstep
  | finished i result =>
      obtain ⟨mi, hmi, rfl⟩ := Option.map_eq_some_iff.mp hstep
      refine ⟨hs.up, fun g hg => hs.awaited g ?_⟩
      rw [awaited, finish, List.filterMap_append, ← List.append_assoc] at hg
      rcases List.mem_append.mp hg with hg | hg
      · rcases List.mem_append.mp hg with hg | hg
        · obtain ⟨mi', hmi', hg⟩ := List.mem_filterMap.mp hg
          exact List.mem_append_left _
            (List.mem_filterMap.mpr ⟨mi', List.mem_of_mem_eraseIdx hmi', hg⟩)
        · exact List.mem_append_right _ hg
      · obtain ⟨c, hc, hg⟩ := List.mem_filterMap.mp hg
        rw [List.mem_singleton.mp hc] at hg
        exact List.mem_append_left _
          (List.mem_filterMap.mpr ⟨mi, List.mem_of_getElem? hmi, hg⟩)
  | drain answers =>
      cases hstep
      exact live_moves hs (naming_keeps.drainOutbox (fun _ _ _ => keeps_of_eq rfl rfl) answers)
  | complete done =>
      cases hstep
      exact live_moves hs (Frame.pollComplete done)
  | check =>
      cases hstep
      exact live_moves hs naming_keeps.checkAcks
  | otherOp op =>
      cases hstep
      have hop := (keepsGroups_otherOp op).exec s.manager.msgproc.store
      refine ⟨fun n => ?_, fun g hg => hop.groups g (hs.awaited g hg)⟩
      exact (congrFun hop.dbDown n).trans (hs.up n)
  | clock now dbNow instant =>
      cases hstep
      exact ⟨hs.up, hs.awaited⟩

/-- The next command is the end of a download. -/
def finishing (m : WhatsappManager) : Bool := m.rx.head?.any fun c => !isRequest c

theorem finishing_iff {m : WhatsappManager} :
    finishing m = true ↔ ∃ r rest, m.rx = .mediaFinished r :: rest := by
  rw [finishing]
  cases hrx : m.rx with
  | nil => simp
  | cons c rest => cases c <;> simp [isRequest]

/-- In a run without failing queries in which no group is removed while a download
for it is running or waits to be handled, every end of a download is handled without
an error. -/
theorem mediaFinished_isOk
    (hparse : ∀ jid pn, Crates.phonenumber jid = some pn → (Crates.parseAddress pn).isSome)
    {m : WhatsappManager} (hup : Up m.msgproc.store) (hidle : awaited m = []) {es : List Event}
    {t : Session} (hes : AllSteps next Unremoved ⟨m, none⟩ es)
    (hrun : run next ⟨m, none⟩ es = some t) (hout : t.outcome = none)
    (hfinish : finishing t.manager = true) : (exec handleNext t.manager).1.isOk = true := by
  obtain ⟨r, rest, hrx⟩ := finishing_iff.mp hfinish
  have hlive : t.outcome = none → Live t.manager :=
    invariant_of_allSteps (I := fun s => s.outcome = none → Live s.manager)
      (fun s e u hno hs hu hout => live_next hno (hs (next_eq_some hu).1) hu hout) hes
      (fun _ => ⟨hup, by simp [hidle]⟩) hrun
  have hpop : ∀ id ∈ r.group, HasGroup t.manager.msgproc.store id := by
    intro id hid
    refine (hlive hout).awaited id (List.mem_append_right _ ?_)
    rw [hrx]
    exact List.mem_filterMap.mpr ⟨_, List.mem_cons_self, hid⟩
  have hwp : wp handleNext (fun _ _ => True) (fun _ _ => False) t.manager := by
    rw [handleNext, wp_bind, wp_get, hrx]
    dsimp only
    rw [wp_bind, wp_set]
    exact wp_mediaFinished hparse (hlive hout).up hpop
  unfold wp at hwp
  rcases hp : exec handleNext t.manager with ⟨_ | _, u⟩
  · rw [hp] at hwp
    exact hwp.elim
  · rfl

end Downloads

section Samples

/-- `Sample.crates`, with the phone numbers of all JIDs read: characters that are not
digits are skipped. -/
@[reducible] def lenientCrates : Crates :=
  { Sample.crates with
    parseAddress := fun s =>
      some ⟨Sample.international, (s.filter Char.isDigit).map fun c =>
        UInt8.ofNat (c.toNat - 48)⟩ }

attribute [local instance] lenientCrates

theorem parses : ∀ (jid : Jid) (pn : Str), Crates.phonenumber jid = some pn →
    (Crates.parseAddress pn).isSome := fun _ _ _ => rfl

theorem groupRow_id (n : Nat) :
    (⟨n, ("1@g.us" : Str), ("#g" : Str), [], [], []⟩ : Group).id = n := rfl

/-- A database with one group. -/
def groupStore : Store where
  recipients := .empty
  messages := .empty
  groups := Table.empty.insert (fun n => ⟨n, ("1@g.us" : Str), ("#g" : Str), [], [], []⟩)
    groupRow_id
  waMsgids := []
  waPersistence := none
  now := 0
  dbDown _ := false
  queries := 0

def groupManager : WhatsappManager :=
  .new sampleConfig groupStore 0 0 decimal (fun n => .ok (decimal n)) none ("error" : Str)

/-- A picture in the group. -/
def picture : WaMessage :=
  ⟨.receiving (.group ⟨("1" : Str), true⟩ ⟨("44123" : Str), false⟩), 0, ("m" : Str),
    .image none, none⟩

/-- The connection is set up, and the picture arrives. -/
def picturing : List Event :=
  [.handle, .request .startRegistration, .handle, .poll [.ready],
    .poll [.event (.message true picture)]]

def pictured : Session :=
  (run next ⟨groupManager, none⟩ (picturing ++ [.finished 0 (.ok ("link" : Str))])).get
    (by decide +kernel)

theorem mediaFinished_isOk_pictured : (exec handleNext pictured.manager).1.isOk = true :=
  mediaFinished_isOk parses (fun _ => rfl) rfl (by decide +kernel) (Option.some_get _).symm
    (Option.isNone_iff_eq_none.mp (by decide +kernel)) (by decide +kernel)

/-- The same, with the group removed while the picture is loaded. -/
def removed : Session :=
  (run next ⟨groupManager, none⟩ (picturing ++ [.request (.groupRemove ("#g" : Str)), .handle,
    .finished 0 (.ok ("link" : Str))])).get (by decide +kernel)

theorem mediaFinished_fails : ¬ ∀ (m : WhatsappManager) (es : List Event) (t : Session),
    Up m.msgproc.store → awaited m = [] → run next ⟨m, none⟩ es = some t → t.outcome = none →
      finishing t.manager = true → (exec handleNext t.manager).1.isOk = true := by
  intro h
  exact absurd (h groupManager _ removed (fun _ => rfl) rfl (Option.some_get _).symm
    (Option.isNone_iff_eq_none.mp (by decide +kernel)) (by decide +kernel)) (by decide +kernel)

end Samples

end SmsIrc.WhatsappDownloads
