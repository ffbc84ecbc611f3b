import SmsIrc.WhatsappFrame

/-!
The members of a group are ids of recipients, which the database does not check.
-/

namespace SmsIrc.GroupMembers

open SmsIrc.Comm SmsIrc.Database SmsIrc.External SmsIrc.HashMaps SmsIrc.Models SmsIrc.Program
open SmsIrc.SenderCommon SmsIrc.SerialTable SmsIrc.Text SmsIrc.Transition SmsIrc.Util
open SmsIrc.WaConn SmsIrc.Whatsapp SmsIrc.WhatsappFrame SmsIrc.WhatsappMsg SmsIrc.WhatsappRuns

section Members

variable [Crates]

/-- An id is that of a recipient. -/
def HasRow (st : Store) (id : Nat) : Prop := ∃ r ∈ st.recipients.rows, r.id = id

/-- A group has a recipient as a participant or as an admin. -/
def HasMember (grp : Group) (id : Nat) : Prop := id ∈ grp.participants ∨ id ∈ grp.admins

/-- The members of all groups are recipients. -/
def Valid (st : Store) : Prop := ∀ grp ∈ st.groups.rows, ∀ id, HasMember grp id → HasRow st id

/-- No recipient is lost, and all members stay recipients. -/
structure Grows (st st' : Store) : Prop where
  rows : ∀ id, HasRow st id → HasRow st' id
  valid : Valid st → Valid st'

/-- The same, if some ids are those of recipients. -/
def GrowsWith (ids : List Nat) (st st' : Store) : Prop :=
  (∀ id ∈ ids, HasRow st id) → Grows st st'

instance : IsPreorder Store Grows where
  refl _ := ⟨fun _ h => h, fun h => h⟩
  trans _ _ _ h h' := ⟨fun id hid => h'.rows id (h.rows id hid), fun hv => h'.valid (h.valid hv)⟩

instance (ids : List Nat) : IsPreorder Store (GrowsWith ids) where
  refl st _ := Std.Refl.refl (r := Grows) st
  trans _ _ _ h h' hids :=
    IsTrans.trans (r := Grows) _ _ _ (h hids) (h' fun id hid => (h hids).rows id (hids id hid))

theorem grows_of_eq {st st' : Store} (hrecips : st'.recipients = st.recipients)
    (hgroups : st'.groups = st.groups) : Grows st st' := by
  have hrow : ∀ id, HasRow st id → HasRow st' id := by
    intro id hid
    rwa [HasRow, hrecips]
  refine ⟨hrow, fun hv grp hgrp id hid => hrow id (hv grp ?_ id hid)⟩
  rwa [← hgroups]

theorem grows_tick (st : Store) : Grows st st.tick := grows_of_eq rfl rfl

theorem grows_insertRecipient (addr : PduAddress) (row : Nat → Recipient)
    (hrow : ∀ n, (row n).id = n) : Moves Grows (insertRecipient addr row hrow) := by
  refine moves_insertRecipient grows_tick fun st => ?_
  have hrows : ∀ id, HasRow st id →
      HasRow { st with recipients := st.recipients.insert row hrow } id := by
    rintro id ⟨r, hr, hid⟩
    exact ⟨r, List.mem_append_left _ hr, hid⟩
  exact ⟨hrows, fun hv grp hgrp id hid => hrows id (hv grp hgrp id hid)⟩

theorem grows_updateRecipient (addr : PduAddress) (f : Recipient → Recipient)
    (hf : ∀ r, (f r).id = r.id) : Moves Grows (updateRecipient addr f hf) := by
  refine moves_execute grows_tick fun st => ?_
  have hrows : ∀ id, HasRow st id → ∃ r ∈ st.recipients.rows.map fun r =>
      if r.phoneNumber = normalizeAddress addr then f r else r, r.id = id := by
    rintro id ⟨r, hr, rfl⟩
    refine ⟨_, List.mem_map_of_mem hr, ?_⟩
    split
    · exact hf r
    · rfl
  exact ⟨hrows, fun hv grp hgrp id hid => hrows id (hv grp hgrp id hid)⟩

theorem grows_storeGroup (jid : Jid) (chan topic : Str) :
    Moves Grows (storeGroup jid chan [] [] topic) := by
  refine moves_storeGroup grows_tick fun st row hrow hmembers => ⟨fun _ h => h, ?_⟩
  intro hv grp hgrp id hid
  rcases List.mem_append.mp hgrp with hgrp | hgrp
  · exact hv grp hgrp id hid
  · rw [List.mem_singleton.mp hgrp, HasMember, (hmembers _).1, (hmembers _).2] at hid
    simp at hid

theorem grows_updateGroup (jid : Jid) (parts adms : List Nat) (topic : Str) :
    Moves (GrowsWith (parts ++ adms)) (updateGroup jid parts adms topic) := by
  refine moves_updateGroup (fun st _ => grows_tick st) fun st change hid hmembers hids =>
    ⟨fun _ h => h, ?_⟩
  intro hv _ hgrp id hmem
  obtain ⟨grp, hmem', rfl⟩ := List.mem_map.mp hgrp
  rcases hmembers grp with heq | ⟨hparts, hadms⟩
  · rw [heq] at hmem
    exact hv grp hmem' id hmem
  · rw [HasMember, hparts, hadms, ← List.mem_append] at hmem
    exact hids id hmem

theorem grows_deleteGroup (id : Nat) : Moves Grows (deleteGroupWithId id) :=
  moves_checked grows_tick fun _ => ⟨fun _ h => h,
    fun hv grp hgrp => hv grp (List.mem_of_mem_filter hgrp)⟩

theorem grows_execute {f : Store → Store} (hrecips : ∀ st, (f st).recipients = st.recipients)
    (hgroups : ∀ st, (f st).groups = st.groups) : Moves Grows (execute f) :=
  moves_execute grows_tick fun st => grows_of_eq (hrecips st) (hgroups st)

/-- The same of the database of a manager. -/
def Extends (m m' : WhatsappManager) : Prop := Grows m.msgproc.store m'.msgproc.store

instance : IsPreorder WhatsappManager Extends where
  refl m := Std.Refl.refl (r := Grows) m.msgproc.store
  trans _ _ _ h h' := IsTrans.trans (r := Grows) _ _ _ h h'

theorem extends_store {α : Type} {p : StoreM α} (hp : Moves Grows p) :
    Moves Extends (store p : WaM α) := moves_store hp fun _ _ h => h

theorem extends_of_eq {m m' : WhatsappManager} (h : m'.msgproc.store = m.msgproc.store) :
    Extends m m' := grows_of_eq (by rw [h]) (by rw [h])

theorem extends_pushBack (r : WaRequest) : Moves Extends (pushBack r) :=
  steps_modify fun _ => extends_of_eq rfl

theorem bridging_extends : Bridging Extends where
  query f := extends_store (moves_query grows_tick f)
  newRecipient _ _ _ _ _ := extends_store (grows_insertRecipient _ _ _)
  cf _ _ := steps_modify fun _ => extends_of_eq rfl
  newGroup _ _ _ := extends_store (grows_storeGroup _ _ _)
  cb _ _ := extends_of_eq rfl
  metadata _ := extends_pushBack _

theorem wp_getWaRecipient (jid : Jid) (m : WhatsappManager) :
    wp (getWaRecipient jid) (fun r t => HasRow t.msgproc.store r.id) (fun _ _ => True) m := by
  refine wp_skip fun addr t => ?_
  cases addr with
  | none => trivial
  | some a =>
      dsimp only
      rw [recipientFor, wp_bind, WhatsappFrame.wp_store, getRecipientByAddrOpt]
      apply wp_query_of trivial
      split
      · rename_i r hr
        exact ⟨r, List.mem_of_find?_eq_some hr, rfl⟩
      · refine wp_skip fun _ u => ?_
        rw [wp_bind, wp_get, wp_bind, WhatsappFrame.wp_store, storeWaRecipient, insertRecipient,
          wp_bind]
        apply wp_query_of trivial
        split
        · trivial
        · exact ⟨_, List.mem_append_right _ (List.mem_singleton_self _), rfl⟩

theorem wp_participants (ps : List (Jid × Bool)) (m : WhatsappManager) :
    wp (ps.mapM participantOf)
      (fun rs t => Extends m t ∧ ∀ r ∈ rs, HasRow t.msgproc.store r.1)
      (fun _ t => Extends m t) m := by
  induction ps generalizing m with
  | nil => exact ⟨Std.Refl.refl (r := Extends) m, by simp⟩
  | cons p ps ih =>
      rw [List.mapM_cons, wp_bind, participantOf, wp_bind]
      refine wp_mono (wp_and (bridging_extends.getWaRecipient p.1 m) (wp_getWaRecipient p.1 m)) ?_
        fun _ _ h => h.1.1
      rintro recip t ⟨ht, hrow⟩
      rw [wp_pure, wp_bind]
      refine wp_mono (ih t) ?_ fun _ _ h => IsTrans.trans (r := Extends) _ _ _ ht h
      rintro rs u ⟨hu, hrows⟩
      refine ⟨IsTrans.trans (r := Extends) _ _ _ ht hu, ?_⟩
      intro r hr
      rcases List.mem_cons.mp hr with rfl | hr
      · exact hu.rows _ hrow
      · exact hrows r hr

theorem extends_updateFromMetadata (grp : GroupMetadata) :
    Moves Extends (updateFromMetadata grp) := by
  intro m
  rw [updateFromMetadata, wp_bind]
  refine wp_mono (wp_participants grp.participants m) ?_ fun _ _ h => ⟨h, trivial⟩
  rintro rs t ⟨ht, hrows⟩
  have hids : ∀ id ∈ rs.map Prod.fst ++ (rs.filter fun r => r.2).map Prod.fst,
      HasRow t.msgproc.store id := by
    intro id hid
    rcases List.mem_append.mp hid with hid | hid
    · obtain ⟨r, hr, rfl⟩ := List.mem_map.mp hid
      exact hrows r hr
    · obtain ⟨r, hr, rfl⟩ := List.mem_map.mp hid
      exact hrows r (List.mem_of_mem_filter hr)
  rw [wp_bind, WhatsappFrame.wp_store]
  refine wp_mono (grows_updateGroup grp.id _ _ grp.subject t.msgproc.store) ?_ ?_
  · intro _ st hst
    exact (bridging_extends.onGroupsChanged).after
      (IsTrans.trans (r := Grows) _ _ _ ht (hst hids))
  · exact fun _ st hst => ⟨IsTrans.trans (r := Grows) _ _ _ ht (hst.1 hids), trivial⟩

theorem processing_grows : Processing fun p q : WaMessageProcessor => Grows p.store q.store where
  query f := Steps.zoom (moves_query grows_tick f) fun _ _ h => h
  contactFiles _ p := Std.Refl.refl (r := Grows) p.store
  downloads _ p := Std.Refl.refl (r := Grows) p.store

instance : IsPreorder WaMessageProcessor fun p q => Grows p.store q.store where
  refl p := Std.Refl.refl (r := Grows) p.store
  trans _ _ _ h h' := IsTrans.trans (r := Grows) _ _ _ h h'

theorem naming_extends : Naming Extends where
  toBridging := bridging_extends
  insert _ _ _ _ := extends_store (moves_checked grows_tick fun _ => grows_of_eq rfl rfl)
  updated := extends_updateFromMetadata
  subscribe _ := extends_pushBack _
  conn _ _ := extends_of_eq rfl
  session _ _ _ := extends_of_eq rfl
  chats _ _ := extends_of_eq rfl
  generate _ := extends_of_eq rfl
  ackp _ _ := extends_of_eq rfl
  accept _ _ := extends_of_eq rfl
  expire _ _ := extends_of_eq rfl
  presence _ _ := extends_of_eq rfl
  send _ := extends_pushBack _
  msgid _ := extends_store (grows_execute (fun _ => rfl) fun _ => rfl)
  persistence _ := extends_store (grows_execute (fun _ => rfl) fun _ => rfl)
  established _ _ := extends_of_eq rfl
  contacts _ _ := extends_of_eq rfl
  ntf _ _ := extends_store (grows_updateRecipient _ _ _)
  rename _ _ _ _ := steps_modify fun _ => extends_of_eq rfl

theorem receiving_extends : Receiving Extends where
  toFrame := naming_extends.toFrame
  contacts := naming_extends.contacts
  ntf := naming_extends.ntf
  rename := naming_extends.rename
  msgid := naming_extends.msgid
  read _ _ := extends_pushBack _
  process inc := Steps.zoom (processing_grows.processWaIncoming inc) fun _ _ h => h

theorem extends_handleIntRx (c : WhatsappCommand) : Moves Extends (handleIntRx c) :=
  naming_extends.toTracking.handleIntRx c (fun r _ => receiving_extends.mediaFinished r)
    fun chan _ => bridging_extends.groupRemove chan fun _ => extends_store (grows_deleteGroup _)

theorem extends_handlePolled (polled : Polled) : Moves Extends (handlePolled polled) := by
  cases polled with
  | notReady => exact steps_pure _
  | failed => exact Steps.bind steps_get fun _ => steps_throw trivial
  | item r =>
      cases r with
      | error e => exact naming_extends.onWaError e
      | ok e =>
          exact naming_extends.toTracking.onWaEvent e naming_extends.onContactChange
            fun msg isNew _ => receiving_extends.onMessage msg isNew

/-- A contact that is dropped is not a member of a group. The deletion itself may fail. -/
def Undropped (s : Session) : Event → Prop
  | .otherOp (.dropRecipient addr) =>
      s.manager.msgproc.store.dbDown s.manager.msgproc.store.queries = true ∨
        ∀ r ∈ s.manager.msgproc.store.recipients.rows, r.phoneNumber = normalizeAddress addr →
          ∀ grp ∈ s.manager.msgproc.store.groups.rows, ¬ HasMember grp r.id
  | _ => True

/-- Dropping a contact leaves the members of the groups valid exactly if it is none of
them. -/
theorem valid_dropRecipient {st : Store} (hv : Valid st) (addr : PduAddress) :
    Valid (exec (deleteRecipientWithAddr addr) st).2 ↔
      (st.dbDown st.queries = true ∨ ∀ r ∈ st.recipients.rows,
        r.phoneNumber = normalizeAddress addr → ∀ grp ∈ st.groups.rows, ¬ HasMember grp r.id) := by
  rw [deleteRecipientWithAddr, exec_bind, exec_query]
  by_cases hdown : st.dbDown st.queries = true
  · rw [if_pos hdown]
    exact iff_of_true hv (.inl hdown)
  rw [if_neg hdown]
  dsimp only
  split
  · constructor
    · intro hv'
      refine .inr fun r hr hnum grp hgrp hmem => ?_
      obtain ⟨r', hr', hid⟩ := hv' grp hgrp r.id hmem
      obtain ⟨hr', hkept⟩ := List.mem_filter.mp hr'
      rw [Table.eq_of_key_eq st.recipients hr' hr hid] at hkept
      exact (of_decide_eq_true hkept) hnum
    · rintro (hdown' | hfree) grp hgrp id hmem
      · exact absurd hdown' hdown
      · obtain ⟨r, hr, rfl⟩ := hv grp hgrp id hmem
        refine ⟨r, List.mem_filter.mpr ⟨hr, decide_eq_true fun hnum => ?_⟩, rfl⟩
        exact hfree r hr hnum grp hgrp hmem
  · rename_i habsent
    refine iff_of_true hv (.inr fun r hr hnum => absurd ?_ habsent)
    exact List.any_eq_true.mpr ⟨r, hr, decide_eq_true hnum⟩

theorem grows_otherOp {op : OtherOp} (hop : ∀ addr, op ≠ .dropRecipient addr) :
    Moves Grows op.run := by
  cases op with
  | smsMessage addr pdu csmsData => exact grows_execute (fun _ => rfl) fun _ => rfl
  | recipient addr nick => exact Steps.bind (grows_insertRecipient _ _ _) fun _ => steps_pure _
  | recipientNick addr nick src =>
      exact grows_updateRecipient addr (fun r => { r with nick := nick, nicksrc := src })
        fun _ => rfl
  | recipientWa addr wa =>
      exact grows_updateRecipient addr (fun r => { r with whatsapp := wa }) fun _ => rfl
  | dropRecipient addr => exact absurd rfl (hop addr)
  | deleteMessage id => exact moves_checked grows_tick fun _ => grows_of_eq rfl rfl

theorem valid_next {s t : Session} {e : Event} (hv : Valid s.manager.msgproc.store)
    (ht : next s e = some t) : Valid t.manager.msgproc.store ↔ Undropped s e := by
  obtain ⟨-, hstep⟩ := next_eq_some ht
  have hmoves : ∀ {p : WaM Unit}, Moves Extends p → Valid (perform s p).manager.msgproc.store :=
    fun hp => (hp.exec s.manager).valid hv
  cases e with
  | poll answers =>
      cases hstep
      refine iff_of_true ?_ trivial
      rw [perform_pollConn]
      exact ((extends_handlePolled _).exec _).valid hv
  | handle =>
      cases hstep
      refine iff_of_true (hmoves (steps_get_bind fun m => ?_)) trivial
      cases m.rx with
      | nil => exact Std.Refl.refl (r := Extends) m
      | cons c rest => exact (extends_handleIntRx c).after (extends_of_eq rfl)
  | request c =>
      simp only [step] at hstep
      split at hstep
      · cases hstep
        exact iff_of_true hv trivial
      · cases hstep
  | finished i result =>
      obtain ⟨mi, hmi, rfl⟩ := Option.map_eq_some_iff.mp hstep
      exact iff_of_true hv trivial
  | drain answers =>
      cases hstep
      exact iff_of_true (hmoves (naming_extends.drainOutbox
        (fun _ _ _ => extends_of_eq rfl) answers)) trivial
  | complete done =>
      cases hstep
      exact iff_of_true (hmoves (Frame.pollComplete done)) trivial
  | check =>
      cases hstep
      exact iff_of_true (hmoves naming_extends.checkAcks) trivial
  | clock now dbNow instant =>
      cases hstep
      exact iff_of_true hv trivial
  | otherOp op =>
      cases hstep
      cases op
      case dropRecipient addr => exact valid_dropRecipient hv addr
      all_goals
        exact iff_of_true (((grows_otherOp (by simp)).exec _).valid hv) trivial

/-- In all states of a run the members of all groups are recipients exactly if no
contact is dropped while it is a member of a group. -/
theorem valid_iff {m : WhatsappManager} (hv : Valid m.msgproc.store) {es : List Event}
    {t : Session} (hrun : run next ⟨m, none⟩ es = some t) :
    (∀ k u, run next ⟨m, none⟩ (es.take k) = some u → Valid u.manager.msgproc.store) ↔
      AllSteps next Undropped ⟨m, none⟩ es :=
  forall_take_iff_allSteps (P := fun s => Valid s.manager.msgproc.store)
    (fun _ _ _ hs hu => valid_next hs hu) hv hrun

end Members

section Samples

attribute [local instance] Sample.crates

theorem valid_sampleManager : Valid sampleManager.msgproc.store := by
  intro grp hgrp
  cases hgrp

/-- A group is bridged, and its metadata name `Sample.alice` as its admin. -/
def bridging : List Event :=
  connecting ++ [.poll [.event (.sessionEstablished ⟨("1" : Str), false⟩ ())],
    .request (.groupAssociate ⟨("2" : Str), true⟩ ("#g" : Str)), .handle,
    .poll [.event (.groupMetadata (.ok ⟨⟨("2" : Str), true⟩, ("s" : Str),
      [(⟨("44123" : Str), false⟩, true)]⟩))]]

def bridged : Session := (run next ⟨sampleManager, none⟩ bridging).get (by decide +kernel)

theorem valid_iff_bridging :
    (∀ k u, run next ⟨sampleManager, none⟩ (bridging.take k) = some u →
      Valid u.manager.msgproc.store) ↔ AllSteps next Undropped ⟨sampleManager, none⟩ bridging := by
  have hrun : run next ⟨sampleManager, none⟩ bridging = some bridged := (Option.some_get _).symm
  exact valid_iff valid_sampleManager hrun

def dropped : Session :=
  (run next ⟨sampleManager, none⟩ (bridging ++ [.otherOp (.dropRecipient Sample.alice)])).get
    (by decide +kernel)

/-- The contact of the admin is dropped. -/
theorem admin_dropped : ¬ ∀ (m : WhatsappManager) (es : List Event) (t : Session),
    Valid m.msgproc.store → run next ⟨m, none⟩ es = some t → Valid t.manager.msgproc.store := by
  intro h
  have hv := h sampleManager _ dropped valid_sampleManager (Option.some_get _).symm
  have hgroups : [1] ∈ dropped.manager.msgproc.store.groups.rows.map Group.admins := by
    decide +kernel
  have hrecips : dropped.manager.msgproc.store.recipients.rows = [] := by decide +kernel
  obtain ⟨grp, hgrp, hadms⟩ := List.mem_map.mp hgroups
  obtain ⟨r, hr, -⟩ := hv grp hgrp 1 (.inr (by simp [hadms]))
  rw [hrecips] at hr
  cases hr

end Samples

end SmsIrc.GroupMembers
