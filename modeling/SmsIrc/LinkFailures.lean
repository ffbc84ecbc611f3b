import SmsIrc.LinkEffects
import SmsIrc.LinkDeeds
import SmsIrc.Reassembly

/-!
How `process_messages` can fail at all, if the stored rows are as they were received:
with a failure of the database, or when there are no UUIDs left.
-/

namespace SmsIrc.LinkFailures

open SmsIrc.ContactCommon SmsIrc.Database SmsIrc.External SmsIrc.HashMaps SmsIrc.InspUsers
open SmsIrc.Link SmsIrc.LinkDeeds SmsIrc.LinkEffects SmsIrc.LinkGhosts SmsIrc.LinkSteady
open SmsIrc.MessageTexts SmsIrc.Models SmsIrc.Modem SmsIrc.Program SmsIrc.Reassembly
open SmsIrc.SenderCommon SmsIrc.SenderRuns SmsIrc.SerialTable SmsIrc.Text SmsIrc.Util

section Failures

variable [Crates]

/-- A row that was stored by the modem, or by the WhatsApp side. -/
def Deliverable (m : Message) : Prop :=
  (m.pdu = none ∧ m.csmsData = none ∧ ∃ body, m.text = some body) ∨
    ∃ addr raw, m.pdu = some raw ∧ Received addr raw m.csmsData

/-- The group that a row is for is there. -/
def Placed (st : Store) (gt : Option Nat) : Prop :=
  ∀ g ∈ gt, ∃ grp ∈ st.groups.rows, grp.id = g

/-- All rows are as they were stored. -/
structure Filed (st : Store) : Prop where
  deliverable : ∀ m ∈ st.messages.rows, Deliverable m
  placed : ∀ m ∈ st.messages.rows, Placed st m.groupTarget
  keyed : ∀ m ∈ st.messages.rows, ∃ a : PduAddress, m.phoneNumber = normalizeAddress a

def exhausted : Failure := .error ("UUIDs exhausted" : Str)

/-- The numbers of stored rows that a ghost is set up for when they are processed. -/
def Newcomer (msgs : List Message) (l : InspLink) (num : Str) : Prop :=
  (∃ m ∈ msgs, m.phoneNumber = num) ∧ ∃ a, unNormalizeAddress num = some a ∧
    l.contacts.lookup a = none ∧ HasRecipient l.store a

/-- There are UUIDs for all of them. -/
def Enough (msgs : List Message) (l : InspLink) : Prop :=
  ∀ nums : List Str, nums.Nodup → (∀ num ∈ nums, Newcomer msgs l num) →
    l.nextUserId + nums.length ≤ 100000

/-- The failures that `F` allows include those of the database, if it has any. -/
def Blames (F : Failure → Prop) (st : Store) : Prop := ∀ n, st.dbDown n = true → F .db

variable {F : Failure → Prop}

theorem blames_of_eq {st st' : Store} (h : Blames F st) (hdown : st'.dbDown = st.dbDown) :
    Blames F st' := fun n hn => h n (hdown ▸ hn)

theorem fails_query {α : Type} {f : Store → α} {Q : α → Store → Prop} {s : Store}
    (h : Blames F s) (hQ : Q (f s.tick) s.tick) : wp (query f) Q (fun e _ => F e) s := by
  rw [wp_query]
  split
  · rename_i hdown
    exact h _ hdown
  · exact hQ

theorem fails_execute {f : Store → Store} {Q : Unit → Store → Prop} {st : Store}
    (h : Blames F st) (hQ : Q () (f st.tick)) : wp (execute f) Q (fun e _ => F e) st := by
  rw [wp_execute]
  split
  · rename_i hdown
    exact h _ hdown
  · exact hQ

section Ghosts

/-- A user that the link may speak for. -/
def Owned (l : InspLink) (u : Str) : Prop := u ∈ l.users ∧ startsWith u l.cfg.sid = true

theorem owned_of_contact {l : InspLink} (hinv : GhostInv l) {a : PduAddress}
    {ct : InspContact} (hct : l.contacts.lookup a = some ct) : Owned l ct.uuid := by
  have huuid := hinv.uuidOf_contact a ct hct
  refine ⟨hinv.user_of_uuid _ _ huuid, ?_⟩
  have hissued := hinv.issued_of_uuid _ _ huuid
  rw [hinv.issued] at hissued
  obtain ⟨n, -, hn⟩ := List.mem_map.mp hissued
  rw [← hn, startsWith, List.isPrefixOf_iff_prefix]
  exact List.prefix_append _ _

theorem owned_of_quiet {s t : InspLink} (h : Quiet s t) {u : Str} (hu : Owned s u) :
    Owned t u := ⟨h.users u hu.1, h.cfg ▸ hu.2⟩

theorem wp_contactMessage_owned {l : InspLink} {u : Str} (hu : Owned l u) (kind : String)
    (target message : Str) {Q : Unit → InspLink → Prop} {E : Failure → InspLink → Prop}
    (hQ : ∀ m, Q () (said l m)) : wp (contactMessage u kind target message) Q E l := by
  obtain ⟨user, huser⟩ := mem_iff_lookup.mp hu.1
  rw [contactMessage, wp_bind, wp_get, huser, Option.isNone_some, if_neg (by simp), hu.2,
    Bool.not_true, if_neg (by simp), push, wp_modify]
  exact hQ _

theorem dbDown_of_effects {c r : Prop} {s t : InspLink} (h : Effects c r s t) :
    t.store.dbDown = s.store.dbDown := by
  refine h.invariant (I := fun t => t.store.dbDown = s.store.dbDown) ?_ rfl
  intro t u ht hu
  refine Eq.trans ?_ ht
  cases hu with
  | apart h => exact h.dbDown
  | _ => rfl

theorem fails_store {α : Type} {p : StoreM α} {Q : α → InspLink → Prop} {l : InspLink}
    (h : wp p (fun a st => Q a { l with store := st }) (fun e _ => F e) l.store) :
    wp (store p : LinkM α) Q (fun e _ => F e) l := wp_store.mpr h

theorem fails_nickFor {l : InspLink} (hdb : Blames F l.store) (recip : Recipient)
    (a : PduAddress) : wp (nickFor recip a) (fun _ t => t.store.dbDown = l.store.dbDown)
      (fun e _ => F e) l := by
  rw [nickFor, wp_bind, wp_get]
  cases checkNickForCollisions l recip.nick with
  | none => exact rfl
  | some n =>
      dsimp only
      rw [wp_bind]
      exact fails_store (fails_execute hdb rfl)

theorem fails_newUser {l : InspLink} (hid : 99999 < l.nextUserId → F exhausted)
    (user : InspUser) :
    wp (newUser user) (fun _ t => t.nextUserId = l.nextUserId + 1) (fun e _ => F e) l := by
  rw [newUser, wp_bind, getUuid, wp_bind, wp_get]
  split
  · rename_i h
    exact hid h
  · rw [wp_bind, wp_set, wp_pure, wp_bind, insertUser, wp_modify, wp_bind, makeUidLine, wp_bind,
      wp_get]
    dsimp only
    rw [AList.lookup_insert]
    rfl

theorem fails_processGroupsForRecipient {l : InspLink} (hdb : Blames F l.store) {a : PduAddress}
    (hct : (l.contacts.lookup a).isSome) (hrec : HasRecipient l.store a) :
    wp (processGroupsForRecipient a) (fun _ _ => True) (fun e _ => F e) l := by
  obtain ⟨ct, hct⟩ := Option.isSome_iff_exists.mp hct
  obtain ⟨r, hr⟩ := find?_recipient hrec
  rw [processGroupsForRecipient, wp_bind, wp_get]
  dsimp only
  rw [hct, wp_bind, wp_unwrap_some, wp_bind, wp_store, getGroupsForRecipient, wp_bind]
  apply fails_query hdb
  rw [Store.tick_recipients, hr]
  apply fails_query (s := l.store.tick) hdb
  rw [wp_bind]
  refine wp_mono (wp_joins _ _ _) (fun _ _ _ => ?_) fun _ _ he => he
  rw [wp_bind]
  refine wp_mono (wp_joinLog _ _ _ _) (fun _ _ _ => ?_) fun _ _ he => he
  rw [wp_bind]
  exact wp_mono (wp_parts _ _ _ _) (fun _ _ _ => trivial) fun _ _ he => he

theorem fails_setupContactFor {l : InspLink} (hdb : Blames F l.store) {recip : Recipient}
    {a : PduAddress} (hinv : GhostInv l) (hcontact : l.contacts.lookup a = none)
    (hrec : HasRecipient l.store a) (hread : ReadsBack a)
    (hid : 99999 < l.nextUserId → F exhausted) :
    wp (setupContactFor recip a) (fun _ t => t.nextUserId = l.nextUserId + 1)
      (fun e _ => F e) l := by
  rw [setupContactFor, wp_bind]
  refine wp_mono (wp_both (fails_nickFor hdb recip a) (quiet_nickFor recip a l)) ?_
    fun _ _ he => he
  rintro nick t ⟨hdown, ht⟩
  have hinvt := ghostInv_of_quiet l t hinv ht
  have hnext : 99999 < t.nextUserId → F exhausted := by rwa [ht.nextUserId]
  rw [wp_bind, wp_get, wp_bind]
  refine wp_mono (wp_both (fails_newUser hnext _) (wp_newUser hinvt _)) ?_ fun _ _ he => he
  rintro uuid u ⟨hcount, hu, hissued, hfresh, huser, hcontacts, hstore⟩
  have habsent : u.contacts.lookup a = none := by
    have h := ht.contact_isSome a
    rw [hcontact] at h
    rw [hcontacts]
    exact Option.not_isSome_iff_eq_none.mp (by simp [h])
  have hrecu : HasRecipient u.store a := hstore ▸ ht.store.recipients a hrec
  have hblames : Blames F u.store := blames_of_eq hdb (by rw [hstore, hdown])
  rw [ht.nextUserId] at hcount
  rw [wp_bind, addContact, wp_modify]
  have hadd := ghostInv_addContact hu ⟨uuid, [], recip.whatsapp⟩ habsent hfresh huser
    hissued hrecu hread
  have hpresent : ((u.contacts.insert a ⟨uuid, [], recip.whatsapp⟩).lookup a).isSome := by
    rw [AList.lookup_insert]
    rfl
  rw [wp_when]
  split
  · have hgroups := quiet_processGroupsForRecipient hadd hpresent
    refine wp_mono (wp_both (fails_processGroupsForRecipient (l := { u with
      contacts := u.contacts.insert a ⟨uuid, [], recip.whatsapp⟩
      contactsUuidPdua := u.contactsUuidPdua.insert uuid a }) hblames hpresent hrecu) hgroups)
      (fun _ v hv => ?_) fun _ _ he => he
    exact hv.2.nextUserId.trans hcount
  · exact hcount

/-- A contact that is set up takes one UUID; one that is there takes none. -/
def Counted (l : InspLink) (a : PduAddress) (t : InspLink) : Prop :=
  t.nextUserId = l.nextUserId ∨ t.nextUserId = l.nextUserId + 1 ∧
    l.contacts.lookup a = none ∧ HasRecipient l.store a ∧ (t.contacts.lookup a).isSome

theorem fails_contactReady {l : InspLink} (hdb : Blames F l.store) {a : PduAddress}
    (hinv : GhostInv l) (hread : ReadsBack a) (src : Nat)
    (hid : l.contacts.lookup a = none → HasRecipient l.store a → 99999 < l.nextUserId →
      F exhausted) :
    wp (contactReady a src) (fun _ t => Counted l a t) (fun e _ => F e) l := by
  rw [contactReady, wp_bind, hasContact, wp_bind, wp_get, wp_pure]
  split
  · exact .inl rfl
  · rename_i habsent
    have hnone : l.contacts.lookup a = none := by simpa using habsent
    have htick : Quiet l { l with store := l.store.tick } :=
      ⟨rfl, rfl, rfl, rfl, fun _ => rfl, rfl, fun _ hu => hu,
        storeQuiet_of_rows rfl fun _ h => h⟩
    have hinvt := ghostInv_of_quiet _ _ hinv htick
    rw [requestContact, wp_bind]
    refine fails_store (fails_query hdb ?_)
    cases hr : l.store.tick.recipients.rows.find? fun r =>
        r.phoneNumber = normalizeAddress a with
    | none =>
        have hask : wp (requestCreation a src : LinkM Unit)
            (fun _ t => t.nextUserId = l.nextUserId) (fun e _ => F e)
            { l with store := l.store.tick } := by
          unfold requestCreation
          split
          · exact rfl
          · split
            · exact rfl
            · exact rfl
        dsimp only
        rw [wp_bind]
        exact wp_mono hask (fun _ _ h => .inl h) fun _ _ h => h
    | some recip =>
        have hphone : recip.phoneNumber = normalizeAddress a := by
          simpa using List.find?_some hr
        have hrec : HasRecipient l.store a := ⟨recip, List.mem_of_find?_eq_some hr, hphone⟩
        dsimp only
        rw [wp_bind, setupRecipient, Recipient.getAddr, getAddr_ok hread hphone, wp_bind, wp_pure,
          wp_bind]
        change wp (hasContact a) _ _ _
        rw [hasContact, wp_bind, wp_get, wp_pure, hnone, wp_when, if_pos (by simp)]
        refine wp_mono (wp_both (fails_setupContactFor (l := { l with store := l.store.tick }) hdb
          hinvt hnone hrec hread (hid hnone hrec))
          (wp_setupContactFor hinvt hnone hrec hread)) (fun _ t ht => ?_) fun _ _ he => he
        exact .inr ⟨ht.1, hnone, hrec, ht.2.2.1⟩

theorem fails_switchMode {l : InspLink} (hdb : Blames F l.store) {a : PduAddress}
    {ct : InspContact} (hinv : GhostInv l) (hct : l.contacts.lookup a = some ct) (auid : Str)
    (wa : Bool) :
    wp (switchMode a auid ct wa) (fun _ t => t.store.dbDown = l.store.dbDown)
      (fun e _ => F e) l := by
  rw [switchMode, wp_when]
  split
  swap
  · exact rfl
  have hmode : wp (setWaState a wa) (fun _ t => t.store.dbDown = l.store.dbDown) (fun e _ => F e)
      l := by
    rw [setWaState, wp_bind, wp_get]
    dsimp only
    rw [hct, wp_bind, wp_unwrap_some, wp_bind, wp_modify, wp_bind]
    refine fails_store (fails_execute hdb ?_)
    rw [wp_bind, push, wp_modify, wp_modify]
    dsimp only
    split <;> rfl
  rw [wp_bind]
  refine wp_mono (wp_both hmode (quiet_setWaState (by rw [hct]; rfl))) ?_ fun _ _ he => he
  rintro _ t ⟨hdown, ht⟩
  exact wp_contactMessage_owned (owned_of_quiet ht (owned_of_contact hinv hct)) _ _ _
    fun _ => hdown

end Ghosts

section Senders

/-- A user speaks to a target that is there. -/
structure Speaking (F : Failure → Prop) (u : Str) (gt : Option Nat) (l : InspLink) : Prop where
  owned : Owned l u
  blames : Blames F l.store
  placed : Placed l.store gt

variable {u : Str} {gt : Option Nat}

theorem preserves_contactMessage (kind : String) (target message : Str) :
    Preserves (Speaking F u gt) F (contactMessage u kind target message) :=
  fun _ h => wp_contactMessage_owned h.owned kind target message
    fun _ => ⟨h.owned, h.blames, h.placed⟩

theorem preserves_ensureJoined (ch : Str) :
    Preserves (Speaking F u gt) F (Sender.ensureJoined ch : LinkM Unit) := by
  refine Preserves.bind preserves_get fun l => ?_
  split
  · cases adminUuid l with
    | some admu =>
        refine Preserves.bind preserves_get fun _ => ?_
        exact preserves_modify fun _ h => ⟨h.owned, h.blames, h.placed⟩
    | none => exact preserves_pure _
  · exact preserves_pure _

theorem preserves_destination : Preserves (Speaking F u gt) F (destination gt : LinkM Str) := by
  cases gt with
  | none => exact Preserves.bind preserves_get fun _ => preserves_pure _
  | some g =>
      intro l hl
      obtain ⟨grp, hgrp, hid⟩ := hl.placed g rfl
      rw [destination, wp_bind, wp_store, getGroupById, wp_bind, wp_query]
      split
      · rename_i hdown
        exact ⟨⟨hl.owned, hl.blames, hl.placed⟩, hl.blames _ hdown⟩
      · have hfind : (l.store.tick.groups.rows.find? fun grp => grp.id = g).isSome :=
          List.find?_isSome.mpr ⟨grp, hgrp, by simpa using hid⟩
        obtain ⟨found, hfound⟩ := Option.isSome_iff_exists.mp hfind
        rw [hfound, wp_pure]
        exact (Preserves.bind (preserves_ensureJoined found.channel) fun _ => preserves_pure _) _
          ⟨hl.owned, hl.blames, hl.placed⟩

theorem preserves_record (c : SenderCall) :
    Preserves (Speaking F u gt) F (Sender.record c : LinkM Unit) :=
  preserves_modify fun _ h => ⟨h.owned, h.blames, h.placed⟩

theorem preserves_sendRawMessage (msg : Str) :
    Preserves (Speaking F u gt) F (sendRawMessage u msg gt : LinkM Unit) := by
  refine Preserves.bind (preserves_record _) fun _ => ?_
  refine Preserves.bind preserves_destination fun dest => ?_
  refine Preserves.forM fun line _ => Preserves.forM fun chunk _ => ?_
  unfold sendFragment
  split
  · exact Preserves.bind (preserves_record _) fun _ => preserves_contactMessage _ _ _
  · exact preserves_pure _

theorem fails_sendRawMessage {l : InspLink} (h : Speaking F u gt l) (msg : Str) :
    wp (sendRawMessage u msg gt : LinkM Unit)
      (fun _ t => Blames F t.store ∧ t.store.messages = l.store.messages) (fun e _ => F e) l :=
  wp_mono (wp_and (preserves_sendRawMessage msg l h) (sendSteps_aside.sendRawMessage u msg gt l))
    (fun _ _ ht => ⟨ht.1.blames, ht.2.messages⟩) fun _ _ ht => ht.1.2

theorem fails_removeMessage {l : InspLink} (hdb : Blames F l.store) {m : Message}
    (hm : m ∈ l.store.messages.rows) :
    wp (removeMessage m.id) (fun _ t => Blames F t.store ∧
      t.store.messages.rows = l.store.messages.rows.filter fun r => r.id ≠ m.id)
      (fun e _ => F e) l := by
  rw [removeMessage, wp_bind]
  change wp (store (deleteMessage m.id) : LinkM Unit) _ _
    { l with calls := l.calls ++ [.deleteMessage m.id] }
  apply fails_store
  rw [deleteMessage, wp_bind]
  apply fails_query hdb
  have hany : (l.store.messages.rows.any fun r => r.id = m.id) = true :=
    List.any_eq_true.mpr ⟨m, hm, by simp⟩
  split
  · exact ⟨hdb, rfl⟩
  · rename_i habsent
    exact absurd hany habsent

theorem fails_removeMessages {rows : List Message} {l : InspLink} (hdb : Blames F l.store)
    (hnodup : rows.Nodup) (hrows : ∀ m ∈ rows, m ∈ l.store.messages.rows) :
    wp (forM rows fun m => removeMessage m.id) (fun _ _ => True) (fun e _ => F e) l := by
  induction rows generalizing l with
  | nil => trivial
  | cons m rows ih =>
      rw [List.nodup_cons] at hnodup
      rw [List.forM_cons, wp_bind]
      refine wp_mono (fails_removeMessage hdb (hrows m (by simp))) ?_ fun _ _ h => h
      rintro _ t ⟨ht, hleft⟩
      refine ih ht hnodup.2 fun q hq => ?_
      rw [hleft, List.mem_filter, decide_eq_true_iff]
      refine ⟨hrows q (by simp [hq]), fun hid => hnodup.1 ?_⟩
      rw [← l.store.messages.eq_of_key_eq (hrows q (by simp [hq])) (hrows m (by simp)) hid]
      exact hq

theorem csmsDataOf_ok {pdu : DeliverPdu} {d : DecodedMessage} (h : pdu.decodeMessage = .ok d) :
    csmsDataOf pdu = (concatenation d).map fun x => x.reference.toNat := by
  simp only [csmsDataOf, h]

theorem Deliverable.part {m : Message} (h : Deliverable m) {rf : Nat}
    (hrf : m.csmsData = some rf) : ∃ d, decodePart m = .ok d ∧ (concatenation d).isSome := by
  rcases h with ⟨-, hnone, -⟩ | ⟨addr, raw, hraw, pdu, hpdu, -, hfiled⟩
  · rw [hnone] at hrf
    cases hrf
  · rw [hrf] at hfiled
    cases hdec : pdu.decodeMessage with
    | error e =>
        simp only [csmsDataOf, hdec] at hfiled
        cases hfiled
    | ok d =>
        rw [csmsDataOf_ok hdec] at hfiled
        obtain ⟨cd, hcd, -⟩ := Option.map_eq_some_iff.mp hfiled.symm
        exact ⟨d, decodePart_eq_ok.mpr ⟨raw, hraw, pdu, hpdu, hdec⟩, by rw [hcd]; rfl⟩

theorem joinParts_of_parts (parts : List Message)
    (h : ∀ m ∈ parts, ∃ d, decodePart m = .ok d ∧ (concatenation d).isSome) :
    ∃ text, joinParts parts = .ok text := by
  have hdecoded : ∃ pdus, parts.mapM decodePart = .ok pdus ∧
      ∀ d ∈ pdus, (concatenation d).isSome := by
    induction parts with
    | nil => exact ⟨[], rfl, by simp⟩
    | cons m parts ih =>
        obtain ⟨d, hd, hcd⟩ := h m (by simp)
        obtain ⟨pdus, hpdus, hall⟩ := ih fun q hq => h q (by simp [hq])
        refine ⟨d :: pdus, ?_, ?_⟩
        · rw [List.mapM_cons, hd, hpdus]
          rfl
        · rintro d' hd'
          rcases List.mem_cons.mp hd' with rfl | hd'
          · exact hcd
          · exact hall d' hd'
  obtain ⟨pdus, hpdus, hall⟩ := hdecoded
  have hkeys : (decide (pdus.length < 2) || pdus.all fun d => (concatenation d).isSome) = true := by
    rw [Bool.or_eq_true, List.all_eq_true]
    exact .inr hall
  cases hjoin : joinParts parts with
  | ok text => exact ⟨text, rfl⟩
  | error e =>
      rw [joinParts, hpdus] at hjoin
      change sortParts pdus >>= _ = _ at hjoin
      rw [sortParts, if_pos hkeys] at hjoin
      cases hjoin

theorem fails_processMsgPlain {l : InspLink} {msg : Message}
    (h : Speaking F u msg.groupTarget l) (hmsg : msg ∈ l.store.messages.rows) {body : Str}
    (htext : msg.text = some body) :
    wp (processMsgPlain u msg) (fun _ _ => True) (fun e _ => F e) l := by
  rw [processMsgPlain, htext, wp_bind, wp_unwrap_some, wp_bind]
  change wp (do
    sendRawMessage u (renderPlain l.now msg.ts body) msg.groupTarget
    removeMessage msg.id) _ _ l
  rw [wp_bind]
  refine wp_mono (fails_sendRawMessage h _) ?_ fun _ _ he => he
  rintro _ t ⟨hdb, hsame⟩
  exact wp_mono (fails_removeMessage hdb (by rwa [hsame])) (fun _ _ _ => trivial) fun _ _ he => he

theorem fails_processMsgPdu {l : InspLink} {msg : Message} {pdu : DeliverPdu}
    (h : Speaking F u msg.groupTarget l)
    (hrows : ∀ m ∈ l.store.messages.rows, Deliverable m)
    (hmsg : csmsDataOf pdu = none → msg ∈ l.store.messages.rows) :
    wp (processMsgPdu u msg pdu) (fun _ _ => True) (fun e _ => F e) l := by
  unfold processMsgPdu
  cases hdec : pdu.decodeMessage with
  | error e =>
      have hreport : ∀ err, Preserves (Speaking F u msg.groupTarget) F (do
          Sender.record (.reportError u err)
          Sender.reportError u err : LinkM Unit) := fun err =>
        Preserves.bind (preserves_record _) fun _ =>
          Preserves.bind preserves_get fun _ => preserves_contactMessage _ _ _
      exact wp_mono (hreport _ l h) (fun _ _ _ => trivial) fun _ _ he => he.2
  | ok d =>
      dsimp only
      cases hcd : concatenation d with
      | none =>
          dsimp only
          rw [wp_bind]
          refine wp_mono (fails_sendRawMessage h _) ?_ fun _ _ he => he
          rintro _ t ⟨hdb, hsame⟩
          have hstored := hmsg (by rw [csmsDataOf_ok hdec, hcd]; rfl)
          exact wp_mono (fails_removeMessage hdb (by rwa [hsame])) (fun _ _ _ => trivial)
            fun _ _ he => he
      | some cd =>
          dsimp only
          rw [wp_bind]
          refine fails_store (fails_query h.blames ?_)
          generalize hparts : Crates.scanOrder.run
            (concatenatedRows l.store.tick msg.phoneNumber cd.reference.toNat) = parts
          have hperm : parts.Perm
              (concatenatedRows l.store msg.phoneNumber cd.reference.toNat) :=
            hparts ▸ Crates.scanOrder.perm _
          split
          · trivial
          have hpart : ∀ m ∈ parts, m ∈ l.store.messages.rows ∧
              m.csmsData = some cd.reference.toNat := by
            intro m hm
            obtain ⟨hrow, hfiled⟩ := List.mem_filter.mp (hperm.subset hm)
            rw [Bool.and_eq_true, decide_eq_true_iff, decide_eq_true_iff] at hfiled
            exact ⟨hrow, hfiled.1⟩
          obtain ⟨text, htext⟩ := joinParts_of_parts _ fun m hm =>
            (hrows m (hpart m hm).1).part (hpart m hm).2
          rw [htext, wp_bind, liftResult, wp_pure, wp_bind]
          refine wp_mono (fails_sendRawMessage (l := { l with store := l.store.tick })
            ⟨h.owned, h.blames, h.placed⟩ text) ?_ fun _ _ he => he
          rintro _ t ⟨hdb, hsame⟩
          refine fails_removeMessages hdb ?_ fun m hm => ?_
          · exact hperm.nodup_iff.mpr (l.store.messages.rows_nodup.filter _)
          · rw [hsame]
            exact (hpart m hm).1

end Senders

section Pass

theorem numbers_of_effects {c r : Prop} {s t : InspLink} (h : Effects c r s t) :
    t.store.recipients.rows.map Recipient.phoneNumber ⊆
      s.store.recipients.rows.map Recipient.phoneNumber := by
  refine h.invariant (I := fun t => t.store.recipients.rows.map Recipient.phoneNumber ⊆
    s.store.recipients.rows.map Recipient.phoneNumber) ?_ (List.Subset.refl _)
  intro t u ht hu
  refine List.Subset.trans ?_ ht
  have hchanged : ∀ (a : PduAddress) (f : Recipient → Recipient) (hf : ∀ r, (f r).id = r.id),
      (∀ r, (f r).phoneNumber = r.phoneNumber) →
        (rowChanged t.store a f hf).recipients.rows.map Recipient.phoneNumber ⊆
          t.store.recipients.rows.map Recipient.phoneNumber := by
    intro a f hf hsame
    rw [(touched_rowChanged t.store a f hf hsame).numbers]
    exact List.Subset.refl _
  cases hu with
  | apart h =>
      rw [h.recipients]
      exact List.Subset.refl _
  | @collided a nick ha =>
      exact hchanged a (fun r => { r with nick := nick, nicksrc := nicksrcCollision })
        (fun _ => rfl) fun _ => rfl
  | @moded a ct wa hct =>
      exact hchanged a (fun r => { r with whatsapp := wa }) (fun _ => rfl) fun _ => rfl
  | @renamed a ct user nick src hct huser hfree =>
      exact hchanged a (fun r => { r with nick := nick, nicksrc := src }) (fun _ => rfl)
        fun _ => rfl
  | dropped => exact (List.filter_sublist.map _).subset
  | _ => exact List.Subset.refl _

theorem hasRecipient_of_effects {c r : Prop} {s t : InspLink} (h : Effects c r s t)
    {a : PduAddress} (ha : HasRecipient t.store a) : HasRecipient s.store a := by
  obtain ⟨row, hrow, hnum⟩ := ha
  obtain ⟨row', hrow', heq⟩ := List.mem_map.mp
    (numbers_of_effects h (List.mem_map_of_mem hrow))
  exact ⟨row', hrow', heq.trans hnum⟩

/-- What is needed for the rows that are left. -/
structure Passing (F : Failure → Prop) (rest : List Message) (l : InspLink) : Prop where
  inv : GhostInv l
  blames : Blames F l.store
  rows : ∀ m ∈ l.store.messages.rows, Deliverable m
  readable : ∀ m ∈ rest, Readable m.phoneNumber
  deliverable : ∀ m ∈ rest, Deliverable m
  placed : ∀ m ∈ rest, Placed l.store m.groupTarget
  ids : ∀ m ∈ rest, ∀ r ∈ l.store.messages.rows, r.id = m.id → r = m
  alone : ∀ m ∈ rest, m.csmsData = none → m ∈ l.store.messages.rows
  enough : ¬ Enough rest l → F exhausted

theorem Enough.tail {msg : Message} {rest : List Message} {l t : InspLink} {a : PduAddress}
    (h : Enough (msg :: rest) l) (ha : unNormalizeAddress msg.phoneNumber = some a)
    (hcount : Counted l a t)
    (hcontacts : ∀ b, t.contacts.lookup b = none → l.contacts.lookup b = none)
    (hrec : ∀ b, HasRecipient t.store b → HasRecipient l.store b) : Enough rest t := by
  intro nums hnodup hnew
  have hold : ∀ num ∈ nums, Newcomer (msg :: rest) l num := by
    intro num hnum
    obtain ⟨⟨m, hm, hphone⟩, b, hb, hnone, hb'⟩ := hnew num hnum
    exact ⟨⟨m, by simp [hm], hphone⟩, b, hb, hcontacts b hnone, hrec b hb'⟩
  rcases hcount with hsame | ⟨hnext, hnone, hrec, hsome⟩
  · rw [hsame]
    exact h nums hnodup hold
  · have hfresh : msg.phoneNumber ∉ nums := by
      intro hmem
      obtain ⟨-, b, hb, hnone', -⟩ := hnew _ hmem
      rw [ha, Option.some.injEq] at hb
      rw [hb, hnone'] at hsome
      cases hsome
    have hle := h (msg.phoneNumber :: nums) (List.nodup_cons.mpr ⟨hfresh, hnodup⟩)
      (List.forall_mem_cons.mpr ⟨⟨⟨msg, by simp, rfl⟩, a, ha, hnone, hrec⟩, hold⟩)
    rw [List.length_cons] at hle
    omega

theorem fails_processMessage {auid : Str} {msg : Message} {rest : List Message} {l : InspLink}
    (h : Passing F (msg :: rest) l) {a : PduAddress}
    (hread : ReadsBack a) (hphone : msg.phoneNumber = normalizeAddress a) :
    wp (processMessage auid msg) (fun _ t => Counted l a t) (fun e _ => F e) l := by
  have hid : l.contacts.lookup a = none → HasRecipient l.store a → 99999 < l.nextUserId →
      F exhausted := by
    intro hnone hrec hlt
    refine h.enough fun henough => ?_
    have hle := henough [msg.phoneNumber] (List.nodup_singleton _) fun num hnum => by
      rw [List.mem_singleton.mp hnum, hphone]
      exact ⟨⟨msg, by simp, hphone⟩, a, hread, hnone, hrec⟩
    rw [List.length_singleton] at hle
    omega
  rw [processMessage, Message.getAddr, getAddr_ok hread hphone, wp_bind, wp_pure, wp_bind]
  refine wp_mono (wp_both (wp_both (wp_both (fails_contactReady h.blames h.inv hread msg.source hid)
    (wp_contactReady h.inv hread msg.source)) (wp_contactReady_idle a msg.source l))
    (effects_contactReady (c := False) (r := False) a msg.source l)) ?_ fun _ _ he => he
  rintro ready t ⟨⟨⟨hcount, ht, hready⟩, hidle, -⟩, heffects⟩
  have hdown := dbDown_of_effects heffects
  rw [wp_when]
  split
  swap
  · exact hcount
  rename_i hr
  obtain ⟨ct, hct⟩ := Option.isSome_iff_exists.mp (hready hr)
  have hcounted : ∀ u, Quiet t u → Counted l a u := by
    intro u hu
    rcases hcount with hsame | ⟨hnext, hnone, hrec, hsome⟩
    · exact .inl (hu.nextUserId.trans hsame)
    · refine .inr ⟨hu.nextUserId.trans hnext, hnone, hrec, ?_⟩
      rw [hu.contact_isSome]
      exact hsome
  have hswitch : ∀ wa, wp (switchMode a auid ct wa)
      (fun _ u => Speaking F ct.uuid msg.groupTarget u ∧
        u.store.messages = l.store.messages ∧ Quiet t u) (fun e _ => F e) t := by
    intro wa
    refine wp_mono (wp_both (wp_both (fails_switchMode (blames_of_eq h.blames hdown) ht hct auid wa)
      (quiet_switchMode (by rw [hct]; rfl))) (idle_switchMode a auid ct wa t)) ?_ fun _ _ he => he
    rintro _ u ⟨⟨hdown', hquiet⟩, hidle'⟩
    have hgroups : u.store.groups = l.store.groups := hidle'.groups.trans hidle.groups
    refine ⟨⟨owned_of_quiet hquiet (owned_of_contact ht hct),
      blames_of_eq h.blames (hdown'.trans hdown), fun g hg => ?_⟩,
      hidle'.messages.trans hidle.messages, hquiet⟩
    rw [hgroups]
    exact h.placed msg (by simp) g hg
  have hdone : ∀ {p : LinkM Unit} {u : InspLink}, wp p (fun _ _ => True) (fun e _ => F e) u →
      Steps Quiet Ordinary p → Quiet t u →
        wp p (fun _ v => Counted l a v) (fun e _ => F e) u := by
    intro p u hp hquiet htu
    exact wp_mono (wp_both hp (hquiet.after htu)) (fun _ v hv => hcounted v hv.2)
      fun _ _ he => he
  rw [wp_bind, wp_get, wp_bind, hct, wp_unwrap_some]
  rcases h.deliverable msg (by simp) with ⟨hraw, hnone, body, htext⟩ |
    ⟨addr, raw, hraw, pdu, hpdu, -, hfiled⟩
  · rw [hraw]
    dsimp only
    rw [wp_bind]
    refine wp_mono (hswitch true) ?_ fun _ _ he => he
    rintro _ u ⟨hu, hsame, hquiet⟩
    refine hdone (fails_processMsgPlain hu ?_ htext)
      (senderSteps_quiet.processMsgPlain _ _) hquiet
    rw [hsame]
    exact h.alone msg (by simp) hnone
  · rw [hraw]
    dsimp only
    rw [hpdu]
    dsimp only
    rw [wp_bind]
    refine wp_mono (hswitch false) ?_ fun _ _ he => he
    rintro _ u ⟨hu, hsame, hquiet⟩
    refine hdone (fails_processMsgPdu hu ?_ fun hnone => ?_)
      (senderSteps_quiet.processMsgPdu _ _ _) hquiet
    · rw [hsame]
      exact h.rows
    · rw [hsame]
      exact h.alone msg (by simp) (hfiled.trans hnone)

theorem Passing.tail {msg : Message} {rest : List Message} {l t : InspLink} {a : PduAddress}
    {ds : List Deed} (h : Passing F (msg :: rest) l) (hnodup : (msg :: rest).Nodup)
    (ha : unNormalizeAddress msg.phoneNumber = some a) (ht : GhostInv t)
    (hcount : Counted l a t) (heffects : Effects False False l t) (hds : Handled msg l t ds) :
    Passing F rest t where
  inv := ht
  blames := blames_of_eq h.blames (dbDown_of_effects heffects)
  rows m hm := by
    rw [hds.1.left] at hm
    exact h.rows m (List.mem_of_mem_filter hm)
  readable m hm := h.readable m (by simp [hm])
  deliverable m hm := h.deliverable m (by simp [hm])
  placed m hm g hg := by
    rw [hds.1.steady.groups]
    exact h.placed m (by simp [hm]) g hg
  ids m hm r hr := by
    rw [hds.1.left] at hr
    exact h.ids m (by simp [hm]) r (List.mem_of_mem_filter hr)
  alone m hm hnone := by
    rw [hds.1.left, List.mem_filter, decide_eq_true_iff]
    refine ⟨h.alone m (by simp [hm]) hnone, fun hmem => ?_⟩
    rcases hds.2 with ⟨d, rfl, hmeant, -⟩ | ⟨rfl, -⟩
    · rw [List.flatMap_singleton] at hmem
      cases d with
      | alone nick text dest row =>
          rw [Deed.rows, List.mem_singleton, hmeant.1] at hmem
          exact (List.nodup_cons.mp hnodup).1 (hmem ▸ hm)
      | joined nick text dest target parts =>
          obtain ⟨-, d, cd, -, -, hperm, -⟩ := hmeant
          have hfiled := (List.mem_filter.mp (hperm.subset hmem)).2
          rw [hnone] at hfiled
          simp at hfiled
      | reported nick err => exact List.not_mem_nil hmem
    · exact List.not_mem_nil hmem
  enough hnot := by
    refine h.enough fun henough => hnot (henough.tail ha hcount (fun b hb => ?_) fun b hb => ?_)
    · rw [Option.eq_none_iff_forall_ne_some]
      intro ct hct
      obtain ⟨ct', hct', -⟩ := hds.1.steady.contacts b ct hct
      rw [hb] at hct'
      cases hct'
    · exact hasRecipient_of_effects heffects hb

theorem fails_processRows {auid : Str} (msgs : List Message) {l : InspLink}
    (h : Passing F msgs l) (hnodup : msgs.Nodup) :
    wp (forM msgs (processMessage auid)) (fun _ _ => True) (fun e _ => F e) l := by
  induction msgs generalizing l with
  | nil => trivial
  | cons msg rest ih =>
      obtain ⟨a, hread, hphone⟩ := h.readable msg (by simp)
      rw [List.forM_cons, wp_bind]
      refine wp_mono (wp_both (wp_both (wp_both (fails_processMessage h hread hphone)
        (wp_processMessage h.inv auid ⟨a, hread, hphone⟩))
        (wp_processMessage_deed (h.ids msg (by simp))))
        (effects_processMessage (c := False) (r := False) auid msg l)) ?_ fun _ _ he => he
      rintro _ t ⟨⟨⟨hcount, ht⟩, ds, hds⟩, heffects⟩
      refine ih (h.tail hnodup ?_ ht hcount heffects hds) (List.nodup_cons.mp hnodup).2
      rw [hphone]
      exact hread

/-- Every failure of `process_messages` is allowed by `F`, if those of the database and the
lack of UUIDs are. -/
theorem fails_processMessages {l : InspLink} (hinv : GhostInv l) (hfiled : Filed l.store)
    (hdb : Blames F l.store) (hids : ¬ Enough l.store.messages.rows l → F exhausted) :
    wp processMessages (fun _ _ => True) (fun e _ => F e) l := by
  rw [processMessages, wp_bind, wp_get]
  cases adminUuid l with
  | none => trivial
  | some auid =>
      dsimp only
      rw [wp_bind]
      refine fails_store (fails_query hdb ?_)
      have htick : Quiet l { l with store := l.store.tick } :=
        ⟨rfl, rfl, rfl, rfl, fun _ => rfl, rfl, fun _ hu => hu,
          storeQuiet_of_rows rfl fun _ h => h⟩
      have hmem : ∀ m ∈ snapshot l, m ∈ l.store.messages.rows := fun m => mem_snapshot.mp
      refine fails_processRows (snapshot l)
        { inv := ghostInv_of_quiet _ _ hinv htick
          blames := hdb
          rows := hfiled.deliverable
          readable := fun m hm => hinv.known.messages m (hmem m hm)
          deliverable := fun m hm => hfiled.deliverable m (hmem m hm)
          placed := fun m hm => hfiled.placed m (hmem m hm)
          ids := fun m hm r hr hid => l.store.messages.eq_of_key_eq hr (hmem m hm) hid
          alone := fun m hm _ => hmem m hm
          enough := fun hnot => hids fun henough => hnot fun nums hnums hnew => ?_ } ?_
      · refine henough nums hnums fun num hnum => ?_
        obtain ⟨⟨m, hm, hphone⟩, hrest⟩ := hnew num hnum
        exact ⟨⟨m, hmem m hm, hphone⟩, hrest⟩
      · exact (List.perm_insertionSort sentBefore _).nodup_iff.mpr l.store.messages.rows_nodup

end Pass

end Failures

end SmsIrc.LinkFailures
