import SmsIrc.WhatsappFrame

/-!
No message is forgotten by the tracker: what has been accepted is tracked until it
expires, and what was queued is sent when a session is established.
-/

namespace SmsIrc.WhatsappTracker

open SmsIrc.Comm SmsIrc.Database SmsIrc.External SmsIrc.HashMaps SmsIrc.Models SmsIrc.Program
open SmsIrc.SenderCommon SmsIrc.SerialTable SmsIrc.Text SmsIrc.Transition SmsIrc.Util
open SmsIrc.WaAck SmsIrc.WaConn SmsIrc.Whatsapp SmsIrc.WhatsappFrame SmsIrc.WhatsappMsg
open SmsIrc.WhatsappRuns

/-- Where an entry is to go, and what it says. -/
def parcel (mss : MessageSendStatus) : Jid × ChatMessageContent := (mss.destination, mss.content)

/-- The message of a request to send one. -/
def sentMessage : WaRequest → Option WaMessage
  | .sendMessage msg => some msg
  | _ => none

def sends (reqs : List WaRequest) : List WaMessage := reqs.filterMap sentMessage

section Tracker

variable [Crates]

/-- The messages that are tracked. -/
def tracked (m : WhatsappManager) : List (Jid × ChatMessageContent) :=
  (pairs m.ackp.outgoingMessages).map fun e => parcel e.2

/-- The tracker accounts for all messages but `xs`. -/
structure Owing (xs : List (Jid × ChatMessageContent)) (m : WhatsappManager) : Prop where
  up : Up m.msgproc.store
  conserved : m.accepted.Perm (xs ++ tracked m ++ m.expired.map parcel)
  acked : ∀ mss ∈ m.expired, ∃ level, mss.ackLevel = some level ∧ level ≠ .pendingSend
  unsent : ∀ mid mss, m.ackp.outgoingMessages.lookup mid = some mss →
    (mss.isUnsent = true ↔ ∀ msg ∈ sends m.requested, msg.id ≠ mid)
  injective : ∀ i j, m.generated i = m.generated j → i = j
  keys : ∀ mid ∈ m.ackp.outgoingMessages, ∃ n < m.generations, mid = m.generated n
  sent : ∀ msg ∈ sends m.requested, ∃ n < m.generations, msg.id = m.generated n

/-- The tracker is left alone. -/
structure Untracked (s t : WhatsappManager) : Prop where
  dbDown : t.msgproc.store.dbDown = s.msgproc.store.dbDown
  ackp : t.ackp = s.ackp
  accepted : t.accepted = s.accepted
  expired : t.expired = s.expired
  sends : sends t.requested = sends s.requested
  generated : t.generated = s.generated
  generations : t.generations = s.generations

instance : IsPreorder WhatsappManager Untracked where
  refl _ := ⟨rfl, rfl, rfl, rfl, rfl, rfl, rfl⟩
  trans _ _ _ h h' := ⟨h'.dbDown.trans h.dbDown, h'.ackp.trans h.ackp,
    h'.accepted.trans h.accepted, h'.expired.trans h.expired, h'.sends.trans h.sends,
    h'.generated.trans h.generated, h'.generations.trans h.generations⟩

theorem Owing.of_untracked {xs : List (Jid × ChatMessageContent)} {s t : WhatsappManager}
    (hs : Owing xs s) (h : Untracked s t) : Owing xs t where
  up n := by
    rw [h.dbDown]
    exact hs.up n
  conserved := by
    rw [h.accepted, h.expired, tracked, h.ackp]
    exact hs.conserved
  acked := by
    rw [h.expired]
    exact hs.acked
  unsent := by
    rw [h.ackp, h.sends]
    exact hs.unsent
  injective := by
    rw [h.generated]
    exact hs.injective
  keys := by
    rw [h.ackp, h.generated, h.generations]
    exact hs.keys
  sent := by
    rw [h.sends, h.generated, h.generations]
    exact hs.sent

/-- Which queries fail does not change. -/
def SameDown (st st' : Store) : Prop := st'.dbDown = st.dbDown

instance : IsPreorder Store SameDown where
  refl _ := rfl
  trans _ _ _ h h' := Eq.trans h' h

theorem sameDown_query {α : Type} (f : Store → α) : Moves SameDown (query f) :=
  fun _ => wp_query_of ⟨rfl, trivial⟩ rfl

theorem sameDown_execute {f : Store → Store} (hf : ∀ st, (f st).dbDown = st.dbDown) :
    Moves SameDown (execute f) :=
  Steps.bind (sameDown_query _) fun _ => steps_modify hf

theorem sameDown_insertRecipient (addr : PduAddress) (row : Nat → Recipient)
    (hrow : ∀ n, (row n).id = n) : Moves SameDown (insertRecipient addr row hrow) := by
  refine Steps.bind (sameDown_query _) fun taken => ?_
  split
  · exact steps_throw trivial
  · exact steps_get_bind fun _ => rfl

theorem sameDown_storeGroup (jid : Jid) (chan : Str) (parts adms : List Nat) (topic : Str) :
    Moves SameDown (storeGroup jid chan parts adms topic) := by
  refine Steps.bind (sameDown_query _) fun taken => ?_
  split
  · exact steps_throw trivial
  · exact steps_get_bind fun _ => rfl

theorem sameDown_updateGroup (jid : Jid) (parts adms : List Nat) (topic : Str) :
    Moves SameDown (updateGroup jid parts adms topic) := by
  refine Steps.bind (sameDown_execute fun _ => rfl) fun _ => Steps.bind steps_get fun st => ?_
  split
  · exact steps_pure _
  · exact steps_throw trivial

theorem sameDown_checked {p : Store → Bool} {f : Store → Store} {e : Failure}
    (hf : ∀ st, (f st).dbDown = st.dbDown) :
    Moves SameDown (do
      let present ← query p
      if present then modify f else throw e) := by
  refine Steps.bind (sameDown_query _) fun present => ?_
  split
  · exact steps_modify hf
  · exact steps_throw trivial

theorem sameDown_otherOp (op : OtherOp) : Moves SameDown op.run := by
  cases op with
  | smsMessage addr pdu csmsData => exact sameDown_execute fun _ => rfl
  | recipient addr nick => exact Steps.bind (sameDown_insertRecipient _ _ _) fun _ => steps_pure _
  | recipientNick addr nick src => exact sameDown_execute fun _ => rfl
  | recipientWa addr wa => exact sameDown_execute fun _ => rfl
  | dropRecipient addr => exact sameDown_checked fun _ => rfl
  | deleteMessage id => exact sameDown_checked fun _ => rfl

theorem untracked_store {α : Type} {p : StoreM α} (hp : Moves SameDown p) :
    Moves Untracked (store p : WaM α) :=
  moves_store hp fun _ _ h => ⟨h, rfl, rfl, rfl, rfl, rfl, rfl⟩

theorem untracked_pushBack {r : WaRequest} (hr : sentMessage r = none) :
    Moves Untracked (pushBack r) := by
  refine steps_modify fun m => ⟨rfl, rfl, rfl, rfl, ?_, rfl, rfl⟩
  simp [WhatsappTracker.sends, hr]

theorem processing_sameDown :
    Processing fun p q : WaMessageProcessor => SameDown p.store q.store where
  query f := Steps.zoom (sameDown_query f) fun _ _ h => h
  contactFiles _ _ := rfl
  downloads _ _ := rfl

instance : IsPreorder WaMessageProcessor fun p q => SameDown p.store q.store where
  refl _ := rfl
  trans _ _ _ h h' := Eq.trans h' h

theorem bridging_untracked : Bridging Untracked where
  query f := untracked_store (sameDown_query f)
  newRecipient _ _ _ _ _ := untracked_store (sameDown_insertRecipient _ _ _)
  cf _ _ := steps_modify fun _ => ⟨rfl, rfl, rfl, rfl, rfl, rfl, rfl⟩
  newGroup _ _ _ := untracked_store (sameDown_storeGroup _ _ _ _ _)
  cb _ _ := ⟨rfl, rfl, rfl, rfl, rfl, rfl, rfl⟩
  metadata _ := untracked_pushBack rfl

theorem receiving_untracked : Receiving Untracked where
  toBridging := bridging_untracked
  insert _ _ _ _ := untracked_store (sameDown_checked fun _ => rfl)
  updated grp := bridging_untracked.updateFromMetadata grp fun _ _ _ _ =>
    untracked_store (sameDown_updateGroup _ _ _ _)
  subscribe _ := untracked_pushBack rfl
  conn _ _ := ⟨rfl, rfl, rfl, rfl, rfl, rfl, rfl⟩
  session _ _ _ := ⟨rfl, rfl, rfl, rfl, rfl, rfl, rfl⟩
  chats _ _ := ⟨rfl, rfl, rfl, rfl, rfl, rfl, rfl⟩
  contacts _ _ := ⟨rfl, rfl, rfl, rfl, rfl, rfl, rfl⟩
  ntf _ _ := untracked_store (sameDown_execute fun _ => rfl)
  rename _ _ _ _ := steps_modify fun _ => ⟨rfl, rfl, rfl, rfl, rfl, rfl, rfl⟩
  msgid _ := untracked_store (sameDown_execute fun _ => rfl)
  read _ _ := untracked_pushBack rfl
  process inc := Steps.zoom (processing_sameDown.processWaIncoming inc)
    fun _ _ h => ⟨h, rfl, rfl, rfl, rfl, rfl, rfl⟩

/-- A message has been entered in the tracker, and sent if it is not unsent. -/
structure Registered (dest : Jid) (content : ChatMessageContent) (isUnsent : Bool)
    (s t : WhatsappManager) : Prop where
  dbDown : t.msgproc.store.dbDown = s.msgproc.store.dbDown
  ackp : t.ackp =
    s.ackp.registerSend s.now dest content (s.generated s.generations) isUnsent
  accepted : t.accepted = s.accepted
  expired : t.expired = s.expired
  sends : sends t.requested = sends s.requested ++
    if isUnsent then [] else [newMessage dest content (s.generated s.generations) s.now]
  generated : t.generated = s.generated
  generations : t.generations = s.generations + 1
  now : t.now = s.now

theorem wp_queueMessage (content : ChatMessageContent) (jid : Jid) (m : WhatsappManager) :
    wp (queueMessage content jid) (fun _ t => Registered jid content true m t)
      (fun _ _ => False) m := by
  simp only [queueMessage, generateId, registerSend, cbSend, wp_bind, wp_get, wp_set, wp_pure,
    wp_modify, wp_when]
  split
  · exact ⟨rfl, rfl, rfl, rfl, by simp, rfl, rfl, rfl⟩
  · exact ⟨rfl, rfl, rfl, rfl, by simp, rfl, rfl, rfl⟩

omit [Crates] in
theorem sends_append (reqs reqs' : List WaRequest) :
    sends (reqs ++ reqs') = sends reqs ++ sends reqs' := List.filterMap_append

theorem wp_subscribePresenceOf (jid : Jid) (m : WhatsappManager) :
    wp (subscribePresenceOf jid) (fun _ t => Untracked m t ∧ t.now = m.now)
      (fun _ _ => False) m := by
  simp only [subscribePresenceOf, pushBack, wp_bind, wp_get, wp_modify, wp_when]
  split
  · refine ⟨⟨rfl, rfl, rfl, rfl, ?_, rfl, rfl⟩, trivial⟩
    rw [sends_append]
    exact List.append_nil _
  · exact ⟨Std.Refl.refl (r := Untracked) m, trivial⟩

theorem wp_sendMessage (content : ChatMessageContent) (jid : Jid) {m : WhatsappManager}
    (hm : Up m.msgproc.store) :
    wp (sendMessage content jid) (fun _ t => Registered jid content false m t)
      (fun _ _ => False) m := by
  rw [sendMessage, wp_bind]
  simp only [generateId, wp_bind, wp_get, wp_set, wp_pure]
  rw [wp_store, storeWaMsgid, execute, wp_bind, hm.wp_query, wp_modify]
  simp only [registerSend, pushBack, wp_modify]
  refine wp_mono (wp_subscribePresenceOf jid _) ?_ fun _ _ h => h
  rintro _ t ⟨ht, hnow⟩
  refine ⟨ht.dbDown, ht.ackp, ht.accepted, ht.expired, ?_, ht.generated, ht.generations, hnow⟩
  rw [ht.sends, sends_append]
  rfl

theorem fresh_notMem {xs : List (Jid × ChatMessageContent)} {m : WhatsappManager}
    (hm : Owing xs m) : m.generated m.generations ∉ m.ackp.outgoingMessages := by
  intro h
  obtain ⟨n, hn, heq⟩ := hm.keys _ h
  have := hm.injective _ _ heq
  omega

theorem pairs_registerSend {xs : List (Jid × ChatMessageContent)} {m : WhatsappManager}
    (hm : Owing xs m) (dest : Jid) (content : ChatMessageContent) (isUnsent : Bool) :
    pairs (m.ackp.registerSend m.now dest content (m.generated m.generations)
      isUnsent).outgoingMessages =
        (m.generated m.generations, ⟨none, m.now, content, dest, isUnsent, false, false⟩) ::
          pairs m.ackp.outgoingMessages := by
  rw [WaAckTracker.registerSend, pairs_insert, pairs_erase_of_notMem (fresh_notMem hm)]

theorem Owing.of_registered {xs : List (Jid × ChatMessageContent)} {s t : WhatsappManager}
    {dest : Jid} {content : ChatMessageContent} {isUnsent : Bool}
    (hs : Owing ((dest, content) :: xs) s) (h : Registered dest content isUnsent s t) :
    Owing xs t where
  up n := by
    rw [h.dbDown]
    exact hs.up n
  conserved := by
    have htracked : tracked t = (dest, content) :: tracked s := by
      rw [tracked, h.ackp, pairs_registerSend hs]
      rfl
    rw [h.accepted, h.expired, htracked]
    apply hs.conserved.trans
    rw [List.append_assoc, List.append_assoc, List.cons_append, List.cons_append]
    exact List.perm_middle.symm
  acked := by
    rw [h.expired]
    exact hs.acked
  unsent mid mss hmss := by
    have hfresh : ∀ msg ∈ sends s.requested, msg.id ≠ s.generated s.generations := by
      intro msg hmsg heq
      obtain ⟨n, hn, hid⟩ := hs.sent msg hmsg
      have := hs.injective _ _ (heq.symm.trans hid)
      omega
    rw [h.ackp, WaAckTracker.registerSend, lookup_insert] at hmss
    rw [h.sends]
    split at hmss
    · rename_i hmid
      cases hmss
      subst hmid
      cases isUnsent with
      | true => simpa using hfresh
      | false => simp [newMessage]
    · rename_i hmid
      rw [hs.unsent mid mss hmss]
      cases isUnsent with
      | true => simp
      | false =>
          have hne : s.generated s.generations ≠ mid := fun heq => hmid heq.symm
          simp [newMessage, or_imp, forall_and, hne]
  injective := by
    rw [h.generated]
    exact hs.injective
  keys mid hmid := by
    rw [h.ackp, WaAckTracker.registerSend, AList.mem_insert] at hmid
    rw [h.generated, h.generations]
    rcases hmid with rfl | hmid
    · exact ⟨s.generations, by omega, rfl⟩
    · obtain ⟨n, hn, heq⟩ := hs.keys mid hmid
      exact ⟨n, by omega, heq⟩
  sent msg hmsg := by
    rw [h.sends] at hmsg
    rw [h.generated, h.generations]
    rcases List.mem_append.mp hmsg with hmsg | hmsg
    · obtain ⟨n, hn, heq⟩ := hs.sent msg hmsg
      exact ⟨n, by omega, heq⟩
    · split at hmsg
      · cases hmsg
      · rw [List.mem_singleton.mp hmsg]
        exact ⟨s.generations, by omega, rfl⟩

/-- A message is accepted. -/
def accepting (m : WhatsappManager) (jid : Jid) (content : ChatMessageContent) :
    WhatsappManager := { m with accepted := m.accepted ++ [(jid, content)] }

theorem Owing.of_accepting {m : WhatsappManager} (hm : Owing [] m) (jid : Jid)
    (content : ChatMessageContent) : Owing [(jid, content)] (accepting m jid content) where
  up := hm.up
  conserved := by
    apply (hm.conserved.append_right [(jid, content)]).trans
    exact List.perm_append_comm
  acked := hm.acked
  unsent := hm.unsent
  injective := hm.injective
  keys := hm.keys
  sent := hm.sent

/-- A step has accepted a message, and sent or queued it. -/
def Accepts (jid : Jid) (content : ChatMessageContent) (s t : WhatsappManager) : Prop :=
  Registered jid content (!online s) (accepting s jid content) t

theorem Accepts.after {jid : Jid} {content : ChatMessageContent} {s t u : WhatsappManager}
    (h : Accepts jid content t u) (hst : Untracked s t) (honline : online t = online s)
    (hnow : t.now = s.now) : Accepts jid content s u := by
  unfold Accepts at h ⊢
  rw [honline] at h
  refine ⟨h.dbDown.trans hst.dbDown, ?_, ?_, h.expired.trans hst.expired, ?_,
    h.generated.trans hst.generated, ?_, h.now.trans hnow⟩
  · rw [h.ackp]
    simp only [accepting, hst.ackp, hst.generated, hst.generations, hnow]
  · rw [h.accepted]
    simp only [accepting, hst.accepted]
  · rw [h.sends]
    simp only [accepting, hst.sends, hst.generated, hst.generations, hnow]
  · rw [h.generations]
    simp only [accepting, hst.generations]

theorem wp_acceptMessage (content : ChatMessageContent) (jid : Jid) {m : WhatsappManager}
    (hm : Up m.msgproc.store) :
    wp (acceptMessage content jid) (fun _ t => Accepts jid content m t) (fun _ _ => False)
      m := by
  rw [acceptMessage, wp_bind, wp_get, wp_bind, wp_set]
  unfold Accepts
  cases honline : online m with
  | true => exact wp_sendMessage content jid hm
  | false => exact wp_queueMessage content jid _

theorem wp_sendDirectMessage (addr : PduAddress) (content : Str) {m : WhatsappManager}
    (hm : Up m.msgproc.store) :
    wp (sendDirectMessage addr content)
      (fun _ t => Untracked m t ∨ ∃ jid content, Accepts jid content m t)
      (fun _ t => Untracked m t) m := by
  unfold sendDirectMessage
  split
  · refine wp_mono (wp_acceptMessage _ _ hm) ?_ fun _ _ h => h.elim
    exact fun _ _ h => .inr ⟨_, _, h⟩
  · exact .inl ⟨rfl, rfl, rfl, rfl, rfl, rfl, rfl⟩

theorem wp_sendGroupMessage (chan content : Str) {m : WhatsappManager}
    (hm : Up m.msgproc.store) :
    wp (sendGroupMessage chan content)
      (fun _ t => Untracked m t ∨ ∃ jid content, Accepts jid content m t)
      (fun _ t => Untracked m t) m := by
  have hticked : Untracked m (setStore m m.msgproc.store.tick) :=
    ⟨rfl, rfl, rfl, rfl, rfl, rfl, rfl⟩
  rw [sendGroupMessage, wp_bind, wp_store, getGroupByChanOpt, hm.wp_query]
  split
  · rename_i grp _
    cases Crates.parseJid grp.jid with
    | none => exact hticked
    | some jid =>
        rw [wp_bind, wp_unwrap_some]
        refine wp_mono (wp_acceptMessage _ _ hm) ?_ fun _ _ h => h.elim
        exact fun _ _ h => .inr ⟨_, _, Accepts.after h hticked rfl rfl⟩
  · exact .inl hticked

theorem Owing.of_ack {xs : List (Jid × ChatMessageContent)} {m : WhatsappManager}
    (hm : Owing xs m) (ack : MessageAck) (cb : List ControlBotCommand) :
    Owing xs { m with ackp := (m.ackp.onMessageAck ack).1, cbTx := cb } := by
  unfold WaAckTracker.onMessageAck
  split
  · rename_i mss hmss
    have hperm : ((pairs (m.ackp.outgoingMessages.insert ack.id
        { mss with ackLevel := some ack.level })).map fun e => parcel e.2).Perm (tracked m) := by
      rw [pairs_insert, List.map_cons]
      exact ((pairs_perm_of_lookup hmss).map fun e => parcel e.2).symm
    refine ⟨hm.up, ?_, hm.acked, ?_, hm.injective, ?_, hm.sent⟩
    · exact hm.conserved.trans ((List.Perm.append_left xs hperm.symm).append_right _)
    · intro mid mss' hmss'
      rw [lookup_insert] at hmss'
      split at hmss'
      · rename_i hmid
        cases hmss'
        subst hmid
        exact hm.unsent ack.id mss hmss
      · exact hm.unsent mid mss' hmss'
    · intro mid hmid
      rw [AList.mem_insert] at hmid
      rcases hmid with rfl | hmid
      · exact hm.keys _ (mem_iff_lookup.mpr ⟨mss, hmss⟩)
      · exact hm.keys mid hmid
  · exact ⟨hm.up, hm.conserved, hm.acked, hm.unsent, hm.injective, hm.keys, hm.sent⟩

omit [Crates] in
theorem acked_of_not_retained {a : WaAckTracker} {now : NaiveDateTime} {mss : MessageSendStatus}
    (h : a.retained now mss = false) :
    ∃ level, mss.ackLevel = some level ∧ level ≠ .pendingSend := by
  unfold WaAckTracker.retained at h
  split at h
  · cases h
  · cases h
  · rename_i level hne hlevel
    exact ⟨level, hlevel, hne⟩

theorem lookup_checked {a : WaAckTracker} {now : NaiveDateTime} {mid : Str}
    {mss' : MessageSendStatus} (h : (a.checkAcks now).1.outgoingMessages.lookup mid = some mss') :
    ∃ mss, a.outgoingMessages.lookup mid = some mss ∧ mss' = a.checkEntry now mss := by
  obtain ⟨hlookup, -⟩ := lookup_retain_eq_some.mp h
  rw [lookup_mapValues, Option.map_eq_some_iff] at hlookup
  obtain ⟨mss, hmss, rfl⟩ := hlookup
  exact ⟨mss, hmss, rfl⟩

theorem Owing.of_check {xs : List (Jid × ChatMessageContent)} {m : WhatsappManager}
    (hm : Owing xs m) : Owing xs (exec checkAcks m).2 where
  up := hm.up
  conserved := by
    have htracked : tracked (exec checkAcks m).2 =
        (((pairs m.ackp.outgoingMessages).map Prod.snd).filter fun mss =>
          m.ackp.retained m.now mss).map parcel := by
      change (pairs (retain _ (mapValues _ _))).map _ = _
      rw [pairs_retain, pairs_mapValues, List.filter_map, List.map_map, List.filter_map,
        List.map_map]
      rfl
    have hexpired : (exec checkAcks m).2.expired = m.expired ++
        ((pairs m.ackp.outgoingMessages).map Prod.snd).filter fun mss =>
          !m.ackp.retained m.now mss := rfl
    have hall : tracked m = ((pairs m.ackp.outgoingMessages).map Prod.snd).map parcel := by
      rw [tracked, List.map_map]
      rfl
    have hsplit := (List.filter_append_perm (fun mss => m.ackp.retained m.now mss)
      ((pairs m.ackp.outgoingMessages).map Prod.snd)).map parcel
    rw [htracked, hexpired, List.map_append]
    apply hm.conserved.trans
    rw [hall, List.append_assoc, List.append_assoc]
    apply List.Perm.append_left xs
    rw [List.map_append] at hsplit
    apply (hsplit.symm.append_right _).trans
    rw [List.append_assoc]
    exact List.Perm.append_left _ List.perm_append_comm
  acked mss hmss := by
    rcases List.mem_append.mp hmss with hmss | hmss
    · exact hm.acked mss hmss
    · exact acked_of_not_retained (by simpa using (List.mem_filter.mp hmss).2)
  unsent mid mss' hmss' := by
    obtain ⟨mss, hmss, rfl⟩ := lookup_checked hmss'
    exact hm.unsent mid mss hmss
  injective := hm.injective
  keys mid hmid := by
    obtain ⟨mss', hmss'⟩ := mem_iff_lookup.mp hmid
    obtain ⟨mss, hmss, -⟩ := lookup_checked hmss'
    exact hm.keys mid (mem_iff_lookup.mpr ⟨mss, hmss⟩)
  sent := hm.sent

/-- The messages that have not been sent, in the order in which they will be, with
the ids under which they are queued. -/
def waiting (m : WhatsappManager) : List (Str × MessageSendStatus) :=
  (Crates.hashOrder.run (pairs m.ackp.outgoingMessages)).filter fun e => e.2.isUnsent

/-- The same, when the map is iterated in another order. -/
def waitingIn (o : Shuffle) (m : WhatsappManager) : List (Str × MessageSendStatus) :=
  (o.run (pairs m.ackp.outgoingMessages)).filter fun e => e.2.isUnsent

theorem nodup_waiting (m : WhatsappManager) : ((waiting m).map Prod.fst).Nodup := by
  have hperm := (Crates.hashOrder.perm (pairs m.ackp.outgoingMessages)).map Prod.fst
  exact (hperm.nodup_iff.mpr (nodup_keys_pairs _)).sublist (List.filter_sublist.map Prod.fst)

theorem mem_waiting {m : WhatsappManager} {mid : Str} {mss : MessageSendStatus} :
    (mid, mss) ∈ waiting m ↔
      m.ackp.outgoingMessages.lookup mid = some mss ∧ mss.isUnsent = true := by
  rw [waiting, List.mem_filter, Crates.hashOrder.mem_run, mem_pairs]

/-- Where a message that has been sent went, and what it says. -/
def sentAs (msg : WaMessage) : Direction × ChatMessageContent := (msg.direction, msg.content)

/-- The same of a message that is to be sent. -/
def toSend (mss : MessageSendStatus) : Direction × ChatMessageContent :=
  (.sending mss.destination, mss.content)

theorem Owing.of_extracted {m : WhatsappManager} (hm : Owing [] m) (o : Shuffle) :
    Owing ((waitingIn o m).map fun e => parcel e.2) { m with ackp := m.ackp.extractUnsent.2 } where
  up := hm.up
  conserved := by
    have htracked : tracked { m with ackp := m.ackp.extractUnsent.2 } =
        ((pairs m.ackp.outgoingMessages).filter fun e => !e.2.isUnsent).map
          fun e => parcel e.2 := by
      rw [tracked]
      change (pairs (retain _ _)).map _ = _
      rw [pairs_retain]
    have hwaiting : ((waitingIn o m).map fun e => parcel e.2).Perm
        (((pairs m.ackp.outgoingMessages).filter fun e => e.2.isUnsent).map
          fun e => parcel e.2) :=
      ((o.perm (pairs m.ackp.outgoingMessages)).filter _).map _
    have hsplit := (List.filter_append_perm (fun e : Str × MessageSendStatus => e.2.isUnsent)
      (pairs m.ackp.outgoingMessages)).map fun e => parcel e.2
    rw [List.map_append] at hsplit
    rw [htracked]
    apply hm.conserved.trans
    exact (hsplit.symm.trans (hwaiting.symm.append_right _)).append_right _
  acked := hm.acked
  unsent mid mss hmss := hm.unsent mid mss (lookup_retain_eq_some.mp hmss).1
  injective := hm.injective
  keys mid hmid := by
    obtain ⟨mss, hmss, -⟩ := mem_retain.mp hmid
    exact hm.keys mid (mem_iff_lookup.mpr ⟨mss, hmss⟩)
  sent := hm.sent

/-- Some messages have been sent, one after another. -/
structure Resent (xs : List MessageSendStatus) (s t : WhatsappManager) : Prop where
  owing : ∀ ys, Owing (xs.map parcel ++ ys) s → Owing ys t
  up : Up s.msgproc.store → Up t.msgproc.store
  sends : ∃ msgs, sends t.requested = sends s.requested ++ msgs ∧ msgs.map sentAs = xs.map toSend
  accepted : t.accepted = s.accepted

theorem wp_resend (xs : List MessageSendStatus) {m : WhatsappManager}
    (hm : Up m.msgproc.store) :
    wp (forM xs fun mss => sendMessage mss.content mss.destination) (fun _ t => Resent xs m t)
      (fun _ _ => False) m := by
  refine wp_forM_prefix (fun done t => Resent done m t) ?_
    ⟨fun _ h => h, fun h => h, ⟨[], by simp, rfl⟩, rfl⟩
  rintro done mss rest - t ht
  refine wp_mono (wp_sendMessage mss.content mss.destination (ht.up hm)) ?_ fun _ _ h => h
  rintro _ u hu
  obtain ⟨msgs, hmsgs, hsent⟩ := ht.sends
  let msg := newMessage mss.destination mss.content (t.generated t.generations) t.now
  refine ⟨fun ys h => ?_, fun h n => ?_, ⟨msgs ++ [msg], ?_, ?_⟩,
    hu.accepted.trans ht.accepted⟩
  · refine (ht.owing (parcel mss :: ys) ?_).of_registered hu
    simpa using h
  · rw [hu.dbDown]
    exact ht.up h n
  · rw [hu.sends, hmsgs, List.append_assoc]
    rfl
  · rw [List.map_append, List.map_append, hsent]
    rfl

/-- `extract_unsent`, when the map is iterated in a given order. -/
def extractUnsentIn (o : Shuffle) : WaM (List MessageSendStatus) := do
  let m ← get
  set { m with ackp := m.ackp.extractUnsent.2 }
  pure ((waitingIn o m).map Prod.snd)

/-- `on_established`, likewise. -/
def onEstablishedIn (o : Shuffle) (jid : Jid) (ps : Crates.PersistentSession) : WaM Unit := do
  let m ← get
  set { m with ourJid := some jid }
  Program.when (numberChanged m jid) (cbSend (.reportFailure
    ("Warning: You've logged in with a different phone number." : Str)))
  let unsent ← extractUnsentIn o
  forM unsent fun mss => sendMessage mss.content mss.destination
  store (storeWaPersistence ps)
  Whatsapp.setConn fun c => c.setPersistent (some ps)
  modify fun m => { m with prevJid := some jid, connected := true }

theorem onEstablished_eq (jid : Jid) (ps : Crates.PersistentSession) :
    onEstablished jid ps = onEstablishedIn Crates.hashOrder jid ps := rfl

/-- What a session establishment does. -/
structure Established (s t : WhatsappManager) : Prop where
  owing : Owing [] t
  accepted : t.accepted = s.accepted
  sends : ∃ msgs, sends t.requested = sends s.requested ++ msgs ∧
    msgs.map sentAs = (waiting s).map fun e => toSend e.2

/-- The same, when the map is iterated in a given order. -/
structure EstablishedIn (o : Shuffle) (s t : WhatsappManager) : Prop where
  owing : Owing [] t
  accepted : t.accepted = s.accepted
  sends : ∃ msgs, sends t.requested = sends s.requested ++ msgs ∧
    msgs.map sentAs = (waitingIn o s).map fun e => toSend e.2

theorem wp_onEstablishedIn (o : Shuffle) (jid : Jid) (ps : Crates.PersistentSession)
    {m : WhatsappManager} (hm : Owing [] m) :
    wp (onEstablishedIn o jid ps)
      (fun _ t => EstablishedIn o m t) (fun _ _ => False) m := by
  rw [onEstablishedIn, wp_bind, wp_get, wp_bind, wp_set, wp_bind, wp_when]
  -- the report of another number does not touch the tracker
  have hrest : ∀ u : WhatsappManager, Untracked m u →
      wp (do
          let unsent ← extractUnsentIn o
          forM unsent fun mss => sendMessage mss.content mss.destination
          store (storeWaPersistence ps)
          Whatsapp.setConn fun c => c.setPersistent (some ps)
          modify fun m => { m with prevJid := some jid, connected := true })
        (fun _ t => EstablishedIn o m t) (fun _ _ => False) u := by
    intro u hmu
    have hu : Owing [] u := hm.of_untracked hmu
    have hwaiting : waitingIn o u = waitingIn o m := by rw [waitingIn, waitingIn, hmu.ackp]
    simp only [extractUnsentIn, wp_bind, wp_get, wp_set, wp_pure]
    have hextracted := hu.of_extracted o
    refine wp_mono (wp_resend _ hextracted.up) ?_ fun _ _ h => h
    rintro _ v hv
    have hvup : Up v.msgproc.store := hv.up hextracted.up
    rw [wp_store, storeWaPersistence, execute, wp_bind, hvup.wp_query, wp_modify, Whatsapp.setConn,
      wp_modify, wp_modify]
    obtain ⟨msgs, hmsgs, hsent⟩ := hv.sends
    refine ⟨?_, hv.accepted.trans hmu.accepted, msgs, ?_, ?_⟩
    · have h : Owing [] v := by
        apply hv.owing []
        rw [List.append_nil, List.map_map]
        exact hextracted
      exact ⟨h.up, h.conserved, h.acked, h.unsent, h.injective, h.keys, h.sent⟩
    · rw [← hmu.sends]
      exact hmsgs
    · rw [hsent, List.map_map, hwaiting]
      rfl
  split
  · exact hrest _ ⟨rfl, rfl, rfl, rfl, rfl, rfl, rfl⟩
  · exact hrest _ ⟨rfl, rfl, rfl, rfl, rfl, rfl, rfl⟩

theorem wp_onEstablished (jid : Jid) (ps : Crates.PersistentSession) {m : WhatsappManager}
    (hm : Owing [] m) :
    wp (onEstablished jid ps)
      (fun _ t => Established m t) (fun _ _ => False) m := by
  rw [onEstablished_eq]
  exact wp_mono (wp_onEstablishedIn Crates.hashOrder jid ps hm)
    (fun _ _ h => ⟨h.owing, h.accepted, h.sends⟩) fun _ _ h => h

/-- A message is in the queue, under an id that no acknowledgement has named. -/
def WaitsFor (mid : Str) (dest : Jid) (content : ChatMessageContent) (m : WhatsappManager) :
    Prop :=
  ∃ mss, m.ackp.outgoingMessages.lookup mid = some mss ∧ mss.isUnsent = true ∧
    mss.ackLevel = none ∧ parcel mss = (dest, content)

/-- What a step has done about the tracker; it may have acknowledged an id or
established a session. -/
inductive Did (acked : Option Str) (established : Bool) (s t : WhatsappManager) : Prop where
  | left (h : Untracked s t)
  | accepted (jid : Jid) (content : ChatMessageContent) (h : Accepts jid content s t)
  | acked (u : WhatsappManager) (ack : MessageAck) (cb : List ControlBotCommand)
      (hack : acked = some ack.id) (hu : Untracked s u)
      (h : t = { u with ackp := (u.ackp.onMessageAck ack).1, cbTx := cb })
  | checked (h : t = (exec checkAcks s).2)
  | established (hest : established = true) (h : Established s t)

/-- Whether what the connection has yielded establishes a session. -/
def polledSession : Polled → Bool
  | .item (.ok (.sessionEstablished _ _)) => true
  | _ => false

/-- The id that it acknowledges. -/
def polledAck : Polled → Option Str
  | .item (.ok (.messageAck ack)) => some ack.id
  | _ => none

def establishes (s : Session) : Event → Bool
  | .poll answers => polledSession (s.manager.conn.poll answers).1
  | _ => false

def ackedId (s : Session) : Event → Option Str
  | .poll answers => polledAck (s.manager.conn.poll answers).1
  | _ => none

theorem did_of_wp {s : Session} {p : WaM Unit} {I : WhatsappManager → Prop}
    (h : wp p (fun _ t => I t) (fun _ t => I t) s.manager) : I (perform s p).manager := by
  unfold wp at h
  rw [perform_manager]
  rcases hp : exec p s.manager with ⟨e | _, m⟩
  · rw [hp] at h
    exact h
  · rw [hp] at h
    exact h

theorem did_of_untracked {s : Session} {p : WaM Unit} {acked : Option Str} {established : Bool}
    (hp : Moves Untracked p) : Did acked established s.manager (perform s p).manager :=
  .left (hp.exec s.manager)

theorem did_handle {s : Session} (hs : Up s.manager.msgproc.store) :
    Did none false s.manager (perform s handleNext).manager := by
  apply did_of_wp (I := Did none false s.manager)
  rw [handleNext, wp_bind, wp_get]
  cases hrx : s.manager.rx with
  | nil => exact .left (Std.Refl.refl (r := Untracked) _)
  | cons c rest =>
      dsimp only
      rw [wp_bind, wp_set]
      have hpop : Untracked s.manager { s.manager with rx := rest } :=
        ⟨rfl, rfl, rfl, rfl, rfl, rfl, rfl⟩
      have hother : Moves Untracked (handleIntRx c) →
          wp (handleIntRx c) (fun _ t => Did none false s.manager t)
            (fun _ t => Did none false s.manager t) { s.manager with rx := rest } := fun h =>
        wp_mono (h.after hpop) (fun _ _ ht => .left ht) fun _ _ ht => .left ht.1
      have hsend : ∀ {p : WaM Unit},
          wp p (fun _ t => Untracked { s.manager with rx := rest } t ∨
              ∃ jid content, Accepts jid content { s.manager with rx := rest } t)
            (fun _ t => Untracked { s.manager with rx := rest } t)
            { s.manager with rx := rest } →
          wp p (fun _ t => Did none false s.manager t) (fun _ t => Did none false s.manager t)
            { s.manager with rx := rest } := by
        intro p hp
        refine wp_mono hp ?_ fun _ _ ht => .left (IsTrans.trans _ _ _ hpop ht)
        rintro _ t (ht | ⟨jid, content, ht⟩)
        · exact .left (IsTrans.trans _ _ _ hpop ht)
        · exact .accepted jid content (ht.after hpop rfl rfl)
      cases c
      case sendGroupMessage chan text => exact hsend (wp_sendGroupMessage chan text hs)
      case sendDirectMessage addr text => exact hsend (wp_sendDirectMessage addr text hs)
      all_goals
        exact hother (receiving_untracked.handleIntRx _
          (fun _ _ => receiving_untracked.mediaFinished _) (by simp) (by simp)
          fun chan _ => bridging_untracked.groupRemove chan fun _ =>
            untracked_store (sameDown_checked fun _ => rfl))

theorem Established.after {s t u : WhatsappManager} (h : Established t u)
    (hst : Untracked s t) : Established s u := by
  obtain ⟨msgs, hmsgs, hsent⟩ := h.sends
  refine ⟨h.owing, h.accepted.trans hst.accepted, msgs, by rw [hmsgs, hst.sends], ?_⟩
  rw [hsent, waiting, waiting, hst.ackp]

theorem did_polled {s m : WhatsappManager} (hs : Owing [] s) (hsm : Untracked s m) (p : Polled) :
    wp (handlePolled p) (fun _ t => Did (polledAck p) (polledSession p) s t)
      (fun _ t => Did (polledAck p) (polledSession p) s t) m := by
  have hleft : Moves Untracked (handlePolled p) →
      wp (handlePolled p) (fun _ t => Did (polledAck p) (polledSession p) s t)
        (fun _ t => Did (polledAck p) (polledSession p) s t) m := fun h =>
    wp_mono (h.after hsm) (fun _ _ ht => .left ht) fun _ _ ht => .left ht.1
  have hevent : ∀ e, (∀ jid ps, e ≠ .sessionEstablished jid ps) → (∀ ack, e ≠ .messageAck ack) →
      Moves Untracked (handlePolled (.item (.ok e))) := fun e he he' =>
    receiving_untracked.onWaEvent e receiving_untracked.onContactChange
      (fun msg isNew _ => receiving_untracked.onMessage msg isNew)
      (fun jid ps h => absurd h (he jid ps)) fun ack h => absurd h (he' ack)
  cases p with
  | notReady => exact hleft (steps_pure _)
  | failed => exact hleft (Steps.bind steps_get fun _ => steps_throw trivial)
  | item r =>
      cases r with
      | error e => exact hleft (receiving_untracked.onWaError e)
      | ok e =>
          cases e
          case sessionEstablished jid ps =>
            refine wp_mono (wp_onEstablished jid ps (hs.of_untracked hsm)) ?_ fun _ _ h => h.elim
            exact fun _ _ h => .established rfl (h.after hsm)
          case messageAck ack => exact .acked m ack _ rfl hsm rfl
          all_goals exact hleft (hevent _ (by simp) (by simp))

theorem did_next {s t : Session} {e : Event} (hs : Owing [] s.manager) (ht : next s e = some t) :
    Did (ackedId s e) (establishes s e) s.manager t.manager := by
  obtain ⟨-, hstep⟩ := next_eq_some ht
  cases e with
  | poll answers =>
      cases hstep
      have hsm : Untracked s.manager
          { s.manager with conn := (s.manager.conn.poll answers).2 } :=
        ⟨rfl, rfl, rfl, rfl, rfl, rfl, rfl⟩
      rw [perform_pollConn]
      exact did_of_wp (did_polled hs hsm _)
  | handle =>
      cases hstep
      exact did_handle hs.up
  | request c =>
      simp only [step] at hstep
      split at hstep
      · cases hstep
        exact .left ⟨rfl, rfl, rfl, rfl, rfl, rfl, rfl⟩
      · cases hstep
  | finished i result =>
      obtain ⟨mi, -, rfl⟩ := Option.map_eq_some_iff.mp hstep
      exact .left ⟨rfl, rfl, rfl, rfl, rfl, rfl, rfl⟩
  | drain answers =>
      cases hstep
      exact did_of_untracked (receiving_untracked.drainOutbox
        (fun _ _ _ => ⟨rfl, rfl, rfl, rfl, rfl, rfl, rfl⟩) answers)
  | complete done =>
      cases hstep
      exact did_of_untracked (Frame.pollComplete done)
  | check =>
      cases hstep
      exact .checked rfl
  | otherOp op =>
      cases hstep
      exact .left ⟨(sameDown_otherOp op).exec _, rfl, rfl, rfl, rfl, rfl, rfl⟩
  | clock now dbNow instant =>
      cases hstep
      exact .left ⟨rfl, rfl, rfl, rfl, rfl, rfl, rfl⟩

theorem Owing.of_did {s t : WhatsappManager} {acked : Option Str} {established : Bool}
    (hs : Owing [] s) (h : Did acked established s t) : Owing [] t := by
  cases h with
  | left h => exact hs.of_untracked h
  | accepted jid content h => exact (hs.of_accepting jid content).of_registered h
  | acked u ack cb _ hu h =>
      rw [h]
      exact (hs.of_untracked hu).of_ack ack cb
  | checked h =>
      rw [h]
      exact hs.of_check
  | established _ h => exact h.owing

theorem owing_of_run {s t : Session} {es : List Event} (hs : Owing [] s.manager)
    (hrun : run next s es = some t) : Owing [] t.manager :=
  invariant (I := fun s => Owing [] s.manager)
    (fun _ _ _ hs ht => hs.of_did (did_next hs ht)) hs hrun

/-- A message stays in the queue until a session is established, or an
acknowledgement names it. -/
theorem WaitsFor.of_did {s t : WhatsappManager} {acked : Option Str} {established : Bool}
    {mid : Str} {dest : Jid} {content : ChatMessageContent} (hwait : WaitsFor mid dest content s)
    (hs : Owing [] s) (h : Did acked established s t) (hacked : acked ≠ some mid)
    (hest : established = false) : WaitsFor mid dest content t := by
  obtain ⟨mss, hmss, hunsent, hlevel, hparcel⟩ := hwait
  cases h with
  | left h => exact ⟨mss, by rw [h.ackp, hmss], hunsent, hlevel, hparcel⟩
  | accepted jid content h =>
      refine ⟨mss, ?_, hunsent, hlevel, hparcel⟩
      rw [h.ackp, WaAckTracker.registerSend, lookup_insert, if_neg]
      · exact hmss
      · rintro rfl
        exact fresh_notMem hs (mem_iff_lookup.mpr ⟨mss, hmss⟩)
  | acked u ack cb hack hu h =>
      refine ⟨mss, ?_, hunsent, hlevel, hparcel⟩
      have hne : mid ≠ ack.id := fun heq => hacked (heq ▸ hack)
      rw [← hu.ackp] at hmss
      rw [h]
      unfold WaAckTracker.onMessageAck
      split
      · dsimp only
        rw [lookup_insert, if_neg hne, hmss]
      · exact hmss
  | checked h =>
      rw [h]
      refine ⟨s.ackp.checkEntry s.now mss, ?_, hunsent, hlevel, hparcel⟩
      refine lookup_retain_eq_some.mpr ⟨by rw [lookup_mapValues, hmss]; rfl, ?_⟩
      change s.ackp.retained s.now mss = true
      rw [WaAckTracker.retained, hlevel]
  | established h _ =>
      rw [hest] at h
      cases h

theorem waitsFor_of_accepted {s t : WhatsappManager} {acked : Option Str} {established : Bool}
    {dest : Jid} {content : ChatMessageContent} (h : Did acked established s t)
    (haccepted : t.accepted = s.accepted ++ [(dest, content)]) (hoffline : online s = false) :
    WaitsFor (s.generated s.generations) dest content t := by
  have hsame : t.accepted ≠ s.accepted := by
    simp [haccepted]
  cases h with
  | left h => exact absurd h.accepted hsame
  | accepted jid content' h =>
      have heq := h.accepted
      rw [haccepted, accepting, List.append_cancel_left_eq, List.cons.injEq, Prod.mk.injEq] at heq
      obtain ⟨⟨rfl, rfl⟩, -⟩ := heq
      refine ⟨⟨none, s.now, content, dest, true, false, false⟩, ?_, rfl, rfl, rfl⟩
      rw [h.ackp, hoffline, WaAckTracker.registerSend, lookup_insert]
      exact if_pos rfl
  | acked u ack cb _ hu h =>
      rw [h] at hsame
      exact absurd hu.accepted hsame
  | checked h =>
      rw [h] at hsame
      exact absurd rfl hsame
  | established _ h => exact absurd h.accepted hsame

theorem eq_of_polledSession {p : Polled} (h : polledSession p = true) :
    ∃ jid ps, p = .item (.ok (.sessionEstablished jid ps)) := by
  unfold polledSession at h
  split at h
  · exact ⟨_, _, rfl⟩
  · cases h

theorem established_of_next {s t : Session} {e : Event} (hs : Owing [] s.manager)
    (ht : next s e = some t) (hest : establishes s e = true) :
    Established s.manager t.manager := by
  obtain ⟨-, hstep⟩ := next_eq_some ht
  cases e with
  | poll answers =>
      cases hstep
      have hsm : Untracked s.manager
          { s.manager with conn := (s.manager.conn.poll answers).2 } :=
        ⟨rfl, rfl, rfl, rfl, rfl, rfl, rfl⟩
      obtain ⟨jid, ps, hpolled⟩ := eq_of_polledSession hest
      rw [perform_pollConn, hpolled]
      refine Established.after (did_of_wp (I := fun t => Established _ t) ?_) hsm
      exact wp_mono (wp_onEstablished jid ps (hs.of_untracked hsm)) (fun _ _ h => h)
        fun _ _ h => h.elim
  | _ => cases hest

/-- The tracker accounts for all messages that have been accepted, and knows which
of them have been sent. -/
structure Accounted (m : WhatsappManager) : Prop where
  conserved : m.accepted.Perm (tracked m ++ m.expired.map parcel)
  acked : ∀ mss ∈ m.expired, ∃ level, mss.ackLevel = some level ∧ level ≠ .pendingSend
  unsent : ∀ mid mss, m.ackp.outgoingMessages.lookup mid = some mss →
    (mss.isUnsent = true ↔ ∀ msg ∈ sends m.requested, msg.id ≠ mid)

/-- A step has sent each of the messages that were waiting once, the one under the
id `mid` among them. -/
def ResentBy (mid : Str) (dest : Jid) (content : ChatMessageContent) (s t : WhatsappManager) :
    Prop :=
  (∃ mss, (mid, mss) ∈ waiting s ∧ parcel mss = (dest, content)) ∧
    ((waiting s).map Prod.fst).Nodup ∧
    ∃ msgs, sends t.requested = sends s.requested ++ msgs ∧
      msgs.map sentAs = (waiting s).map fun e => toSend e.2

/-- A manager that has not accepted anything so far, with a database that is up and
fresh ids to come. -/
structure Idle (m : WhatsappManager) : Prop where
  up : Up m.msgproc.store
  accepted : m.accepted = []
  expired : m.expired = []
  outgoing : m.ackp.outgoingMessages = ∅
  requested : m.requested = []
  injective : ∀ i j, m.generated i = m.generated j → i = j

theorem Idle.owing {m : WhatsappManager} (hm : Idle m) : Owing [] m where
  up := hm.up
  conserved := by
    rw [hm.accepted, hm.expired, tracked, hm.outgoing]
    exact .refl _
  acked := by simp [hm.expired]
  unsent mid mss h := by
    rw [hm.outgoing] at h
    cases h
  injective := hm.injective
  keys mid h := by
    rw [hm.outgoing] at h
    cases h
  sent := by simp [hm.requested, sends]

/-- An event neither establishes a session nor acknowledges an id. -/
def Spares (mid : Str) (s : Session) (e : Event) : Prop :=
  establishes s e = false ∧ ackedId s e ≠ some mid

instance (mid : Str) (s : Session) (e : Event) : Decidable (Spares mid s e) :=
  inferInstanceAs (Decidable (_ ∧ _))

theorem waitsFor_of_run {mid : Str} {dest : Jid} {content : ChatMessageContent} {s t : Session}
    {es : List Event} (hs : Owing [] s.manager) (hwait : WaitsFor mid dest content s.manager)
    (hspares : AllSteps next (Spares mid) s es) (hrun : run next s es = some t) :
    WaitsFor mid dest content t.manager := by
  refine (invariant_of_allSteps (C := Spares mid)
    (I := fun s => Owing [] s.manager ∧ WaitsFor mid dest content s.manager) ?_ hspares
    ⟨hs, hwait⟩ hrun).2
  rintro s e t ⟨hest, hacked⟩ ⟨hs, hwait⟩ ht
  exact ⟨hs.of_did (did_next hs ht), hwait.of_did hs (did_next hs ht) hacked hest⟩

/-- After every run the tracker accounts for all messages; and one that is accepted
while the session is down is sent when the next one is established, unless its id
is acknowledged before. -/
theorem accounted_of_run {m : WhatsappManager} (hm : Idle m) {es : List Event} {s : Session}
    (hrun : run next ⟨m, none⟩ es = some s) :
    Accounted s.manager ∧
      ∀ e t dest content, next s e = some t →
        t.manager.accepted = s.manager.accepted ++ [(dest, content)] →
        online s.manager = false →
        ∀ fs u, run next t fs = some u →
          AllSteps next (Spares (s.manager.generated s.manager.generations)) t fs →
          ∀ g v, next u g = some v → establishes u g = true →
            ResentBy (s.manager.generated s.manager.generations) dest content u.manager
              v.manager := by
  have hs : Owing [] s.manager := owing_of_run (s := ⟨m, none⟩) hm.owing hrun
  refine ⟨⟨by simpa using hs.conserved, hs.acked, hs.unsent⟩, ?_⟩
  intro e t dest content ht haccepted hoffline fs u hu hspares g v hv hest
  have hto : Owing [] t.manager := hs.of_did (did_next hs ht)
  have huo : Owing [] u.manager := owing_of_run hto hu
  obtain ⟨mss, hmss, hunsent, -, hparcel⟩ := waitsFor_of_run hto
    (waitsFor_of_accepted (did_next hs ht) haccepted hoffline) hspares hu
  exact ⟨⟨mss, mem_waiting.mpr ⟨hmss, hunsent⟩, hparcel⟩, nodup_waiting _,
    (established_of_next huo hv hest).sends⟩

end Tracker

section Samples

attribute [local instance] Sample.crates

/-- Something is to be sent to `Sample.alice`. -/
def asking : List Event := [.handle, .request (.sendDirectMessage Sample.alice ("hi" : Str))]

/-- The connection is set up after that. -/
def dialling : List Event := [.request .startRegistration, .handle, .poll [.ready]]

/-- The id of the message, which is queued by then, is acknowledged, and expires. -/
def confused : List Event :=
  dialling ++ [.poll [.event (.messageAck ⟨.other ("ok" : Str), ("0" : Str)⟩)],
    .clock 61000000000 0 0, .check]

def establishing : Event := .poll [.event (.sessionEstablished ⟨("44" : Str), false⟩ ())]

def aliceJid : Jid := ⟨("44123" : Str), false⟩

theorem idle_sampleManager : Idle sampleManager :=
  ⟨fun _ => rfl, rfl, rfl, rfl, rfl, fun _ _ => decimal_injective⟩

def askedSession : Session := (run next ⟨sampleManager, none⟩ asking).get (by decide +kernel)

def queuedSession : Session := (next askedSession .handle).get (by decide +kernel)

theorem next_askedSession : next askedSession .handle = some queuedSession :=
  (Option.some_get _).symm

theorem accepted_queuedSession : queuedSession.manager.accepted =
    askedSession.manager.accepted ++ [(aliceJid, .text ("hi" : Str))] := by decide +kernel

/-- The message is sent when the session is established. -/
theorem accounted_of_dialling : ∃ u v, run next queuedSession dialling = some u ∧
    next u establishing = some v ∧
    ResentBy ("0" : Str) aliceJid (.text ("hi" : Str)) u.manager v.manager := by
  have hdial : (run next queuedSession dialling).isSome = true := by decide +kernel
  have hest : ((run next queuedSession dialling).bind fun u =>
      (next u establishing).map fun _ => establishes u establishing) = some true := by
    decide +kernel
  obtain ⟨u, hu⟩ := Option.isSome_iff_exists.mp hdial
  rw [hu, Option.bind_some] at hest
  obtain ⟨v, hv, hestablishes⟩ := Option.map_eq_some_iff.mp hest
  exact ⟨u, v, hu, hv, (accounted_of_run idle_sampleManager (Option.some_get _).symm).2 _ _ _ _
    next_askedSession accepted_queuedSession (by decide +kernel) _ _ hu (by decide +kernel) _ _ hv
    hestablishes⟩

/-- It is lost if its id is acknowledged before. -/
theorem queued_lost :
    ¬ ∀ (es fs : List Event) (e g : Event) (s t u v : Session) (dest : Jid)
      (content : ChatMessageContent), run next ⟨sampleManager, none⟩ es = some s →
      next s e = some t → t.manager.accepted = s.manager.accepted ++ [(dest, content)] →
      online s.manager = false → run next t fs = some u →
      AllSteps next (fun s e => establishes s e = false) t fs → next u g = some v →
      establishes u g = true →
      ResentBy (s.manager.generated s.manager.generations) dest content u.manager v.manager := by
  intro h
  have hlost : ((run next queuedSession confused).bind fun u =>
      (next u establishing).map fun _ => (waiting u.manager, establishes u establishing)) =
        some ([], true) := by decide +kernel
  obtain ⟨u, hu, hbind⟩ := Option.bind_eq_some_iff.mp hlost
  obtain ⟨v, hv, hwaiting⟩ := Option.map_eq_some_iff.mp hbind
  rw [Prod.mk.injEq] at hwaiting
  obtain ⟨⟨mss, hmss, -⟩, -⟩ := h asking confused .handle establishing askedSession queuedSession
    u v aliceJid (.text ("hi" : Str)) (Option.some_get _).symm next_askedSession
    accepted_queuedSession (by decide +kernel) hu (by decide +kernel) hv hwaiting.2
  rw [hwaiting.1] at hmss
  cases hmss

end Samples

end SmsIrc.WhatsappTracker
