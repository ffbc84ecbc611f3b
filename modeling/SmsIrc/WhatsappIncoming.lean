import SmsIrc.WhatsappSays

/-!
What is done about an incoming WhatsApp message and about a download that has
ended: the rows that are inserted, and when the message counts as seen.
-/

namespace SmsIrc.WhatsappIncoming

open SmsIrc.Comm SmsIrc.Database SmsIrc.External SmsIrc.HashMaps SmsIrc.Models SmsIrc.Program
open SmsIrc.SenderCommon SmsIrc.SerialTable SmsIrc.Text SmsIrc.Util SmsIrc.WaAck
open SmsIrc.WaConn SmsIrc.Whatsapp SmsIrc.WhatsappFrame SmsIrc.WhatsappMsg
open SmsIrc.WhatsappRuns SmsIrc.WhatsappSays

/-- Requests that tell a peer that a message has been read. -/
def isRead : WaRequest → Bool
  | .messageRead _ _ => true
  | _ => false

/-- Content of which nothing is left to be stored. -/
def isEmpty : ChatMessageContent → Bool
  | .unimplemented det => isBlank det
  | _ => false

/-- The ids after one of them has been recorded. -/
def recordId (id : Str) (ids : List Str) : List Str := if id ∈ ids then ids else ids ++ [id]

theorem mem_recordId {id id' : Str} {ids : List Str} :
    id' ∈ recordId id ids ↔ id' ∈ ids ∨ id' = id := by
  unfold recordId
  split
  · rename_i h
    refine ⟨.inl, ?_⟩
    rintro (h' | rfl)
    · exact h'
    · exact h
  · simp

/-- The read receipts that are queued for a message. -/
def receipts (wanted : Prop) [Decidable wanted] (id : Str) (peer : Option Peer) :
    List WaRequest := if wanted then peer.toList.map (.messageRead id) else []

/-- The sender of a message from a peer. -/
def receivedFrom : Peer → Sender
  | .individual j => ⟨some (.individual j), false, j, none⟩
  | .group g participant => ⟨some (.group g participant), false, participant, some g⟩

/-- The sender of a message, in either direction. -/
def SentBy (sender : Sender) : Direction → Prop
  | .receiving peer => sender = receivedFrom peer
  | .sending jid => sender.isOurs = true ∧ sender.group = some jid ∧ jid.isGroup = true

section Incoming

variable [Crates]

/-- The message processor has only looked things up. -/
structure LookedUp (p q : WaMessageProcessor) : Prop where
  adds : Adds p.store q.store
  messages : q.store.messages = p.store.messages
  msgids : q.store.waMsgids = p.store.waMsgids
  downloads : q.downloads = p.downloads

instance : IsPreorder WaMessageProcessor LookedUp where
  refl p := ⟨Std.Refl.refl (r := Adds) p.store, rfl, rfl, rfl⟩
  trans _ _ _ h h' := ⟨IsTrans.trans (r := Adds) _ _ _ h.adds h'.adds,
    h'.messages.trans h.messages, h'.msgids.trans h.msgids, h'.downloads.trans h.downloads⟩

theorem lookedUp_query {α : Type} (f : Store → α) : Moves LookedUp (store (query f) : MsgM α) := by
  intro p
  apply (wp_zoom _).mpr
  have htick : Adds p.store p.store.tick := adds_of_eq rfl rfl rfl
  exact wp_query_of ⟨⟨htick, rfl, rfl, rfl⟩, trivial⟩ ⟨htick, rfl, rfl, rfl⟩

theorem reading_lookedUp : Reading LookedUp where
  query := lookedUp_query
  contactFiles _ p := ⟨Std.Refl.refl (r := Adds) p.store, rfl, rfl, rfl⟩

/-- The download of the media of a message. -/
def infoOf (inc : IncomingMessage) : MediaInfo :=
  ⟨inc.id, inc.peer, inc.fromJid, inc.group, inc.ts⟩

/-- The downloads that a message starts. -/
def started (inc : IncomingMessage) : List MediaInfo :=
  if isMedia inc.content then [infoOf inc] else []

/-- The store is as before, and the downloads of the message have been started. -/
structure LookedAt (inc : IncomingMessage) (p q : WaMessageProcessor) : Prop where
  adds : Adds p.store q.store
  messages : q.store.messages = p.store.messages
  msgids : q.store.waMsgids = p.store.waMsgids
  downloads : q.downloads = p.downloads ++ started inc

theorem LookedAt.after {inc : IncomingMessage} {p q r : WaMessageProcessor}
    (h : LookedAt inc p q) (h' : LookedUp q r) : LookedAt inc p r :=
  ⟨IsTrans.trans (r := Adds) _ _ _ h.adds h'.adds, h'.messages.trans h.messages,
    h'.msgids.trans h.msgids, h'.downloads.trans h.downloads⟩

theorem wp_contentText (inc : IncomingMessage) (p : WaMessageProcessor) :
    wp (contentText inc)
      (fun r q => LookedAt inc p q ∧
        (isMedia inc.content = false → (r = none ↔ isEmpty inc.content = true)))
      (fun _ q => LookedUp p q) p := by
  have hrefl : Adds p.store p.store := Std.Refl.refl (r := Adds) p.store
  have hquiet : ∀ {prog : MsgM (Option Str)}, Moves LookedUp prog →
      (∀ q, wp prog (fun r _ => r.isSome) (fun _ _ => True) q) →
      isMedia inc.content = false → isEmpty inc.content = false →
      wp prog (fun r q => LookedAt inc p q ∧
        (isMedia inc.content = false → (r = none ↔ isEmpty inc.content = true)))
        (fun _ q => LookedUp p q) p := by
    intro prog hmoves hsome hmedia hempty
    refine wp_mono (wp_and (hmoves p) (hsome p)) ?_ fun _ _ h => h.1.1
    rintro r q ⟨hq, hr⟩
    refine ⟨⟨hq.adds, hq.messages, hq.msgids, ?_⟩, fun _ => ?_⟩
    · rw [hq.downloads, started, hmedia]
      simp
    · rw [hempty]
      simp [Option.isSome_iff_ne_none.mp hr]
  have hmedia : isMedia inc.content = true → wp (contentText.mediaText inc)
      (fun r q => LookedAt inc p q ∧
        (isMedia inc.content = false → (r = none ↔ isEmpty inc.content = true)))
      (fun _ q => LookedUp p q) p := by
    intro hmedia
    refine ⟨⟨hrefl, rfl, rfl, ?_⟩, fun hno => ?_⟩
    · rw [started, hmedia]
      rfl
    · rw [hmedia] at hno
      cases hno
  unfold contentText
  split
  · rename_i s hs
    refine hquiet (fun q => ?_) (fun q => ?_) (by rw [hs]; rfl) (by rw [hs]; rfl)
    · rw [wp_map]
      exact reading_lookedUp.processWaTextMessage s q
    · rw [wp_map]
      exact wp_mono (reading_lookedUp.processWaTextMessage s q) (fun _ _ _ => rfl)
        fun _ _ _ => trivial
  · rename_i det hdet
    refine ⟨⟨hrefl, rfl, rfl, by rw [started, hdet]; simp [isMedia]⟩, fun _ => ?_⟩
    rw [hdet, isEmpty]
    split
    · simp [*]
    · simp [*]
  · rename_i h
    exact hquiet (steps_pure _) (fun _ => rfl) (by rw [h]; rfl) (by rw [h]; rfl)
  · rename_i h
    exact hquiet (steps_pure _) (fun _ => rfl) (by rw [h]; rfl) (by rw [h]; rfl)
  · rename_i h
    exact hquiet (steps_pure _) (fun _ => rfl) (by rw [h]; rfl) (by rw [h]; rfl)
  · rename_i h
    refine hquiet (Steps.bind reading_lookedUp.storeContact fun r => ?_) (fun q => ?_)
      (by rw [h]; rfl) (by rw [h]; rfl)
    · cases r with
      | ok link => exact steps_pure _
      | error e => exact steps_pure _
    · rw [wp_bind]
      refine wp_mono (reading_lookedUp.storeContact q) ?_ fun _ _ _ => trivial
      rintro (e | link) _ _ <;> rfl
  · rename_i h
    exact hmedia (by rw [h]; rfl)
  · rename_i h
    exact hmedia (by rw [h]; rfl)
  · rename_i h
    exact hmedia (by rw [h]; rfl)
  · rename_i h
    exact hmedia (by rw [h]; rfl)

/-- The lines of a message, in a state in which the message has been looked at. -/
structure LinesOf (inc : IncomingMessage) (lines : List ProcessedIncomingMessage)
    (media : Bool) : Prop where
  media : media = isMedia inc.content
  empty : isMedia inc.content = false → (lines = [] ↔ isEmpty inc.content = true)

theorem wp_processWaIncoming (inc : IncomingMessage) (p : WaMessageProcessor) :
    wp (processWaIncoming inc)
      (fun r q => LookedAt inc p q ∧ LinesOf inc r.1 r.2)
      (fun _ q => Adds p.store q.store ∧ q.store.messages = p.store.messages ∧
        q.store.waMsgids = p.store.waMsgids) p := by
  rw [processWaIncoming, wp_bind]
  refine wp_mono (wp_contentText inc p) ?_ fun _ _ h => ⟨h.adds, h.messages, h.msgids⟩
  rintro (_ | text) q ⟨hq, hempty⟩
  · exact ⟨hq, rfl, fun hmedia => by simpa using hempty hmedia⟩
  · have hnonempty : isMedia inc.content = false → isEmpty inc.content = false := by
      intro hmedia
      simpa using hempty hmedia
    dsimp only
    cases inc.quoted with
    | none => exact ⟨hq, rfl, fun hmedia => by simp [hnonempty hmedia]⟩
    | some qm =>
        dsimp only
        rw [wp_bind]
        refine wp_mono (reading_lookedUp.quoteLine inc qm q) ?_ fun _ r h => ?_
        · rintro line r hr
          exact ⟨hq.after hr, rfl, fun hmedia => by simp [hnonempty hmedia]⟩
        · have hr := hq.after h.1
          exact ⟨hr.adds, hr.messages, hr.msgids⟩

/-- Neither the messages nor the ids of the database change, and nothing is lost. -/
structure SameSeen (st st' : Store) : Prop where
  adds : Adds st st'
  messages : st'.messages = st.messages
  msgids : st'.waMsgids = st.waMsgids

instance : IsPreorder Store SameSeen where
  refl st := ⟨Std.Refl.refl (r := Adds) st, rfl, rfl⟩
  trans _ _ _ h h' := ⟨IsTrans.trans (r := Adds) _ _ _ h.adds h'.adds,
    h'.messages.trans h.messages, h'.msgids.trans h.msgids⟩

theorem sameSeen_tick (st : Store) : SameSeen st st.tick := ⟨adds_of_eq rfl rfl rfl, rfl, rfl⟩

theorem sameSeen_insertRecipient (addr : PduAddress) (row : Nat → Recipient)
    (hrow : ∀ n, (row n).id = n) : Moves SameSeen (insertRecipient addr row hrow) :=
  moves_insertRecipient sameSeen_tick fun _ =>
    ⟨⟨rfl, fun _ h => List.mem_append_left _ h, fun _ h => h⟩, rfl, rfl⟩

theorem sameSeen_storeGroup (jid : Jid) (chan topic : Str) :
    Moves SameSeen (storeGroup jid chan [] [] topic) :=
  moves_storeGroup sameSeen_tick fun _ _ _ _ =>
    ⟨⟨rfl, fun _ h => h, fun _ h => List.mem_append_left _ h⟩, rfl, rfl⟩

/-- Some rows have been inserted, and no message has been marked as seen. -/
structure Wrote (new : List Message) (s t : WhatsappManager) : Prop where
  adds : Adds s.msgproc.store t.msgproc.store
  rows : t.msgproc.store.messages.rows = s.msgproc.store.messages.rows ++ new
  msgids : t.msgproc.store.waMsgids = s.msgproc.store.waMsgids
  downloads : t.msgproc.downloads = s.msgproc.downloads
  rx : t.rx = s.rx
  markRead : t.markRead = s.markRead
  requested : ∃ reqs, t.requested = s.requested ++ reqs ∧ ∀ r ∈ reqs, isRead r = false

/-- Not even a row. -/
def Calm : WhatsappManager → WhatsappManager → Prop := Wrote []

theorem Wrote.trans {xs ys : List Message} {s t u : WhatsappManager} (h : Wrote xs s t)
    (h' : Wrote ys t u) : Wrote (xs ++ ys) s u where
  adds := IsTrans.trans (r := Adds) _ _ _ h.adds h'.adds
  rows := by rw [h'.rows, h.rows, List.append_assoc]
  msgids := h'.msgids.trans h.msgids
  downloads := h'.downloads.trans h.downloads
  rx := h'.rx.trans h.rx
  markRead := h'.markRead.trans h.markRead
  requested := by
    obtain ⟨reqs, hreqs, hread⟩ := h.requested
    obtain ⟨reqs', hreqs', hread'⟩ := h'.requested
    refine ⟨reqs ++ reqs', by rw [hreqs', hreqs, List.append_assoc], fun r hr => ?_⟩
    rcases List.mem_append.mp hr with hr | hr
    · exact hread r hr
    · exact hread' r hr

instance : IsPreorder WhatsappManager Calm where
  refl m := ⟨Std.Refl.refl (r := Adds) m.msgproc.store, by simp, rfl, rfl, rfl, rfl, [], by simp,
    by simp⟩
  trans _ _ _ h h' := h.trans h'

theorem calm_refl (m : WhatsappManager) : Calm m m := Std.Refl.refl (r := Calm) m

theorem Calm.wrote {new : List Message} {s t u : WhatsappManager} (h : Calm s t)
    (h' : Wrote new t u) : Wrote new s u := h.trans h'

theorem Wrote.calm {new : List Message} {s t u : WhatsappManager} (h : Wrote new s t)
    (h' : Calm t u) : Wrote new s u := by
  have := h.trans h'
  rwa [List.append_nil] at this

theorem calm_setStore {m : WhatsappManager} {st : Store} (h : SameSeen m.msgproc.store st) :
    Calm m (setStore m st) :=
  ⟨h.adds, by simp [setStore, h.messages], h.msgids, rfl, rfl, rfl, [], by simp [setStore],
    by simp⟩

theorem calm_of_eq {s t : WhatsappManager} (hmsgproc : t.msgproc = s.msgproc) (hrx : t.rx = s.rx)
    (hread : t.markRead = s.markRead) (hreq : t.requested = s.requested) : Calm s t :=
  ⟨adds_of_eq (by rw [hmsgproc]) (by rw [hmsgproc]) (by rw [hmsgproc]), by simp [hmsgproc],
    by rw [hmsgproc], by rw [hmsgproc], hrx, hread, [], by simp [hreq], by simp⟩

theorem calm_pushBack {r : WaRequest} (hr : isRead r = false) : Moves Calm (pushBack r) :=
  steps_modify fun m => ⟨Std.Refl.refl (r := Adds) m.msgproc.store, by simp, rfl, rfl, rfl, rfl,
    [r], rfl, by simpa using hr⟩

theorem bridging_calm : Bridging Calm where
  query f := moves_store (moves_query sameSeen_tick f) fun _ _ => calm_setStore
  newRecipient _ _ _ _ _ := moves_store (sameSeen_insertRecipient _ _ _) fun _ _ => calm_setStore
  cf _ _ := steps_modify fun _ => calm_of_eq rfl rfl rfl rfl
  newGroup _ _ _ := moves_store (sameSeen_storeGroup _ _ _) fun _ _ => calm_setStore
  cb _ _ := calm_of_eq rfl rfl rfl rfl
  metadata _ := calm_pushBack rfl

/-- A row holds a text of a sender. -/
structure Holds (jid : Jid) (group : Option Nat) (ts : NaiveDateTime) (text : Str)
    (row : Message) : Prop where
  sender : ∃ addr, HasAddress jid addr ∧ row.phoneNumber = normalizeAddress addr
  text : row.text = some text
  group : row.groupTarget = group
  ts : row.ts = ts

/-- The rows hold the texts of a sender, or there are none as the sender has no address. -/
def Stored (jid : Jid) (group : Option Nat) (ts : NaiveDateTime) (texts : List Str)
    (rows : List Message) : Prop :=
  addressless jid = true ∧ rows = [] ∨ List.Forall₂ (Holds jid group ts) texts rows

section Stored

variable {jid : Jid} {group : Option Nat} {ts : NaiveDateTime} {texts : List Str}
  {rows : List Message}

theorem Stored.nil_of_addressless (h : Stored jid group ts texts rows)
    (hjid : addressless jid = true) : rows = [] := by
  rcases h with ⟨-, hrows⟩ | h
  · exact hrows
  · cases h with
    | nil => rfl
    | cons hrow _ =>
        obtain ⟨addr, haddr, -⟩ := hrow.sender
        rw [haddr.not_addressless] at hjid
        cases hjid

theorem Stored.held (h : Stored jid group ts texts rows) (hjid : addressless jid = false) :
    List.Forall₂ (Holds jid group ts) texts rows := by
  rcases h with ⟨hno, -⟩ | h
  · rw [hjid] at hno
    cases hno
  · exact h

theorem texts_of_holds (h : List.Forall₂ (Holds jid group ts) texts rows) :
    rows.map Message.text = texts.map some := by
  induction h with
  | nil => rfl
  | cons hrow _ ih => rw [List.map_cons, List.map_cons, hrow.text, ih]

theorem Stored.prefixed (h : Stored jid group ts texts rows) :
    rows.map Message.text <+: texts.map some := by
  rcases h with ⟨-, rfl⟩ | h
  · exact List.nil_prefix
  · rw [texts_of_holds h]

theorem Stored.append {texts' : List Str} {rows' : List Message}
    (h : Stored jid group ts texts rows) (h' : Stored jid group ts texts' rows') :
    Stored jid group ts (texts ++ texts') (rows ++ rows') := by
  cases hjid : addressless jid with
  | true => exact .inl ⟨hjid, by rw [h.nil_of_addressless hjid, h'.nil_of_addressless hjid]; rfl⟩
  | false => exact .inr (List.rel_append (h.held hjid) (h'.held hjid))

end Stored

theorem wp_storeMessage (jid : Jid) (text : Str) (group : Option Nat) (ts : NaiveDateTime)
    (m : WhatsappManager) :
    wp (storeMessage jid text group ts)
      (fun _ t => ∃ new, Wrote new m t ∧ Stored jid group ts [text] new)
      (fun _ t => Calm m t) m := by
  rw [storeMessage, wp_bind]
  refine wp_mono (wp_jidToAddress jid m) ?_ fun _ _ h => h.1 ▸ calm_refl m
  rintro (_ | addr) _ ⟨rfl, haddr, hnone⟩
  · exact ⟨[], calm_refl _, .inl ⟨hnone rfl, rfl⟩⟩
  · dsimp only
    rw [wp_bind]
    refine wp_mono (bridging_calm.getWaRecipient jid _) ?_ fun _ _ h => h.1
    intro _ t ht
    rw [wp_bind, wp_store, storeWaMessage, wp_bind]
    have htick : Calm t (setStore t t.msgproc.store.tick) := calm_setStore (sameSeen_tick _)
    apply wp_query_of (IsTrans.trans (r := Calm) _ _ _ ht htick)
    split
    · refine ⟨_, ht.wrote ⟨adds_of_eq rfl rfl rfl, rfl, rfl, rfl, rfl, rfl, [], by simp [setStore],
        by simp⟩, .inr (.cons ⟨⟨addr, haddr addr rfl, rfl⟩, rfl, rfl, rfl⟩ .nil)⟩
    · exact IsTrans.trans (r := Calm) _ _ _ ht htick

theorem wp_storeLines {inc : IncomingMessage} {st : Store}
    {lines : List ProcessedIncomingMessage} (h : TellsOf inc st lines) (m : WhatsappManager) :
    wp (forM lines fun line => storeMessage line.fromJid line.text line.group line.ts)
      (fun _ t => ∃ new, Wrote new m t ∧
        Stored inc.fromJid inc.group inc.ts (lines.map ProcessedIncomingMessage.text) new)
      (fun _ t => ∃ new, Wrote new m t ∧
        new.map Message.text <+: lines.map fun line => some line.text) m := by
  refine wp_forM_prefix (fun done t => ∃ new, Wrote new m t ∧ Stored inc.fromJid inc.group inc.ts
    (done.map ProcessedIncomingMessage.text) new) ?_ ⟨[], calm_refl m, .inr .nil⟩
  rintro done line rest rfl t ⟨new, hnew, hdone⟩
  have hline : line ∈ done ++ line :: rest := by simp
  rw [h.sender line hline, h.group line hline, h.ts line hline]
  refine wp_mono (wp_storeMessage inc.fromJid line.text inc.group inc.ts t) ?_ ?_
  · rintro _ u ⟨new', hnew', hlast⟩
    refine ⟨new ++ new', hnew.trans hnew', ?_⟩
    rw [List.map_append]
    exact hdone.append hlast
  · intro _ u hu
    refine ⟨new, hnew.calm hu, hdone.prefixed.trans ?_⟩
    rw [List.map_map, List.map_append]
    exact List.prefix_append _ _

theorem wp_storeWaMsgid (id : Str) (m : WhatsappManager) :
    wp (store (storeWaMsgid id) : WaM Unit)
      (fun _ t => t = setStore m { m.msgproc.store.tick with
        waMsgids := recordId id m.msgproc.store.waMsgids })
      (fun _ t => Calm m t) m := by
  rw [wp_store]
  exact wp_execute_of (calm_setStore (sameSeen_tick _)) rfl

theorem wp_markAsRead (wanted : Prop) [Decidable wanted] (id : Str) (peer : Option Peer)
    (m : WhatsappManager) :
    wp (when wanted (markAsRead id peer))
      (fun _ t => t.msgproc = m.msgproc ∧ t.rx = m.rx ∧ t.markRead = m.markRead ∧
        t.requested = m.requested ++ receipts wanted id peer)
      (fun _ _ => False) m := by
  rw [wp_when, receipts]
  split
  · cases peer with
    | none => exact ⟨rfl, rfl, rfl, by simp⟩
    | some p => exact ⟨rfl, rfl, rfl, rfl⟩
  · exact ⟨rfl, rfl, rfl, by simp⟩

/-- The message as the message processor gets it. -/
def incoming (msg : WaMessage) (sender : Sender) (group : Option Nat) : IncomingMessage :=
  ⟨msg.id, sender.peer, sender.fromJid, group, msg.content, msg.quoted, msg.time⟩

/-- A message has been dealt with up to its end: its lines are in new rows. -/
structure BridgedAs (msg : WaMessage) (sender : Sender) (group : Option Nat)
    (lines : List ProcessedIncomingMessage) (new : List Message)
    (s t : WhatsappManager) : Prop where
  ofMessage : LinesOf (incoming msg sender group) lines (isMedia msg.content)
  tells : TellsOf (incoming msg sender group) s.msgproc.store lines
  adds : Adds s.msgproc.store t.msgproc.store
  processed : ∃ p, exec (processWaIncoming (incoming msg sender group)) s.msgproc =
    (.ok (lines, isMedia msg.content), p)
  rows : t.msgproc.store.messages.rows = s.msgproc.store.messages.rows ++ new
  stored : Stored sender.fromJid group msg.time (lines.map ProcessedIncomingMessage.text) new
  downloads : t.msgproc.downloads =
    s.msgproc.downloads ++ started (incoming msg sender group)
  rx : t.rx = s.rx
  markRead : t.markRead = s.markRead
  msgids : t.msgproc.store.waMsgids =
    if lines ≠ [] ∧ ¬ isMedia msg.content then recordId msg.id s.msgproc.store.waMsgids
    else s.msgproc.store.waMsgids
  requested : ∃ reqs, (∀ r ∈ reqs, isRead r = false) ∧ t.requested = s.requested ++ reqs ++
    receipts (¬ isMedia msg.content ∧ ¬ sender.isOurs ∧ s.markRead) msg.id sender.peer

/-- Something went wrong before a message was marked as seen. -/
structure Unseen (s t : WhatsappManager) : Prop where
  rows : ∃ new, t.msgproc.store.messages.rows = s.msgproc.store.messages.rows ++ new
  msgids : t.msgproc.store.waMsgids = s.msgproc.store.waMsgids
  requested : ∃ reqs, t.requested = s.requested ++ reqs ∧ ∀ r ∈ reqs, isRead r = false

theorem Wrote.unseen {new : List Message} {s t : WhatsappManager} (h : Wrote new s t) :
    Unseen s t := ⟨⟨new, h.rows⟩, h.msgids, h.requested⟩

/-- The rows hold lines of a message, each of them once and in their order. -/
def OnceEach (msg : WaMessage) (s t : Store) (new : List Message) : Prop :=
  new = [] ∨ ∃ group texts, Lines s t msg.content group msg.quoted texts ∧
    new.map Message.text <+: texts.map some

/-- Something went wrong before a message was marked as seen, at most after some of its lines
have been stored. -/
def Interrupted (msg : WaMessage) (s t : WhatsappManager) : Prop :=
  Unseen s t ∧ ∃ new, t.msgproc.store.messages.rows = s.msgproc.store.messages.rows ++ new ∧
    OnceEach msg s.msgproc.store t.msgproc.store new

theorem OnceEach.mono {msg : WaMessage} {s t s' t' : Store} {new : List Message}
    (h : OnceEach msg s t new) (hs : Adds s' s) (ht : Adds t t') : OnceEach msg s' t' new := by
  rcases h with h | ⟨group, texts, hlines, hnew⟩
  · exact .inl h
  · exact .inr ⟨group, texts, hlines.mono hs ht, hnew⟩

theorem OnceEach.of_lines {msg : WaMessage} {sender : Sender} {group : Option Nat} {s t : Store}
    {lines : List ProcessedIncomingMessage} {new : List Message}
    (h : TellsOf (incoming msg sender group) s lines) (ht : Adds s t)
    (hnew : new.map Message.text <+: lines.map fun line => some line.text) :
    OnceEach msg s t new := by
  by_cases hlines : lines = []
  · rw [hlines, List.map_nil, List.prefix_nil, List.map_eq_nil_iff] at hnew
    exact .inl hnew
  · refine .inr ⟨group, _, (h.texts hlines).mono (Std.Refl.refl (r := Adds) s) ht, ?_⟩
    rw [List.map_map]
    exact hnew

theorem BridgedAs.onceEach {msg : WaMessage} {sender : Sender} {group : Option Nat}
    {lines : List ProcessedIncomingMessage} {new : List Message} {s t : WhatsappManager}
    (h : BridgedAs msg sender group lines new s t) :
    OnceEach msg s.msgproc.store t.msgproc.store new := by
  refine .of_lines h.tells h.adds (h.stored.prefixed.trans ?_)
  rw [List.map_map]
  exact List.prefix_rfl

theorem Calm.interrupted {msg : WaMessage} {s t : WhatsappManager} (h : Calm s t) :
    Interrupted msg s t := ⟨h.unseen, [], h.rows, .inl rfl⟩

theorem wp_withProcessed (inc : IncomingMessage) (m : WhatsappManager) :
    wp (withMsgproc (processWaIncoming inc))
      (fun r t => (∃ p, exec (processWaIncoming inc) m.msgproc = (.ok r, p)) ∧
        LinesOf inc r.1 r.2 ∧ TellsOf inc m.msgproc.store r.1 ∧
        ∃ p, LookedAt inc m.msgproc p ∧ t = { m with msgproc := p })
      (fun _ t => Unseen m t ∧
        t.msgproc.store.messages.rows = m.msgproc.store.messages.rows) m := by
  apply (wp_zoom _).mpr
  refine wp_mono (wp_and (wp_exec _ _) (wp_and (wp_processWaIncoming inc m.msgproc)
    (WhatsappSays.wp_processWaIncoming inc m.msgproc))) ?_ ?_
  · rintro r p ⟨hexec, ⟨hp, hlines⟩, htells⟩
    exact ⟨⟨p, hexec⟩, hlines, htells, p, hp, rfl⟩
  · rintro _ p ⟨_, ⟨-, hmessages, hmsgids⟩, -⟩
    exact ⟨⟨⟨[], by simp [hmessages]⟩, hmsgids, [], by simp, by simp⟩, by rw [hmessages]⟩

theorem wp_bridgeMessage (msg : WaMessage) (sender : Sender) (group : Option Nat)
    (m : WhatsappManager) :
    wp (bridgeMessage msg sender group)
      (fun _ t => ∃ lines new, BridgedAs msg sender group lines new m t)
      (fun _ t => Interrupted msg m t) m := by
  rw [bridgeMessage, wp_bind]
  refine wp_mono (wp_withProcessed (incoming msg sender group) m) ?_
    fun _ _ h => ⟨h.1, [], by rw [h.2, List.append_nil], .inl rfl⟩
  rintro ⟨lines, media⟩ _ ⟨hexec, hlines, htells, p, hp, rfl⟩
  obtain rfl : media = isMedia msg.content := hlines.media
  dsimp only
  -- the store of the message processor has not changed so far
  have hlooked : ∀ {new : List Message} {t : WhatsappManager},
      Wrote new { m with msgproc := p } t →
      t.msgproc.store.messages.rows = m.msgproc.store.messages.rows ++ new ∧
        t.msgproc.store.waMsgids = m.msgproc.store.waMsgids ∧
        Adds m.msgproc.store t.msgproc.store := by
    intro new t h
    exact ⟨h.rows.trans (by rw [hp.messages]), h.msgids.trans hp.msgids,
      IsTrans.trans (r := Adds) _ _ _ hp.adds h.adds⟩
  have hinterrupted : ∀ {new : List Message} {t : WhatsappManager},
      Wrote new { m with msgproc := p } t →
      new.map Message.text <+: (lines.map fun line => some line.text) → Interrupted msg m t := by
    intro new t h hnew
    obtain ⟨hrows, hids, hadds⟩ := hlooked h
    exact ⟨⟨⟨new, hrows⟩, hids, h.requested⟩, new, hrows, .of_lines htells hadds hnew⟩
  rw [wp_bind]
  refine wp_mono (wp_storeLines htells _) ?_ fun _ t ⟨new, h, hnew⟩ => hinterrupted h hnew
  rintro _ t ⟨new, hnew, hstored⟩
  have hprefix : new.map Message.text <+: lines.map fun line => some line.text := by
    have := hstored.prefixed
    rwa [List.map_map] at this
  obtain ⟨hrows, hids, hadds⟩ := hlooked hnew
  obtain ⟨reqs, hreqs, hread⟩ := hnew.requested
  have hend : ∀ u : WhatsappManager, Adds t.msgproc.store u.msgproc.store →
      u.msgproc.store.messages = t.msgproc.store.messages →
      u.msgproc.downloads = t.msgproc.downloads → u.rx = t.rx → u.markRead = t.markRead →
      u.requested = t.requested → (u.msgproc.store.waMsgids =
        if lines ≠ [] ∧ ¬ isMedia msg.content then recordId msg.id m.msgproc.store.waMsgids
        else m.msgproc.store.waMsgids) →
      wp (do
          let m ← get
          when (¬ isMedia msg.content ∧ ¬ sender.isOurs ∧ m.markRead)
            (markAsRead msg.id sender.peer))
        (fun _ v => ∃ lines new, BridgedAs msg sender group lines new m v)
        (fun _ v => Interrupted msg m v) u := by
    intro u hu hmessages hdl hrx hmark hreq hmsgids
    rw [wp_bind, wp_get]
    refine wp_mono (wp_markAsRead _ _ _ u) ?_ fun _ _ h => h.elim
    rintro _ v ⟨hproc, hrx', hmark', hreq'⟩
    refine ⟨lines, new, hlines, htells, ?_, hexec, ?_, hstored, ?_, ?_, ?_, ?_, reqs, hread, ?_⟩
    · rw [hproc]
      exact IsTrans.trans (r := Adds) _ _ _ hadds hu
    · rw [hproc, hmessages, hrows]
    · rw [hproc, hdl, hnew.downloads, ← hp.downloads]
    · rw [hrx', hrx, hnew.rx]
    · rw [hmark', hmark, hnew.markRead]
    · rw [hproc, hmsgids]
    · rw [hreq', hreq, hreqs]
      simp only [hmark, hnew.markRead]
  rw [wp_bind, wp_when]
  split
  · rename_i hseen
    refine wp_mono (wp_storeWaMsgid msg.id t) ?_
      fun _ u hu => hinterrupted (hnew.calm hu) hprefix
    rintro _ _ rfl
    refine hend _ (adds_of_eq rfl rfl rfl) rfl rfl rfl rfl rfl ?_
    rw [if_pos hseen, ← hids]
    rfl
  · rename_i hseen
    apply hend t (Std.Refl.refl (r := Adds) t.msgproc.store) rfl rfl rfl rfl rfl
    rw [if_neg hseen, hids]

/-- A message has been ignored; one of ours may be marked as seen. -/
structure Ignored (msg : WaMessage) (s t : WhatsappManager) : Prop where
  messages : t.msgproc.store.messages.rows = s.msgproc.store.messages.rows
  downloads : t.msgproc.downloads = s.msgproc.downloads
  rx : t.rx = s.rx
  markRead : t.markRead = s.markRead
  msgids : t.msgproc.store.waMsgids = s.msgproc.store.waMsgids ∨
    (∃ jid, msg.direction = .sending jid) ∧
      t.msgproc.store.waMsgids = recordId msg.id s.msgproc.store.waMsgids
  requested : ∃ reqs, t.requested = s.requested ++ reqs ∧ ∀ r ∈ reqs, isRead r = false

theorem Calm.ignored {msg : WaMessage} {s t : WhatsappManager} (h : Calm s t) :
    Ignored msg s t :=
  ⟨by simpa using h.rows, h.downloads, h.rx, h.markRead, .inl h.msgids, h.requested⟩

theorem Ignored.after {msg : WaMessage} {s t u : WhatsappManager} (h : Ignored msg t u)
    (h' : Calm s t) : Ignored msg s u := by
  obtain ⟨reqs, hreqs, hread⟩ := h'.requested
  obtain ⟨reqs', hreqs', hread'⟩ := h.requested
  refine ⟨by simpa using h.messages.trans h'.rows, h.downloads.trans h'.downloads,
    h.rx.trans h'.rx, h.markRead.trans h'.markRead, ?_, reqs ++ reqs',
    by rw [hreqs', hreqs, List.append_assoc], fun r hr => ?_⟩
  · rw [← h'.msgids]
    exact h.msgids
  · rcases List.mem_append.mp hr with hr | hr
    · exact hread r hr
    · exact hread' r hr

/-- The ids that are stored are looked at. -/
def Looked (m : WhatsappManager) (isNew : Bool) : Prop := m.markRead = false ∨ isNew = false

theorem wp_alreadyStored (msg : WaMessage) (isNew : Bool) (m : WhatsappManager) :
    wp (alreadyStored msg isNew)
      (fun known t => Calm m t ∧
        (known = false → Looked m isNew → msg.id ∉ m.msgproc.store.waMsgids))
      (fun _ t => Calm m t) m := by
  rw [alreadyStored, wp_bind, wp_get]
  split
  · rw [wp_store]
    exact wp_query_of (calm_setStore (sameSeen_tick _))
      ⟨calm_setStore (sameSeen_tick _), fun hknown _ => of_decide_eq_false hknown⟩
  · rename_i hno
    refine ⟨calm_refl m, fun _ hlooked => absurd ?_ hno⟩
    rcases hlooked with h | h <;> simp [h]

theorem wp_senderOf (msg : WaMessage) (m : WhatsappManager) :
    wp (senderOf msg)
      (fun r t => (r = none ∧ Ignored msg m t) ∨
        ∃ sender, r = some sender ∧ t = m ∧ SentBy sender msg.direction)
      (fun _ t => Calm m t) m := by
  unfold senderOf
  split
  · rename_i jid hdir
    rw [wp_bind, wp_get]
    split
    · exact calm_refl m
    · split
      · rename_i hgroup
        rw [hdir]
        exact .inr ⟨_, rfl, rfl, rfl, rfl, hgroup⟩
      · rw [wp_bind]
        refine wp_mono (wp_storeWaMsgid msg.id m) ?_ fun _ _ h => h
        rintro _ _ rfl
        exact .inl ⟨rfl, rfl, rfl, rfl, rfl, .inr ⟨⟨jid, hdir⟩, rfl⟩, [], by simp [setStore],
          by simp⟩
  · rename_i j hdir
    rw [hdir]
    exact .inr ⟨_, rfl, rfl, rfl⟩
  · rename_i g participant hdir
    rw [hdir]
    exact .inr ⟨_, rfl, rfl, rfl⟩

theorem Unseen.after {s t u : WhatsappManager} (h : Calm s t) (h' : Unseen t u) :
    Unseen s u := by
  obtain ⟨new, hnew⟩ := h'.rows
  obtain ⟨reqs, hreqs, hread⟩ := h.requested
  obtain ⟨reqs', hreqs', hread'⟩ := h'.requested
  refine ⟨⟨new, by rw [hnew, h.rows, List.append_nil]⟩, h'.msgids.trans h.msgids, reqs ++ reqs',
    by rw [hreqs', hreqs, List.append_assoc], fun r hr => ?_⟩
  rcases List.mem_append.mp hr with hr | hr
  · exact hread r hr
  · exact hread' r hr

/-- Whether a group is not bridged, and will not be. -/
def unbridged (m : WhatsappManager) (gid : Jid) : Bool :=
  gid.id = ("status" : Str) || m.autocreate.isNone &&
    (m.msgproc.store.groups.rows.find? fun grp => grp.jid = Crates.displayJid gid).isNone

/-- Whether a message is not to be bridged because of where it has been sent. -/
def misdirected (m : WhatsappManager) : Direction → Bool
  | .sending jid => !jid.isGroup || unbridged m jid
  | .receiving (.individual _) => false
  | .receiving (.group gid _) => unbridged m gid

/-- Whether a message is not to be bridged. -/
def skips (m : WhatsappManager) (msg : WaMessage) (isNew : Bool) : Bool :=
  (!m.markRead || !isNew) && decide (msg.id ∈ m.msgproc.store.waMsgids) ||
    beforeBacklog m msg isNew || misdirected m msg.direction

theorem wp_targetOf_unbridged {gid : Jid} {m : WhatsappManager} (h : unbridged m gid = true) :
    wp (targetOf (some gid)) (fun r t => r = none ∧ Calm m t) (fun _ t => Calm m t) m := by
  rw [targetOf, wp_bind, bridgedGroup]
  split
  · exact ⟨rfl, calm_refl m⟩
  · rename_i hid
    rw [unbridged, Bool.or_eq_true, decide_eq_true_eq, or_iff_right hid, Bool.and_eq_true,
      Option.isNone_iff_eq_none, Option.isNone_iff_eq_none] at h
    rw [wp_bind, wp_store]
    refine wp_query_of (calm_setStore (sameSeen_tick _)) ?_
    simp only [Store.tick_groups, h.2, wp_bind, wp_get]
    rw [if_neg (by simp [setStore, h.1])]
    exact ⟨rfl, calm_setStore (sameSeen_tick _)⟩

/-- A query may have been made. -/
def Ticked (m t : WhatsappManager) : Prop := t = m ∨ t = setStore m m.msgproc.store.tick

theorem Ticked.calm {m t : WhatsappManager} (h : Ticked m t) : Calm m t := by
  rcases h with rfl | rfl
  · exact calm_refl t
  · exact calm_setStore (sameSeen_tick _)

theorem wp_alreadyStored_eq (msg : WaMessage) (isNew : Bool) (m : WhatsappManager) :
    wp (alreadyStored msg isNew)
      (fun known t => Ticked m t ∧
        known = ((!m.markRead || !isNew) && decide (msg.id ∈ m.msgproc.store.waMsgids)))
      (fun _ t => Ticked m t) m := by
  rw [alreadyStored, wp_bind, wp_get]
  split
  · rename_i h
    rw [wp_store]
    exact wp_query_of (.inr rfl) ⟨.inr rfl, by rw [h, Bool.true_and]; rfl⟩
  · rename_i h
    exact ⟨.inl rfl, by rw [Bool.not_eq_true] at h; rw [h, Bool.false_and]⟩

/-- A message goes to the channel of the group that it has been sent to, if it has. -/
def Placed (st : Store) : Option Jid → Option Nat → Prop
  | none, target => target = none
  | some gid, target =>
      ∃ grp ∈ st.groups.rows, grp.jid = Crates.displayJid gid ∧ target = some grp.id

theorem Placed.mono {st st' : Store} {group : Option Jid} {target : Option Nat}
    (h : Placed st group target) (hst : Adds st st') : Placed st' group target := by
  cases group with
  | none => exact h
  | some gid =>
      obtain ⟨grp, hgrp, hjid, htarget⟩ := h
      exact ⟨grp, hst.groups grp hgrp, hjid, htarget⟩

theorem wp_storeGroup (jid : Jid) (chan : Str) (parts adms : List Nat) (topic : Str)
    (st : Store) :
    wp (storeGroup jid chan parts adms topic)
      (fun grp st' => grp ∈ st'.groups.rows ∧ grp.jid = Crates.displayJid jid)
      (fun _ _ => True) st := by
  unfold storeGroup
  dsimp only
  rw [wp_bind]
  apply wp_query_of trivial
  split
  · trivial
  · exact ⟨List.mem_append_right _ (List.mem_singleton_self _), rfl⟩

theorem wp_groupAssociate (jid : Jid) (chan : Str) (update : Bool) (m : WhatsappManager) :
    wp (groupAssociate jid chan update)
      (fun id t => Placed t.msgproc.store (some jid) (some id)) (fun _ _ => True) m := by
  refine wp_skip fun _ _ => wp_skip fun _ _ => wp_skip fun _ t => ?_
  rw [wp_bind, wp_store]
  refine wp_mono (wp_storeGroup _ _ _ _ _ _) ?_ fun _ _ _ => trivial
  rintro grp st ⟨hgrp, hjid⟩
  have hrest : Moves Calm (do
      when update (requestUpdateGroup jid)
      onGroupsChanged
      pure grp.id) :=
    Steps.bind (Steps.when (calm_pushBack rfl)) fun _ =>
      Steps.bind bridging_calm.onGroupsChanged fun _ => steps_pure _
  have hid : wp (do
      when update (requestUpdateGroup jid)
      onGroupsChanged
      pure grp.id) (fun id _ => id = grp.id) (fun _ _ => True) (setStore t st) :=
    wp_skip fun _ _ => wp_skip fun _ _ => rfl
  refine wp_mono (wp_and (hrest (setStore t st)) hid) ?_ fun _ _ _ => trivial
  rintro _ u ⟨hu, rfl⟩
  exact ⟨grp, hu.adds.groups grp hgrp, hjid, rfl⟩

theorem wp_groupAutocreateFromUnbridged (gid : Jid) (m : WhatsappManager) :
    wp (groupAutocreateFromUnbridged gid)
      (fun id t => Placed t.msgproc.store (some gid) (some id)) (fun _ _ => True) m := by
  rw [groupAutocreateFromUnbridged, wp_bind, wp_get]
  split
  · trivial
  · split
    · trivial
    · exact wp_skip fun _ _ => wp_groupAssociate _ _ _ _

theorem wp_bridgedGroup (gid : Jid) (m : WhatsappManager) :
    wp (bridgedGroup gid)
      (fun r t => ∀ id ∈ r, Placed t.msgproc.store (some gid) (some id))
      (fun _ _ => True) m := by
  unfold bridgedGroup
  split
  · simp
  rw [wp_bind, wp_store, getGroupByJidOpt]
  apply wp_query_of trivial
  split
  · rename_i grp hgrp
    rintro id ⟨⟩
    exact ⟨grp, List.mem_of_find?_eq_some hgrp, by simpa using List.find?_some hgrp, rfl⟩
  · rw [wp_bind, wp_get]
    split
    · rw [wp_bind]
      refine wp_attempt (wp_mono (wp_groupAutocreateFromUnbridged gid _) ?_ ?_)
        (wp_mono (wp_exec _ _) (fun _ _ _ => trivial) fun _ _ _ _ _ => trivial)
      · rintro id t hid id' ⟨⟩
        exact hid
      · rintro e t - -
        exact wp_skip fun _ _ => by simp
    · simp

theorem wp_targetOf (group : Option Jid) (m : WhatsappManager) :
    wp (targetOf group) (fun r t => ∀ target ∈ r, Placed t.msgproc.store group target)
      (fun _ _ => True) m := by
  cases group with
  | none =>
      rintro target ⟨⟩
      rfl
  | some gid =>
      rw [targetOf, wp_bind]
      refine wp_mono (wp_bridgedGroup gid m) ?_ fun _ _ h => h
      rintro (_ | id) t hid target ⟨⟩
      exact hid id rfl

/-- What `on_message` does when it succeeds: the message is ignored, or it is
bridged, and then its id was not recorded if the ids have been looked at. -/
def Answered (msg : WaMessage) (isNew : Bool) (m t : WhatsappManager) : Prop :=
  Ignored msg m t ∨
    ∃ u sender group lines new, Calm m u ∧ SentBy sender msg.direction ∧
      Placed u.msgproc.store sender.group group ∧
      (Looked m isNew → msg.id ∉ m.msgproc.store.waMsgids) ∧
      BridgedAs msg sender group lines new u t

theorem Interrupted.after {msg : WaMessage} {s t u : WhatsappManager} (h : Calm s t)
    (h' : Interrupted msg t u) : Interrupted msg s u := by
  obtain ⟨hunseen, new, hrows, honce⟩ := h'
  refine ⟨hunseen.after h, new, ?_, honce.mono h.adds (Std.Refl.refl (r := Adds) u.msgproc.store)⟩
  rw [hrows, h.rows, List.append_nil]

theorem wp_onMessage (msg : WaMessage) (isNew : Bool) (m : WhatsappManager) :
    wp (onMessage msg isNew) (fun _ t => Answered msg isNew m t)
      (fun _ t => Interrupted msg m t ∧
        (t.msgproc.store.messages.rows = m.msgproc.store.messages.rows ∨
          (Looked m isNew → msg.id ∉ m.msgproc.store.waMsgids))) m := by
  have hcalm : ∀ {t : WhatsappManager}, Calm m t → Interrupted msg m t ∧
      (t.msgproc.store.messages.rows = m.msgproc.store.messages.rows ∨
        (Looked m isNew → msg.id ∉ m.msgproc.store.waMsgids)) :=
    fun h => ⟨h.interrupted, .inl (by simpa using h.rows)⟩
  rw [onMessage, wp_bind]
  refine wp_mono (wp_alreadyStored msg isNew m) ?_ fun _ _ h => hcalm h
  rintro known t ⟨ht, hknown⟩
  rw [wp_bind, wp_get]
  split
  · exact .inl ht.ignored
  rename_i hgo
  rw [Bool.or_eq_true, not_or, Bool.not_eq_true] at hgo
  have hnew : Looked m isNew → msg.id ∉ m.msgproc.store.waMsgids := hknown hgo.1
  rw [wp_bind]
  refine wp_mono (wp_senderOf msg t) ?_
    fun _ _ h => hcalm (IsTrans.trans (r := Calm) _ _ _ ht h)
  rintro r u (⟨rfl, hu⟩ | ⟨sender, rfl, rfl, hsender⟩)
  · exact .inl (hu.after ht)
  · dsimp only
    rw [wp_bind]
    refine wp_mono (wp_and ((bridging_calm.targetOf sender.group).after ht)
      (wp_targetOf sender.group u)) ?_ fun _ _ h => hcalm h.1.1
    rintro (_ | group) v ⟨hv, hplaced⟩
    · exact .inl hv.ignored
    · refine wp_mono (wp_bridgeMessage msg sender group v) ?_
        fun _ _ h => ⟨h.after hv, .inr hnew⟩
      rintro _ w ⟨lines, new, hw⟩
      exact .inr ⟨v, sender, group, lines, new, hv, hsender, hplaced group rfl, hnew, hw⟩

theorem group_of_misdirected {m : WhatsappManager} {sender : Sender} {dir : Direction}
    (hsender : SentBy sender dir) (h : misdirected m dir = true) :
    ∃ gid, sender.group = some gid ∧ unbridged m gid = true := by
  cases dir with
  | sending jid =>
      refine ⟨jid, hsender.2.1, ?_⟩
      rwa [misdirected, hsender.2.2, Bool.not_true, Bool.false_or] at h
  | receiving peer =>
      cases peer with
      | individual jid => cases h
      | group gid participant => exact ⟨gid, congrArg Sender.group hsender, h⟩

theorem wp_onMessage_skipped {msg : WaMessage} {isNew : Bool} {m : WhatsappManager}
    (h : skips m msg isNew = true) :
    wp (onMessage msg isNew) (fun _ t => Ignored msg m t) (fun _ t => Calm m t) m := by
  rw [onMessage, wp_bind]
  refine wp_mono (wp_alreadyStored_eq msg isNew m) ?_ fun _ _ h => h.calm
  rintro _ t ⟨ht, rfl⟩
  have hcalm := ht.calm
  have hbacklog : beforeBacklog t msg isNew = beforeBacklog m msg isNew := by
    rcases ht with rfl | rfl <;> rfl
  have hdirection : misdirected t msg.direction = misdirected m msg.direction := by
    rcases ht with rfl | rfl <;> rfl
  rw [wp_bind, wp_get, hbacklog]
  split
  · exact hcalm.ignored
  rename_i hgo
  have hmis : misdirected t msg.direction = true := by
    rw [skips, Bool.or_eq_true, or_iff_right hgo] at h
    rw [hdirection, h]
  rw [wp_bind]
  refine wp_mono (wp_senderOf msg t) ?_ fun _ _ h => IsTrans.trans (r := Calm) _ _ _ hcalm h
  rintro r u (⟨rfl, hu⟩ | ⟨sender, rfl, rfl, hsender⟩)
  · exact hu.after hcalm
  · obtain ⟨gid, hgid, hunbridged⟩ := group_of_misdirected hsender hmis
    dsimp only
    rw [wp_bind, hgid]
    refine wp_mono (wp_targetOf_unbridged hunbridged) ?_
      fun _ _ h => IsTrans.trans (r := Calm) _ _ _ hcalm h
    rintro _ v ⟨rfl, hv⟩
    exact (IsTrans.trans (r := Calm) _ _ _ hcalm hv).ignored

/-- What `media_finished` does when it succeeds. -/
structure FinishedAs (r : MediaResult) (new : List Message) (s t : WhatsappManager) :
    Prop where
  rows : t.msgproc.store.messages.rows = s.msgproc.store.messages.rows ++ new
  stored : Stored r.fromJid r.group r.ts [resultText r.result] new
  downloads : t.msgproc.downloads = s.msgproc.downloads
  rx : t.rx = s.rx
  markRead : t.markRead = s.markRead
  msgids : t.msgproc.store.waMsgids = recordId r.mi s.msgproc.store.waMsgids
  requested : ∃ reqs, (∀ q ∈ reqs, isRead q = false) ∧
    t.requested = s.requested ++ reqs ++ receipts (s.markRead = true) r.mi r.peer

omit [Crates] in
theorem fetched_resultText (result : Except Str Str) : Fetched result (resultText result) := by
  cases result with
  | ok link => exact .link link
  | error e => exact .failed e

theorem wp_mediaFinished (r : MediaResult) (m : WhatsappManager) :
    wp (mediaFinished r) (fun _ t => ∃ new, FinishedAs r new m t)
      (fun _ t => Unseen m t ∧ ∃ new, Wrote new m t ∧
        new.map Message.text <+: [some (resultText r.result)]) m := by
  have hwrote : ∀ {new : List Message} {t : WhatsappManager}, Wrote new m t →
      new.map Message.text <+: [some (resultText r.result)] →
      Unseen m t ∧ ∃ new, Wrote new m t ∧ new.map Message.text <+: [some (resultText r.result)] :=
    fun h hnew => ⟨h.unseen, _, h, hnew⟩
  rw [mediaFinished, wp_bind]
  refine wp_mono (wp_storeMessage _ _ _ _ m) ?_ fun _ _ h => hwrote h List.nil_prefix
  rintro _ t ⟨new, hnew, hstored⟩
  obtain ⟨reqs, hreqs, hread⟩ := hnew.requested
  rw [wp_bind]
  refine wp_mono (wp_storeWaMsgid r.mi t) ?_ fun _ _ h => hwrote (hnew.calm h) hstored.prefixed
  rintro _ _ rfl
  rw [wp_bind, wp_get]
  refine wp_mono (wp_markAsRead _ _ _ _) ?_ fun _ _ h => h.elim
  rintro _ v ⟨hproc, hrx, hmark, hreq⟩
  refine ⟨new, ?_, hstored, ?_, hrx.trans hnew.rx, hmark.trans hnew.markRead, ?_, reqs, hread, ?_⟩
  · rw [hproc]
    exact hnew.rows
  · rw [hproc]
    exact hnew.downloads
  · rw [hproc, ← hnew.msgids]
    rfl
  · rw [hreq, ← hreqs]
    simp only [← hnew.markRead]
    rfl

end Incoming

end SmsIrc.WhatsappIncoming
