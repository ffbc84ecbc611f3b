import SmsIrc.WhatsappIncoming

/-!
When a message from a peer is marked as seen, it has been bridged, unless nothing
is left of its content or its sender has no address.
-/

namespace SmsIrc.WhatsappSeen

open SmsIrc.Comm SmsIrc.Database SmsIrc.External SmsIrc.HashMaps SmsIrc.Models SmsIrc.Program
open SmsIrc.SenderCommon SmsIrc.SerialTable SmsIrc.Text SmsIrc.Util SmsIrc.WaConn
open SmsIrc.Whatsapp SmsIrc.WhatsappFrame SmsIrc.WhatsappIncoming SmsIrc.WhatsappMsg
open SmsIrc.WhatsappRuns SmsIrc.WhatsappSays

/-- A message from a peer. -/
structure Received where
  peer : Peer
  time : NaiveDateTime
  id : Str
  content : ChatMessageContent
  quoted : Option QuotedChatMessage

def Received.message (r : Received) : WaMessage :=
  ⟨.receiving r.peer, r.time, r.id, r.content, r.quoted⟩

/-- What marks messages as seen. -/
inductive Handled where
  | message (r : Received) (isNew : Bool)
  | mediaFinished (r : MediaResult)

def Handled.id : Handled → Str
  | .message r _ => r.id
  | .mediaFinished r => r.mi

/-- Who has written what a peer has sent. -/
def author : Peer → Jid
  | .individual jid => jid
  | .group _ participant => participant

def groupOf : Peer → Option Jid
  | .individual _ => none
  | .group gid _ => some gid

/-- A message of the list that is shown to no one. -/
def inStatus : Peer → Bool
  | .individual _ => false
  | .group gid _ => gid.id = ("status" : Str)

section Seen

variable [Crates]

def Handled.handler : Handled → WaM Unit
  | .message r isNew => onMessage r.message isNew
  | .mediaFinished r => Whatsapp.mediaFinished r

/-- A message has been marked as seen: its id has been recorded, or the peer is
told that it has been read. -/
def Seen (id : Str) (s t : WhatsappManager) : Prop :=
  (id ∈ t.msgproc.store.waMsgids ∧ id ∉ s.msgproc.store.waMsgids) ∨
    ∃ peer, .messageRead id peer ∈ t.requested.drop s.requested.length

/-- Rows have been inserted that tell of a message, or of the end of a download: each of its
lines is in one of them, in the name of who has written it and for the channel of its group. -/
def Told : Handled → WhatsappManager → WhatsappManager → Prop
  | .message r _, s, t => ∃ group texts new,
      t.msgproc.store.messages.rows = s.msgproc.store.messages.rows ++ new ∧
      Placed t.msgproc.store (groupOf r.peer) group ∧
      Lines s.msgproc.store t.msgproc.store r.content group r.quoted texts ∧
      List.Forall₂ (Holds (author r.peer) group r.time) texts new
  | .mediaFinished r, s, t => ∃ text row,
      t.msgproc.store.messages.rows = s.msgproc.store.messages.rows ++ [row] ∧
      Fetched r.result text ∧ Holds r.fromJid r.group r.ts text row

/-- A mention in a text that no address can be made of. -/
def unparsable : Piece → Bool
  | .plain _ => false
  | .mention digits => (Crates.parseAddress ('+' :: digits)).isNone

/-- The pieces of a text with its formatting. -/
def piecesOf (s : Str) : List Piece :=
  mentionPieces none (replaceDelimited '_' '\x1d' none (replaceDelimited '*' '\x02' none s))

/-- A message that cannot be processed. -/
def unprocessable : ChatMessageContent → Bool
  | .text s => (piecesOf s).any unparsable
  | _ => false

/-- Content and sender with which marking as seen does no harm. -/
def harmless : Handled → Bool → Bool
  | .message r _, markRead =>
      isMedia r.content || inStatus r.peer ||
        if isEmpty r.content then !markRead
        else unprocessable r.content || !addressless (author r.peer)
  | .mediaFinished r, _ => !addressless r.fromJid

omit [Crates] in
theorem fromJid_receivedFrom (peer : Peer) : (receivedFrom peer).fromJid = author peer := by
  cases peer <;> rfl

omit [Crates] in
theorem group_receivedFrom (peer : Peer) : (receivedFrom peer).group = groupOf peer := by
  cases peer <;> rfl

theorem processWaTextMessage_eq (s : Str) :
    processWaTextMessage s = (do
      let pieces ← (piecesOf s).mapM replacePiece
      pure pieces.flatten) := rfl

theorem wp_processWaIncoming_fails {inc : IncomingMessage}
    (h : unprocessable inc.content = true) (p : WaMessageProcessor) :
    wp (processWaIncoming inc) (fun _ _ => False) (fun _ _ => True) p := by
  cases hcontent : inc.content with
  | text s =>
      rw [hcontent] at h
      obtain ⟨piece, hpiece, hun⟩ := List.any_eq_true.mp h
      have hfails : ∀ q, wp (replacePiece piece) (fun _ _ => False) (fun _ _ => True) q := by
        intro q
        cases piece with
        | plain c => cases hun
        | mention digits =>
            rw [unparsable, Option.isNone_iff_eq_none] at hun
            rw [replacePiece, hun, wp_bind, wp_unwrap_none]
            trivial
      rw [processWaIncoming, wp_bind]
      unfold contentText
      rw [hcontent]
      dsimp only
      rw [wp_map, processWaTextMessage_eq, wp_bind]
      exact wp_mono (wp_mapM_fails hpiece hfails p) (fun _ _ h => h.elim) fun _ _ h => h
  | _ =>
      rw [hcontent] at h
      cases h

theorem notSeen {id : Str} {s t : WhatsappManager} (reqs : List WaRequest)
    (hids : t.msgproc.store.waMsgids = s.msgproc.store.waMsgids)
    (hreqs : t.requested = s.requested ++ reqs) (hread : ∀ r ∈ reqs, isRead r = false) :
    ¬ Seen id s t := by
  rintro (⟨h, h'⟩ | ⟨peer, h⟩)
  · rw [hids] at h
    exact h' h
  · rw [hreqs, List.drop_left] at h
    cases hread _ h

theorem Unseen.notSeen {id : Str} {s t : WhatsappManager} (h : Unseen s t) : ¬ Seen id s t := by
  obtain ⟨reqs, hreqs, hread⟩ := h.requested
  exact WhatsappSeen.notSeen reqs h.msgids hreqs hread

/-- A message that has been bridged without its id being recorded and without a
receipt is not seen. -/
theorem notSeen_of_bridged {r : Received} {group : Option Nat}
    {lines : List ProcessedIncomingMessage} {new : List Message} {s u t : WhatsappManager}
    (hu : Calm s u) (ht : BridgedAs r.message (receivedFrom r.peer) group lines new u t)
    (hids : lines ≠ [] → isMedia r.content = true)
    (hreceipt : isMedia r.content = false → s.markRead = false) : ¬ Seen r.id s t := by
  obtain ⟨reqs, hreqs, hread⟩ := hu.requested
  obtain ⟨reqs', hread', hreqs'⟩ := ht.requested
  have hnone : receipts (¬ isMedia r.message.content = true ∧
      ¬ (receivedFrom r.peer).isOurs = true ∧ u.markRead = true) r.message.id
        (receivedFrom r.peer).peer = [] := by
    apply if_neg
    rintro ⟨hmedia, -, hmark⟩
    rw [hu.markRead, hreceipt (Bool.not_eq_true _ ▸ hmedia)] at hmark
    cases hmark
  refine notSeen (reqs ++ reqs') ?_ ?_ ?_
  · rw [ht.msgids, if_neg fun h => h.2 (hids h.1), hu.msgids]
  · rw [hreqs', hnone, hreqs, List.append_nil, List.append_assoc]
  · intro q hq
    rcases List.mem_append.mp hq with hq | hq
    · exact hread q hq
    · exact hread' q hq

/-- A message that has been bridged up to its end, and is seen, is told of. -/
theorem told_of_bridged {r : Received} {isNew : Bool} {group : Option Nat}
    {lines : List ProcessedIncomingMessage} {new : List Message} {s u t : WhatsappManager}
    (hharm : harmless (.message r isNew) s.markRead = true) (hpeer : inStatus r.peer = false)
    (hu : Calm s u) (hplaced : Placed u.msgproc.store (receivedFrom r.peer).group group)
    (ht : BridgedAs r.message (receivedFrom r.peer) group lines new u t)
    (hseen : Seen r.id s t) : Told (.message r isNew) s t := by
  obtain ⟨q, hprocessed⟩ := ht.processed
  have hmedia : isMedia r.content = false := by
    by_contra hmedia
    rw [Bool.not_eq_false] at hmedia
    exact notSeen_of_bridged hu ht (fun _ => hmedia) (by simp [hmedia]) hseen
  have hlines : lines = [] ↔ isEmpty r.content = true := ht.ofMessage.empty hmedia
  rw [harmless, hmedia, hpeer, Bool.false_or, Bool.false_or] at hharm
  split at hharm
  · rename_i hempty
    refine absurd hseen (notSeen_of_bridged hu ht ?_ fun _ => by simpa using hharm)
    exact fun h => absurd (hlines.mpr hempty) h
  · rename_i hsome
    have hprocessable : unprocessable r.content = false := by
      by_contra h
      rw [Bool.not_eq_false] at h
      exact wp_of_ok hprocessed (wp_processWaIncoming_fails h _)
    rw [hprocessable, Bool.false_or, Bool.not_eq_true'] at hharm
    have hlines' : lines ≠ [] := fun h => hsome (hlines.mp h)
    refine ⟨group, lines.map ProcessedIncomingMessage.text, new, ?_, ?_, ?_, ?_⟩
    · rw [ht.rows, hu.rows, List.append_nil]
    · rw [← group_receivedFrom]
      exact hplaced.mono ht.adds
    · exact (ht.tells.texts hlines').mono hu.adds ht.adds
    · rw [← fromJid_receivedFrom] at hharm ⊢
      exact ht.stored.held hharm

theorem notSeen_of_ignored {r : Received} {s t : WhatsappManager}
    (h : Ignored r.message s t) : ¬ Seen r.id s t := by
  obtain ⟨reqs, hreqs, hread⟩ := h.requested
  rcases h.msgids with hids | ⟨⟨jid, hdir⟩, -⟩
  · exact notSeen _ hids hreqs hread
  · cases hdir

theorem skips_of_inStatus {r : Received} {m : WhatsappManager} {isNew : Bool}
    (h : inStatus r.peer = true) : skips m r.message isNew = true := by
  have hmis : misdirected m r.message.direction = true := by
    unfold inStatus at h
    unfold misdirected Received.message
    split at h
    · cases h
    · rename_i gid participant hpeer
      simp only [hpeer, unbridged, h, Bool.true_or]
  rw [skips, hmis, Bool.or_true]

theorem told_of_harmless {h : Handled} {m : WhatsappManager}
    (hharm : harmless h m.markRead = true) (hseen : Seen h.id m (exec h.handler m).2) :
    Told h m (exec h.handler m).2 := by
  cases h with
  | message r isNew =>
      have hwp := wp_onMessage r.message isNew m
      rcases hp : exec (onMessage r.message isNew) m with ⟨e | _, t⟩
      · rw [Handled.handler, hp] at hseen
        exact absurd hseen (Unseen.notSeen (wp_of_error hp hwp).1.1)
      · rw [Handled.handler, hp] at hseen ⊢
        rcases wp_of_ok hp hwp with h | ⟨u, sender, group, lines, new, hu, hsender, hplaced, -, ht⟩
        · exact absurd hseen (notSeen_of_ignored h)
        · obtain rfl : sender = receivedFrom r.peer := hsender
          by_cases hpeer : inStatus r.peer = true
          · have hignored := wp_of_ok hp (wp_onMessage_skipped (skips_of_inStatus hpeer))
            exact absurd hseen (notSeen_of_ignored hignored)
          · exact told_of_bridged hharm (by simpa using hpeer) hu hplaced ht hseen
  | mediaFinished r =>
      have hwp := wp_mediaFinished r m
      rcases hp : exec (Whatsapp.mediaFinished r) m with ⟨e | _, t⟩
      · rw [Handled.handler, hp] at hseen
        have hunseen := (wp_of_error hp hwp).1
        exact absurd hseen (Unseen.notSeen hunseen)
      · rw [Handled.handler, hp] at hseen ⊢
        obtain ⟨new, ht⟩ := wp_of_ok hp hwp
        have hheld := ht.stored.held (by simpa [harmless] using hharm)
        cases hheld with
        | cons hrow hrest =>
            cases hrest
            exact ⟨_, _, ht.rows, fetched_resultText r.result, hrow⟩

def UpStore (p : WaMessageProcessor) : Prop := Up p.store

def UpManager (m : WhatsappManager) : Prop := Up m.msgproc.store

/-- Nothing fails. -/
abbrev Sound {α : Type} (p : MsgM α) : Prop := Preserves UpStore (fun _ => False) p

theorem sound_query {α : Type} (f : Store → α) : Sound (store (query f) : MsgM α) :=
  Preserves.zoom (preserves_query f) (fun _ h => h) fun _ _ _ h => h

theorem sound_replacePiece {piece : Piece} (h : unparsable piece = false) :
    Sound (replacePiece piece) := by
  cases piece with
  | plain c => exact preserves_pure _
  | mention digits =>
      obtain ⟨addr, haddr⟩ : ∃ addr, Crates.parseAddress ('+' :: digits) = some addr := by
        rw [← Option.isSome_iff_exists, ← Option.isNone_eq_false_iff]
        exact h
      rw [replacePiece, haddr]
      refine Preserves.bind (preserves_pure addr) fun _ => ?_
      refine Preserves.bind (Util.Preserves.attempt (sound_query _)) fun r => ?_
      cases r with
      | error e => exact preserves_pure _
      | ok row =>
          cases row with
          | none => exact preserves_pure _
          | some recip => exact preserves_pure _

theorem sound_processWaTextMessage {s : Str} (h : (piecesOf s).any unparsable = false) :
    Sound (processWaTextMessage s) := by
  rw [processWaTextMessage_eq]
  refine Preserves.bind (Preserves.mapM fun piece hpiece => ?_) fun _ => preserves_pure _
  rw [List.any_eq_false] at h
  exact sound_replacePiece (by simpa using h piece hpiece)

theorem sound_contentText {inc : IncomingMessage} (h : unprocessable inc.content = false) :
    Sound (contentText inc) := by
  have hmedia : Sound (contentText.mediaText inc) :=
    Preserves.bind (preserves_modify fun _ hp => hp) fun _ => preserves_pure _
  unfold contentText
  split
  · rename_i s hs
    rw [hs] at h
    exact Preserves.map (sound_processWaTextMessage h) _
  · exact preserves_pure _
  · exact preserves_pure _
  · exact preserves_pure _
  · exact preserves_pure _
  · refine Preserves.bind (fun _ hp => hp) fun r => ?_
    cases r with
    | ok link => exact preserves_pure _
    | error e => exact preserves_pure _
  · exact hmedia
  · exact hmedia
  · exact hmedia
  · exact hmedia

theorem sound_quoteLine (inc : IncomingMessage) (qm : QuotedChatMessage) :
    Sound (quoteLine inc qm) := by
  refine Preserves.bind ?_ fun _ => preserves_pure _
  unfold quotedNick
  split
  · refine Preserves.bind ?_ fun _ => preserves_pure _
    unfold jidToNick
    split
    · split
      · exact Preserves.bind (sound_query _) fun _ => preserves_pure _
      · exact preserves_pure _
    · exact preserves_pure _
  · exact preserves_pure _

theorem sound_processWaIncoming {inc : IncomingMessage} (h : unprocessable inc.content = false) :
    Sound (processWaIncoming inc) := by
  refine Preserves.bind (sound_contentText h) fun text => ?_
  cases text with
  | none => exact preserves_pure _
  | some text =>
      dsimp only
      cases inc.quoted with
      | none => exact preserves_pure _
      | some qm => exact Preserves.bind (sound_quoteLine inc qm) fun _ => preserves_pure _

theorem wp_storeMessage_addressless {jid : Jid} (h : addressless jid = true) (text : Str)
    (group : Option Nat) (ts : NaiveDateTime) (m : WhatsappManager) :
    wp (storeMessage jid text group ts) (fun _ t => t = m) (fun _ _ => False) m := by
  rw [storeMessage, wp_bind]
  refine wp_mono (wp_jidToAddress jid m) ?_ ?_
  · rintro (_ | addr) _ ⟨rfl, haddr, -⟩
    · rfl
    · rw [(haddr addr rfl).not_addressless] at h
      cases h
  · rintro _ _ ⟨-, pn, hpn, hnone⟩
    rw [addressless, hpn] at h
    dsimp only at h
    rw [hnone] at h
    cases h

/-- A message from a sender without an address, or of which nothing is left, does
not fail. -/
theorem wp_bridgeMessage_sound {msg : WaMessage} {sender : Sender} (group : Option Nat)
    {m : WhatsappManager} (hprocess : unprocessable msg.content = false)
    (hmedia : isMedia msg.content = false)
    (hsilent : isEmpty msg.content = true ∨ addressless sender.fromJid = true)
    (hm : UpManager m) :
    wp (bridgeMessage msg sender group) (fun _ _ => True) (fun _ _ => False) m := by
  rw [bridgeMessage, wp_bind]
  have hsound : wp (withMsgproc (processWaIncoming (incoming msg sender group)))
      (fun _ t => UpManager t) (fun _ _ => False) m := by
    refine (wp_zoom _).mpr (wp_mono (sound_processWaIncoming hprocess m.msgproc hm) ?_ ?_)
    · exact fun _ _ h => h
    · exact fun _ _ h => h.2
  refine wp_mono (wp_and (wp_withProcessed (incoming msg sender group) m) hsound) ?_
    fun _ _ h => h.2
  rintro ⟨lines, media⟩ t ⟨⟨-, hlines, htells, -⟩, ht⟩
  have hline : ∀ line ∈ lines, addressless line.fromJid = true := by
    intro line hmem
    rcases hsilent with h | h
    · have hnil : lines = [] := (hlines.empty hmedia).mpr h
      rw [hnil] at hmem
      cases hmem
    · rw [htells.sender line hmem]
      exact h
  rw [wp_bind]
  refine wp_mono (wp_forM UpManager (E := fun _ _ => False) (fun line hmem u hu => ?_) ht) ?_
    fun _ _ h => h
  · refine wp_mono (wp_storeMessage_addressless (hline line hmem) _ _ _ u) ?_ fun _ _ h => h
    rintro _ _ rfl
    exact hu
  · intro _ u hu
    have hrecord : wp (when (lines ≠ [] ∧ ¬ media = true) (store (storeWaMsgid msg.id)) : WaM Unit)
        (fun _ _ => True) (fun _ _ => False) u := by
      rw [wp_when]
      split
      · rw [wp_store]
        have hexec : Preserves Up (fun _ => False) (storeWaMsgid msg.id) :=
          preserves_execute fun _ => rfl
        exact wp_mono (hexec _ hu) (fun _ _ _ => trivial) fun _ _ h => h.2
      · trivial
    rw [wp_bind]
    refine wp_mono hrecord ?_ fun _ _ h => h
    intro _ v _
    rw [wp_bind, wp_get]
    exact wp_mono (wp_markAsRead _ _ _ v) (fun _ _ _ => trivial) fun _ _ h => h

/-- A manager that will bridge a message. -/
structure Attentive (r : Received) (m : WhatsappManager) : Prop where
  up : UpManager m
  fresh : r.id ∉ m.msgproc.store.waMsgids
  backlog : m.backlogStart = none
  bridged : ∀ gid participant, r.peer = .group gid participant →
    ∃ grp, m.msgproc.store.groups.rows.find? (fun grp => grp.jid = Crates.displayJid gid) =
      some grp

theorem Attentive.of_ticked {r : Received} {m t : WhatsappManager} (hm : Attentive r m)
    (h : Ticked m t) : Attentive r t := by
  rcases h with rfl | rfl
  · exact hm
  · exact ⟨hm.up, hm.fresh, hm.backlog, hm.bridged⟩

theorem Attentive.wp_alreadyStored {r : Received} {m : WhatsappManager} (hm : Attentive r m)
    (isNew : Bool) :
    wp (alreadyStored r.message isNew) (fun known t => known = false ∧ Attentive r t ∧ Calm m t)
      (fun _ _ => False) m := by
  have hfresh : decide (r.id ∈ m.msgproc.store.waMsgids) = false := by simpa using hm.fresh
  have hticked : Attentive r (setStore m m.msgproc.store.tick) := hm.of_ticked (.inr rfl)
  rw [alreadyStored, wp_bind, wp_get]
  split
  · rw [wp_store, isWaMsgidStored, Up.wp_query hm.up]
    exact ⟨hfresh, hticked, calm_setStore (sameSeen_tick _)⟩
  · exact ⟨rfl, hm, calm_refl m⟩

theorem Attentive.wp_targetOf {r : Received} {m : WhatsappManager} (hm : Attentive r m)
    (hpeer : inStatus r.peer = false) :
    wp (targetOf (receivedFrom r.peer).group)
      (fun target t => (∃ group, target = some group) ∧ Calm m t ∧ UpManager t)
      (fun _ _ => False) m := by
  cases hp : r.peer with
  | individual jid => exact ⟨⟨none, rfl⟩, calm_refl m, hm.up⟩
  | group gid participant =>
      obtain ⟨grp, hgrp⟩ := hm.bridged gid participant hp
      rw [hp, inStatus, decide_eq_false_iff_not] at hpeer
      rw [receivedFrom, targetOf, wp_bind, bridgedGroup, if_neg hpeer, wp_bind, wp_store,
        getGroupByJidOpt, Up.wp_query hm.up]
      simp only [Store.tick_groups, hgrp]
      exact ⟨⟨some grp.id, rfl⟩, calm_setStore (sameSeen_tick _), hm.up⟩

theorem Attentive.wp_onMessage {r : Received} {m : WhatsappManager} (hm : Attentive r m)
    (isNew : Bool) (hpeer : inStatus r.peer = false)
    (hprocess : unprocessable r.content = false) (hmedia : isMedia r.content = false)
    (hsilent : isEmpty r.content = true ∨
      addressless (receivedFrom r.peer).fromJid = true) :
    wp (onMessage r.message isNew)
      (fun _ t => ∃ u group lines new, Calm m u ∧
        BridgedAs r.message (receivedFrom r.peer) group lines new u t)
      (fun _ _ => False) m := by
  rw [onMessage, wp_bind]
  refine wp_mono (hm.wp_alreadyStored isNew) ?_ fun _ _ h => h
  rintro _ t ⟨rfl, ht, hcalm⟩
  have hbacklog : beforeBacklog t r.message isNew = false := by
    rw [beforeBacklog, ht.backlog, Bool.and_false]
  have hsender : senderOf r.message = pure (some (receivedFrom r.peer)) := by
    unfold senderOf Received.message
    cases r.peer <;> rfl
  rw [wp_bind, wp_get, hbacklog, Bool.or_false, if_neg (by simp), hsender, wp_bind, wp_pure]
  dsimp only
  rw [wp_bind]
  refine wp_mono (ht.wp_targetOf hpeer) ?_ fun _ _ h => h
  rintro _ u ⟨⟨group, rfl⟩, hu, hup⟩
  refine wp_mono (wp_and (wp_bridgeMessage r.message (receivedFrom r.peer) group u)
    (wp_bridgeMessage_sound group hprocess hmedia hsilent hup)) ?_ fun _ _ h => h.2
  rintro _ v ⟨⟨lines, new, hv⟩, -⟩
  exact ⟨u, group, lines, new, IsTrans.trans (r := Calm) _ _ _ hcalm hu, hv⟩

/-- The group of a message. -/
def groupsFor : Peer → Table Group Group.id
  | .individual _ => .empty
  | .group gid _ =>
      Table.empty.insert (fun n => ⟨n, Crates.displayJid gid, [], [], [], []⟩) fun _ => rfl

/-- A database in which that is bridged. -/
def storeFor (peer : Peer) : Store where
  recipients := .empty
  messages := .empty
  groups := groupsFor peer
  waMsgids := []
  waPersistence := none
  now := 0
  dbDown _ := false
  queries := 0

def plainConfig (markRead : Bool) : WhatsappConfig where
  mediaPath := none
  dlPath := none
  autocreatePrefix := none
  backlogStart := none
  markRead := markRead
  autoupdateNicks := false
  trackPresence := false
  ackWarnMs := none
  ackWarnPendingMs := none
  ackExpiryMs := none

def managerFor (peer : Peer) (markRead : Bool) : WhatsappManager :=
  .new (plainConfig markRead) (storeFor peer) 0 0 (fun _ => []) (fun _ => .error []) none []

theorem attentive_managerFor (r : Received) (markRead : Bool) :
    Attentive r (managerFor r.peer markRead) where
  up _ := rfl
  fresh := List.not_mem_nil
  backlog := rfl
  bridged gid participant h := by
    refine ⟨⟨1, Crates.displayJid gid, [], [], [], []⟩, ?_⟩
    have hgroups : (managerFor r.peer markRead).msgproc.store.groups = groupsFor r.peer := rfl
    rw [hgroups, h]
    simp [groupsFor, Table.insert, Table.empty]

theorem not_told_of_same {h : Handled} {s t : WhatsappManager}
    (hrows : t.msgproc.store.messages.rows = s.msgproc.store.messages.rows) : ¬ Told h s t := by
  have hnone : ∀ {new : List Message},
      t.msgproc.store.messages.rows = s.msgproc.store.messages.rows ++ new → new = [] := by
    intro new hnew
    rw [hrows] at hnew
    exact List.append_right_eq_self.mp hnew.symm
  cases h with
  | message r isNew =>
      rintro ⟨group, texts, new, hnew, -, hlines, hheld⟩
      rw [hnone hnew, List.forall₂_nil_right_iff] at hheld
      rw [hheld] at hlines
      generalize r.quoted = quoted at hlines
      cases hlines
  | mediaFinished r =>
      rintro ⟨text, row, hnew, -⟩
      exact absurd (hnone hnew) (List.cons_ne_nil _ _)

omit [Crates] in
theorem receipts_received {r : Received} {markRead : Bool}
    (hno : ¬ isMedia r.message.content = true) (hmark : markRead = true) :
    receipts (¬ isMedia r.message.content = true ∧ ¬ (receivedFrom r.peer).isOurs = true ∧
      markRead = true) r.message.id (receivedFrom r.peer).peer = [.messageRead r.id r.peer] := by
  have hours : ¬ (receivedFrom r.peer).isOurs = true := by
    cases r.peer <;> simp [receivedFrom]
  rw [receipts, if_pos ⟨hno, hours, hmark⟩]
  cases r.peer <;> rfl

theorem exists_untold_message {r : Received} {isNew markRead : Bool}
    (hharm : harmless (.message r isNew) markRead = false) :
    ∃ m : WhatsappManager, m.markRead = markRead ∧
      Seen r.id m (exec (onMessage r.message isNew) m).2 ∧
      ¬ Told (.message r isNew) m (exec (onMessage r.message isNew) m).2 := by
  rw [harmless, Bool.or_eq_false_iff, Bool.or_eq_false_iff] at hharm
  obtain ⟨⟨hmedia, hpeer⟩, hharm⟩ := hharm
  have hprocess : unprocessable r.content = false := by
    cases hcontent : r.content with
    | text s =>
        have hsome : isEmpty (.text s) = false := rfl
        rw [hcontent, hsome, if_neg Bool.false_ne_true, Bool.or_eq_false_iff] at hharm
        exact hharm.1
    | _ => rfl
  have hsilent : isEmpty r.content = true ∨ addressless (receivedFrom r.peer).fromJid = true := by
    rw [fromJid_receivedFrom]
    split at hharm
    · exact .inl (by assumption)
    · rw [Bool.or_eq_false_iff, Bool.not_eq_false'] at hharm
      exact .inr hharm.2
  refine ⟨managerFor r.peer markRead, rfl, ?_⟩
  have hwp := (attentive_managerFor r markRead).wp_onMessage isNew hpeer hprocess hmedia hsilent
  rcases hp : exec (onMessage r.message isNew) (managerFor r.peer markRead) with ⟨e | _, t⟩
  · exact (wp_of_error hp hwp).elim
  obtain ⟨u, group, lines, new, hu, ht⟩ := wp_of_ok hp hwp
  have hlines : lines = [] ↔ isEmpty r.content = true := ht.ofMessage.empty hmedia
  have hno : ¬ isMedia r.message.content = true := Bool.not_eq_true _ ▸ hmedia
  constructor
  · split at hharm
    · obtain ⟨reqs, hreqs, -⟩ := hu.requested
      obtain ⟨reqs', -, hreqs'⟩ := ht.requested
      have hmark : u.markRead = true := by
        rw [Bool.not_eq_false'] at hharm
        exact hu.markRead.trans hharm
      refine .inr ⟨r.peer, ?_⟩
      rw [hreqs', hreqs, receipts_received hno hmark, List.append_assoc, List.append_assoc,
        List.drop_left]
      simp
    · rename_i hsome
      refine .inl ⟨?_, List.not_mem_nil⟩
      rw [ht.msgids, if_pos ⟨fun h => hsome (hlines.mp h), hno⟩]
      exact mem_recordId.mpr (.inr rfl)
  · apply not_told_of_same
    have hnone : new = [] := by
      rcases hsilent with h | h
      · have hnew := ht.stored.prefixed
        rwa [hlines.mpr h, List.map_nil, List.map_nil, List.prefix_nil,
          List.map_eq_nil_iff] at hnew
      · exact ht.stored.nil_of_addressless h
    rw [ht.rows, hnone, List.append_nil, hu.rows, List.append_nil]

theorem exists_untold_media {r : MediaResult} {markRead : Bool}
    (hharm : harmless (.mediaFinished r) markRead = false) :
    ∃ m : WhatsappManager, m.markRead = markRead ∧
      Seen r.mi m (exec (Whatsapp.mediaFinished r) m).2 ∧
      ¬ Told (.mediaFinished r) m (exec (Whatsapp.mediaFinished r) m).2 := by
  have haddr : addressless r.fromJid = true := by simpa [harmless] using hharm
  let m := managerFor (.individual r.fromJid) markRead
  have hup : UpManager m := fun _ => rfl
  have hwp : wp (Whatsapp.mediaFinished r) (fun _ _ => True) (fun _ _ => False) m := by
    rw [Whatsapp.mediaFinished, wp_bind]
    refine wp_mono (wp_storeMessage_addressless haddr _ _ _ m) ?_ fun _ _ h => h
    rintro _ _ rfl
    have hexec : Preserves Up (fun _ => False) (storeWaMsgid r.mi) := preserves_execute fun _ => rfl
    rw [wp_bind, wp_store]
    refine wp_mono (hexec _ hup) ?_ fun _ _ h => h.2
    intro _ _ _
    rw [wp_bind, wp_get]
    exact wp_mono (wp_markAsRead _ _ _ _) (fun _ _ _ => trivial) fun _ _ h => h
  refine ⟨m, rfl, ?_⟩
  rcases hp : exec (Whatsapp.mediaFinished r) m with ⟨e | _, t⟩
  · exact (wp_of_error hp hwp).elim
  obtain ⟨new, ht⟩ := wp_of_ok hp (wp_mediaFinished r m)
  have hnone := ht.stored.nil_of_addressless haddr
  constructor
  · refine .inl ⟨?_, List.not_mem_nil⟩
    rw [ht.msgids]
    exact mem_recordId.mpr (.inr rfl)
  · apply not_told_of_same
    rw [ht.rows, hnone, List.append_nil]

/-- What is marked as seen is told of, in every state, if and only if it is
harmless. -/
theorem told_iff_harmless (h : Handled) (markRead : Bool) :
    (∀ m : WhatsappManager, m.markRead = markRead → Seen h.id m (exec h.handler m).2 →
      Told h m (exec h.handler m).2) ↔ harmless h markRead = true := by
  constructor
  · intro hall
    by_contra hharm
    rw [Bool.not_eq_true] at hharm
    obtain ⟨m, hm, hseen, huntold⟩ : ∃ m : WhatsappManager, m.markRead = markRead ∧
        Seen h.id m (exec h.handler m).2 ∧ ¬ Told h m (exec h.handler m).2 := by
      cases h with
      | message r isNew => exact exists_untold_message hharm
      | mediaFinished r => exact exists_untold_media hharm
    exact huntold (hall m hm hseen)
  · rintro hharm m rfl hseen
    exact told_of_harmless hharm hseen

end Seen

section Samples

attribute [local instance] Sample.crates

/-- A message of which nothing is left, as those that could not be decrypted are. -/
def stub : Received := ⟨.individual ⟨("44123" : Str), false⟩, 0, ("m" : Str), .unimplemented [], none⟩

/-- It is marked as read without anything having been said of it. -/
theorem stub_seen_untold :
    ¬ ∀ (h : Handled) (m : WhatsappManager), Seen h.id m (exec h.handler m).2 →
      Told h m (exec h.handler m).2 := by
  intro hall
  have hharm : harmless (.message stub true) true = false := by decide
  obtain ⟨m, -, hseen, huntold⟩ := exists_untold_message hharm
  exact huntold (hall (.message stub true) m hseen)

/-- A message to a group, with formatting and a mention of somebody who is not known, about
something that somebody else has written. -/
def greeting : Received where
  peer := .group ⟨("fleet-1" : Str), true⟩ ⟨("44123" : Str), false⟩
  time := 0
  id := ("m" : Str)
  content := .text ("*hi* @44777" : Str)
  quoted := some ⟨⟨("44777" : Str), false⟩, .text ("who?" : Str)⟩

/-- The manager after it has been delivered, with read receipts. -/
def greeted : WhatsappManager :=
  (exec (Handled.message greeting true).handler (managerFor greeting.peer true)).2

theorem told_greeting :
    (Seen greeting.id (managerFor greeting.peer true) greeted →
      Told (.message greeting true) (managerFor greeting.peer true) greeted) ∧
    Seen greeting.id (managerFor greeting.peer true) greeted ∧
    greeted.msgproc.store.messages.rows.map (fun m => (m.groupTarget, m.text)) =
      [(some 1, some ("\x0315> \x1d<44777@c.us> who?" : Str)),
        (some 1, some ("\x02hi\x02 <+44777>" : Str))] :=
  ⟨(told_iff_harmless (.message greeting true) true).mpr (by decide) _ rfl,
    .inl (by decide +kernel), by decide +kernel⟩

end Samples

end SmsIrc.WhatsappSeen
