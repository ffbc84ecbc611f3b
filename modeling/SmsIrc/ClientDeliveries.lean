import SmsIrc.IrcFrames
import SmsIrc.LinkFailures

/-!
Which clients see a message that is processed while several of them are connected.
-/

namespace SmsIrc.ClientDeliveries

open SmsIrc.Comm SmsIrc.Database SmsIrc.External SmsIrc.Fragments SmsIrc.HashMaps SmsIrc.IrcFrames
open SmsIrc.IrcS2c SmsIrc.LinkFailures SmsIrc.MessageTexts SmsIrc.Models SmsIrc.Modem
open SmsIrc.Outbox SmsIrc.Program SmsIrc.Reassembly SmsIrc.Registration SmsIrc.SenderCommon
open SmsIrc.Text SmsIrc.Util

/-- A line from someone, to a channel or to the client itself. -/
structure Line where
  nick : Str
  channel : Option Str
  text : Str
deriving DecidableEq

/-- What is queued for the client with a nick. -/
def Line.message (own : Str) (l : Line) : IrcMessage :=
  IrcMessage.new (some (l.nick ++ ['!'] ++ l.nick ++ ("@sms-irc." : Str))) "PRIVMSG".toList
    [l.channel.getD own] (some l.text)

/-- The rows that are processed together, and the lines that are sent for them. -/
structure Delivery where
  ids : List Nat
  lines : List Line
deriving DecidableEq

/-- Two rows are processed together. -/
def Together (m r : Message) : Prop :=
  m = r ∨ ∃ rf, m.csmsData = some rf ∧ r.csmsData = some rf ∧ m.phoneNumber = r.phoneNumber

theorem Together.symm {m r : Message} (h : Together m r) : Together r m := by
  rcases h with rfl | ⟨rf, hm, hr, hnum⟩
  · exact .inl rfl
  · exact .inr ⟨rf, hr, hm, hnum.symm⟩

theorem Together.trans {m r q : Message} (h : Together m r) (h' : Together r q) :
    Together m q := by
  rcases h with rfl | ⟨rf, hm, hr, hnum⟩
  · exact h'
  · rcases h' with rfl | ⟨rf', hr', hq, hnum'⟩
    · exact .inr ⟨rf, hm, hr, hnum⟩
    · obtain rfl := Option.some.inj (hr.symm.trans hr')
      exact .inr ⟨rf, hm, hq, hnum.trans hnum'⟩

section Passes

variable [Crates]

/-- The rows that make up a text with a row, and the text: if it is complete. -/
def payload (st : Store) (now : NaiveDateTime) (m : Message) : Option (List Nat × Str) :=
  match m.pdu with
  | none => m.text.map fun text => ([m.id], renderPlain now m.ts text)
  | some _ =>
      match decodePart m with
      | .error _ => none
      | .ok d =>
          match concatenation d with
          | none => some ([m.id], d.text)
          | some cd =>
              let parts := Crates.scanOrder.run
                (concatenatedRows st m.phoneNumber cd.reference.toNat)
              if parts.length = cd.parts.toNat then
                (joinParts parts).toOption.map fun text => (parts.map Message.id, text)
              else none

/-- The recipient that a row is from. -/
def senderOf (st : Store) (m : Message) : Option Recipient :=
  (unNormalizeAddress m.phoneNumber).bind fun a =>
    st.recipients.rows.find? fun r => r.phoneNumber = normalizeAddress a

def channelOf (st : Store) (gt : Option Nat) : Option Str :=
  gt.bind fun g => (st.groups.rows.find? fun grp => grp.id = g).map Group.channel

/-- What is sent for a row. -/
def delivery (st : Store) (now : NaiveDateTime) (m : Message) : Option Delivery :=
  (senderOf st m).bind fun r => (payload st now m).map fun p =>
    ⟨p.1, ((lines p.2).flatMap chunks).map fun chunk =>
      ⟨r.nick, channelOf st m.groupTarget, chunk⟩⟩

/-- A connection has queued some lines and deleted some rows. -/
structure Sent (ls : List Line) (ids : List Nat) (c d : IrcConnection) : Prop where
  queued : d.outbox.outbox.map Pushed.msg =
    c.outbox.outbox.map Pushed.msg ++ ls.map (Line.message c.reginfo.nick)
  reginfo : d.reginfo = c.reginfo
  now : d.now = c.now
  recipients : d.store.recipients = c.store.recipients
  groups : d.store.groups = c.store.groups
  messages : d.store.messages.rows = c.store.messages.rows.filter fun m => m.id ∉ ids

theorem Sent.refl (c : IrcConnection) : Sent [] [] c c :=
  ⟨by simp, rfl, rfl, rfl, rfl, by simp⟩

theorem Sent.trans {ls ls' : List Line} {ids ids' : List Nat} {c d e : IrcConnection}
    (h : Sent ls ids c d) (h' : Sent ls' ids' d e) : Sent (ls ++ ls') (ids ++ ids') c e where
  queued := by rw [h'.queued, h.queued, h.reginfo, List.map_append, List.append_assoc]
  reginfo := h'.reginfo.trans h.reginfo
  now := h'.now.trans h.now
  recipients := h'.recipients.trans h.recipients
  groups := h'.groups.trans h.groups
  messages := by
    rw [h'.messages, h.messages, List.filter_filter]
    refine List.filter_congr fun m _ => ?_
    simp only [List.mem_append, not_or, Bool.decide_and, Bool.and_comm]

theorem wp_store {α : Type} {p : StoreM α} {Q : α → IrcConnection → Prop}
    {E : Failure → IrcConnection → Prop} {c : IrcConnection} :
    wp (store p : ConnM α) Q E c ↔
      wp p (fun a st => Q a { c with store := st }) (fun e st => E e { c with store := st })
        c.store := wp_zoom p

theorem wp_read {α : Type} {f : Store → α} {Q : α → IrcConnection → Prop} {c : IrcConnection}
    (h : Sent [] [] c { c with store := c.store.tick } →
      Q (f c.store.tick) { c with store := c.store.tick }) :
    wp (store (query f) : ConnM α) Q (fun _ _ => True) c :=
  wp_store.mpr (wp_query_of trivial (h ⟨by simp, rfl, rfl, rfl, rfl, by simp⟩))

theorem sent_push (l : Line) (c : IrcConnection) :
    Sent [l] [] c { c with outbox := push c.outbox (l.message c.reginfo.nick) } where
  queued := by
    change (c.outbox.outbox ++ [_]).map Pushed.msg = _
    rw [List.map_append]
    rfl
  reginfo := rfl
  now := rfl
  recipients := rfl
  groups := rfl
  messages := by simp

theorem sent_record (call : SenderCall) (c : IrcConnection) :
    Sent [] [] c { c with calls := c.calls ++ [call] } :=
  ⟨by simp, rfl, rfl, rfl, rfl, by simp⟩

theorem wp_destination (gt : Option Nat) (c : IrcConnection) :
    wp (destination gt) (fun dest d => dest = (channelOf c.store gt).getD c.reginfo.nick ∧
      Sent [] [] c d) (fun _ _ => True) c := by
  cases gt with
  | none =>
      change wp (do
        let c ← get
        pure c.reginfo.nick) _ _ c
      rw [wp_bind, wp_get, wp_pure]
      exact ⟨rfl, .refl c⟩
  | some g =>
      rw [destination, wp_bind, getGroupById]
      apply wp_store.mpr
      rw [wp_bind]
      apply wp_query_of trivial
      have hsent : Sent [] [] c { c with store := c.store.tick } :=
        ⟨by simp, rfl, rfl, rfl, rfl, by simp⟩
      cases hg : c.store.tick.groups.rows.find? fun grp => grp.id = g with
      | none => trivial
      | some grp =>
          rw [wp_pure, wp_bind]
          change wp (pure ()) _ _ _
          rw [wp_pure, wp_pure]
          refine ⟨?_, hsent⟩
          rw [Store.tick_groups] at hg
          rw [channelOf, Option.bind_some, hg]
          rfl

theorem wp_sendFragment {own nick chunk : Str} {chan : Option Str} {c : IrcConnection}
    (hown : c.reginfo.nick = own) :
    wp (sendFragment nick (chan.getD own) chunk)
      (fun _ d => Sent (([chunk].filter fun p => byteLen p > 0).map fun p => ⟨nick, chan, p⟩) [] c d)
      (fun _ _ => True) c := by
  subst hown
  unfold sendFragment
  split
  · rename_i hlen
    rw [List.filter_cons_of_pos (by simpa using hlen), wp_bind]
    exact (sent_record _ c).trans (sent_push ⟨nick, chan, chunk⟩ _)
  · rename_i hlen
    rw [List.filter_cons_of_neg (by simpa using hlen), wp_pure]
    exact .refl c

theorem wp_sendRawMessage (nick text : Str) (gt : Option Nat) (c : IrcConnection) :
    wp (sendRawMessage nick text gt)
      (fun _ d => Sent (((lines text).flatMap chunks).map fun chunk =>
        ⟨nick, channelOf c.store gt, chunk⟩) [] c d)
      (fun _ _ => True) c := by
  rw [sendRawMessage, wp_bind]
  change wp _ _ _ { c with calls := c.calls ++ [_] }
  rw [wp_bind]
  refine wp_mono (wp_destination gt _) ?_ fun _ _ h => h
  rintro _ d ⟨rfl, hd⟩
  rw [forM_flatMap]
  refine wp_mono ( wp_forM_prefix (fun done e =>
    Sent ((done.filter fun p => byteLen p > 0).map fun chunk =>
      ⟨nick, channelOf c.store gt, chunk⟩) [] c e) ?_ ?_) ?_ fun _ _ h => h
  · intro done x rest _ e he
    refine wp_mono (wp_sendFragment (he.reginfo ▸ rfl)) (fun _ f hf => ?_) fun _ _ h => h
    rw [List.filter_append, List.map_append]
    exact he.trans hf
  · exact (sent_record _ c).trans hd
  · intro _ e he
    rwa [filter_flatMap_fragments] at he

theorem wp_removeMessage (id : Nat) (c : IrcConnection) :
    wp (removeMessage id) (fun _ d => Sent [] [id] c d) (fun _ _ => True) c := by
  rw [removeMessage, wp_bind]
  change wp (store (deleteMessage id) : ConnM Unit) _ _ { c with calls := c.calls ++ [_] }
  apply wp_store.mpr
  rw [deleteMessage, wp_bind]
  apply wp_query_of trivial
  split
  · exact ⟨by simp, rfl, rfl, rfl, rfl, by simp⟩
  · trivial

theorem wp_removeMessages (rows : List Message) (c : IrcConnection) :
    wp (forM rows fun m => removeMessage m.id)
      (fun _ d => Sent [] (rows.map Message.id) c d) (fun _ _ => True) c := by
  refine wp_forM_prefix (fun done d => Sent [] (done.map Message.id) c d) ?_ (.refl c)
  intro done x rest _ d hd
  refine wp_mono (wp_removeMessage x.id d) (fun _ e he => ?_) fun _ _ h => h
  rw [List.map_append]
  exact hd.trans he

/-- What has been sent, if anything is. -/
def Delivered (o : Option Delivery) (c d : IrcConnection) : Prop :=
  Sent (o.elim [] Delivery.lines) (o.elim [] Delivery.ids) c d

theorem wp_processMsgPlain {nick : Str} {m : Message} {c : IrcConnection} {o : Option Delivery}
    (ho : o = (m.text.map fun text => ([m.id], renderPlain c.now m.ts text)).map fun p =>
      ⟨p.1, ((lines p.2).flatMap chunks).map fun chunk =>
        ⟨nick, channelOf c.store m.groupTarget, chunk⟩⟩) :
    wp (processMsgPlain nick m) (fun _ d => Delivered o c d) (fun _ _ => True) c := by
  subst ho
  rw [processMsgPlain, wp_bind]
  cases m.text with
  | none => trivial
  | some text =>
      rw [wp_unwrap_some, wp_bind]
      change wp (sendRawMessage nick (renderPlain c.now m.ts text) m.groupTarget >>= fun _ =>
        removeMessage m.id) _ _ c
      rw [wp_bind]
      refine wp_mono (wp_sendRawMessage _ _ _ c) (fun _ d hd => ?_) fun _ _ h => h
      refine wp_mono (wp_removeMessage m.id d) (fun _ e he => ?_) fun _ _ h => h
      have hboth := hd.trans he
      rwa [List.append_nil] at hboth

theorem wp_processMsgPdu {nick : Str} {m : Message} {raw : List UInt8} {pdu : DeliverPdu}
    {dec : DecodedMessage} {c : IrcConnection} {o : Option Delivery} (hraw : m.pdu = some raw)
    (hpdu : Crates.deliverPduTryFrom raw = .ok pdu) (hdec : pdu.decodeMessage = .ok dec)
    (ho : o = (payload c.store c.now m).map fun p =>
      ⟨p.1, ((lines p.2).flatMap chunks).map fun chunk =>
        ⟨nick, channelOf c.store m.groupTarget, chunk⟩⟩) :
    wp (processMsgPdu nick m pdu) (fun _ d => Delivered o c d) (fun _ _ => True) c := by
  have hpart : decodePart m = .ok dec := decodePart_eq_ok.mpr ⟨raw, hraw, pdu, hpdu, hdec⟩
  rw [payload, hraw, hpart] at ho
  dsimp only at ho
  unfold processMsgPdu
  rw [hdec]
  dsimp only
  cases hcd : concatenation dec with
  | none =>
      rw [hcd] at ho
      dsimp only at ho ⊢
      subst ho
      rw [wp_bind]
      refine wp_mono (wp_sendRawMessage _ _ _ c) (fun _ d hd => ?_) fun _ _ h => h
      refine wp_mono (wp_removeMessage m.id d) (fun _ e he => ?_) fun _ _ h => h
      have hboth := hd.trans he
      rwa [List.append_nil] at hboth
  | some cd =>
      rw [hcd] at ho
      dsimp only at ho ⊢
      rw [wp_bind]
      refine wp_read fun hread => ?_
      have hrows : concatenatedRows c.store.tick m.phoneNumber cd.reference.toNat =
        concatenatedRows c.store m.phoneNumber cd.reference.toNat := rfl
      rw [hrows]
      generalize Crates.scanOrder.run
        (concatenatedRows c.store m.phoneNumber cd.reference.toNat) = parts at ho ⊢
      by_cases hlen : parts.length = cd.parts.toNat
      · rw [if_pos hlen] at ho
        rw [if_neg (not_not.mpr hlen), wp_bind]
        cases hjoin : joinParts parts with
        | error e => trivial
        | ok text =>
            rw [hjoin] at ho
            subst ho
            rw [liftResult, wp_pure, wp_bind]
            refine wp_mono (wp_sendRawMessage _ _ _ _) (fun _ d hd => ?_) fun _ _ h => h
            refine wp_mono (wp_removeMessages parts d) (fun _ e he => ?_) fun _ _ h => h
            have hall := (hread.trans hd).trans he
            rwa [List.append_nil] at hall
      · rw [if_neg hlen] at ho
        subst ho
        rw [if_pos hlen]
        exact hread

/-- The row of a message that was received can be decoded. -/
def Legible (m : Message) : Prop := m.pdu.isSome → ∃ d, decodePart m = .ok d

theorem wp_processMessage {m : Message} (hdec : Legible m) (c : IrcConnection) :
    wp (processMessage m) (fun _ d => Delivered (delivery c.store c.now m) c d)
      (fun _ _ => True) c := by
  rw [processMessage, wp_bind, Message.getAddr, Models.getAddr]
  unfold delivery senderOf
  cases haddr : unNormalizeAddress m.phoneNumber with
  | none => trivial
  | some a =>
      rw [wp_pure, wp_bind, getRecipientByAddrOpt, Option.bind_some]
      refine wp_read fun hread => ?_
      rw [Store.tick_recipients]
      cases c.store.recipients.rows.find? fun r => r.phoneNumber = normalizeAddress a with
      | none => exact hread
      | some recip =>
          have hafter : ∀ {p : ConnM Unit} {o : Option Delivery},
              wp p (fun _ d => Delivered o { c with store := c.store.tick } d) (fun _ _ => True)
                { c with store := c.store.tick } →
              wp p (fun _ d => Delivered o c d) (fun _ _ => True)
                { c with store := c.store.tick } :=
            fun hp => wp_mono hp (fun _ d hd => hread.trans hd) fun _ _ h => h
          dsimp only
          cases hpdu : m.pdu with
          | none =>
              refine hafter (wp_processMsgPlain ?_)
              rw [Option.bind_some, payload, hpdu]
              rfl
          | some raw =>
              obtain ⟨dec, hpart⟩ := hdec (by rw [hpdu]; rfl)
              obtain ⟨raw', hraw, pdu, htry, hmsg⟩ := decodePart_eq_ok.mp hpart
              obtain rfl : raw = raw' := Option.some.inj (hpdu.symm.trans hraw)
              dsimp only
              rw [htry]
              exact hafter (wp_processMsgPdu hpdu htry hmsg rfl)

/-- Rows as they were stored, all of which can be decoded. -/
structure Decodable (rows : List Message) : Prop where
  deliverable : ∀ m ∈ rows, Deliverable m
  decodes : ∀ m ∈ rows, Legible m

theorem csmsData_eq {m : Message} {d : DecodedMessage} (h : Deliverable m)
    (hd : decodePart m = .ok d) :
    m.csmsData = (concatenation d).map fun cd => cd.reference.toNat := by
  obtain ⟨raw, hraw, pdu, htry, hdec⟩ := decodePart_eq_ok.mp hd
  rcases h with ⟨hnone, -, -⟩ | ⟨addr, raw', hraw', pdu', htry', -, hfiled⟩
  · rw [hnone] at hraw
    cases hraw
  · obtain rfl := Option.some.inj (hraw.symm.trans hraw')
    obtain rfl := Except.ok.inj (htry.symm.trans htry')
    rw [hfiled, csmsDataOf_ok hdec]

theorem mem_concatenatedRows {st : Store} {num : Str} {rf : Nat} {r : Message} :
    r ∈ concatenatedRows st num rf ↔
      r ∈ st.messages.rows ∧ r.csmsData = some rf ∧ r.phoneNumber = num := by
  rw [concatenatedRows, List.mem_filter, Bool.and_eq_true, decide_eq_true_eq, decide_eq_true_eq]

/-- The three kinds of rows: of a text, of a message, and of a part of one. -/
theorem payload_cases {m : Message} (hm : Deliverable m) (hdec : Legible m) :
    (m.csmsData = none ∧ ∃ text : NaiveDateTime → Str,
      ∀ st now, payload st now m = some ([m.id], text now)) ∨
    ∃ rf parts : Nat, m.csmsData = some rf ∧ ∀ st now, payload st now m =
      if (Crates.scanOrder.run (concatenatedRows st m.phoneNumber rf)).length = parts then
        (joinParts (Crates.scanOrder.run (concatenatedRows st m.phoneNumber rf))).toOption.map
          fun text =>
            ((Crates.scanOrder.run (concatenatedRows st m.phoneNumber rf)).map Message.id, text)
      else none := by
  cases hpdu : m.pdu with
  | none =>
      rcases hm with ⟨-, hcsms, body, hbody⟩ | ⟨addr, raw, hraw, -⟩
      · refine .inl ⟨hcsms, fun now => renderPlain now m.ts body, fun st now => ?_⟩
        simp only [payload, hpdu, hbody, Option.map_some]
      · rw [hpdu] at hraw
        cases hraw
  | some raw =>
      obtain ⟨d, hd⟩ := hdec (by rw [hpdu]; rfl)
      have hcsms := csmsData_eq hm hd
      cases hcd : concatenation d with
      | none =>
          rw [hcd] at hcsms
          exact .inl ⟨hcsms, fun _ => d.text, fun st now => by simp only [payload, hpdu, hd, hcd]⟩
      | some cd =>
          rw [hcd] at hcsms
          exact .inr ⟨_, cd.parts.toNat, hcsms, fun st now => by simp only [payload, hpdu, hd, hcd]⟩

theorem mem_ids {st : Store} {now : NaiveDateTime} {m : Message} {x : Delivery}
    (hrows : Decodable st.messages.rows) (hm : m ∈ st.messages.rows)
    (hx : delivery st now m = some x) (id : Nat) :
    id ∈ x.ids ↔ ∃ r ∈ st.messages.rows, Together m r ∧ r.id = id := by
  obtain ⟨recip, -, hx⟩ := Option.bind_eq_some_iff.mp hx
  obtain ⟨p, hp, rfl⟩ := Option.map_eq_some_iff.mp hx
  dsimp only
  rcases payload_cases (hrows.deliverable m hm) (hrows.decodes m hm) with
    ⟨hnone, text, htext⟩ | ⟨rf, parts, hrf, hparts⟩
  · obtain rfl := Option.some.inj ((htext st now).symm.trans hp)
    rw [List.mem_singleton]
    constructor
    · rintro rfl
      exact ⟨m, hm, .inl rfl, rfl⟩
    · rintro ⟨r, -, rfl | ⟨rf, hrf, -⟩, rfl⟩
      · rfl
      · rw [hnone] at hrf
        cases hrf
  · rw [hparts] at hp
    split at hp
    · obtain ⟨text, -, rfl⟩ := Option.map_eq_some_iff.mp hp
      rw [List.mem_map]
      refine exists_congr fun r => ?_
      rw [Shuffle.mem_run, mem_concatenatedRows, and_assoc, and_assoc]
      refine and_congr_right fun hr => ?_
      rw [← and_assoc]
      refine and_congr_left fun _ => ?_
      constructor
      · rintro ⟨hr', hnum⟩
        exact .inr ⟨rf, hrf, hr', hnum.symm⟩
      · rintro (rfl | ⟨rf', hrf', hr', hnum⟩)
        · exact ⟨hrf, rfl⟩
        · obtain rfl := Option.some.inj (hrf.symm.trans hrf')
          exact ⟨hr', hnum.symm⟩
    · cases hp

theorem lines_eq_nil_iff {st : Store} {now : NaiveDateTime} {m r : Message} {x y : Delivery}
    (hrows : Decodable st.messages.rows) (hm : m ∈ st.messages.rows) (hr : r ∈ st.messages.rows)
    (hmr : Together m r) (hx : delivery st now m = some x) (hy : delivery st now r = some y) :
    x.lines = [] ↔ y.lines = [] := by
  rcases hmr with rfl | ⟨rf, hmrf, hrrf, hnum⟩
  · obtain rfl := Option.some.inj (hx.symm.trans hy)
    rfl
  · obtain ⟨recip, -, hx⟩ := Option.bind_eq_some_iff.mp hx
    obtain ⟨p, hp, rfl⟩ := Option.map_eq_some_iff.mp hx
    obtain ⟨recip', -, hy⟩ := Option.bind_eq_some_iff.mp hy
    obtain ⟨q, hq, rfl⟩ := Option.map_eq_some_iff.mp hy
    have hkind : ∀ m' ∈ st.messages.rows, ∀ p', payload st now m' = some p' →
        m'.csmsData = some rf → (joinParts (Crates.scanOrder.run
          (concatenatedRows st m'.phoneNumber rf))).toOption = some p'.2 := by
      intro m' hm' p' hp' hrf
      rcases payload_cases (hrows.deliverable m' hm') (hrows.decodes m' hm') with
        ⟨hnone, -⟩ | ⟨rf', parts, hrf', hparts⟩
      · rw [hnone] at hrf
        cases hrf
      · obtain rfl := Option.some.inj (hrf.symm.trans hrf')
        rw [hparts] at hp'
        split at hp'
        · obtain ⟨text, htext, rfl⟩ := Option.map_eq_some_iff.mp hp'
          exact htext
        · cases hp'
    have hsame := hkind m hm p hp hmrf
    rw [hnum, hkind r hr q hq hrrf, Option.some.injEq] at hsame
    dsimp only
    rw [hsame, List.map_eq_nil_iff, List.map_eq_nil_iff]

theorem delivery_left {ls : List Line} {ids : List Nat} {c d : IrcConnection} (h : Sent ls ids c d)
    (hrows : Decodable c.store.messages.rows) {m : Message} (hm : m ∈ c.store.messages.rows)
    (hout : ∀ r ∈ c.store.messages.rows, Together m r → r.id ∉ ids) (now : NaiveDateTime) :
    delivery d.store now m = delivery c.store now m := by
  have hpayload : payload d.store now m = payload c.store now m := by
    rcases payload_cases (hrows.deliverable m hm) (hrows.decodes m hm) with
      ⟨-, text, htext⟩ | ⟨rf, parts, hrf, hparts⟩
    · rw [htext, htext]
    · have hsame : concatenatedRows d.store m.phoneNumber rf =
          concatenatedRows c.store m.phoneNumber rf := by
        rw [concatenatedRows, h.messages, List.filter_filter]
        refine List.filter_congr fun r hr => ?_
        by_cases hset : (r.csmsData = some rf && r.phoneNumber = m.phoneNumber) = true
        · rw [hset, Bool.true_and, decide_eq_true_eq]
          rw [Bool.and_eq_true, decide_eq_true_eq, decide_eq_true_eq] at hset
          exact hout r hr (.inr ⟨rf, hrf, hset.1, hset.2.symm⟩)
        · rw [Bool.not_eq_true] at hset
          rw [hset, Bool.false_and]
      rw [hparts, hparts, hsame]
  unfold delivery senderOf channelOf
  rw [h.recipients, h.groups, hpayload]

/-- Nothing is delivered for a part when the rows it belongs with have been deleted. -/
theorem delivery_gone {ls : List Line} {ids : List Nat} {c d : IrcConnection} (h : Sent ls ids c d)
    (hrows : Decodable c.store.messages.rows) {m : Message} (hm : m ∈ c.store.messages.rows)
    {rf : Nat} (hrf : m.csmsData = some rf)
    (hin : ∀ r ∈ c.store.messages.rows, Together m r → r.id ∈ ids) (now : NaiveDateTime) :
    delivery d.store now m = none ∨ delivery d.store now m = some ⟨[], []⟩ := by
  have hpayload : payload d.store now m = none ∨ payload d.store now m = some ([], []) := by
    rcases payload_cases (hrows.deliverable m hm) (hrows.decodes m hm) with
      ⟨hnone, -⟩ | ⟨rf', parts, hrf', hparts⟩
    · rw [hnone] at hrf
      cases hrf
    · have hempty : concatenatedRows d.store m.phoneNumber rf' = [] := by
        rw [List.eq_nil_iff_forall_not_mem]
        intro r hr
        obtain ⟨hrow, hcsms, hnum⟩ := mem_concatenatedRows.mp hr
        rw [h.messages, List.mem_filter, decide_eq_true_eq] at hrow
        exact hrow.2 (hin r hrow.1 (.inr ⟨rf', hrf', hcsms, hnum.symm⟩))
      have hscan : Crates.scanOrder.run ([] : List Message) = [] :=
        (Crates.scanOrder.perm _).eq_nil
      rw [hparts, hempty, hscan]
      split
      · exact .inr rfl
      · exact .inl rfl
  unfold delivery
  cases senderOf d.store m with
  | none => exact .inl rfl
  | some r =>
      rcases hpayload with hp | hp
      · exact .inl (by rw [hp]; rfl)
      · exact .inr (by rw [hp]; rfl)

/-- What has been delivered when some of the rows have been processed. -/
structure Pass (st : Store) (now : NaiveDateTime) (done : List Message) (xs : List Delivery) :
    Prop where
  explained : ∀ x ∈ xs, ∃ m ∈ done, delivery st now m = some x
  complete : ∀ m ∈ done, ∀ x, delivery st now m = some x → m.id ∈ xs.flatMap Delivery.ids

theorem Pass.perm {st : Store} {now : NaiveDateTime} {done done' : List Message}
    {xs : List Delivery} (h : Pass st now done xs) (hperm : done.Perm done') :
    Pass st now done' xs where
  explained x hx := by
    obtain ⟨m, hm, hmx⟩ := h.explained x hx
    exact ⟨m, hperm.subset hm, hmx⟩
  complete m hm := h.complete m (hperm.symm.subset hm)

/-- A row that has been deleted is gone with all rows that are processed with it. -/
theorem Pass.together {st : Store} {now : NaiveDateTime} {done : List Message}
    {xs : List Delivery} (h : Pass st now done xs) (hrows : Decodable st.messages.rows)
    (hdone : ∀ m ∈ done, m ∈ st.messages.rows) {r : Message} (hr : r ∈ st.messages.rows)
    (hid : r.id ∈ xs.flatMap Delivery.ids) :
    ∃ m ∈ done, ∃ x ∈ xs, delivery st now m = some x ∧ Together m r ∧
      ∀ q ∈ st.messages.rows, Together r q → q.id ∈ xs.flatMap Delivery.ids := by
  obtain ⟨x, hx, hid⟩ := List.mem_flatMap.mp hid
  obtain ⟨m, hm, hmx⟩ := h.explained x hx
  obtain ⟨r', hr', hmr, heq⟩ := (mem_ids hrows (hdone m hm) hmx r.id).mp hid
  obtain rfl := st.messages.eq_of_key_eq hr' hr heq
  refine ⟨m, hm, x, hx, hmx, hmr, fun q hq hrq => List.mem_flatMap.mpr ⟨x, hx, ?_⟩⟩
  exact (mem_ids hrows (hdone m hm) hmx q.id).mpr ⟨q, hq, hmr.trans hrq, rfl⟩

theorem Pass.step {done : List Message} {xs : List Delivery} {c d : IrcConnection}
    (h : Pass c.store c.now done xs)
    (hsent : Sent (xs.flatMap Delivery.lines) (xs.flatMap Delivery.ids) c d)
    (hrows : Decodable c.store.messages.rows) (hdone : ∀ m ∈ done, m ∈ c.store.messages.rows)
    {m : Message} (hm : m ∈ c.store.messages.rows) (hnew : m ∉ done) :
    wp (processMessage m) (fun _ e => ∃ ys, Pass c.store c.now (done ++ [m]) ys ∧
      Sent (ys.flatMap Delivery.lines) (ys.flatMap Delivery.ids) c e) (fun _ _ => True) d := by
  refine wp_mono (wp_processMessage (hrows.decodes m hm) d) (fun _ e he => ?_) fun _ _ h => h
  rw [hsent.now] at he
  by_cases hid : m.id ∈ xs.flatMap Delivery.ids
  · obtain ⟨m', hm', x, hx, hmx, hmm', hall⟩ := h.together hrows hdone hm hid
    rcases hmm' with rfl | ⟨rf, -, hrf, -⟩
    · exact absurd hm' hnew
    · have hnothing : Sent [] [] d e := by
        rcases delivery_gone hsent hrows hm hrf hall c.now with hnone | hnone
        · rw [hnone] at he
          exact he
        · rw [hnone] at he
          exact he
      refine ⟨xs, ⟨fun y hy => ?_, fun q hq y hy => ?_⟩, ?_⟩
      · obtain ⟨q, hq, hqy⟩ := h.explained y hy
        exact ⟨q, List.mem_append_left _ hq, hqy⟩
      · rcases List.mem_append.mp hq with hq | hq
        · exact h.complete q hq y hy
        · rwa [List.mem_singleton.mp hq]
      · have hboth := hsent.trans hnothing
        rwa [List.append_nil, List.append_nil] at hboth
  · have hout : ∀ r ∈ c.store.messages.rows, Together m r → r.id ∉ xs.flatMap Delivery.ids := by
      intro r hr hmr hrid
      obtain ⟨-, -, -, -, -, -, hall⟩ := h.together hrows hdone hr hrid
      exact hid (hall m hm hmr.symm)
    rw [delivery_left hsent hrows hm hout] at he
    cases hx : delivery c.store c.now m with
    | none =>
        rw [hx] at he
        refine ⟨xs, ⟨fun y hy => ?_, fun q hq y hy => ?_⟩, ?_⟩
        · obtain ⟨q, hq, hqy⟩ := h.explained y hy
          exact ⟨q, List.mem_append_left _ hq, hqy⟩
        · rcases List.mem_append.mp hq with hq | hq
          · exact h.complete q hq y hy
          · rw [List.mem_singleton.mp hq, hx] at hy
            cases hy
        · have hboth := hsent.trans he
          rwa [Option.elim_none, Option.elim_none, List.append_nil, List.append_nil] at hboth
    | some x =>
        rw [hx] at he
        refine ⟨xs ++ [x], ⟨fun y hy => ?_, fun q hq y hy => ?_⟩, ?_⟩
        · rcases List.mem_append.mp hy with hy | hy
          · obtain ⟨q, hq, hqy⟩ := h.explained y hy
            exact ⟨q, List.mem_append_left _ hq, hqy⟩
          · rw [List.mem_singleton.mp hy]
            exact ⟨m, List.mem_append_right _ List.mem_cons_self, hx⟩
        · rw [List.flatMap_append, List.mem_append]
          rcases List.mem_append.mp hq with hq | hq
          · exact .inl (h.complete q hq y hy)
          · rw [List.mem_singleton.mp hq, List.flatMap_singleton]
            exact .inr ((mem_ids hrows hm hx m.id).mpr ⟨m, hm, .inl rfl, rfl⟩)
        · rw [List.flatMap_append, List.flatMap_append, List.flatMap_singleton,
            List.flatMap_singleton]
          exact hsent.trans he

theorem wp_processMessages {c : IrcConnection} (hrows : Decodable c.store.messages.rows) :
    wp processMessages (fun _ d => ∃ xs, Pass c.store c.now c.store.messages.rows xs ∧
      Sent (xs.flatMap Delivery.lines) (xs.flatMap Delivery.ids) c d) (fun _ _ => True) c := by
  rw [processMessages, wp_bind, getAllMessages]
  refine wp_read fun hread => ?_
  rw [Store.tick_messages]
  have hperm := List.perm_insertionSort sentBefore c.store.messages.rows
  have hnodup := hperm.nodup_iff.mpr c.store.messages.rows_nodup
  generalize c.store.messages.rows.insertionSort sentBefore = msgs at hperm hnodup ⊢
  refine wp_mono ( wp_forM_prefix (fun done d => ∃ xs, Pass c.store c.now done xs ∧
    Sent (xs.flatMap Delivery.lines) (xs.flatMap Delivery.ids) c d) ?_ ?_) ?_ fun _ _ h => h
  · rintro done m rest hsplit d ⟨xs, hpass, hsent⟩
    have hmem : ∀ q ∈ done ++ m :: rest, q ∈ c.store.messages.rows :=
      fun q hq => hperm.subset (hsplit ▸ hq)
    rw [hsplit, List.nodup_append] at hnodup
    refine hpass.step hsent hrows (fun q hq => hmem q (List.mem_append_left _ hq))
      (hmem m (List.mem_append_right _ List.mem_cons_self)) fun hm => ?_
    exact hnodup.2.2 m hm m List.mem_cons_self rfl
  · exact ⟨[], ⟨nofun, nofun⟩, hread⟩
  · rintro _ d ⟨xs, hpass, hsent⟩
    exact ⟨xs, hpass.perm hperm, hsent⟩

/-- There is nothing to deliver. -/
def Quiet (st : Store) (now : NaiveDateTime) : Prop :=
  ∀ m ∈ st.messages.rows, delivery st now m = none

theorem quiet_of_pass {c d : IrcConnection} {xs : List Delivery}
    (hrows : Decodable c.store.messages.rows) (h : Pass c.store c.now c.store.messages.rows xs)
    (hsent : Sent (xs.flatMap Delivery.lines) (xs.flatMap Delivery.ids) c d) :
    Quiet d.store c.now := by
  intro m hm
  rw [hsent.messages, List.mem_filter, decide_eq_true_eq] at hm
  have hout : ∀ r ∈ c.store.messages.rows, Together m r → r.id ∉ xs.flatMap Delivery.ids := by
    intro r hr hmr hrid
    obtain ⟨-, -, -, -, -, -, hall⟩ := h.together hrows (fun _ hq => hq) hr hrid
    exact hm.2 (hall m hm.1 hmr.symm)
  rw [delivery_left hsent hrows hm.1 hout]
  cases hx : delivery c.store c.now m with
  | none => rfl
  | some x => exact absurd (h.complete m hm.1 x hx) hm.2

theorem wp_processMessages_quiet {c : IrcConnection} (hrows : Decodable c.store.messages.rows)
    (hquiet : Quiet c.store c.now) :
    wp processMessages (fun _ d => Sent [] [] c d ∧ Quiet d.store c.now) (fun _ _ => True) c := by
  refine wp_mono (wp_processMessages hrows) ?_ fun _ _ h => h
  rintro _ d ⟨xs, hpass, hsent⟩
  cases xs with
  | nil => exact ⟨hsent, quiet_of_pass hrows hpass hsent⟩
  | cons x xs =>
      obtain ⟨m, hm, hx⟩ := hpass.explained x List.mem_cons_self
      rw [hquiet m hm] at hx
      cases hx

theorem Decodable.filter {rows : List Message} (h : Decodable rows) (p : Message → Bool) :
    Decodable (rows.filter p) :=
  ⟨fun m hm => h.deliverable m (List.mem_of_mem_filter hm),
    fun m hm => h.decodes m (List.mem_of_mem_filter hm)⟩

end Passes

section Servers

variable [Crates]

/-- Each connection processes the messages without an error, one after the other. -/
def NoError : List IrcConnection → IrcServer → Prop
  | [], _ => True
  | c :: cs, s => ∃ d, exec processMessages { c with store := s.store, now := s.now } = (.ok (), d) ∧
      NoError cs { s with store := d.store }

/-- A connection has queued some more lines for its client. -/
def Queued (ls : List Line) (c d : IrcConnection) : Prop :=
  d.outbox.outbox.map Pushed.msg =
    c.outbox.outbox.map Pushed.msg ++ ls.map (Line.message c.reginfo.nick)

/-- The body of the loop over the connections. -/
def processOn (c : IrcConnection) : ServerM IrcConnection := do
  let ran ← onConnection c processMessages
  pure ran.2

theorem exec_processOn {s : IrcServer} {c d : IrcConnection}
    (h : exec processMessages { c with store := s.store, now := s.now } = (.ok (), d)) :
    exec (processOn c) s = (.ok d, { s with store := d.store }) := by
  rw [processOn, exec_bind, exec_onConnection_ok h]
  rfl

theorem exec_mapM_quiet {cs : List IrcConnection} {s : IrcServer} (hok : NoError cs s)
    (hrows : Decodable s.store.messages.rows) (hquiet : Quiet s.store s.now) :
    ∃ ds st, exec (cs.mapM processOn) s = (.ok ds, { s with store := st }) ∧
      List.Forall₂ (Queued []) cs ds ∧ st.messages.rows = s.store.messages.rows := by
  induction cs generalizing s with
  | nil => exact ⟨[], s.store, rfl, .nil, rfl⟩
  | cons c cs ih =>
      obtain ⟨d, hd, hrest⟩ := hok
      obtain ⟨hsent, hleft⟩ := wp_of_ok hd (wp_processMessages_quiet
        (c := { c with store := s.store, now := s.now }) hrows hquiet)
      have hsame : d.store.messages.rows = s.store.messages.rows := by
        rw [hsent.messages]
        simp
      obtain ⟨ds, st, hds, hqueued, hst⟩ := ih hrest (hsame.symm ▸ hrows) hleft
      refine ⟨d :: ds, st, ?_, .cons hsent.queued hqueued, hst.trans hsame⟩
      rw [List.mapM_cons, exec_bind_ok (exec_processOn hd), exec_bind_ok hds]
      rfl

theorem exec_mapM_processOn {c : IrcConnection} {cs : List IrcConnection} {s : IrcServer}
    (hok : NoError (c :: cs) s) (hrows : Decodable s.store.messages.rows) :
    ∃ d ds st xs, exec ((c :: cs).mapM processOn) s = (.ok (d :: ds), { s with store := st }) ∧
      Pass s.store s.now s.store.messages.rows xs ∧ Queued (xs.flatMap Delivery.lines) c d ∧
        List.Forall₂ (Queued []) cs ds ∧
          st.messages.rows = s.store.messages.rows.filter fun m =>
            m.id ∉ xs.flatMap Delivery.ids := by
  obtain ⟨d, hd, hrest⟩ := hok
  obtain ⟨xs, hpass, hsent⟩ := wp_of_ok hd (wp_processMessages
    (c := { c with store := s.store, now := s.now }) hrows)
  have hleft : d.store.messages.rows = s.store.messages.rows.filter fun m =>
      m.id ∉ xs.flatMap Delivery.ids := hsent.messages
  have hquiet : Quiet d.store s.now :=
    quiet_of_pass (c := { c with store := s.store, now := s.now }) hrows hpass hsent
  have hrows' : Decodable d.store.messages.rows := by
    rw [hleft]
    exact hrows.filter _
  obtain ⟨ds, st, hds, hqueued, hst⟩ := exec_mapM_quiet hrest hrows' hquiet
  refine ⟨d, ds, st, xs, ?_, hpass, hsent.queued, hqueued, hst.trans hleft⟩
  rw [List.mapM_cons, exec_bind_ok (exec_processOn hd), exec_bind_ok hds]
  rfl

theorem exec_handleContact {s t : IrcServer} {ds : List IrcConnection}
    (h : exec (s.connections.mapM processOn) s = (.ok ds, t)) :
    exec (handleContact .processMessages) s = (.ok (), { t with connections := ds }) := by
  change exec (eachConnection processMessages) s = _
  rw [eachConnection, exec_bind_ok (exec_get s)]
  exact exec_bind_ok h

/-- All that is deleted is queued for every client, as the same lines in the same order. -/
def SeenByAll (s t : IrcServer) : Prop :=
  ∃ xs : List Delivery,
    (∀ x ∈ xs, ∃ m ∈ s.store.messages.rows, delivery s.store s.now m = some x) ∧
    (∀ m ∈ s.store.messages.rows, m ∉ t.store.messages.rows → ∃ x ∈ xs, m.id ∈ x.ids) ∧
    List.Forall₂ (Queued (xs.flatMap Delivery.lines)) s.connections t.connections

/-- Nothing is sent for any row exactly if a pass sends nothing. -/
theorem Pass.noLines_iff {st : Store} {now : NaiveDateTime} {xs : List Delivery}
    (h : Pass st now st.messages.rows xs) (hrows : Decodable st.messages.rows) :
    (∀ m ∈ st.messages.rows, ∀ x, delivery st now m = some x → x.lines = []) ↔
      xs.flatMap Delivery.lines = [] := by
  rw [List.flatMap_eq_nil_iff]
  constructor
  · intro hsilent x hx
    obtain ⟨m, hm, hmx⟩ := h.explained x hx
    exact hsilent m hm x hmx
  · intro hsilent m hm y hy
    obtain ⟨m', hm', x, hx, hmx, htogether, -⟩ :=
      h.together hrows (fun _ hq => hq) hm (h.complete m hm y hy)
    exact (lines_eq_nil_iff hrows hm' hm htogether hmx hy).mp (hsilent x hx)

theorem Queued.eq {ls ls' : List Line} {c d : IrcConnection} (h : Queued ls c d)
    (h' : Queued ls' c d) :
    ls.map (Line.message c.reginfo.nick) = ls'.map (Line.message c.reginfo.nick) := by
  rw [Queued, h'] at h
  exact (List.append_cancel_left h).symm

theorem exec_handleContact_cons {s : IrcServer} {c : IrcConnection} {cs : List IrcConnection}
    (hcs : s.connections = c :: cs) (hrows : Decodable s.store.messages.rows)
    (hok : NoError s.connections s) :
    ∃ d ds st xs, exec (handleContact .processMessages) s =
        (.ok (), { s with store := st, connections := d :: ds }) ∧
      Pass s.store s.now s.store.messages.rows xs ∧ Queued (xs.flatMap Delivery.lines) c d ∧
        List.Forall₂ (Queued []) cs ds ∧
          st.messages.rows = s.store.messages.rows.filter fun m =>
            m.id ∉ xs.flatMap Delivery.ids := by
  rw [hcs] at hok
  obtain ⟨d, ds, st, xs, hrun, hrest⟩ := exec_mapM_processOn hok hrows
  rw [← hcs] at hrun
  exact ⟨d, ds, st, xs, exec_handleContact hrun, hrest⟩

theorem silent_of_seenByAll {s : IrcServer} {c c' : IrcConnection} {cs : List IrcConnection}
    (hcs : s.connections = c :: c' :: cs) (hrows : Decodable s.store.messages.rows)
    (hok : NoError s.connections s)
    (h : SeenByAll s (exec (handleContact .processMessages) s).2) :
    ∀ m ∈ s.store.messages.rows, ∀ x, delivery s.store s.now m = some x → x.lines = [] := by
  obtain ⟨d, ds, st, xs, hrun, hpass, hfirst, hothers, -⟩ := exec_handleContact_cons hcs hrows hok
  obtain ⟨ys, -, -, hall⟩ := h
  rw [hrun, hcs] at hall
  rw [hpass.noLines_iff hrows]
  obtain ⟨hy, hrest⟩ := List.forall₂_cons.mp hall
  cases hothers with
  | cons hquiet _ =>
      obtain ⟨hy', -⟩ := List.forall₂_cons.mp hrest
      have hnone := hy'.eq hquiet
      rw [List.map_nil, List.map_eq_nil_iff] at hnone
      have hsame := hfirst.eq hy
      rwa [hnone, List.map_nil, List.map_eq_nil_iff] at hsame

/-- All clients see what is deleted exactly if there is one of them at most, or if nothing that
is complete has a text of which something is sent. -/
theorem seenByAll_iff {s : IrcServer} (hrows : Decodable s.store.messages.rows)
    (hok : NoError s.connections s) :
    SeenByAll s (exec (handleContact .processMessages) s).2 ↔
      s.connections.length ≤ 1 ∨
        ∀ m ∈ s.store.messages.rows, ∀ x, delivery s.store s.now m = some x → x.lines = [] := by
  cases hcs : s.connections with
  | nil =>
      have hrun : exec (s.connections.mapM processOn) s = (.ok [], s) := by
        rw [hcs]
        rfl
      rw [exec_handleContact hrun]
      refine iff_of_true ⟨[], nofun, fun m hm hgone => absurd hm hgone, ?_⟩ (.inl (Nat.zero_le 1))
      rw [hcs]
      exact .nil
  | cons c cs =>
      constructor
      · intro hseen
        cases cs with
        | nil => exact .inl (Nat.le_refl 1)
        | cons c' cs => exact .inr (silent_of_seenByAll hcs hrows hok hseen)
      · intro hcond
        obtain ⟨d, ds, st, xs, hrun, hpass, hfirst, hothers, hst⟩ :=
          exec_handleContact_cons hcs hrows hok
        rw [hpass.noLines_iff hrows] at hcond
        rw [hrun]
        refine ⟨xs, hpass.explained, fun m hm hgone => ?_, ?_⟩
        · rw [hst, List.mem_filter, decide_eq_true_eq, not_and, not_not] at hgone
          exact List.mem_flatMap.mp (hgone hm)
        · rw [hcs]
          refine .cons hfirst ?_
          rcases hcond with hlen | hsilent
          · rw [List.length_cons, Nat.succ_le_succ_iff, Nat.le_zero, List.length_eq_zero_iff] at hlen
            subst hlen
            cases hothers
            exact .nil
          · rwa [hsilent]

end Servers

section Samples

attribute [local instance] Sample.crates

/-- A database with a message from someone who is known. -/
def greetingStore : Store :=
  (exec (do
    let _ ← storeWaRecipient Sample.alice ("alice" : Str) none nicksrcAuto
    storeWaMessage Sample.alice ("hi" : Str) none 0) Sample.store).2

/-- A client that has registered from a port. -/
def clientAt (port : Nat) : IrcConnection :=
  { fromPending (fromIncoming [] ⟨("192.0.2.1" : Str), port⟩) ⟨['n'], ['u'], ['r'], []⟩
      Sample.store 0 with
    new := false }

def serverWith (cs : List IrcConnection) : IrcServer where
  cfRx := []
  cbRx := []
  waTx := []
  mTx := []
  store := greetingStore
  incoming := []
  connections := cs
  pending := []
  now := 0
  closed := []

theorem decodable_greetingStore : Decodable greetingStore.messages.rows := by
  have hrow : ∀ m ∈ greetingStore.messages.rows, m.pdu = none ∧ m.csmsData = none ∧
      m.text = some ("hi" : Str) := by
    intro m hm
    obtain rfl := List.mem_singleton.mp hm
    exact ⟨rfl, rfl, rfl⟩
  refine ⟨fun m hm => ?_, fun m hm hpdu => ?_⟩
  · obtain ⟨hpdu, hcsms, htext⟩ := hrow m hm
    exact .inl ⟨hpdu, hcsms, _, htext⟩
  · rw [(hrow m hm).1] at hpdu
    cases hpdu

/-- A single client sees the message. -/
theorem seen_by_one : SeenByAll (serverWith [clientAt 40000])
    (exec (handleContact .processMessages) (serverWith [clientAt 40000])).2 := by
  have hok : (exec processMessages { clientAt 40000 with store := greetingStore, now := 0 }).1.isOk =
      true := by decide +kernel
  have hno : NoError (serverWith [clientAt 40000]).connections (serverWith [clientAt 40000]) :=
    ⟨_, exec_eq_of_isOk hok, trivial⟩
  exact (seenByAll_iff decodable_greetingStore hno).mpr (.inl (Nat.le_refl 1))

/-- Of two clients, the second one sees nothing. -/
theorem missed_by_second : NoError (serverWith [clientAt 40000, clientAt 40001]).connections
      (serverWith [clientAt 40000, clientAt 40001]) ∧
    ¬ SeenByAll (serverWith [clientAt 40000, clientAt 40001])
      (exec (handleContact .processMessages) (serverWith [clientAt 40000, clientAt 40001])).2 := by
  have hok : (exec processMessages { clientAt 40000 with store := greetingStore, now := 0 }).1.isOk =
      true := by decide +kernel
  have hok' : (exec processMessages
      { clientAt 40001 with
        store := (exec processMessages
          { clientAt 40000 with store := greetingStore, now := 0 }).2.store
        now := 0 }).1.isOk = true := by decide +kernel
  have hno : NoError (serverWith [clientAt 40000, clientAt 40001]).connections
      (serverWith [clientAt 40000, clientAt 40001]) :=
    ⟨_, exec_eq_of_isOk hok, _, exec_eq_of_isOk hok', trivial⟩
  have hshown : ∀ m ∈ greetingStore.messages.rows,
      delivery greetingStore 0 m = some ⟨[1], [⟨("alice" : Str), none, ("hi" : Str)⟩]⟩ := by
    decide +kernel
  refine ⟨hno, fun hseen => ?_⟩
  obtain ⟨m, hm⟩ := List.exists_mem_of_ne_nil greetingStore.messages.rows (by decide +kernel)
  have hsilent := silent_of_seenByAll rfl decodable_greetingStore hno hseen m hm _ (hshown m hm)
  cases hsilent

end Samples

end SmsIrc.ClientDeliveries
