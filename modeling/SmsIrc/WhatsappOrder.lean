import SmsIrc.WhatsappTracker

/-!
The order in which messages that have been written without a session are sent when one
is established.
-/

namespace SmsIrc.WhatsappOrder

open SmsIrc.Comm SmsIrc.Database SmsIrc.External SmsIrc.HashMaps SmsIrc.Models SmsIrc.Program
open SmsIrc.SenderCommon SmsIrc.Text SmsIrc.Transition SmsIrc.Util SmsIrc.WaAck SmsIrc.WaConn
open SmsIrc.Whatsapp SmsIrc.WhatsappFrame SmsIrc.WhatsappMsg SmsIrc.WhatsappRuns
open SmsIrc.WhatsappTracker

section Order

variable [Crates]

/-- The entry of the message that was written under the `n`-th id, if it waits. -/
def queuedAs (m : WhatsappManager) (n : Nat) : Option (Str × MessageSendStatus) :=
  ((m.ackp.outgoingMessages.lookup (m.generated n)).filter fun mss => mss.isUnsent).map
    fun mss => (m.generated n, mss)

/-- The messages that wait, in the order in which they were written. -/
def queued (m : WhatsappManager) : List (Str × MessageSendStatus) :=
  (List.range m.generations).filterMap (queuedAs m)

/-- What is said to a destination. -/
def textsTo (dest : Jid) (msgs : List WaMessage) : List ChatMessageContent :=
  (msgs.filter fun msg => msg.direction = .sending dest).map fun msg => msg.content

/-- What is to be said to it. -/
def textsFor (dest : Jid) (entries : List (Str × MessageSendStatus)) :
    List ChatMessageContent :=
  (entries.filter fun e => e.2.destination = dest).map fun e => e.2.content

/-- The messages that `on_established` puts in the outbox. -/
def resent (o : Shuffle) (jid : Jid) (ps : Crates.PersistentSession) (m : WhatsappManager) :
    List WaMessage :=
  (sends (exec (onEstablishedIn o jid ps) m).2.requested).drop (sends m.requested).length

/-- What a step has accepted without a session. -/
def writtenNow (s t : Session) : List (Jid × ChatMessageContent) :=
  if online s.manager then [] else t.manager.accepted.drop s.manager.accepted.length

/-- What has been written without a session since one was last established. -/
def written : List (Jid × ChatMessageContent) → Session → List Event →
    List (Jid × ChatMessageContent)
  | xs, _, [] => xs
  | xs, s, e :: es =>
      match next s e with
      | none => xs
      | some t => written (if establishes s e then [] else xs ++ writtenNow s t) t es

/-- What waits is what has been written, in the same order, but for what has expired. -/
structure Kept (xs : List (Jid × ChatMessageContent)) (m : WhatsappManager) : Prop where
  sublist : ((queued m).map fun e => parcel e.2).Sublist xs
  all : (∀ mss ∈ m.expired, mss.isUnsent = false) → (queued m).map (fun e => parcel e.2) = xs

/-- No message waits. -/
def NoneUnsent (m : WhatsappManager) : Prop :=
  ∀ mid mss, m.ackp.outgoingMessages.lookup mid = some mss → mss.isUnsent = false

theorem queuedAs_eq_some {m : WhatsappManager} {n : Nat} {e : Str × MessageSendStatus} :
    queuedAs m n = some e ↔ e.1 = m.generated n ∧
      m.ackp.outgoingMessages.lookup e.1 = some e.2 ∧ e.2.isUnsent = true := by
  obtain ⟨mid, mss⟩ := e
  simp only [queuedAs, Option.map_eq_some_iff, Option.filter_eq_some_iff, Prod.mk.injEq]
  constructor
  · rintro ⟨mss', ⟨hlookup, hunsent⟩, rfl, rfl⟩
    exact ⟨rfl, hlookup, hunsent⟩
  · rintro ⟨rfl, hlookup, hunsent⟩
    exact ⟨mss, ⟨hlookup, hunsent⟩, rfl, rfl⟩

theorem mem_queued {m : WhatsappManager} (hm : Owing [] m) {e : Str × MessageSendStatus} :
    e ∈ queued m ↔ m.ackp.outgoingMessages.lookup e.1 = some e.2 ∧ e.2.isUnsent = true := by
  simp only [queued, List.mem_filterMap, List.mem_range, queuedAs_eq_some]
  constructor
  · rintro ⟨n, -, -, h⟩
    exact h
  · intro h
    obtain ⟨n, hn, heq⟩ := hm.keys e.1 (mem_iff_lookup.mpr ⟨e.2, h.1⟩)
    exact ⟨n, hn, heq, h⟩

theorem nodup_queued {m : WhatsappManager} (hm : Owing [] m) : (queued m).Nodup := by
  refine List.nodup_range.filterMap fun i j e hi hj => ?_
  obtain ⟨heqi, -⟩ := queuedAs_eq_some.mp hi
  obtain ⟨heqj, -⟩ := queuedAs_eq_some.mp hj
  exact hm.injective i j (heqi.symm.trans heqj)

/-- In whichever order the map is iterated, it is the waiting messages that are extracted. -/
theorem queued_perm {m : WhatsappManager} (hm : Owing [] m) :
    (queued m).Perm ((pairs m.ackp.outgoingMessages).filter fun e => e.2.isUnsent) := by
  have hnodup : (pairs m.ackp.outgoingMessages).Nodup := (nodup_keys_pairs _).of_map
  refine (List.perm_ext_iff_of_nodup (nodup_queued hm) (hnodup.filter _)).mpr fun e => ?_
  rw [mem_queued hm, List.mem_filter, mem_pairs]

omit [Crates] in
theorem textsTo_eq {msgs : List WaMessage} {entries : List (Str × MessageSendStatus)}
    (h : msgs.map sentAs = entries.map fun e => toSend e.2) (dest : Jid) :
    textsTo dest msgs = textsFor dest entries := by
  have hmsgs : textsTo dest msgs =
      ((msgs.map sentAs).filter fun x => x.1 = .sending dest).map Prod.snd := by
    rw [List.filter_map, List.map_map]
    rfl
  have hentries : textsFor dest entries =
      ((entries.map fun e => toSend e.2).filter fun x => x.1 = .sending dest).map Prod.snd := by
    rw [List.filter_map, List.map_map, textsFor]
    congr 2
    funext e
    simp [toSend]
  rw [hmsgs, hentries, h]

theorem textsTo_resent {m : WhatsappManager} (hm : Owing [] m) (o : Shuffle) (jid : Jid)
    (ps : Crates.PersistentSession) (dest : Jid) :
    textsTo dest (resent o jid ps m) = textsFor dest (waitingIn o m) := by
  have hwp := wp_onEstablishedIn o jid ps hm
  unfold wp at hwp
  unfold resent
  rcases hp : exec (onEstablishedIn o jid ps) m with ⟨e | _, t⟩
  · rw [hp] at hwp
    exact (hwp : False).elim
  · rw [hp] at hwp
    obtain ⟨msgs, hmsgs, hsent⟩ := (hwp : EstablishedIn o m t).sends
    rw [hmsgs, List.drop_left]
    exact textsTo_eq hsent dest

theorem textsFor_waitingIn (o : Shuffle) (m : WhatsappManager) (dest : Jid) :
    textsFor dest (waitingIn o m) = ((o.run (pairs m.ackp.outgoingMessages)).filter
      fun e => e.2.isUnsent && e.2.destination = dest).map fun e => e.2.content := by
  rw [textsFor, waitingIn, List.filter_filter]
  congr 2
  funext e
  exact Bool.and_comm _ _

/-- In every order, a session sends what waits in the order in which it was written, if
and only if no two messages with different texts wait for one destination. -/
theorem resent_iff {m : WhatsappManager} (hm : Owing [] m) (jid : Jid)
    (ps : Crates.PersistentSession) :
    (∀ (o : Shuffle) (dest : Jid),
      textsTo dest (resent o jid ps m) = textsFor dest (queued m)) ↔
        ∀ x ∈ queued m, ∀ y ∈ queued m, x.2.destination = y.2.destination →
          x.2.content = y.2.content := by
  have hperm : ∀ dest, (textsFor dest (queued m)).Perm
      (((pairs m.ackp.outgoingMessages).filter fun e =>
        e.2.isUnsent && e.2.destination = dest).map fun e => e.2.content) := by
    intro dest
    have hstored : textsFor dest (waitingIn .stored m) = ((pairs m.ackp.outgoingMessages).filter
        fun e => e.2.isUnsent && e.2.destination = dest).map fun e => e.2.content :=
      textsFor_waitingIn .stored m dest
    rw [← hstored]
    exact ((queued_perm hm).filter _).map _
  have hmem : ∀ dest (e : Str × MessageSendStatus),
      e ∈ (pairs m.ackp.outgoingMessages).filter
        (fun e => e.2.isUnsent && e.2.destination = dest) ↔
          e ∈ queued m ∧ e.2.destination = dest := by
    intro dest e
    rw [(queued_perm hm).mem_iff, List.mem_filter, List.mem_filter, Bool.and_eq_true,
      decide_eq_true_eq, and_assoc]
  simp only [textsTo_resent hm, textsFor_waitingIn]
  rw [forall_comm]
  simp only [fun dest => Shuffle.forall_map_filter_iff (hperm dest), hmem]
  constructor
  · intro h x hx y hy hdest
    exact h y.2.destination x ⟨hx, hdest⟩ y ⟨hy, rfl⟩
  · rintro h dest x ⟨hx, rfl⟩ y ⟨hy, hdest⟩
    exact h x hx y hy hdest.symm

theorem queued_parcels (m : WhatsappManager) : ((queued m).map fun e => parcel e.2) =
    (List.range m.generations).filterMap fun n => (queuedAs m n).map fun e => parcel e.2 := by
  rw [queued, List.map_filterMap]

theorem queued_of_untracked {s t : WhatsappManager} (h : Untracked s t) : queued t = queued s := by
  have has : queuedAs t = queuedAs s := by
    funext n
    rw [queuedAs, queuedAs, h.ackp, h.generated]
  rw [queued, queued, h.generations, has]

theorem queued_of_noneUnsent {m : WhatsappManager} (h : NoneUnsent m) : queued m = [] := by
  refine List.filterMap_eq_nil_iff.mpr fun n _ => ?_
  refine Option.eq_none_iff_forall_ne_some.mpr fun e he => ?_
  obtain ⟨-, hlookup, hunsent⟩ := queuedAs_eq_some.mp he
  rw [h e.1 e.2 hlookup] at hunsent
  cases hunsent

theorem Kept.of_untracked {xs : List (Jid × ChatMessageContent)} {s t : WhatsappManager}
    (hs : Kept xs s) (h : Untracked s t) : Kept xs t where
  sublist := by
    rw [queued_of_untracked h]
    exact hs.sublist
  all := by
    rw [queued_of_untracked h, h.expired]
    exact hs.all

theorem queued_of_accepts {s t : WhatsappManager} {jid : Jid} {content : ChatMessageContent}
    (hs : Owing [] s) (h : Accepts jid content s t) :
    (queued t).map (fun e => parcel e.2) = (queued s).map (fun e => parcel e.2) ++
      if online s then [] else [(jid, content)] := by
  have hlookup : ∀ mid, t.ackp.outgoingMessages.lookup mid =
      if mid = s.generated s.generations then
        some ⟨none, s.now, content, jid, !online s, false, false⟩
      else s.ackp.outgoingMessages.lookup mid := by
    intro mid
    rw [h.ackp, WaAckTracker.registerSend, lookup_insert]
    rfl
  have hgenerated : t.generated = s.generated := h.generated
  have hold : (List.range s.generations).filterMap (queuedAs t) = queued s := by
    refine List.filterMap_congr fun n hn => ?_
    have hne : s.generated n ≠ s.generated s.generations := fun heq =>
      absurd (hs.injective _ _ heq) (List.mem_range.mp hn).ne
    rw [queuedAs, queuedAs, hgenerated, hlookup, if_neg hne]
  have hnew : (queuedAs t s.generations).map (fun e => parcel e.2) =
      if online s then none else some (jid, content) := by
    rw [queuedAs, hgenerated, hlookup, if_pos rfl]
    cases online s <;> rfl
  have hgenerations : t.generations = s.generations + 1 := h.generations
  rw [queued, hgenerations, List.range_succ, List.filterMap_append, hold, List.map_append,
    List.append_right_inj, List.map_filterMap, List.filterMap_cons, hnew]
  cases online s <;> rfl

theorem queued_of_ack (m : WhatsappManager) (ack : MessageAck) (cb : List ControlBotCommand) :
    (queued { m with ackp := (m.ackp.onMessageAck ack).1, cbTx := cb }).map
      (fun e => parcel e.2) = (queued m).map fun e => parcel e.2 := by
  rw [queued_parcels, queued_parcels]
  refine List.filterMap_congr fun n _ => ?_
  unfold queuedAs WaAckTracker.onMessageAck
  split
  · rename_i mss hmss
    dsimp only
    rw [lookup_insert]
    split
    · rename_i hid
      rw [hid, hmss]
      cases hunsent : mss.isUnsent <;> simp [Option.filter, hunsent, parcel]
    · rfl
  · rfl

theorem queued_of_check (m : WhatsappManager) :
    (queued (exec checkAcks m).2).map (fun e => parcel e.2) =
      ((queued m).filter fun e => m.ackp.retained m.now e.2).map fun e => parcel e.2 := by
  rw [queued_parcels, queued, List.filter_filterMap, List.map_filterMap]
  refine List.filterMap_congr fun n _ => ?_
  have hlookup : (exec checkAcks m).2.ackp.outgoingMessages.lookup (m.generated n) =
      ((m.ackp.outgoingMessages.lookup (m.generated n)).map (m.ackp.checkEntry m.now)).filter
        fun mss => m.ackp.retained m.now mss := by
    refine Option.ext fun mss => ?_
    rw [Option.filter_eq_some_iff, ← lookup_mapValues fun _ mss => m.ackp.checkEntry m.now mss]
    exact lookup_retain_eq_some
  rw [queuedAs, queuedAs]
  change Option.map _ (Option.map _ (Option.filter _
    ((exec checkAcks m).2.ackp.outgoingMessages.lookup (m.generated n)))) = _
  rw [hlookup]
  cases m.ackp.outgoingMessages.lookup (m.generated n) with
  | none => rfl
  | some mss =>
      have hretained : m.ackp.retained m.now (m.ackp.checkEntry m.now mss) =
          m.ackp.retained m.now mss := rfl
      have hunsent : (m.ackp.checkEntry m.now mss).isUnsent = mss.isUnsent := rfl
      have hparcel : parcel (m.ackp.checkEntry m.now mss) = parcel mss := rfl
      rw [Option.map_some, Option.filter_some, hretained]
      cases hkeep : m.ackp.retained m.now mss <;> cases hsent : mss.isUnsent <;>
        simp_all [Option.filter_some]

theorem Kept.of_check {xs : List (Jid × ChatMessageContent)} {m : WhatsappManager}
    (hm : Owing [] m) (h : Kept xs m) : Kept xs (exec checkAcks m).2 where
  sublist := by
    rw [queued_of_check]
    exact (List.filter_sublist.map _).trans h.sublist
  all hexpired := by
    have hdropped : ∀ mss ∈ ((pairs m.ackp.outgoingMessages).map Prod.snd).filter
        fun mss => !m.ackp.retained m.now mss, mss.isUnsent = false :=
      fun mss hmss => hexpired mss (List.mem_append_right _ hmss)
    rw [queued_of_check, List.filter_eq_self.mpr]
    · exact h.all fun mss hmss => hexpired mss (List.mem_append_left _ hmss)
    · intro e he
      obtain ⟨hlookup, hunsent⟩ := (mem_queued hm).mp he
      by_contra hgone
      have hmem : e.2 ∈ ((pairs m.ackp.outgoingMessages).map Prod.snd).filter
          fun mss => !m.ackp.retained m.now mss :=
        List.mem_filter.mpr ⟨List.mem_map_of_mem (mem_pairs.mpr hlookup), by simpa using hgone⟩
      rw [hdropped e.2 hmem] at hunsent
      cases hunsent

theorem NoneUnsent.of_registered {s t : WhatsappManager} {dest : Jid}
    {content : ChatMessageContent} (hs : NoneUnsent s) (h : Registered dest content false s t) :
    NoneUnsent t := by
  intro mid mss hmss
  rw [h.ackp, WaAckTracker.registerSend, lookup_insert] at hmss
  split at hmss
  · cases hmss
    rfl
  · exact hs mid mss hmss

theorem noneUnsent_extracted (m : WhatsappManager) :
    NoneUnsent { m with ackp := m.ackp.extractUnsent.2 } := by
  intro mid mss hmss
  simpa using (lookup_retain_eq_some.mp hmss).2

theorem wp_onEstablished_noneUnsent (jid : Jid) (ps : Crates.PersistentSession)
    {m : WhatsappManager} (hm : Up m.msgproc.store) :
    wp (onEstablished jid ps) (fun _ t => NoneUnsent t) (fun _ _ => False) m := by
  have hresend : ∀ (xs : List MessageSendStatus) {u : WhatsappManager}, Up u.msgproc.store →
      NoneUnsent u → wp (forM xs fun mss => sendMessage mss.content mss.destination)
        (fun _ t => Up t.msgproc.store ∧ NoneUnsent t) (fun _ _ => False) u := by
    intro xs u hu hnone
    refine wp_forM_prefix (fun _ t => Up t.msgproc.store ∧ NoneUnsent t) ?_ ⟨hu, hnone⟩
    rintro - mss - - t ⟨ht, htnone⟩
    refine wp_mono (wp_sendMessage mss.content mss.destination ht) ?_ fun _ _ h => h
    intro _ v hv
    refine ⟨fun n => ?_, htnone.of_registered hv⟩
    rw [hv.dbDown]
    exact ht n
  rw [onEstablished, wp_bind, wp_get, wp_bind, wp_set, wp_bind, wp_when]
  have hrest : ∀ u : WhatsappManager, Up u.msgproc.store →
      wp (do
          let unsent ← extractUnsent
          forM unsent fun mss => sendMessage mss.content mss.destination
          store (storeWaPersistence ps)
          Whatsapp.setConn fun c => c.setPersistent (some ps)
          modify fun m => { m with prevJid := some jid, connected := true })
        (fun _ t => NoneUnsent t) (fun _ _ => False) u := by
    intro u hu
    simp only [extractUnsent, wp_bind, wp_get, wp_set, wp_pure]
    refine wp_mono (hresend _ hu (noneUnsent_extracted u)) ?_ fun _ _ h => h
    rintro _ v ⟨hv, hnone⟩
    rw [wp_store, storeWaPersistence, execute, wp_bind, hv.wp_query, wp_modify, Whatsapp.setConn,
      wp_modify, wp_modify]
    exact hnone
  split
  · exact hrest _ hm
  · exact hrest _ hm

theorem noneUnsent_of_next {s t : Session} {e : Event} (hs : Owing [] s.manager)
    (ht : next s e = some t) (hest : establishes s e = true) : NoneUnsent t.manager := by
  obtain ⟨-, hstep⟩ := next_eq_some ht
  cases e with
  | poll answers =>
      cases hstep
      obtain ⟨jid, ps, hpolled⟩ := eq_of_polledSession hest
      rw [perform_pollConn, hpolled]
      apply did_of_wp (I := NoneUnsent)
      exact wp_mono (wp_onEstablished_noneUnsent jid ps hs.up) (fun _ _ h => h)
        fun _ _ h => h.elim
  | _ => cases hest

theorem kept_next {xs : List (Jid × ChatMessageContent)} {s t : Session} {e : Event}
    (hs : Owing [] s.manager) (hkept : Kept xs s.manager) (ht : next s e = some t) :
    Kept (if establishes s e then [] else xs ++ writtenNow s t) t.manager := by
  cases hest : establishes s e with
  | true =>
      have hnone := queued_of_noneUnsent (noneUnsent_of_next hs ht hest)
      exact ⟨by simp [hnone], fun _ => by simp [hnone]⟩
  | false =>
      have hsame : t.manager.accepted = s.manager.accepted → Kept xs t.manager →
          Kept (xs ++ writtenNow s t) t.manager := by
        intro haccepted h
        have hnow : writtenNow s t = [] := by simp [writtenNow, haccepted]
        rwa [hnow, List.append_nil]
      cases did_next hs ht with
      | left h => exact hsame h.accepted (hkept.of_untracked h)
      | accepted jid content h =>
          have hnow : writtenNow s t =
              if online s.manager then [] else [(jid, content)] := by
            rw [writtenNow, h.accepted, accepting, List.drop_left]
          refine ⟨?_, fun hexpired => ?_⟩
          · rw [queued_of_accepts hs h, hnow]
            exact hkept.sublist.append_right _
          · rw [h.expired] at hexpired
            rw [queued_of_accepts hs h, hnow, hkept.all hexpired]
            rfl
      | acked u ack cb _ hu h =>
          apply hsame (by rw [h, hu.accepted])
          have hu' := hkept.of_untracked hu
          rw [h]
          exact ⟨by rw [queued_of_ack]; exact hu'.sublist, by
            rw [queued_of_ack]
            exact hu'.all⟩
      | checked h =>
          apply hsame (by rw [h]; rfl)
          rw [h]
          exact hkept.of_check hs
      | established h _ =>
          rw [hest] at h
          cases h

theorem kept_of_run {xs : List (Jid × ChatMessageContent)} {s t : Session} {es : List Event}
    (hs : Owing [] s.manager) (hkept : Kept xs s.manager) (hrun : run next s es = some t) :
    Kept (written xs s es) t.manager := by
  induction es generalizing xs s with
  | nil =>
      cases hrun
      exact hkept
  | cons e es ih =>
      rw [run_cons, Option.bind_eq_some_iff] at hrun
      obtain ⟨u, hu, hrun⟩ := hrun
      rw [written, hu]
      exact ih (hs.of_did (did_next hs hu)) (kept_next hs hkept hu) hrun

/-- After every run what waits is what has been written without a session, in the same
order; and a session that is established then sends it in this order, however the map is
iterated, if and only if no two messages with different texts wait for one destination. -/
theorem sentInOrder_iff {m : WhatsappManager} (hm : Idle m) {es : List Event} {s : Session}
    (hrun : run next ⟨m, none⟩ es = some s) (jid : Jid) (ps : Crates.PersistentSession) :
    Kept (written [] ⟨m, none⟩ es) s.manager ∧
      ((∀ (o : Shuffle) (dest : Jid),
        textsTo dest (resent o jid ps s.manager) = textsFor dest (queued s.manager)) ↔
          ∀ x ∈ queued s.manager, ∀ y ∈ queued s.manager,
            x.2.destination = y.2.destination → x.2.content = y.2.content) := by
  have hstart : NoneUnsent m := by
    intro mid mss h
    rw [hm.outgoing] at h
    cases h
  have hnone := queued_of_noneUnsent hstart
  have hkept : Kept [] (⟨m, none⟩ : Session).manager := ⟨by simp [hnone], fun _ => by simp [hnone]⟩
  exact ⟨kept_of_run (s := ⟨m, none⟩) hm.owing hkept hrun,
    resent_iff (owing_of_run (s := ⟨m, none⟩) hm.owing hrun) jid ps⟩

end Order

section Samples

attribute [local instance] Sample.crates

/-- Two messages are written to `Sample.alice` before there is a session. -/
def writing : List Event :=
  [.handle, .request (.sendDirectMessage Sample.alice ("one" : Str)),
    .request (.sendDirectMessage Sample.alice ("two" : Str)), .handle, .handle]

def writtenSession : Session := (run next ⟨sampleManager, none⟩ writing).get (by decide +kernel)

theorem sentInOrder_iff_writing : Kept (written [] ⟨sampleManager, none⟩ writing)
    writtenSession.manager ∧
      ((∀ (o : Shuffle) (dest : Jid), textsTo dest (resent o aliceJid () writtenSession.manager) =
        textsFor dest (queued writtenSession.manager)) ↔
          ∀ x ∈ queued writtenSession.manager, ∀ y ∈ queued writtenSession.manager,
            x.2.destination = y.2.destination → x.2.content = y.2.content) :=
  sentInOrder_iff idle_sampleManager (Option.some_get _).symm aliceJid ()

/-- They are sent the other way round. -/
theorem sent_reversed : ¬ ∀ (es : List Event) (s : Session) (o : Shuffle) (jid dest : Jid),
    run next ⟨sampleManager, none⟩ es = some s →
      textsTo dest (resent o jid () s.manager) =
        ((written [] ⟨sampleManager, none⟩ es).filter fun e => e.1 = dest).map Prod.snd := by
  intro h
  exact absurd (h writing writtenSession .stored aliceJid aliceJid (Option.some_get _).symm)
    (by decide +kernel)

end Samples

end SmsIrc.WhatsappOrder
