import SmsIrc.WhatsappPoll

/-!
Whether the connection over which messages are sent has established a session.
-/

namespace SmsIrc.WhatsappSession

open SmsIrc.Comm SmsIrc.Database SmsIrc.External SmsIrc.HashMaps SmsIrc.Models SmsIrc.Program
open SmsIrc.SenderCommon SmsIrc.SerialTable SmsIrc.Text SmsIrc.Transition SmsIrc.Util
open SmsIrc.WaAck SmsIrc.WaConn SmsIrc.Whatsapp SmsIrc.WhatsappFrame SmsIrc.WhatsappMsg
open SmsIrc.WhatsappPoll SmsIrc.WhatsappRuns

section Session

variable [Crates]

/-- The connection is left alone. -/
structure SameConn (s t : WhatsappManager) : Prop where
  conn : t.conn = s.conn
  connected : t.connected = s.connected

instance : IsPreorder WhatsappManager SameConn where
  refl _ := ⟨rfl, rfl⟩
  trans _ _ _ h h' := ⟨h'.conn.trans h.conn, h'.connected.trans h.connected⟩

theorem sameConn_store {α : Type} (p : StoreM α) : Moves SameConn (store p : WaM α) :=
  Steps.zoom (S := fun _ _ => True) (fun _ => by unfold wp; split <;> simp)
    fun _ _ _ => ⟨rfl, rfl⟩

theorem sameConn_pushBack (r : WaRequest) : Moves SameConn (pushBack r) :=
  steps_modify fun _ => ⟨rfl, rfl⟩

theorem bridging_sameConn : Bridging SameConn where
  query _ := sameConn_store _
  newRecipient _ _ _ _ _ := sameConn_store _
  cf _ _ := steps_modify fun _ => ⟨rfl, rfl⟩
  newGroup _ _ _ := sameConn_store _
  cb _ _ := ⟨rfl, rfl⟩
  metadata _ := sameConn_pushBack _

theorem conversing_sameConn : Conversing SameConn where
  toBridging := bridging_sameConn
  insert _ _ _ _ := sameConn_store _
  updated grp := bridging_sameConn.updateFromMetadata grp fun _ _ _ _ => sameConn_store _
  subscribe _ := sameConn_pushBack _
  chats _ _ := ⟨rfl, rfl⟩
  generate _ := ⟨rfl, rfl⟩
  ackp _ _ := ⟨rfl, rfl⟩
  accept _ _ := ⟨rfl, rfl⟩
  presence _ _ := ⟨rfl, rfl⟩
  send _ := sameConn_pushBack _
  msgid _ := sameConn_store _
  contacts _ _ := ⟨rfl, rfl⟩
  ntf _ _ := sameConn_store _
  rename _ _ _ _ := steps_modify fun _ => ⟨rfl, rfl⟩
  read _ _ := sameConn_pushBack _
  process inc := Steps.zoom (S := fun _ _ => True) (fun _ => by unfold wp; split <;> simp)
    fun _ _ _ => ⟨rfl, rfl⟩

theorem wp_onEstablished_conn (jid : Jid) (ps : Crates.PersistentSession) (m : WhatsappManager) :
    wp (onEstablished jid ps)
      (fun _ t => t.conn.inner = m.conn.inner ∧ t.connected = true) (fun _ _ => True) m := by
  have h := conversing_sameConn
  have hset : SameConn m { m with ourJid := some jid } := ⟨rfl, rfl⟩
  rw [onEstablished, wp_bind, wp_get, wp_bind, wp_set, wp_bind]
  refine wp_mono ((Steps.when (h.cbSend _)).after hset) (fun _ t ht => ?_) fun _ _ _ => trivial
  rw [wp_bind]
  have hextract : Moves SameConn extractUnsent := steps_get_bind fun m => h.ackp _ m
  refine wp_mono (hextract.after ht) (fun unsent t ht => ?_) fun _ _ _ => trivial
  rw [wp_bind]
  refine wp_mono ((Steps.forM fun mss _ => h.sendMessage mss.content mss.destination).after ht)
    (fun _ t ht => ?_) fun _ _ _ => trivial
  rw [wp_bind]
  refine wp_mono ((sameConn_store _).after ht) (fun _ t ht => ?_) fun _ _ _ => trivial
  rw [Whatsapp.setConn, wp_bind, wp_modify, wp_modify]
  refine ⟨?_, rfl⟩
  change t.conn.inner = _
  rw [ht.conn]

/-- The command sets up a connection. -/
def connects (m : WhatsappManager) : Option WhatsappCommand → Bool
  | some .startRegistration => true
  | some .logonIfSaved => m.msgproc.store.waPersistence.isSome
  | _ => false

/-- A connection is set up while the manager has a session. -/
def Reconnects (p : Poller) : Move → Prop
  | .receive => p.manager.connected = true ∧ connects p.manager p.manager.rx.head? = true
  | _ => False

def isSend : WhatsappCommand → Bool
  | .sendGroupMessage _ _ => true
  | .sendDirectMessage _ _ => true
  | _ => false

/-- A message that is sent now goes out at once. -/
def SendsAtOnce (p : Poller) : Move → Prop
  | .receive => p.manager.rx.head?.any isSend = true ∧ online p.manager = true
  | _ => False

instance Reconnects.decidable : ∀ p mv, Decidable (Reconnects p mv)
  | _, .receive => inferInstanceAs (Decidable (_ ∧ _))
  | _, .wake | _, .stream _ | _, .look | _, .send _ | _, .complete _ | _, .acks _
  | _, .outside _ => .isFalse id

instance SendsAtOnce.decidable : ∀ p mv, Decidable (SendsAtOnce p mv)
  | _, .receive => inferInstanceAs (Decidable (_ ∧ _))
  | _, .wake | _, .stream _ | _, .look | _, .send _ | _, .complete _ | _, .acks _
  | _, .outside _ => .isFalse id

/-- While the manager has a session, so has the connection. -/
def Current (p : Poller) : Prop :=
  p.outcome = none → p.manager.connected = true →
    p.manager.conn.inner = .running ∧ p.live = true

theorem streamPoll_running {c : WebConnectionWrapper} (hc : c.inner = .running)
    {outcomes : List Outcome} :
    (streamPoll c outcomes).2 = c ∨
      (∃ e, (streamPoll c outcomes).1 = .ready (some (.error e))) ∨
        (streamPoll c outcomes).1 = .panicked := by
  cases outcomes with
  | nil => exact .inl rfl
  | cons o outcomes =>
      cases o with
      | ended => simp [streamPoll, hc]
      | answer a => cases a <;> simp [streamPoll, hc]

theorem running_of_event {c : WebConnectionWrapper} {outcomes : List Outcome} {e : WaEvent}
    (h : (streamPoll c outcomes).1 = .ready (some (.ok e))) :
    (streamPoll c outcomes).2.inner = .running := by
  induction outcomes generalizing c with
  | nil => cases h
  | cons o outcomes ih =>
      unfold streamPoll at h ⊢
      split at h
      all_goals first | exact ih h | (cases h; exact (by assumption : c.inner = .running)) | cases h

/-- A session that the manager has after the stream has been polled is one that it had,
or has just been established. -/
def Carried (m : WhatsappManager) (outcomes : List Outcome) (t : WhatsappManager) : Prop :=
  t.connected = true → t.conn.inner = .running ∧
    (m.connected = true ∨ ∃ jid ps, (streamPoll m.conn outcomes).1 =
      .ready (some (.ok (.sessionEstablished jid ps))))

/-- Where the connection goes on and is then left alone, the session is carried on. -/
theorem carried_of_same {m t : WhatsappManager} {outcomes : List Outcome}
    (hm : m.connected = true → m.conn.inner = .running)
    (herror : ∀ e, (streamPoll m.conn outcomes).1 ≠ .ready (some (.error e)))
    (hpanic : (streamPoll m.conn outcomes).1 ≠ .panicked)
    (ht : SameConn { m with conn := (streamPoll m.conn outcomes).2 } t) :
    Carried m outcomes t := by
  intro hconnected
  rw [ht.connected] at hconnected
  have hrunning := hm hconnected
  refine ⟨?_, .inl hconnected⟩
  rcases streamPoll_running hrunning with hsame | ⟨e, he⟩ | hpanicked
  · rw [ht.conn, hsame, hrunning]
  · exact absurd he (herror e)
  · exact absurd hpanicked hpanic

theorem wp_onWaEvent_carried {m : WhatsappManager} {outcomes : List Outcome} {e : WaEvent}
    (hm : m.connected = true → m.conn.inner = .running)
    (he : (streamPoll m.conn outcomes).1 = .ready (some (.ok e))) :
    wp (onWaEvent e) (fun _ t => Carried m outcomes t) (fun _ _ => True)
      { m with conn := (streamPoll m.conn outcomes).2 } := by
  have hother : (∀ jid ps, e ≠ .sessionEstablished jid ps) →
      wp (onWaEvent e) (fun _ t => Carried m outcomes t) (fun _ _ => True)
        { m with conn := (streamPoll m.conn outcomes).2 } := by
    intro hne
    have hmoves := conversing_sameConn.onWaEvent e fun jid ps h => absurd h (hne jid ps)
    refine wp_mono (hmoves _) (fun _ t ht => ?_) fun _ _ _ => trivial
    exact carried_of_same hm (by simp [he]) (by simp [he]) ht
  cases e
  case sessionEstablished jid ps =>
    refine wp_mono (wp_onEstablished_conn jid ps _) (fun _ t ht hconnected => ?_)
      fun _ _ _ => trivial
    exact ⟨ht.1.trans (running_of_event he), .inr ⟨jid, ps, he⟩⟩
  all_goals exact hother (by simp)

theorem wp_pollStream {m : WhatsappManager} {outcomes : List Outcome}
    (hm : m.connected = true → m.conn.inner = .running) :
    wp (pollStream outcomes) (fun _ t => Carried m outcomes t) (fun _ _ => True) m := by
  rw [pollStream, wp_bind, wp_get, wp_bind, wp_set]
  cases hpolled : (streamPoll m.conn outcomes).1 with
  | notReady => exact carried_of_same hm (by simp [hpolled]) (by simp [hpolled]) ⟨rfl, rfl⟩
  | failed => trivial
  | panicked => trivial
  | ready item =>
      match item with
      | none => trivial
      | some (.error e) =>
          rw [handleStreamed, wp_bind, wp_onWaError]
          exact fun hconnected => by cases hconnected
      | some (.ok e) =>
          rw [handleStreamed, wp_bind]
          exact wp_onWaEvent_carried hm hpolled

theorem wp_handleIntRx {m : WhatsappManager} {c : WhatsappCommand}
    (hc : m.connected = true → connects m (some c) = false) :
    wp (handleIntRx c) (fun _ t => t.connected = true → SameConn m t) (fun _ _ => True) m := by
  have hother : c ≠ .startRegistration → c ≠ .logonIfSaved →
      wp (handleIntRx c) (fun _ t => t.connected = true → SameConn m t) (fun _ _ => True) m := by
    intro hregister hlogon
    have hmoves := conversing_sameConn.handleIntRx c (fun h => absurd h hregister)
      (fun h => absurd h hlogon) fun chan _ =>
        bridging_sameConn.groupRemove chan fun _ => sameConn_store _
    exact wp_mono (hmoves m) (fun _ _ ht _ => ht) fun _ _ _ => trivial
  cases c
  case startRegistration => exact fun hconnected => absurd (hc hconnected) (by simp [connects])
  case logonIfSaved =>
    rw [handleIntRx, logonIfSaved, wp_bind, wp_store, getWaPersistenceOpt]
    apply wp_query_of trivial
    cases hsaved : m.msgproc.store.tick.waPersistence with
    | none => exact fun _ => ⟨rfl, rfl⟩
    | some wap =>
        refine fun hconnected => absurd (hc hconnected) ?_
        have hsome : m.msgproc.store.waPersistence = some wap := hsaved
        simp [connects, hsome]
  all_goals exact hother (by simp) (by simp)

theorem wp_pollCommands {p : Poller} (hp : ¬ Reconnects p .receive) :
    wp pollCommands (fun _ t => t.connected = true → SameConn p.manager t) (fun _ _ => True)
      p.manager := by
  rw [pollCommands, wp_bind, wp_get]
  cases hrx : p.manager.rx with
  | nil => exact fun _ => ⟨rfl, rfl⟩
  | cons c rest =>
      dsimp only
      rw [wp_bind, wp_set, wp_bind]
      refine wp_mono (wp_handleIntRx (c := c) fun hconnected => ?_) (fun _ t ht h => ?_)
        fun _ _ _ => trivial
      · refine Bool.eq_false_iff.mpr fun hconnects => hp ⟨hconnected, ?_⟩
        rw [hrx]
        exact hconnects
      · exact ⟨(ht h).conn, (ht h).connected⟩

theorem current_of_same {p q : Poller} {mv : Move} (hp : Current p) (hnone : p.outcome = none)
    (h : q.manager.connected = true → SameConn p.manager q.manager) :
    Current { q with live := liveAfter p mv q } := by
  intro _ hconnected
  have hsame := h hconnected
  obtain ⟨hrunning, hlive⟩ := hp hnone (hsame.connected ▸ hconnected)
  have hup : p.manager.conn.isConnected = true := decide_eq_true hrunning
  have hq : q.manager.conn = p.manager.conn := hsame.conn
  refine ⟨(congrArg _ hq).trans hrunning, ?_⟩
  simp [liveAfter, hlive, hq, hup]

theorem current_of_failed {p : Poller} {e : Failure} (h : p.outcome = some e) : Current p := by
  intro hnone
  rw [h] at hnone
  cases hnone

theorem current_stream {p : Poller} {outcomes : List Outcome} (hp : Current p)
    (hnone : p.outcome = none) {t : WhatsappManager} (ht : Carried p.manager outcomes t)
    {q : Poller} (hq : q.manager = t) :
    Current { q with live := liveAfter p (.stream outcomes) q } := by
  subst hq
  intro _ hconnected
  obtain ⟨hrunning, hbefore⟩ := ht hconnected
  refine ⟨hrunning, ?_⟩
  rcases hbefore with hbefore | ⟨jid, ps, hevent⟩
  · obtain ⟨hheld, hlive⟩ := hp hnone hbefore
    have hup : p.manager.conn.isConnected = true := decide_eq_true hheld
    have hup' : q.manager.conn.isConnected = true := decide_eq_true hrunning
    simp [liveAfter, hlive, hup, hup']
  · simp [liveAfter, delivers, hevent]

/-- A turn of the loop over the outbox leaves the connection alone or reports its error. -/
theorem sameConn_afterSend {m : WhatsappManager} {a : SendAnswer}
    (h : (afterSend m a).2.connected = true) : SameConn m (afterSend m a).2 := by
  unfold afterSend at h ⊢
  cases hreqs : m.outbox with
  | nil => exact ⟨rfl, rfl⟩
  | cons req rest =>
      rw [hreqs] at h
      cases a with
      | ready => exact ⟨rfl, rfl⟩
      | notReady => exact ⟨rfl, rfl⟩
      | failed e => exact absurd h (by simp [errored])

theorem sameConn_pollAcks (timer : Except Unit Nat) : Moves SameConn (pollAcks timer) := by
  cases timer with
  | ok fires => exact Steps.forM fun _ _ => steps_modify fun _ => ⟨rfl, rfl⟩
  | error _ => exact Steps.bind steps_get fun _ => steps_throw trivial

theorem current_next {p q : Poller} {mv : Move} (hp : Tested p ∧ Current p)
    (hmv : ¬ Reconnects p mv) (h : nextMove p mv = some q) : Tested q ∧ Current q := by
  refine ⟨tested_next hp.1 h, ?_⟩
  obtain ⟨hnone, u, hu, rfl⟩ := nextMove_eq_some h
  have hsame : SameConn p.manager u.manager → Current { u with live := liveAfter p mv u } :=
    fun h => current_of_same hp.2 hnone fun _ => h
  have hrunning : p.manager.connected = true → p.manager.conn.inner = .running :=
    fun hconnected => (hp.2 hnone hconnected).1
  cases hu with
  | wake hplace => exact hsame ⟨rfl, rfl⟩
  | @stream outcomes hplace =>
      refine proceed_of_wp
        (P := fun u => Current { u with live := liveAfter p (.stream outcomes) u })
        (wp_mono (wp_pollStream hrunning) (fun again t ht => ?_) fun e t _ => ?_)
      · exact current_stream hp.2 hnone ht rfl
      · exact current_of_failed (e := e) rfl
  | receive hplace =>
      refine proceed_of_wp (P := fun u => Current { u with live := liveAfter p .receive u })
        (wp_mono (wp_pollCommands hmv) (fun again t ht => ?_) fun e t _ => ?_)
      · apply current_of_same hp.2 hnone
        cases again with
        | true => exact ht
        | false => exact ht
      · exact current_of_failed (e := e) rfl
  | look hplace =>
      apply hsame
      unfold lookAtOutbox
      split
      · exact ⟨rfl, rfl⟩
      · split
        · exact ⟨rfl, rfl⟩
        · exact ⟨rfl, rfl⟩
  | flushUp hplace hup => exact hsame ⟨rfl, rfl⟩
  | flushDown hplace hdown =>
      apply hsame
      rw [turn_manager]
      exact refl _
  | @send a hplace =>
      rw [proceed_of_exec (exec_sendNext (hp.1 (by rw [hplace]; rfl)) a)]
      apply current_of_same hp.2 hnone
      split
      · exact sameConn_afterSend
      · exact sameConn_afterSend
  | @complete a hplace =>
      rw [proceed_complete (hp.1 (by rw [hplace]; rfl))]
      refine current_of_same hp.2 hnone fun _ => ?_
      cases a with
      | ok done =>
          change SameConn p.manager (turn p).manager
          rw [turn_manager]
          exact refl _
      | error e => exact ⟨rfl, rfl⟩
  | acks hplace =>
      exact hsame (proceed_moves (Steps.bind (sameConn_pollAcks _) fun _ => steps_pure true)
        fun _ _ => rfl)
  | outside he hplace hs =>
      obtain ⟨hconn, hconnected, -⟩ := outside_manager he hs
      exact hsame ⟨hconn, hconnected⟩

/-- In every run in which no connection is set up while the manager has a session, each
message that goes out at once does so over a connection that has established one. -/
theorem sent_over_session {cfg : WhatsappConfig} {st : Store} {now : NaiveDateTime}
    {instant : Nat} {generated : Nat → Str} {contactFile : Nat → Except Str Str}
    {level : Option Logging.Level} {errorText : Str} {moves : List Move}
    (hmoves : AllSteps nextMove (fun s mv => ¬ Reconnects s mv)
      (.new (.new cfg st now instant generated contactFile level errorText)) moves) :
    AllSteps nextMove (fun s mv => SendsAtOnce s mv → nextMove s mv ≠ none → s.live = true)
      (.new (.new cfg st now instant generated contactFile level errorText)) moves := by
  refine hmoves.imp (I := fun s => Tested s ∧ Current s)
    (fun _ _ _ hmv hs ht => current_next hs hmv ht) (fun s mv _ hs hsends henabled => ?_)
    ⟨tested_of_place rfl, fun _ hconnected => by cases hconnected⟩
  obtain ⟨q, hq⟩ := Option.ne_none_iff_exists'.mp henabled
  have hnone := (nextMove_eq_some hq).1
  cases mv with
  | receive =>
      have honline : s.manager.connected = true := (Bool.and_eq_true_iff.mp hsends.2).1
      exact (hs.2 hnone honline).2
  | _ => exact hsends.elim

end Session

section Samples

attribute [local instance] Sample.crates

theorem sent_over_session_written : AllSteps nextMove
    (fun s mv => SendsAtOnce s mv → nextMove s mv ≠ none → s.live = true)
      (.new sampleManager) (establishing ++ writing) :=
  sent_over_session (by decide +kernel)

/-- The manager registers again, and a message is written when the new connection is up. -/
def reconnecting : List Move :=
  establishing ++ [.outside (.request .startRegistration), .wake, .stream [], .receive, .receive,
    .look, .look, .stream [.answer .ready],
    .outside (.request (.sendDirectMessage Sample.alice ("hi" : Str)))]

/-- It is sent before there is a session. -/
theorem sent_without_session : ¬ ∀ moves : List Move,
    AllSteps nextMove (fun s mv => SendsAtOnce s mv → nextMove s mv ≠ none → s.live = true)
      (.new sampleManager) moves := by
  intro h
  exact absurd (h (reconnecting ++ [.receive])) (by decide +kernel)

end Samples

end SmsIrc.WhatsappSession
