import SmsIrc.WhatsappPoll

/-!
What becomes of the requests in the outbox and of the errors of the connection, in
every run of `WhatsappManager::poll`.
-/

namespace SmsIrc.WhatsappSink

open SmsIrc.Comm SmsIrc.Database SmsIrc.External SmsIrc.HashMaps SmsIrc.Models SmsIrc.Program
open SmsIrc.SenderCommon SmsIrc.SerialTable SmsIrc.Text SmsIrc.Transition SmsIrc.Util
open SmsIrc.WaAck SmsIrc.WaConn SmsIrc.Whatsapp SmsIrc.WhatsappFrame SmsIrc.WhatsappMsg
open SmsIrc.WhatsappPoll SmsIrc.WhatsappRuns

section Sink

variable [Crates]

/-- The error that the connection answers to the call of a move. -/
def reported (p : Poller) : Move → Option WaError
  | .stream outcomes =>
      match (streamPoll p.manager.conn outcomes).1 with
      | .ready (some (.error e)) => some e
      | _ => none
  | .send (.failed e) => if p.manager.outbox = [] then none else some e
  | .complete (.error e) => some e
  | _ => none

/-- An error of the connection has been handled. -/
structure Handled (e : WaError) (q : Poller) : Prop where
  survived : q.outcome = none
  handled : ∃ m : WhatsappManager, m.conn.inner = .waiting ∧
    exec (onWaError e) m = (.ok (), q.manager)
  wrapper : q.manager.conn.inner = .waiting ∨ q.manager.conn.inner = .disabled
  connected : q.manager.connected = false

/-- The connection fails when `poll_complete` is called. -/
def FailsToComplete (p : Poller) : Move → Prop
  | .complete (.error _) => p.outcome = none ∧ p.place = .completing
  | _ => False

theorem handled_errored {m : WhatsappManager} (e : WaError) (hm : m.conn.inner = .waiting)
    {q : Poller} (houtcome : q.outcome = none) (hq : q.manager = errored m e) : Handled e q := by
  refine ⟨houtcome, ⟨m, hm, hq ▸ exec_onWaError e m⟩, ?_, by rw [hq, errored]⟩
  rw [hq, errored]
  dsimp only
  split
  · exact .inr rfl
  · exact .inl hm

theorem Handled.setLive {e : WaError} {q : Poller} (h : Handled e q) (live : Bool) :
    Handled e { q with live := live } := ⟨h.survived, h.handled, h.wrapper, h.connected⟩

theorem waiting_of_error {c : WebConnectionWrapper} {outcomes : List Outcome} {e : WaError}
    (h : (streamPoll c outcomes).1 = .ready (some (.error e))) :
    (streamPoll c outcomes).2.inner = .waiting := by
  induction outcomes generalizing c with
  | nil => cases h
  | cons o outcomes ih =>
      unfold streamPoll at h ⊢
      split at h
      all_goals first | exact ih h | cases h
      rfl

theorem handled_stream {p : Poller} {outcomes : List Outcome} {e : WaError}
    (hp : p.outcome = none) (h : (streamPoll p.manager.conn outcomes).1 = .ready (some (.error e))) :
    Handled e (proceed p (pollStream outcomes) fun again q =>
      { q with place := if again then .conn else .commands }) := by
  have hexec : exec (pollStream outcomes) p.manager = (.ok true,
      errored { p.manager with conn := (streamPoll p.manager.conn outcomes).2 } e) := by
    rw [pollStream, exec_bind_ok (exec_get _), exec_bind_ok (exec_set _ _), h]
    exact exec_bind_ok (exec_onWaError e _)
  rw [proceed_of_exec hexec]
  exact handled_errored e (waiting_of_error h) hp rfl

theorem handled_send {p : Poller} {e : WaError} (hp : p.outcome = none)
    (hup : p.manager.conn.isConnected = true) (h : p.manager.outbox ≠ []) :
    Handled e (proceed p (sendNext (.failed e)) fun again q =>
      if again then q else { q with place := .flush }) := by
  rw [proceed_of_exec (exec_sendNext hup _)]
  unfold afterSend
  cases hreqs : p.manager.outbox with
  | nil => exact absurd hreqs h
  | cons req rest => exact handled_errored e rfl hp rfl

/-- An error is handled unless it comes from `poll_complete`. -/
theorem handled_step_iff {p : Poller} {mv : Move} (hp : Tested p) :
    (∀ e q, reported p mv = some e → nextMove p mv = some q → Handled e q) ↔
      ¬ FailsToComplete p mv := by
  constructor
  · intro h hfails
    cases mv with
    | complete a =>
        cases a with
        | ok done => exact hfails
        | error e =>
            have hq : move p (.complete (.error e)) = some (completed p (.error e)) := by
              rw [move, if_pos hfails.2, proceed_complete (hp (by rw [hfails.2]; rfl))]
            have hsurvived := (h e _ rfl (by rw [nextMove, hfails.1, hq]; rfl)).survived
            cases hsurvived
    | _ => exact hfails
  · intro h e q he hq
    obtain ⟨hnone, u, hu, rfl⟩ := nextMove_eq_some hq
    cases hu with
    | stream hplace =>
        have hready := he
        simp only [reported] at hready
        split at hready
        · cases hready
          exact (handled_stream hnone (by assumption)).setLive _
        · cases hready
    | @send a hplace =>
        cases a with
        | failed e' =>
            simp only [reported] at he
            split at he
            · cases he
            · cases he
              exact (handled_send hnone (hp (by rw [hplace]; rfl)) (by assumption)).setLive _
        | ready => cases he
        | notReady => cases he
    | @complete a hplace =>
        cases a with
        | ok done => cases he
        | error e' => exact absurd ⟨hnone, hplace⟩ h
    | wake hplace => cases he
    | receive hplace => cases he
    | look hplace => cases he
    | flushUp hplace hup => cases he
    | flushDown hplace hdown => cases he
    | acks hplace => cases he
    | outside he' hplace hs => cases he

/-- In exactly those runs in which `poll_complete` does not fail, every error of the
connection is handled: the manager goes on, and the wrapper waits or is disabled. -/
theorem handled_iff {p : Poller} {moves : List Move} (hp : p.place = .idle) :
    AllSteps nextMove (fun s mv => ∀ e t, reported s mv = some e → nextMove s mv = some t →
      Handled e t) p moves ↔
        AllSteps nextMove (fun s mv => ¬ FailsToComplete s mv) p moves :=
  allSteps_congr (fun _ _ _ hs ht => tested_next hs ht) (fun _ _ hs => handled_step_iff hs)
    (tested_of_place (by rw [hp]; rfl))

/-- Requests have been put in the outbox, and none has been taken from it. -/
def Pushes (s t : WhatsappManager) : Prop :=
  ∃ reqs, t.sent = s.sent ∧ t.outbox = s.outbox ++ reqs ∧ t.requested = s.requested ++ reqs

instance : IsPreorder WhatsappManager Pushes where
  refl s := ⟨[], rfl, (List.append_nil _).symm, (List.append_nil _).symm⟩
  trans _ _ _ := by
    rintro ⟨reqs, hsent, hout, hreq⟩ ⟨reqs', hsent', hout', hreq'⟩
    refine ⟨reqs ++ reqs', hsent'.trans hsent, ?_, ?_⟩
    · rw [hout', hout, List.append_assoc]
    · rw [hreq', hreq, List.append_assoc]

theorem pushes_of_eq {s t : WhatsappManager} (hsent : t.sent = s.sent)
    (hout : t.outbox = s.outbox) (hreq : t.requested = s.requested) : Pushes s t :=
  ⟨[], hsent, by rw [hout, List.append_nil], by rw [hreq, List.append_nil]⟩

theorem pushes_pushBack (r : WaRequest) : Moves Pushes (pushBack r) :=
  steps_modify fun _ => ⟨[r], rfl, rfl, rfl⟩

theorem pushes_modify {f : WhatsappManager → WhatsappManager} (hsent : ∀ m, (f m).sent = m.sent)
    (hout : ∀ m, (f m).outbox = m.outbox) (hreq : ∀ m, (f m).requested = m.requested) :
    Moves Pushes (modify f : WaM PUnit) :=
  steps_modify fun m => pushes_of_eq (hsent m) (hout m) (hreq m)

theorem pushes_store {α : Type} (p : StoreM α) : Moves Pushes (store p : WaM α) :=
  Steps.zoom (S := fun _ _ => True) (fun _ => by unfold wp; split <;> simp)
    fun _ _ _ => pushes_of_eq rfl rfl rfl

theorem bridging_pushes : Bridging Pushes where
  query _ := pushes_store _
  newRecipient _ _ _ _ _ := pushes_store _
  cf _ _ := pushes_modify (fun _ => rfl) (fun _ => rfl) fun _ => rfl
  newGroup _ _ _ := pushes_store _
  cb _ _ := pushes_of_eq rfl rfl rfl
  metadata _ := pushes_pushBack _

theorem naming_pushes : Naming Pushes where
  toBridging := bridging_pushes
  insert _ _ _ _ := pushes_store _
  updated grp := bridging_pushes.updateFromMetadata grp fun _ _ _ _ => pushes_store _
  subscribe _ := pushes_pushBack _
  chats _ _ := pushes_of_eq rfl rfl rfl
  conn _ _ := pushes_of_eq rfl rfl rfl
  session _ _ _ := pushes_of_eq rfl rfl rfl
  generate _ := pushes_of_eq rfl rfl rfl
  ackp _ _ := pushes_of_eq rfl rfl rfl
  accept _ _ := pushes_of_eq rfl rfl rfl
  presence _ _ := pushes_of_eq rfl rfl rfl
  send _ := pushes_pushBack _
  msgid _ := pushes_store _
  expire _ _ := pushes_of_eq rfl rfl rfl
  persistence _ := pushes_store _
  established _ _ := pushes_of_eq rfl rfl rfl
  contacts _ _ := pushes_of_eq rfl rfl rfl
  ntf _ _ := pushes_store _
  rename _ _ _ _ := pushes_modify (fun _ => rfl) (fun _ => rfl) fun _ => rfl

theorem reception_pushes : Reception Pushes where
  toHandlers := naming_pushes.toHandlers
  contacts := naming_pushes.contacts
  ntf := naming_pushes.ntf
  rename := naming_pushes.rename
  msgid := naming_pushes.msgid
  read _ _ := pushes_pushBack _
  process inc := Steps.zoom (S := fun _ _ => True) (fun _ => by unfold wp; split <;> simp)
    fun _ _ _ => pushes_of_eq rfl rfl rfl

theorem pushes_pollStream (outcomes : List Outcome) : Moves Pushes (pollStream outcomes) := by
  refine steps_get_bind fun m => ?_
  rw [wp_bind, wp_set]
  refine Steps.after ?_ (pushes_of_eq rfl rfl rfl)
  cases (streamPoll m.conn outcomes).1 with
  | notReady => exact steps_pure _
  | ready item =>
      match item with
      | none => exact steps_throw trivial
      | some (.ok e) =>
          refine Steps.bind ?_ fun _ => steps_pure _
          exact naming_pushes.toTracking.onWaEvent e naming_pushes.toRenaming.onContactChange
            fun msg isNew _ => reception_pushes.onMessage msg isNew
      | some (.error e) => exact Steps.bind (naming_pushes.onWaError e) fun _ => steps_pure _
  | failed => exact Steps.bind steps_get fun _ => steps_throw trivial
  | panicked => exact steps_throw trivial

theorem pushes_pollCommands : Moves Pushes pollCommands := by
  refine steps_get_bind fun m => ?_
  split
  · exact Std.Refl.refl (r := Pushes) m
  · rename_i c rest _
    rw [wp_bind, wp_set]
    have hhandle : Moves Pushes (handleIntRx c) :=
      naming_pushes.toTracking.handleIntRx c (fun r _ => reception_pushes.mediaFinished r)
        fun chan _ => bridging_pushes.groupRemove chan fun _ => pushes_store _
    exact (Steps.bind hhandle fun _ => steps_pure true).after (pushes_of_eq rfl rfl rfl)

theorem pushes_pollAcks (timer : Except Unit Nat) : Moves Pushes (pollAcks timer) := by
  cases timer with
  | ok fires => exact Steps.forM fun _ _ => naming_pushes.checkAcks
  | error _ => exact Steps.bind steps_get fun _ => steps_throw trivial

/-- The requests that the connection has accepted, followed by those in the outbox, are
all requests that were put there, in their order. -/
def InOrder (m : WhatsappManager) : Prop := m.sent ++ m.outbox = m.requested

/-- Every request was put in the outbox. -/
def Bounded (m : WhatsappManager) : Prop := (m.sent ++ m.outbox).length ≤ m.requested.length

/-- No request is dropped: the connection does not refuse one, and is up when there are
some. -/
def Lossless (p : Poller) : Move → Prop
  | .send .notReady => p.manager.outbox = []
  | .look => p.place = .outbox → p.manager.outbox = [] ∨ p.manager.conn.isConnected = true
  | _ => True

/-- The connection does not fail to take a request. -/
def NoSendError (_ : Poller) (mv : Move) : Prop := ∀ e, mv ≠ .send (.failed e)

theorem inOrder_of_pushes {s t : WhatsappManager} (h : Pushes s t) :
    (InOrder t ↔ InOrder s) ∧ (Bounded s → Bounded t) := by
  obtain ⟨reqs, hsent, hout, hreq⟩ := h
  unfold InOrder Bounded
  rw [hsent, hout, hreq, ← List.append_assoc]
  refine ⟨List.append_left_inj reqs, fun h => ?_⟩
  simp only [List.length_append] at h ⊢
  omega

theorem not_inOrder_of_lt {s t : WhatsappManager} (hs : Bounded s)
    (hreq : t.requested = s.requested)
    (hlt : (t.sent ++ t.outbox).length < (s.sent ++ s.outbox).length) :
    ¬ InOrder t ∧ Bounded t := by
  unfold InOrder Bounded at *
  rw [hreq]
  refine ⟨fun heq => ?_, by omega⟩
  rw [heq] at hlt
  omega

/-- A move takes the manager to one that is in order exactly if it was and the move has lost
nothing. -/
def Orders (p : Poller) (mv : Move) (m : WhatsappManager) : Prop :=
  Bounded m ∧ (InOrder m ↔ InOrder p.manager ∧ Lossless p mv)

theorem orders_of_pushes {p : Poller} {mv : Move} {m : WhatsappManager} (hp : Bounded p.manager)
    (hm : Pushes p.manager m) (hlossless : Lossless p mv) : Orders p mv m := by
  obtain ⟨hiff, hbound⟩ := inOrder_of_pushes hm
  exact ⟨hbound hp, hiff.trans (and_iff_left hlossless).symm⟩

theorem orders_of_lt {p : Poller} {mv : Move} {m : WhatsappManager} (hp : Bounded p.manager)
    (hreq : m.requested = p.manager.requested)
    (hlt : (m.sent ++ m.outbox).length < (p.manager.sent ++ p.manager.outbox).length)
    (hlossy : ¬ Lossless p mv) : Orders p mv m := by
  obtain ⟨hnot, hbound⟩ := not_inOrder_of_lt hp hreq hlt
  exact ⟨hbound, iff_of_false hnot fun h => hlossy h.2⟩

theorem orders_look {p : Poller} (hp : Bounded p.manager) (hplace : p.place = .outbox) :
    Orders p .look (lookAtOutbox p).manager := by
  have hsame : Pushes p.manager p.manager := refl _
  unfold lookAtOutbox
  split
  · rename_i hempty
    exact orders_of_pushes hp hsame fun _ => .inl hempty
  · rename_i hsome
    split
    · rename_i hup
      exact orders_of_pushes hp hsame fun _ => .inr hup
    · rename_i hdown
      refine orders_of_lt hp rfl ?_ fun h => (h hplace).elim hsome hdown
      have := List.length_pos_of_ne_nil hsome
      simp only [List.length_append, List.length_nil]
      omega

/-- A request that is accepted stays in its place; one that is refused is thrown away. -/
theorem orders_afterSend {p : Poller} {a : SendAnswer} (hp : Bounded p.manager)
    (hmv : NoSendError p (.send a)) : Orders p (.send a) (afterSend p.manager a).2 := by
  unfold afterSend
  cases hreqs : p.manager.outbox with
  | nil =>
      apply orders_of_pushes hp (refl _)
      cases a with
      | notReady => exact hreqs
      | _ => trivial
  | cons req rest =>
      cases a with
      | ready =>
          refine ⟨?_, ?_⟩
          · have := hp
            unfold Bounded at this ⊢
            rw [hreqs] at this
            simpa using this
          · unfold InOrder
            rw [hreqs, List.append_assoc]
            exact (and_iff_left trivial).symm
      | notReady =>
          refine orders_of_lt hp rfl ?_ fun h => ?_
          · rw [hreqs]
            simp
          · rw [Lossless, hreqs] at h
            cases h
      | failed e => exact absurd rfl (hmv e)

theorem inOrder_next {p q : Poller} {mv : Move} (hp : Tested p ∧ Bounded p.manager)
    (hmv : NoSendError p mv) (h : nextMove p mv = some q) :
    (Tested q ∧ Bounded q.manager) ∧ (InOrder q.manager ↔ InOrder p.manager ∧ Lossless p mv) := by
  refine (and_assoc.mpr ⟨tested_next hp.1 h, ?_⟩)
  obtain ⟨-, u, hu, rfl⟩ := nextMove_eq_some h
  change Orders p mv u.manager
  have hsame : Pushes p.manager p.manager := refl _
  have hmoves : ∀ {prog : WaM Bool} {next : Bool → Poller → Poller},
      (∀ again q, (next again q).manager = q.manager) → Moves Pushes prog → Lossless p mv →
        Orders p mv (proceed p prog next).manager := by
    intro prog next hnext hprog
    exact orders_of_pushes hp.2 (proceed_moves hprog hnext)
  cases hu with
  | wake hplace => exact orders_of_pushes hp.2 hsame trivial
  | stream hplace => exact hmoves (fun _ _ => rfl) (pushes_pollStream _) trivial
  | receive hplace =>
      exact hmoves (fun again _ => by cases again <;> rfl) pushes_pollCommands trivial
  | look hplace => exact orders_look hp.2 hplace
  | flushUp hplace hup =>
      refine orders_of_pushes hp.2 hsame fun h => ?_
      rw [hplace] at h
      cases h
  | flushDown hplace hdown =>
      rw [turn_manager]
      refine orders_of_pushes hp.2 hsame fun h => ?_
      rw [hplace] at h
      cases h
  | @send a hplace =>
      rw [proceed_of_exec (exec_sendNext (hp.1 (by rw [hplace]; rfl)) a)]
      have hmanager : ∀ again : Bool, ∀ q : Poller,
          (if again = true then q else { q with place := .flush }).manager = q.manager := by
        intro again q
        cases again <;> rfl
      rw [hmanager]
      exact orders_afterSend hp.2 hmv
  | @complete a hplace =>
      rw [proceed_complete (hp.1 (by rw [hplace]; rfl))]
      cases a with
      | ok done =>
          change Orders p _ (turn p).manager
          rw [turn_manager]
          exact orders_of_pushes hp.2 hsame trivial
      | error e => exact orders_of_pushes hp.2 hsame trivial
  | acks hplace =>
      exact hmoves (fun _ _ => rfl)
        (Steps.bind (pushes_pollAcks _) fun _ => steps_pure true) trivial
  | outside he hplace hs =>
      obtain ⟨-, -, hout, hsent, hreq⟩ := outside_manager he hs
      exact orders_of_pushes hp.2 (pushes_of_eq hsent hout hreq) trivial

/-- While the connection does not fail to take a request, the accepted requests followed
by the waiting ones are the queued ones exactly in those runs in which the connection does
not refuse one, and is up whenever there are some. -/
theorem keepsOrder_iff {p q : Poller} {moves : List Move} (hp : p.place = .idle)
    (hstart : p.manager.sent ++ p.manager.outbox = p.manager.requested)
    (hmoves : AllSteps nextMove NoSendError p moves) (hrun : run nextMove p moves = some q) :
    q.manager.sent ++ q.manager.outbox = q.manager.requested ↔
      AllSteps nextMove Lossless p moves := by
  have hiff := iff_allSteps (D := NoSendError) (C := Lossless)
    (I := fun s => Tested s ∧ Bounded s.manager) (P := fun s => InOrder s.manager)
    (fun _ _ _ hD hs ht => inOrder_next hs hD ht) hmoves
    ⟨tested_of_place (by rw [hp]; rfl), by rw [Bounded, hstart]⟩ hrun
  exact hiff.trans (and_iff_right hstart)

end Sink

section Samples

attribute [local instance] Sample.crates

/-- The connection has no room for the message, which is then gone. -/
def refusing : List Move :=
  establishing ++ writing ++ [.send .notReady, .send .ready, .look, .complete (.ok false),
    .stream [], .receive, .look, .look, .complete (.ok true), .acks (.ok 0)]

def refusedPoller : Poller :=
  (run nextMove (.new sampleManager) refusing).get (by decide +kernel)

theorem keepsOrder_iff_refusedPoller :
    refusedPoller.manager.sent ++ refusedPoller.manager.outbox =
      refusedPoller.manager.requested ↔ AllSteps nextMove Lossless (.new sampleManager) refusing :=
  keepsOrder_iff rfl rfl
    (allSteps_of_forall_mem (by simp [refusing, establishing, writing, NoSendError]) _)
    (Option.some_get _).symm

/-- No error is reported, and yet a request is lost. -/
theorem refused_lost : ¬ ∀ (p q : Poller) (moves : List Move), p.place = .idle →
    p.manager.sent ++ p.manager.outbox = p.manager.requested →
    AllSteps nextMove (fun s mv => reported s mv = none) p moves →
    run nextMove p moves = some q → q.place = .idle →
      q.manager.sent ++ q.manager.outbox = q.manager.requested := by
  intro h
  have hlost := h (.new sampleManager) refusedPoller refusing rfl rfl (by decide +kernel)
    (Option.some_get _).symm (by decide +kernel)
  exact absurd (congrArg List.length hlost) (by decide +kernel)

/-- The connection fails when it is to complete what it has sent. -/
def breaking : List Move :=
  establishing ++ writing ++ [.send .ready, .send .ready, .look, .complete (.error .other)]

theorem handled_iff_breaking : AllSteps nextMove (fun s mv => ∀ e t, reported s mv = some e →
    nextMove s mv = some t → Handled e t) (.new sampleManager) breaking ↔
      AllSteps nextMove (fun s mv => ¬ FailsToComplete s mv) (.new sampleManager) breaking :=
  handled_iff rfl

/-- The error ends the manager. -/
theorem broken_ends : ¬ ∀ (p q : Poller) (moves : List Move) (mv : Move) (e : WaError) (t : Poller),
    p.place = .idle → run nextMove p moves = some q → reported q mv = some e →
      nextMove q mv = some t → Handled e t := by
  intro h
  have hmoves : ((run nextMove (.new sampleManager) (breaking.take 24)).bind fun q =>
      (nextMove q (.complete (.error .other))).map fun t => t.outcome.isSome) = some true := by
    decide +kernel
  obtain ⟨q, hq, hbind⟩ := Option.bind_eq_some_iff.mp hmoves
  obtain ⟨t, ht, hended⟩ := Option.map_eq_some_iff.mp hbind
  have hsurvived := (h _ q _ (.complete (.error .other)) .other t rfl hq rfl ht).survived
  rw [hsurvived] at hended
  cases hended

end Samples

end SmsIrc.WhatsappSink
