import SmsIrc.WhatsappFrame

/-!
`WhatsappManager::poll` of `src/whatsapp.rs`, call by call: between two calls it is at
one of a few places, and each call is given its answer from outside.
-/

namespace SmsIrc.WhatsappPoll

open SmsIrc.Comm SmsIrc.Database SmsIrc.External SmsIrc.HashMaps SmsIrc.Models SmsIrc.Program
open SmsIrc.SenderCommon SmsIrc.Text SmsIrc.Transition SmsIrc.Util SmsIrc.WaAck SmsIrc.WaConn
open SmsIrc.Whatsapp SmsIrc.WhatsappFrame SmsIrc.WhatsappMsg SmsIrc.WhatsappRuns

section Poll

variable [Crates]

/-- What the parts of the wrapper answer; a connection may also end. -/
inductive Outcome where
  | answer (a : Answer)
  | ended

/-- What polling the wrapper as a stream comes to. -/
inductive Streamed where
  | notReady
  | ready (item : Option (Except WaError WaEvent))
  | failed
  | panicked

/-- `poll` of the wrapper as a stream; an end of the connection is `unreachable!`. -/
def streamPoll (c : WebConnectionWrapper) : List Outcome → Streamed × WebConnectionWrapper
  | [] => (.notReady, c)
  | o :: outcomes =>
      match c.inner, o with
      | .disabled, _ => (.notReady, c)
      | .waiting, .answer .ready => streamPoll c.initialise outcomes
      | .waiting, .answer (.failed _) => (.failed, c.disable)
      | .waiting, _ => (.notReady, c)
      | .initializing, .answer .ready => streamPoll { c with inner := .running } outcomes
      | .initializing, .answer (.failed _) => streamPoll c.backoff outcomes
      | .initializing, _ => (.notReady, c)
      | .running, .answer (.event e) => (.ready (some (.ok e)), c)
      | .running, .answer (.failed e) => (.ready (some (.error e)), c.backoff)
      | .running, .ended => (.panicked, c.disable)
      | .running, _ => (.notReady, c)

/-- The body of the loop over the connection; whether there is another turn. -/
def handleStreamed : Streamed → WaM Bool
  | .notReady => pure false
  | .ready none => throw (.panic .wrapperEnded)
  | .ready (some (.ok e)) => do
      onWaEvent e
      pure true
  | .ready (some (.error e)) => do
      onWaError e
      pure true
  | .failed => do
      let m ← get
      throw (.error m.errorText)
  | .panicked => throw (.panic .connectionEnded)

def pollStream (outcomes : List Outcome) : WaM Bool := do
  let m ← get
  set { m with conn := (streamPoll m.conn outcomes).2 }
  handleStreamed (streamPoll m.conn outcomes).1

/-- The loop over the commands, likewise. -/
def pollCommands : WaM Bool := do
  let m ← get
  match m.rx with
  | [] => pure false
  | c :: rest => do
      set { m with rx := rest }
      handleIntRx c
      pure true

/-- The loop over the outbox, likewise. -/
def sendNext (a : SendAnswer) : WaM Bool := do
  let m ← get
  match m.outbox with
  | [] => pure false
  | req :: rest => do
      set { m with outbox := rest }
      match ← startSend req a with
      | some e => do
          onWaError e
          pure false
      | none => pure true

/-- `WebConnectionWrapper::poll_complete`. -/
def connPollComplete (a : Except WaError Bool) : WaM Unit := do
  let m ← get
  if m.conn.isConnected then
    match a with
    | .ok _ => pure ()
    | .error _ => throw (.error m.errorText)
  else throw (.panic .disconnectedSink)

/-- The timer of the tracker has fired some times, or failed. -/
def pollAcks : Except Unit Nat → WaM Unit
  | .ok fires => forM (List.replicate fires ()) fun _ => checkAcks
  | .error _ => do
      let m ← get
      throw (.error m.errorText)

/-- Where the task is: it waits to be polled, is about to poll the connection or the
queue, to look at the outbox or to call `start_send`, to look whether the connection is
up or to call `poll_complete`, or to poll the tracker. -/
inductive Place where
  | idle
  | conn
  | commands
  | outbox
  | sending
  | flush
  | completing
  | acks
deriving DecidableEq

structure Poller where
  manager : WhatsappManager
  outcome : Option Failure
  place : Place
  cont : Bool
  /-- Not in the source: the connection that is held has established a session. -/
  live : Bool

/-- A task that has not been polled. -/
def Poller.new (m : WhatsappManager) : Poller where
  manager := m
  outcome := none
  place := .idle
  cont := false
  live := false

inductive Move where
  | wake
  | stream (outcomes : List Outcome)
  | receive
  /-- The outbox or the connection is looked at. -/
  | look
  | send (a : SendAnswer)
  | complete (a : Except WaError Bool)
  | acks (timer : Except Unit Nat)
  /-- Another part of the program does something. -/
  | outside (e : Event)

/-- Let a part of `poll` run; a failure ends the manager. -/
def proceed (p : Poller) (prog : WaM Bool) (next : Bool → Poller → Poller) : Poller :=
  match exec prog p.manager with
  | (.ok again, m) => next again { p with manager := m }
  | (.error e, m) => { p with manager := m, outcome := some e }

/-- The end of a turn of the outer loop. -/
def turn (p : Poller) : Poller :=
  if p.cont then { p with cont := false, place := .conn } else { p with place := .acks }

/-- `if self.outbox.len() > 0 { .. }`, up to the first `start_send`. -/
def lookAtOutbox (p : Poller) : Poller :=
  if p.manager.outbox = [] then { p with place := .flush }
  else if p.manager.conn.isConnected then { p with place := .sending }
  else { p with manager := { p.manager with outbox := [] }, place := .flush }

/-- What the other parts of the program do. -/
def isOutside : Event → Bool
  | .request _ => true
  | .finished _ _ => true
  | .otherOp _ => true
  | .clock _ _ _ => true
  | _ => false

/-- They run between polls; downloads end at any time, but that is not seen before the
queue is polled. -/
def outside (p : Poller) (e : Event) : Option Poller :=
  if isOutside e ∧ p.place ∈ [.idle, .conn, .commands] then
    (step ⟨p.manager, none⟩ e).map fun s => { p with manager := s.manager }
  else none

def move (p : Poller) : Move → Option Poller
  | .wake => if p.place = .idle then some { p with cont := false, place := .conn } else none
  | .stream outcomes =>
      if p.place = .conn then
        some (proceed p (pollStream outcomes) fun again q =>
          { q with place := if again then .conn else .commands })
      else none
  | .receive =>
      if p.place = .commands then
        some (proceed p pollCommands fun again q =>
          if again then { q with cont := true } else { q with place := .outbox })
      else none
  | .look =>
      match p.place with
      | .outbox => some (lookAtOutbox p)
      | .flush =>
          some (if p.manager.conn.isConnected then { p with place := .completing } else turn p)
      | _ => none
  | .send a =>
      if p.place = .sending then
        some (proceed p (sendNext a) fun again q =>
          if again then q else { q with place := .flush })
      else none
  | .complete a =>
      if p.place = .completing then
        some (proceed p (do
          connPollComplete a
          pure true) fun _ q => turn q)
      else none
  | .acks timer =>
      if p.place = .acks then
        some (proceed p (do
          pollAcks timer
          pure true) fun _ q => { q with place := .idle })
      else none
  | .outside e => outside p e

/-- The move has the connection establish a session. -/
def delivers (p : Poller) : Move → Bool
  | .stream outcomes =>
      match (streamPoll p.manager.conn outcomes).1 with
      | .ready (some (.ok (.sessionEstablished _ _))) => true
      | _ => false
  | _ => false

/-- Whether a connection that has established a session is held after a move: it is the
one that was held before, unless it has just been set up or given up. -/
def liveAfter (p : Poller) (mv : Move) (q : Poller) : Bool :=
  delivers p mv || (p.live && p.manager.conn.isConnected && q.manager.conn.isConnected)

def nextMove (p : Poller) (mv : Move) : Option Poller :=
  match p.outcome with
  | none => (move p mv).map fun q => { q with live := liveAfter p mv q }
  | some _ => none

/-- What a move does, and where it can be made. -/
inductive Moved (p : Poller) : Move → Poller → Prop where
  | wake (h : p.place = .idle) : Moved p .wake { p with cont := false, place := .conn }
  | stream {outcomes : List Outcome} (h : p.place = .conn) :
      Moved p (.stream outcomes) (proceed p (pollStream outcomes) fun again q =>
        { q with place := if again then .conn else .commands })
  | receive (h : p.place = .commands) :
      Moved p .receive (proceed p pollCommands fun again q =>
        if again then { q with cont := true } else { q with place := .outbox })
  | look (h : p.place = .outbox) : Moved p .look (lookAtOutbox p)
  | flushUp (h : p.place = .flush) (hup : p.manager.conn.isConnected = true) :
      Moved p .look { p with place := .completing }
  | flushDown (h : p.place = .flush) (hdown : p.manager.conn.isConnected = false) :
      Moved p .look (turn p)
  | send {a : SendAnswer} (h : p.place = .sending) :
      Moved p (.send a) (proceed p (sendNext a) fun again q =>
        if again then q else { q with place := .flush })
  | complete {a : Except WaError Bool} (h : p.place = .completing) :
      Moved p (.complete a) (proceed p (do
        connPollComplete a
        pure true) fun _ q => turn q)
  | acks {timer : Except Unit Nat} (h : p.place = .acks) :
      Moved p (.acks timer) (proceed p (do
        pollAcks timer
        pure true) fun _ q => { q with place := .idle })
  | outside {e : Event} {s : Session} (he : isOutside e = true)
      (h : p.place ∈ [.idle, .conn, .commands]) (hs : step ⟨p.manager, none⟩ e = some s) :
      Moved p (.outside e) { p with manager := s.manager }

theorem moved_of_move {p q : Poller} {mv : Move} (h : move p mv = some q) : Moved p mv q := by
  have hguard : ∀ {c : Prop} [Decidable c] {r : Poller}, (if c then some r else none) = some q →
      c ∧ r = q := by
    intro c _ r hr
    split at hr
    · exact ⟨by assumption, Option.some.inj hr⟩
    · cases hr
  cases mv with
  | wake =>
      obtain ⟨hplace, rfl⟩ := hguard h
      exact .wake hplace
  | stream outcomes =>
      obtain ⟨hplace, rfl⟩ := hguard h
      exact .stream hplace
  | receive =>
      obtain ⟨hplace, rfl⟩ := hguard h
      exact .receive hplace
  | look =>
      simp only [move] at h
      split at h
      · cases h
        exact .look (by assumption)
      · cases h
        split
        · exact .flushUp (by assumption) (by assumption)
        · exact .flushDown (by assumption) (Bool.eq_false_iff.mpr (by assumption))
      · cases h
  | send a =>
      obtain ⟨hplace, rfl⟩ := hguard h
      exact .send hplace
  | complete a =>
      obtain ⟨hplace, rfl⟩ := hguard h
      exact .complete hplace
  | acks timer =>
      obtain ⟨hplace, rfl⟩ := hguard h
      exact .acks hplace
  | outside e =>
      simp only [move, outside] at h
      split at h
      · rename_i he
        obtain ⟨s, hs, rfl⟩ := Option.map_eq_some_iff.mp h
        exact .outside he.1 he.2 hs
      · cases h

theorem nextMove_eq_some {p q : Poller} {mv : Move} (h : nextMove p mv = some q) :
    p.outcome = none ∧ ∃ u, Moved p mv u ∧ q = { u with live := liveAfter p mv u } := by
  unfold nextMove at h
  split at h
  · obtain ⟨u, hu, rfl⟩ := Option.map_eq_some_iff.mp h
    exact ⟨by assumption, u, moved_of_move hu, rfl⟩
  · cases h

theorem proceed_of_wp {p : Poller} {prog : WaM Bool} {next : Bool → Poller → Poller}
    {P : Poller → Prop}
    (h : wp prog (fun again m => P (next again { p with manager := m }))
      (fun e m => P { p with manager := m, outcome := some e }) p.manager) :
    P (proceed p prog next) := by
  unfold wp at h
  unfold proceed
  rcases hp : exec prog p.manager with ⟨e | again, m⟩
  · rw [hp] at h
    exact h
  · rw [hp] at h
    exact h

/-- The wrapper never yields that it has ended. -/
theorem streamPoll_ne_none (c : WebConnectionWrapper) (outcomes : List Outcome) :
    (streamPoll c outcomes).1 ≠ .ready none := by
  induction outcomes generalizing c with
  | nil => simp [streamPoll]
  | cons o outcomes ih =>
      unfold streamPoll
      split
      all_goals first | exact ih _ | simp

/-- A manager after `on_wa_error`. -/
def errored (m : WhatsappManager) (err : WaError) : WhatsappManager :=
  { m with
    cbTx := m.cbTx ++ ((fatalError err).map ControlBotCommand.reportFailure).toList
    conn := if (fatalError err).isSome then m.conn.disable else m.conn
    ourJid := none
    connected := false }

theorem exec_onWaError (err : WaError) (m : WhatsappManager) :
    exec (onWaError err) m = (.ok (), errored m err) := by
  unfold onWaError disableOn errored
  cases fatalError err with
  | none => simp only [Option.map_none, Option.toList_none, List.append_nil]; rfl
  | some report => rfl

theorem wp_onWaError {err : WaError} {m : WhatsappManager} {Q : Unit → WhatsappManager → Prop}
    {E : Failure → WhatsappManager → Prop} : wp (onWaError err) Q E m ↔ Q () (errored m err) := by
  unfold wp
  rw [exec_onWaError]

/-- What the loop over the outbox does in a turn. -/
def afterSend (m : WhatsappManager) (a : SendAnswer) : Bool × WhatsappManager :=
  match m.outbox, a with
  | [], _ => (false, m)
  | req :: rest, .ready => (true, { m with outbox := rest, sent := m.sent ++ [req] })
  | _ :: rest, .notReady => (true, { m with outbox := rest })
  | _ :: rest, .failed e =>
      (false, errored { m with outbox := rest, conn := m.conn.backoff } e)

theorem exec_startSend {m : WhatsappManager} (hm : m.conn.isConnected = true) (req : WaRequest)
    (a : SendAnswer) : exec (startSend req a) m =
      match a with
      | .ready => (.ok none, { m with sent := m.sent ++ [req] })
      | .notReady => (.ok none, m)
      | .failed e => (.ok (some e), { m with conn := m.conn.backoff }) := by
  rw [startSend, exec_bind_ok (exec_get m), if_pos hm]
  cases a <;> rfl

theorem exec_sendNext {m : WhatsappManager} (hm : m.conn.isConnected = true) (a : SendAnswer) :
    exec (sendNext a) m = (.ok (afterSend m a).1, (afterSend m a).2) := by
  rw [sendNext, exec_bind_ok (exec_get m)]
  unfold afterSend
  cases hreqs : m.outbox with
  | nil => rfl
  | cons req rest =>
      have hset : (({ m with outbox := rest } : WhatsappManager).conn).isConnected = true := hm
      have hsend := exec_startSend hset req a
      dsimp only
      rw [exec_bind_ok (exec_set m _)]
      cases a with
      | ready => rw [exec_bind_ok hsend, exec_pure]
      | notReady => rw [exec_bind_ok hsend, exec_pure]
      | failed e =>
          rw [exec_bind_ok hsend]
          dsimp only
          rw [exec_bind_ok (exec_onWaError e _), exec_pure]

theorem proceed_of_exec {p : Poller} {prog : WaM Bool} {next : Bool → Poller → Poller}
    {again : Bool} {m : WhatsappManager} (h : exec prog p.manager = (.ok again, m)) :
    proceed p prog next = next again { p with manager := m } := by
  rw [proceed, h]

/-- What holds of a poller whatever a part of `poll` has done. -/
theorem proceed_cases {p : Poller} {prog : WaM Bool} {next : Bool → Poller → Poller}
    {P : Poller → Prop} (hnext : ∀ again m, P (next again { p with manager := m }))
    (hfail : ∀ e m, P { p with manager := m, outcome := some e }) : P (proceed p prog next) := by
  unfold proceed
  split
  · exact hnext _ _
  · exact hfail _ _

theorem proceed_manager {p : Poller} {prog : WaM Bool} {next : Bool → Poller → Poller}
    (hnext : ∀ again q, (next again q).manager = q.manager) :
    (proceed p prog next).manager = (exec prog p.manager).2 := by
  unfold proceed
  rcases exec prog p.manager with ⟨_ | again, m⟩
  · rfl
  · exact hnext _ _

theorem proceed_moves {R : WhatsappManager → WhatsappManager → Prop} {p : Poller}
    {prog : WaM Bool} {next : Bool → Poller → Poller} (hprog : Moves R prog)
    (hnext : ∀ again q, (next again q).manager = q.manager) :
    R p.manager (proceed p prog next).manager := by
  rw [proceed_manager hnext]
  exact hprog.exec _

theorem turn_manager (p : Poller) : (turn p).manager = p.manager := by
  unfold turn
  split <;> rfl

theorem outside_manager {m : WhatsappManager} {e : Event} {s : Session} (he : isOutside e = true)
    (h : step ⟨m, none⟩ e = some s) : s.manager.conn = m.conn ∧
      s.manager.connected = m.connected ∧ s.manager.outbox = m.outbox ∧
        s.manager.sent = m.sent ∧ s.manager.requested = m.requested := by
  cases e with
  | request c =>
      simp only [step] at h
      split at h
      · cases h
        exact ⟨rfl, rfl, rfl, rfl, rfl⟩
      · cases h
  | finished i result =>
      obtain ⟨mi, -, rfl⟩ := Option.map_eq_some_iff.mp h
      exact ⟨rfl, rfl, rfl, rfl, rfl⟩
  | otherOp op =>
      cases h
      exact ⟨rfl, rfl, rfl, rfl, rfl⟩
  | clock now dbNow instant =>
      cases h
      exact ⟨rfl, rfl, rfl, rfl, rfl⟩
  | _ => cases he

/-- The places at which a sink's method is called. -/
def usesSink : Place → Bool
  | .sending => true
  | .completing => true
  | _ => false

/-- The sink is used while the connection is up. -/
def Tested (p : Poller) : Prop := usesSink p.place = true → p.manager.conn.isConnected = true

theorem tested_of_place {p : Poller} (h : usesSink p.place = false) : Tested p := by
  intro hp
  rw [h] at hp
  cases hp

theorem turn_outcome (p : Poller) : (turn p).outcome = p.outcome := by
  unfold turn
  split <;> rfl

theorem tested_turn (p : Poller) : Tested (turn p) := by
  unfold turn
  split
  · exact tested_of_place rfl
  · exact tested_of_place rfl

/-- A turn of the loop over the outbox leaves the connection up, if there is another one. -/
theorem isConnected_afterSend {m : WhatsappManager} {a : SendAnswer}
    (hm : m.conn.isConnected = true) (h : (afterSend m a).1 = true) :
    (afterSend m a).2.conn.isConnected = true := by
  unfold afterSend at h ⊢
  cases hreqs : m.outbox with
  | nil => exact hm
  | cons req rest =>
      rw [hreqs] at h
      cases a with
      | ready => exact hm
      | notReady => exact hm
      | failed e => cases h

theorem exec_connPollComplete {m : WhatsappManager} (hm : m.conn.isConnected = true)
    (a : Except WaError Bool) : exec (connPollComplete a) m =
      match a with
      | .ok _ => (.ok (), m)
      | .error _ => (.error (.error m.errorText), m) := by
  rw [connPollComplete, exec_bind_ok (exec_get m), if_pos hm]
  cases a <;> rfl

/-- What comes of a poller whose `poll_complete` answers. -/
def completed (p : Poller) : Except WaError Bool → Poller
  | .ok _ => turn p
  | .error _ => { p with outcome := some (.error p.manager.errorText) }

theorem proceed_complete {p : Poller} (hp : p.manager.conn.isConnected = true)
    (a : Except WaError Bool) :
    proceed p (do
      connPollComplete a
      pure true) (fun _ q => turn q) = completed p a := by
  have hexec := exec_connPollComplete hp a
  cases a with
  | ok done => exact proceed_of_exec (by rw [exec_bind_ok hexec, exec_pure])
  | error e => rw [proceed, exec_bind_error hexec, completed]

theorem tested_next {p q : Poller} {mv : Move} (hp : Tested p) (h : nextMove p mv = some q) :
    Tested q := by
  obtain ⟨-, u, hu, rfl⟩ := nextMove_eq_some h
  change Tested u
  cases hu with
  | wake hplace => exact tested_of_place rfl
  | stream hplace =>
      refine proceed_cases (fun again m => tested_of_place ?_) fun e m => tested_of_place ?_
      · cases again <;> rfl
      · rw [hplace]
        rfl
  | receive hplace =>
      refine proceed_cases (fun again m => tested_of_place ?_) fun e m => tested_of_place ?_
      · cases again with
        | true =>
            dsimp only
            rw [if_pos rfl, hplace]
            rfl
        | false => rfl
      · rw [hplace]
        rfl
  | look hplace =>
      unfold lookAtOutbox
      split
      · exact tested_of_place rfl
      · split
        · exact fun _ => by assumption
        · exact tested_of_place rfl
  | flushUp hplace hup => exact fun _ => hup
  | flushDown hplace hdown => exact tested_turn p
  | @send a hplace =>
      have hup : p.manager.conn.isConnected = true := hp (by rw [hplace, usesSink])
      rw [proceed_of_exec (exec_sendNext hup a)]
      split
      · rename_i hagain
        exact fun _ => isConnected_afterSend hup hagain
      · exact tested_of_place rfl
  | @complete a hplace =>
      have hup : p.manager.conn.isConnected = true := hp (by rw [hplace, usesSink])
      rw [proceed_complete hup]
      cases a with
      | ok done => exact tested_turn p
      | error e => exact fun _ => hup
  | acks hplace =>
      refine proceed_cases (fun again m => tested_of_place rfl) fun e m => tested_of_place ?_
      rw [hplace]
      rfl
  | outside he hplace hs =>
      apply tested_of_place
      simp only [List.mem_cons, List.not_mem_nil, or_false] at hplace
      rcases hplace with hplace | hplace | hplace
      all_goals
        rw [hplace]
        rfl

/-- The sinks are used while the connection is up, so that they do not panic, and the
wrapper never yields that it has ended. -/
structure ProperlyUsed (p : Poller) : Prop where
  running : p.place = .sending ∨ p.place = .completing → p.manager.conn.inner = .running
  send : ∀ a q, nextMove p (.send a) = some q → q.outcome = none
  complete : ∀ a q site, nextMove p (.complete a) = some q → q.outcome ≠ some (.panic site)
  stream : ∀ outcomes, (streamPoll p.manager.conn outcomes).1 ≠ .ready none

theorem Tested.properlyUsed {p : Poller} (hp : Tested p) : ProperlyUsed p where
  running h := by
    have hup : p.manager.conn.isConnected = true := hp (by rcases h with h | h <;> rw [h, usesSink])
    exact of_decide_eq_true hup
  send a q h := by
    obtain ⟨hnone, u, hu, rfl⟩ := nextMove_eq_some h
    cases hu with
    | send hplace =>
        rw [proceed_of_exec (exec_sendNext (hp (by rw [hplace, usesSink])) a)]
        split
        · exact hnone
        · exact hnone
  complete a q site h := by
    obtain ⟨hnone, u, hu, rfl⟩ := nextMove_eq_some h
    cases hu with
    | complete hplace =>
        rw [proceed_complete (hp (by rw [hplace, usesSink])) a]
        cases a with
        | ok done =>
            change (turn p).outcome ≠ _
            rw [turn_outcome, hnone]
            simp
        | error e => simp [completed]
  stream outcomes := streamPoll_ne_none _ outcomes

/-- In every run of `poll`, its sinks are only used while the connection is up, and do not
panic, and the wrapper does not yield that it has ended. -/
theorem properlyUsed_of_run {p q : Poller} {moves : List Move} (hp : p.place = .idle)
    (hrun : run nextMove p moves = some q) : ProperlyUsed q := by
  have hstart : Tested p := tested_of_place (by rw [hp]; rfl)
  exact (Transition.invariant (fun _ _ _ hs ht => tested_next hs ht) hstart hrun).properlyUsed

end Poll

section Samples

attribute [local instance] Sample.crates

/-- The manager is polled while it registers, and then while a session is established. -/
def establishing : List Move :=
  [.outside (.request .startRegistration), .wake, .stream [], .receive, .receive, .receive, .look,
    .look, .stream [.answer .ready,
      .answer (.event (.sessionEstablished ⟨("44" : Str), false⟩ ()))],
    .stream [], .receive, .look, .look, .complete (.ok true), .acks (.ok 0)]

/-- A message is then written. -/
def writing : List Move :=
  [.outside (.request (.sendDirectMessage Sample.alice ("hi" : Str))), .wake, .stream [],
    .receive, .receive, .look]

def writtenPoller : Poller :=
  (run nextMove (.new sampleManager) (establishing ++ writing)).get (by decide +kernel)

theorem properlyUsed_writtenPoller :
    writtenPoller.place = .sending ∧ ProperlyUsed writtenPoller :=
  ⟨by decide +kernel, properlyUsed_of_run rfl (Option.some_get _).symm⟩

end Samples

end SmsIrc.WhatsappPoll
