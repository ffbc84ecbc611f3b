import SmsIrc.WhatsappPoll

/-!
Runs of `WhatsappManager::poll` are runs of the sessions, in which a whole part of it is
one step.
-/

namespace SmsIrc.WhatsappTurns

open SmsIrc.Comm SmsIrc.Database SmsIrc.External SmsIrc.Models SmsIrc.Program SmsIrc.Text
open SmsIrc.Transition SmsIrc.Util SmsIrc.WaAck SmsIrc.WaConn SmsIrc.Whatsapp
open SmsIrc.WhatsappPoll SmsIrc.WhatsappRuns

section Turns

variable [Crates]

def streamed : Polled → Streamed
  | .notReady => .notReady
  | .item r => .ready (some r)
  | .failed => .failed

theorem streamPoll_answers (c : WebConnectionWrapper) (answers : List Answer) :
    streamPoll c (answers.map .answer) = (streamed (c.poll answers).1, (c.poll answers).2) := by
  induction answers generalizing c with
  | nil => rfl
  | cons a answers ih =>
      rw [List.map_cons]
      unfold streamPoll WebConnectionWrapper.poll
      rcases c.inner with _ | _ | _ | _ <;> cases a
      all_goals first | rfl | exact ih _

/-- No stream ends, and the timer of the tracker does not fail. -/
def Plain : Move → Prop
  | .stream outcomes => ∃ answers : List Answer, outcomes = answers.map .answer
  | .acks timer => ∃ fires, timer = .ok fires
  | _ => True

theorem proceed_perform {p : Poller} {prog : WaM Bool} {next : Bool → Poller → Poller}
    {h : WaM Unit} {again : Bool} (hp : p.outcome = none)
    (hprog : exec prog p.manager = ((exec h p.manager).1.map fun _ => again, (exec h p.manager).2))
    (hnext : ∀ again q, (next again q).manager = q.manager ∧ (next again q).outcome = q.outcome) :
    (⟨(proceed p prog next).manager, (proceed p prog next).outcome⟩ : Session) =
      perform ⟨p.manager, none⟩ h := by
  unfold proceed perform
  rw [hprog]
  rcases exec h p.manager with ⟨e | a, m⟩
  · rfl
  · obtain ⟨hmanager, houtcome⟩ := hnext again { p with manager := m }
    dsimp only [Except.map]
    rw [hmanager, houtcome, hp]

theorem outside_outcome {m : WhatsappManager} {e : Event} {s : Session} (he : isOutside e = true)
    (h : step ⟨m, none⟩ e = some s) : s.outcome = none := by
  cases e with
  | request c =>
      simp only [step] at h
      split at h
      · cases h
        rfl
      · cases h
  | finished i result =>
      obtain ⟨mi, -, rfl⟩ := Option.map_eq_some_iff.mp h
      rfl
  | otherOp op =>
      cases h
      rfl
  | clock now dbNow instant =>
      cases h
      rfl
  | _ => cases he

/-- The poller has come as far as a run of the sessions has, but for the part of the outbox
that has been sent. -/
inductive Follows (s₀ : Session) (q : Poller) : Prop where
  | met (hplace : q.place ≠ .sending) (es : List Event)
      (h : run next s₀ es = some ⟨q.manager, q.outcome⟩)
  | sending (hplace : q.place = .sending) (hnone : q.outcome = none) (es : List Event)
      (m : WhatsappManager) (answers : List SendAnswer) (h : run next s₀ es = some ⟨m, none⟩)
      (hsent : ∀ rest, exec (drainOutbox (answers ++ rest)) m =
        exec (sendQueued q.manager.outbox rest) q.manager)

theorem exec_pollStream (answers : List Answer) (m : WhatsappManager) :
    ∃ again, exec (pollStream (answers.map .answer)) m =
      ((exec (pollConn answers) m).1.map fun _ => again, (exec (pollConn answers) m).2) := by
  rw [pollStream, pollConn, exec_bind_ok (exec_get m), exec_bind_ok (exec_get m),
    exec_bind_ok (exec_set m _), exec_bind_ok (exec_set m _), streamPoll_answers]
  have hpair : ∀ {p : WaM Unit} {u : WhatsappManager}, exec (do
      p
      pure true) u = ((exec p u).1.map fun _ => true, (exec p u).2) := by
    intro p u
    rw [exec_bind]
    rcases exec p u with ⟨_ | _, _⟩ <;> rfl
  cases (m.conn.poll answers).1 with
  | notReady => exact ⟨false, rfl⟩
  | failed => exact ⟨false, rfl⟩
  | item r =>
      cases r with
      | ok e => exact ⟨true, hpair⟩
      | error e => exact ⟨true, hpair⟩

theorem exec_pollCommands (m : WhatsappManager) : ∃ again, exec pollCommands m =
    ((exec handleNext m).1.map fun _ => again, (exec handleNext m).2) := by
  rw [pollCommands, handleNext, exec_bind_ok (exec_get m), exec_bind_ok (exec_get m)]
  cases m.rx with
  | nil => exact ⟨false, rfl⟩
  | cons c rest =>
      refine ⟨true, ?_⟩
      dsimp only
      rw [exec_bind_ok (exec_set m _), exec_bind_ok (exec_set m _), exec_bind]
      rcases exec (handleIntRx c) { m with rx := rest } with ⟨_ | _, _⟩ <;> rfl

theorem run_concat {s₀ s t : Session} {es : List Event} {e : Event}
    (h : run next s₀ es = some s) (he : next s e = some t) : run next s₀ (es ++ [e]) = some t := by
  rw [run_append, h, Option.bind_some, run_cons, he]
  rfl

theorem follows_event {s₀ : Session} {p q : Poller} {es : List Event} {e : Event} {h : WaM Unit}
    (hes : run next s₀ es = some ⟨p.manager, p.outcome⟩) (hp : p.outcome = none)
    (he : ∀ s, step s e = some (perform s h)) (hplace : q.place ≠ .sending)
    (hq : (⟨q.manager, q.outcome⟩ : Session) = perform ⟨p.manager, none⟩ h) : Follows s₀ q := by
  refine .met hplace (es ++ [e]) ?_
  rw [hq]
  rw [hp] at hes
  exact run_concat hes (he _)

theorem follows_same {s₀ : Session} {p q : Poller} {es : List Event}
    (hes : run next s₀ es = some ⟨p.manager, p.outcome⟩) (hplace : q.place ≠ .sending)
    (hmanager : q.manager = p.manager) (houtcome : q.outcome = p.outcome) : Follows s₀ q :=
  .met hplace es (by rw [hmanager, houtcome]; exact hes)

theorem turn_place (p : Poller) : (turn p).place ≠ .sending := by
  unfold turn
  split
  · exact fun h => by cases h
  · exact fun h => by cases h

theorem exec_sendQueued {m : WhatsappManager} (hm : m.conn.isConnected = true) (a : SendAnswer)
    (rest : List SendAnswer) : exec (sendQueued m.outbox (a :: rest)) m =
      if (afterSend m a).1 then
        exec (sendQueued (afterSend m a).2.outbox rest) (afterSend m a).2
      else (.ok (), (afterSend m a).2) := by
  unfold afterSend
  cases hreqs : m.outbox with
  | nil => rfl
  | cons req reqs =>
      have hset : (({ m with outbox := reqs } : WhatsappManager).conn).isConnected = true := hm
      rw [sendQueued, exec_bind_ok (exec_modify _ m), List.headD_cons, List.tail_cons]
      have hsend := exec_startSend hset req a
      cases a with
      | ready =>
          rw [exec_bind_ok hsend]
          rfl
      | notReady =>
          rw [exec_bind_ok hsend]
          rfl
      | failed e =>
          rw [exec_bind_ok hsend]
          exact exec_onWaError e _

theorem Follows.events {s₀ : Session} {p : Poller} (h : Follows s₀ p) (hplace : p.place ≠ .sending) :
    ∃ es, run next s₀ es = some ⟨p.manager, p.outcome⟩ := by
  cases h with
  | met _ es hes => exact ⟨es, hes⟩
  | sending hsending => exact absurd hsending hplace

theorem exec_pollComplete {m : WhatsappManager} (hm : m.conn.isConnected = true)
    (a : Except WaError Bool) : exec (do
        connPollComplete a
        pure true) m =
      ((exec (pollComplete a.isOk) m).1.map fun _ => true, (exec (pollComplete a.isOk) m).2) := by
  have h := exec_connPollComplete hm a
  rw [pollComplete, exec_bind_ok (exec_get m), Program.when]
  cases a with
  | ok done =>
      rw [exec_bind_ok h, if_neg (by simp [Except.isOk, Except.toBool])]
      rfl
  | error e =>
      rw [exec_bind_error h, if_pos ⟨hm, by simp [Except.isOk, Except.toBool]⟩]
      rfl

theorem follows_checks {s₀ : Session} {p : Poller} {es : List Event} (fires : Nat)
    (hes : run next s₀ es = some ⟨p.manager, none⟩) :
    ∃ m, exec (pollAcks (.ok fires)) p.manager = (.ok (), m) ∧
      ∃ es, run next s₀ es = some ⟨m, none⟩ := by
  have hloop : ∀ (n : Nat) (m : WhatsappManager) (es : List Event),
      run next s₀ es = some ⟨m, none⟩ →
        ∃ t, exec (forM (List.replicate n ()) fun _ => checkAcks) m = (.ok (), t) ∧
          ∃ es, run next s₀ es = some ⟨t, none⟩ := by
    intro n
    induction n with
    | zero => exact fun m es hes => ⟨m, rfl, es, hes⟩
    | succ n ih =>
        intro m es hes
        obtain ⟨t, ht, hrun⟩ := ih (exec checkAcks m).2 (es ++ [.check]) (run_concat hes rfl)
        refine ⟨t, ?_, hrun⟩
        rw [List.replicate_succ, List.forM_cons]
        exact ht
  exact hloop fires p.manager es hes

theorem follows_send {s₀ : Session} {p : Poller} (hp : Tested p) (hf : Follows s₀ p)
    (hplace : p.place = .sending) (a : SendAnswer) :
    Follows s₀ (proceed p (sendNext a) fun again q =>
      if again then q else { q with place := .flush }) := by
  cases hf with
  | met hne => exact absurd hplace hne
  | sending _ hnone es m answers hes hsent =>
      have hup : p.manager.conn.isConnected = true := hp (by rw [hplace]; rfl)
      rw [proceed_of_exec (exec_sendNext hup a)]
      have hstep := hsent (a :: [])
      cases hagain : (afterSend p.manager a).1 with
      | true =>
          refine .sending hplace hnone es m (answers ++ [a]) hes fun rest => ?_
          rw [List.append_assoc, List.singleton_append, hsent (a :: rest), exec_sendQueued hup,
            hagain]
          rfl
      | false =>
          rw [exec_sendQueued hup, hagain] at hstep
          refine .met (by simp) (es ++ [.drain (answers ++ [a])]) (run_concat hes ?_)
          change some (perform ⟨m, none⟩ (drainOutbox (answers ++ [a]))) = _
          rw [perform, hstep]
          change some (⟨(afterSend p.manager a).2, none⟩ : Session) = _
          rw [← hnone]
          rfl

theorem follows_look {s₀ : Session} {p : Poller} (hnone : p.outcome = none) {es : List Event}
    (hes : run next s₀ es = some ⟨p.manager, p.outcome⟩) : Follows s₀ (lookAtOutbox p) := by
  unfold lookAtOutbox
  split
  · exact follows_same hes (by simp) rfl rfl
  · split
    · rename_i hup
      rw [hnone] at hes
      refine .sending rfl hnone es p.manager [] hes fun rest => ?_
      rw [List.nil_append, drainOutbox, exec_bind_ok (exec_get _), if_pos hup]
    · rename_i hdown
      apply follows_event (e := .drain []) hes hnone (fun _ => rfl) (by simp)
      rw [perform, drainOutbox, exec_bind_ok (exec_get _), if_neg hdown]
      dsimp only
      rw [hnone]
      rfl

theorem follows_next {s₀ : Session} {p q : Poller} {mv : Move} (hp : Tested p ∧ Follows s₀ p)
    (hmv : Plain mv) (h : nextMove p mv = some q) : Tested q ∧ Follows s₀ q := by
  refine ⟨tested_next hp.1 h, ?_⟩
  obtain ⟨hnone, u, hu, rfl⟩ := nextMove_eq_some h
  have hlive : ∀ live, Follows s₀ u → Follows s₀ { u with live := live } := by
    intro live hf
    cases hf with
    | met hplace es h => exact .met hplace es h
    | sending hplace hnone es m answers h hsent => exact .sending hplace hnone es m answers h hsent
  apply hlive _
  have hevents : ∀ {place : Place}, p.place = place → place ≠ .sending →
      ∃ es, run next s₀ es = some ⟨p.manager, p.outcome⟩ :=
    fun hplace hne => hp.2.events (hplace ▸ hne)
  cases hu with
  | wake hplace =>
      obtain ⟨es, hes⟩ := hevents hplace (by decide)
      exact follows_same hes (by simp) rfl rfl
  | stream hplace =>
      obtain ⟨es, hes⟩ := hevents hplace (by decide)
      obtain ⟨answers, rfl⟩ := hmv
      obtain ⟨again, hexec⟩ := exec_pollStream answers p.manager
      refine follows_event (e := .poll answers) hes hnone (fun _ => rfl) ?_
        (proceed_perform hnone hexec fun _ _ => ⟨rfl, rfl⟩)
      refine proceed_cases (P := fun q => q.place ≠ .sending) (fun again m => ?_) fun e m => ?_
      · cases again <;> simp
      · simp [hplace]
  | receive hplace =>
      obtain ⟨es, hes⟩ := hevents hplace (by decide)
      obtain ⟨again, hexec⟩ := exec_pollCommands p.manager
      refine follows_event (e := .handle) hes hnone (fun _ => rfl) ?_
        (proceed_perform hnone hexec fun again _ => by cases again <;> exact ⟨rfl, rfl⟩)
      refine proceed_cases (P := fun q => q.place ≠ .sending) (fun again m => ?_) fun e m => ?_
      · cases again <;> simp [hplace]
      · simp [hplace]
  | look hplace =>
      obtain ⟨es, hes⟩ := hevents hplace (by decide)
      exact follows_look hnone hes
  | flushUp hplace hup =>
      obtain ⟨es, hes⟩ := hevents hplace (by decide)
      exact follows_same hes (by simp) rfl rfl
  | flushDown hplace hdown =>
      obtain ⟨es, hes⟩ := hevents hplace (by decide)
      exact follows_same hes (turn_place p) (turn_manager p) (turn_outcome p)
  | @send a hplace => exact follows_send hp.1 hp.2 hplace a
  | @complete a hplace =>
      obtain ⟨es, hes⟩ := hevents hplace (by decide)
      have hup : p.manager.conn.isConnected = true := hp.1 (by rw [hplace]; rfl)
      refine follows_event (e := .complete a.isOk) hes hnone (fun _ => rfl) ?_
        (proceed_perform hnone (exec_pollComplete hup a) fun _ q =>
          ⟨turn_manager q, turn_outcome q⟩)
      rw [proceed_complete hup]
      cases a with
      | ok done => exact turn_place p
      | error e => simp [completed, hplace]
  | @acks timer hplace =>
      obtain ⟨es, hes⟩ := hevents hplace (by decide)
      obtain ⟨fires, rfl⟩ := hmv
      rw [hnone] at hes
      obtain ⟨m, hm, es, hes⟩ := follows_checks fires hes
      have hexec : exec (do
          pollAcks (.ok fires)
          pure true) p.manager = (.ok true, m) := by rw [exec_bind_ok hm, exec_pure]
      rw [proceed_of_exec hexec]
      exact .met (by simp) es (by rw [hnone]; exact hes)
  | @outside e s he hplace hs =>
      have hne : p.place ≠ .sending := by
        intro hsending
        rw [hsending] at hplace
        exact absurd hplace (by decide)
      obtain ⟨es, hes⟩ := hp.2.events hne
      rw [hnone] at hes
      refine .met hne (es ++ [e]) (run_concat hes ?_)
      change step ⟨p.manager, none⟩ e = some ⟨s.manager, p.outcome⟩
      rw [hs, hnone, ← outside_outcome he hs]

/-- Every run of `poll` in which no stream ends and no timer fails is one of the sessions. -/
theorem sessions_of_run {p q : Poller} {moves : List Move} (hp : p.place = .idle)
    (hmoves : ∀ mv ∈ moves, Plain mv) (hrun : run nextMove p moves = some q)
    (hplace : q.place ≠ .sending) :
    ∃ es, run next ⟨p.manager, p.outcome⟩ es = some ⟨q.manager, q.outcome⟩ := by
  have h := invariant_of_allSteps
    (I := fun s => Tested s ∧ Follows ⟨p.manager, p.outcome⟩ s) (C := fun _ mv => Plain mv)
    (fun _ _ _ hmv hs ht => follows_next hs hmv ht)
    (allSteps_of_forall_mem (fun mv hmv _ => hmoves mv hmv) p)
    ⟨tested_of_place (by rw [hp]; rfl), .met (by rw [hp]; decide) [] rfl⟩ hrun
  exact h.2.events hplace

end Turns

end SmsIrc.WhatsappTurns
