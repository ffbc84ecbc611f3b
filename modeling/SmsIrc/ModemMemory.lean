import SmsIrc.Modem
import SmsIrc.Sample
import SmsIrc.Transition

/-!
The modem manager and the memory of the modem it manages: which messages are
stored, and which are deleted from the memory.
-/

namespace SmsIrc.ModemMemory

open SmsIrc.Comm SmsIrc.Database SmsIrc.External SmsIrc.Modem SmsIrc.Program
open SmsIrc.SenderCommon SmsIrc.Text SmsIrc.Transition SmsIrc.Util

section Memory

variable [Crates]

structure Bridge where
  manager : ModemManager
  /-- The manager has failed, and the program with it. -/
  ended : Bool
  memory : List SmsMessage
  /-- The received messages that have been deleted from the memory. -/
  deleted : List SmsMessage

inductive Event where
  /-- An SMS arrives. -/
  | arrive (pdu : DeliverPdu) (rawPdu : List UInt8)
  /-- The manager polls the modem. -/
  | poll (ps : List Poll)
  /-- The manager takes a command from its queue. -/
  | handle (ps : List Poll)
  /-- Another part of the program, or the timer, sends a command. -/
  | request (c : ModemCommand)
  /-- The modem executes a command; `shown` is what a query shows. -/
  | execute (i : Nat) (shown : Str × Str)
  /-- The answer to a command reaches the program. -/
  | answer (i : Nat)
  /-- A command fails or times out, executed or not. -/
  | fail (i : Nat) (e : Str)
  /-- The rest of the program uses the database, or it goes up or down. -/
  | database (st : Store)
  /-- The program is started again. -/
  | restart (path : Option Str)

def isUnread (m : SmsMessage) : Bool := m.status = .receivedUnread

def unread (msgs : List SmsMessage) : List SmsMessage := msgs.filter isUnread

/-- A listing leaves the message as read. -/
def markRead (m : SmsMessage) : SmsMessage :=
  if isUnread m then { m with status := .receivedRead } else m

def received (m : SmsMessage) : Bool := m.status = .receivedRead

/-- Commands that do not come from the manager's own futures. -/
def isRequest : ModemCommand → Bool
  | .cmglComplete _ => false
  | .cmglFailed _ => false
  | .commandTimeout => false
  | _ => true

/-- A step of the manager. -/
def manage (s : Bridge) (p : ModemM Unit) : Option Bridge :=
  if s.ended then none
  else
    some { s with
      manager := (exec p s.manager).2
      ended := !(exec p s.manager).1.isOk }

/-- Change the entry of a command. -/
def setCommand (s : Bridge) (i : Nat) (p : Pending) : Bridge :=
  { s with manager := { s.manager with commands := s.manager.commands.set i p } }

def execute (s : Bridge) (i : Nat) (shown : Str × Str) : Option Bridge :=
  match s.manager.commands[i]? with
  | some ⟨c, none, w⟩ =>
      let answered (a : AtAnswer) : Bridge := setCommand s i ⟨c, some a, w⟩
      match c with
      | .listSms => some { answered (.listed s.memory) with memory := s.memory.map markRead }
      | .delSms =>
          some { answered .done with
            memory := s.memory.filter isUnread
            deleted := s.deleted ++ s.memory.filter received }
      | .getRegistration => some (answered (.registration shown.1))
      | .getSignalQuality => some (answered (.signalQuality shown.1 shown.2))
      | .sendSms _ _ => some (answered .done)
  | _ => none

/-- The program no longer waits for a command. -/
def abandon (p : Pending) : Pending := { p with waiting := false }

def restart (mgr : ModemManager) (path : Option Str) : ModemManager :=
  { ModemManager.new mgr.store path with
    commands := mgr.commands.map abandon
    stored := mgr.stored }

def next (s : Bridge) : Event → Option Bridge
  | .arrive pdu rawPdu =>
      some { s with memory := s.memory ++ [⟨.receivedUnread, pdu, rawPdu⟩] }
  | .poll ps => manage s (pollModem ps)
  | .handle ps => manage s (handleNext ps)
  | .request c => if isRequest c then manage s (intSend [c]) else none
  | .execute i shown => execute s i shown
  | .answer i =>
      match s.manager.commands[i]? with
      | some ⟨c, some a, true⟩ =>
          manage (setCommand s i ⟨c, some a, false⟩) (commandAnswered c a)
      | _ => none
  | .fail i e =>
      match s.manager.commands[i]? with
      | some ⟨c, a, true⟩ => manage (setCommand s i ⟨c, a, false⟩) (commandFailed e c)
      | _ => none
  | .database st => some { s with manager := { s.manager with store := st } }
  | .restart path => some { s with manager := restart s.manager path, ended := false }

/-- The program has just been started for the first time, and the memory holds
no message that has been read. -/
structure Initial (s : Bridge) : Prop where
  manager : ∃ st path, s.manager = ModemManager.new st path
  memory : ∀ m ∈ s.memory, ¬ received m
  deleted : s.deleted = []

/-- The unread messages of a listing that has been executed and whose future
waits for them. -/
def listedBy (p : Pending) : List SmsMessage :=
  match p.command, p.answer, p.waiting with
  | .listSms, some (.listed msgs), true => unread msgs
  | _, _, _ => []

/-- The unread messages of a listing that is in the queue. -/
def queuedIn : ModemCommand → List SmsMessage
  | .cmglComplete msgs => unread msgs
  | _ => []

/-- The messages that listings found unread and the program has not yet dealt
with. -/
def outstanding (mgr : ModemManager) : List SmsMessage :=
  mgr.commands.flatMap listedBy ++ mgr.rx.flatMap queuedIn

/-- The modem may execute the command: a listing that finds unread messages
still has its future, and nothing is deleted before the listings executed
earlier have been dealt with. -/
def MayExecute (s : Bridge) (p : Pending) : Prop :=
  match p.command with
  | .listSms => p.waiting = true ∨ unread s.memory = []
  | .delSms => outstanding s.manager = []
  | _ => True

/-- The step gives up no listing that found unread messages, be it by a timeout
or an error, by a failure to store them, by a restart, or by a deletion that
comes before they have been dealt with. -/
def Careful (s : Bridge) : Event → Prop
  | .handle _ =>
      ∀ c ∈ s.manager.rx.head?, ∀ k < (queuedIn c).length,
        s.manager.store.dbDown (s.manager.store.queries + k) = false
  | .execute i _ => ∀ p ∈ s.manager.commands[i]?, MayExecute s p
  | .fail i _ => ∀ p ∈ s.manager.commands[i]?, listedBy p = []
  | .restart _ => outstanding s.manager = []
  | _ => True

@[simp] theorem unread_append (xs ys : List SmsMessage) :
    unread (xs ++ ys) = unread xs ++ unread ys := List.filter_append xs ys

def pdus (msgs : List SmsMessage) : List (List UInt8) := msgs.map SmsMessage.rawPdu

@[simp] theorem pdus_append (xs ys : List SmsMessage) :
    pdus (xs ++ ys) = pdus xs ++ pdus ys := List.map_append

/-- What has been stored stays on record, and no outstanding message is dropped
without being stored. -/
def Keeps (s t : ModemManager) : Prop :=
  ∀ p, s.stored.count p ≤ t.stored.count p ∧
    s.stored.count p + (pdus (outstanding s)).count p ≤
      t.stored.count p + (pdus (outstanding t)).count p

theorem keeps_refl (s : ModemManager) : Keeps s s := fun _ => ⟨le_rfl, le_rfl⟩

theorem keeps_trans (s t u : ModemManager) (hst : Keeps s t) (htu : Keeps t u) :
    Keeps s u :=
  fun p => ⟨(hst p).1.trans (htu p).1, (hst p).2.trans (htu p).2⟩

instance : IsPreorder ModemManager Keeps where
  refl := keeps_refl
  trans := keeps_trans

theorem keeps_of_eq {s t : ModemManager} (hstored : t.stored = s.stored)
    (hout : outstanding t = outstanding s) : Keeps s t := by
  intro p
  rw [hstored, hout]
  exact ⟨le_rfl, le_rfl⟩

theorem outstanding_spawned (mgr : ModemManager) (c : AtCommand) :
    outstanding { mgr with commands := mgr.commands ++ [⟨c, none, true⟩] } =
      outstanding mgr := by
  simp [outstanding, listedBy]

theorem keeps_spawn (c : AtCommand) : Moves Keeps (spawn c) :=
  steps_modify fun s => keeps_of_eq rfl (outstanding_spawned s c)

theorem keeps_cbSend (c : ControlBotCommand) : Moves Keeps (cbSend c) :=
  steps_modify fun _ => keeps_of_eq rfl rfl

theorem keeps_cfSend (c : ContactFactoryCommand) : Moves Keeps (cfSend c) :=
  steps_modify fun _ => keeps_of_eq rfl rfl

theorem keeps_store {α : Type} (p : StoreM α) :
    Moves Keeps (store p : ModemM α) :=
  moves_zoom p fun _ _ => keeps_of_eq rfl rfl

theorem keeps_intSend (cs : List ModemCommand) : Moves Keeps (intSend cs) := by
  refine steps_modify fun s p => ⟨le_rfl, ?_⟩
  simp only [outstanding, List.flatMap_append, pdus_append, List.count_append]
  omega

theorem keeps_cmgl : Moves Keeps cmgl := by
  refine Steps.bind steps_get fun mgr => ?_
  exact Steps.when (keeps_spawn _)

theorem keeps_waitAgain : Moves Keeps waitAgain :=
  steps_modify fun _ => keeps_of_eq rfl rfl

theorem keeps_pollUrcRx (urcs : List Urc) : Moves Keeps (pollUrcRx urcs) := by
  refine Steps.bind steps_get fun mgr => ?_
  split
  · split
    · exact steps_pure _
    · exact Steps.bind (Steps.when keeps_cmgl)
        fun _ => steps_pure _
  · exact steps_pure _

theorem keeps_pollModemOnce (p : Poll) : Moves Keeps (pollModemOnce p) := by
  refine steps_get_bind fun s => ?_
  have hset : Keeps s { s with inner := (s.inner.poll s.modemPath p.inner).2 } :=
    keeps_of_eq rfl rfl
  have hrest : Moves Keeps (do
      when (s.inner.poll s.modemPath p.inner).1 cmgl
      pollUrcRx p.urcs) :=
    Steps.bind (Steps.when keeps_cmgl) fun _ => keeps_pollUrcRx _
  exact hrest.after hset

theorem keeps_pollModem (ps : List Poll) : Moves Keeps (pollModem ps) := by
  induction ps with
  | nil =>
      exact Steps.bind (keeps_pollModemOnce _) fun _ => steps_pure _
  | cons p ps ih =>
      refine Steps.bind (keeps_pollModemOnce p) fun again => ?_
      exact Steps.when (Steps.bind keeps_waitAgain fun _ => ih)

theorem keeps_reinitModem (ps : List Poll) : Moves Keeps (reinitModem ps) :=
  Steps.bind keeps_waitAgain fun _ => keeps_pollModem ps

theorem keeps_makeContact (addr : PduAddress) : Moves Keeps (makeContact addr) := by
  refine Steps.bind (keeps_store _) fun recip => ?_
  cases recip with
  | some _ => exact steps_pure _
  | none =>
      refine Steps.bind (keeps_store _) fun _ => ?_
      exact Steps.bind (keeps_cfSend _) fun _ => keeps_cfSend _

theorem keeps_updatePath (path : Option Str) (ps : List Poll) :
    Moves Keeps (updatePath path ps) :=
  Steps.bind (steps_modify fun _ => keeps_of_eq rfl rfl)
    fun _ => keeps_reinitModem ps

theorem keeps_withModem (desc : Str) (c : AtCommand) : Moves Keeps (withModem desc c) := by
  refine Steps.bind steps_get fun mgr => ?_
  split
  · exact keeps_spawn _
  · exact keeps_cbSend _

theorem keeps_commandFailed (e : Str) (c : AtCommand) : Moves Keeps (commandFailed e c) := by
  cases c with
  | sendSms addr _ => exact keeps_cbSend _
  | listSms => exact keeps_intSend _
  | delSms => exact keeps_intSend _
  | getRegistration => exact keeps_intSend _
  | getSignalQuality => exact keeps_intSend _

theorem wp_storeSmsMessage (addr : PduAddress) (pdu : List UInt8) (csms : Option Nat)
    {E : Failure → Store → Prop} {st : Store} (hup : st.dbDown st.queries = false) :
    wp (storeSmsMessage addr pdu csms)
      (fun _ st' => st'.queries = st.queries + 1 ∧ st'.dbDown = st.dbDown) E st := by
  simp [storeSmsMessage, Database.execute, query, hup, Store.tick]

/-- Storing a listing while the database is up stores every unread message. -/
theorem wp_storeAll (msgs : List SmsMessage) (s : ModemManager)
    (hup : ∀ k < (unread msgs).length, s.store.dbDown (s.store.queries + k) = false) :
    wp (forM msgs storeListed)
      (fun _ t => t.commands = s.commands ∧ t.rx = s.rx ∧
        t.stored = s.stored ++ pdus (unread msgs))
      (fun _ _ => False) s := by
  suffices h : wp (forM msgs storeListed)
      (fun _ t => (t.commands = s.commands ∧ t.rx = s.rx ∧
        t.stored = s.stored ++ pdus (unread msgs)) ∧
        t.store.queries = s.store.queries + (unread msgs).length ∧
        t.store.dbDown = s.store.dbDown) (fun _ _ => False) s from
    wp_mono h (fun _ _ ht => ht.1) fun _ _ he => he
  refine wp_forM_prefix (fun done (t : ModemManager) => (t.commands = s.commands ∧ t.rx = s.rx ∧
    t.stored = s.stored ++ pdus (unread done)) ∧
    t.store.queries = s.store.queries + (unread done).length ∧
    t.store.dbDown = s.store.dbDown) ?_ ?_
  swap
  · simp [unread, pdus]
  rintro done msg rest hmsgs t ⟨⟨hcommands, hrx, hstored⟩, hqueries, hdown⟩
  by_cases hmsg : msg.status = .receivedUnread
  · have hunread : unread (done ++ [msg]) = unread done ++ [msg] := by
      simp [unread, isUnread, hmsg]
    have hlen : (unread done).length < (unread msgs).length := by
      rw [hmsgs, List.append_cons, unread_append, hunread]
      simp only [List.length_append, List.length_singleton]
      omega
    have hnow : t.store.dbDown t.store.queries = false := by
      rw [hdown, hqueries]
      exact hup _ hlen
    simp only [storeListed, hmsg, ne_eq, not_true_eq_false, if_false, store, wp_bind,
      wp_zoom, wp_modify]
    refine wp_mono (wp_storeSmsMessage _ _ _ hnow) ?_ fun _ _ he => he
    rintro _ st' ⟨hq, hd⟩
    refine ⟨⟨hcommands, hrx, ?_⟩, ?_, hd.trans hdown⟩
    · change t.stored ++ _ = _
      rw [hstored, hunread, pdus_append, List.append_assoc]
      rfl
    · change st'.queries = _
      rw [hq, hunread, List.length_append, List.length_singleton]
      exact congrArg (· + 1) hqueries
  · have hunread : unread (done ++ [msg]) = unread done := by
      simp [unread, isUnread, hmsg]
    simp only [storeListed, ne_eq, hmsg, not_false_eq_true, if_true, wp_pure, hunread]
    exact ⟨⟨hcommands, hrx, hstored⟩, hqueries, hdown⟩

/-- The messages of a listing are on record when it is no longer outstanding. -/
theorem keeps_cmglComplete {ps : List Poll} {mgr : ModemManager} {msgs : List SmsMessage}
    {rest : List ModemCommand} (hrx : mgr.rx = .cmglComplete msgs :: rest)
    (hup : ∀ k < (queuedIn (.cmglComplete msgs)).length,
      mgr.store.dbDown (mgr.store.queries + k) = false) :
    wp (handleCommand ps (.cmglComplete msgs)) (fun _ t => Keeps mgr t) (fun _ t => Keeps mgr t)
      { mgr with rx := rest } := by
  rw [handleCommand, cmglComplete, wp_bind]
  refine wp_mono (wp_storeAll msgs { mgr with rx := rest } hup) ?_ fun _ _ he => he.elim
  rintro _ t ⟨hcommands, htrx, hstored⟩
  have hout : outstanding mgr = mgr.commands.flatMap listedBy ++
      (queuedIn (.cmglComplete msgs) ++ rest.flatMap queuedIn) := by
    rw [outstanding, hrx, List.flatMap_cons]
  have ht : Keeps mgr t := by
    intro p
    have htout : outstanding t = mgr.commands.flatMap listedBy ++ rest.flatMap queuedIn := by
      rw [outstanding, hcommands, htrx]
    rw [hstored, hout, htout]
    simp only [queuedIn, pdus_append, List.count_append]
    omega
  have hend : Moves Keeps (do
      cfSend .processMessages
      let mgr ← get
      when (mgr.inner = .running) (spawn .delSms)) := by
    refine Steps.bind (keeps_cfSend _) fun _ => ?_
    refine Steps.bind steps_get fun _ => ?_
    exact Steps.when (keeps_spawn _)
  exact wp_mono (hend.after ht) (fun _ _ hu => hu) fun _ _ hu => hu.1

theorem keeps_handleNext {ps : List Poll} {s : Bridge} (hc : Careful s (.handle ps)) :
    Keeps s.manager (exec (handleNext ps) s.manager).2 := by
  obtain ⟨mgr, ended, memory, deleted⟩ := s
  change Keeps mgr _
  have hwp : wp (handleNext ps) (fun _ t => Keeps mgr t) (fun _ t => Keeps mgr t) mgr := by
    rw [handleNext, wp_bind, wp_get]
    cases hrx : mgr.rx with
    | nil => exact keeps_refl mgr
    | cons c rest =>
        dsimp only
        rw [wp_bind, wp_set]
        have hout : outstanding mgr = mgr.commands.flatMap listedBy ++
            (queuedIn c ++ rest.flatMap queuedIn) := by
          rw [outstanding, hrx, List.flatMap_cons]
        have hquiet : ∀ p : ModemM Unit, Moves Keeps p → queuedIn c = [] →
            wp p (fun _ t => Keeps mgr t) (fun _ t => Keeps mgr t)
              { mgr with rx := rest } := by
          intro p hp hnil
          have hpop : Keeps mgr { mgr with rx := rest } := keeps_of_eq rfl (by
            rw [hout, hnil]
            rfl)
          exact wp_mono (hp.after hpop) (fun _ _ hu => hu) fun _ _ hu => hu.1
        cases c with
        | doCmgl => exact hquiet _ keeps_cmgl rfl
        | cmglFailed e => exact hquiet _ (keeps_reinitModem ps) rfl
        | sendMessage addr msg => exact hquiet _ (keeps_withModem _ _) rfl
        | requestCsq => exact hquiet _ (keeps_withModem _ _) rfl
        | requestReg => exact hquiet _ (keeps_withModem _ _) rfl
        | forceReinit => exact hquiet _ (keeps_reinitModem ps) rfl
        | updatePath p => exact hquiet _ (keeps_updatePath p ps) rfl
        | commandTimeout => exact hquiet _ (keeps_reinitModem ps) rfl
        | makeContact a => exact hquiet _ (keeps_makeContact a) rfl
        | cmglComplete msgs =>
            exact keeps_cmglComplete hrx (hc (.cmglComplete msgs) (by simp [hrx]))
  unfold wp at hwp
  rcases hp : exec (handleNext ps) mgr with ⟨_ | _, _⟩ <;> simpa [hp] using hwp

/-- Every message that is read or deleted is on record as stored, or a listing
with it is outstanding; every deleted one is on record. -/
structure Covered (s : Bridge) : Prop where
  read : ∀ p, (pdus (s.memory.filter received)).count p + (pdus s.deleted).count p ≤
    s.manager.stored.count p + (pdus (outstanding s.manager)).count p
  deleted : ∀ p, (pdus s.deleted).count p ≤ s.manager.stored.count p

theorem covered_of_keeps {s t : Bridge} (h : Covered s) (hk : Keeps s.manager t.manager)
    (hmem : t.memory = s.memory) (hdel : t.deleted = s.deleted) : Covered t := by
  constructor
  · intro p
    rw [hmem, hdel]
    exact (h.read p).trans (hk p).2
  · intro p
    rw [hdel]
    exact (h.deleted p).trans (hk p).1

theorem covered_manage {s t : Bridge} {p : ModemM Unit}
    (hp : Keeps s.manager (exec p s.manager).2) (h : Covered s)
    (hnext : manage s p = some t) : Covered t := by
  unfold manage at hnext
  split at hnext
  · cases hnext
  · cases hnext
    exact covered_of_keeps h hp rfl rfl

theorem count_outstanding_set {s : Bridge} {i : Nat} {p q : Pending}
    (hi : s.manager.commands[i]? = some p) (d : List UInt8) :
    (pdus (outstanding (setCommand s i q).manager)).count d + (pdus (listedBy p)).count d =
      (pdus (outstanding s.manager)).count d + (pdus (listedBy q)).count d := by
  suffices h : ∀ cs : List Pending, cs[i]? = some p →
      (pdus ((cs.set i q).flatMap listedBy)).count d + (pdus (listedBy p)).count d =
        (pdus (cs.flatMap listedBy)).count d + (pdus (listedBy q)).count d by
    have hcs := h s.manager.commands hi
    simp only [outstanding, setCommand, pdus_append, List.count_append]
    omega
  clear hi
  induction i with
  | zero =>
      intro cs hcs
      cases cs with
      | nil => simp at hcs
      | cons c cs =>
          cases hcs
          simp only [List.set_cons_zero, List.flatMap_cons, pdus_append, List.count_append]
          omega
  | succ i ih =>
      intro cs hcs
      cases cs with
      | nil => simp at hcs
      | cons c cs =>
          have hrec := ih cs (by simpa using hcs)
          simp only [List.set_cons_succ, List.flatMap_cons, pdus_append, List.count_append]
          omega

theorem keeps_setCommand {s : Bridge} {i : Nat} {p q : Pending}
    (hi : s.manager.commands[i]? = some p) (hp : listedBy p = []) :
    Keeps s.manager (setCommand s i q).manager := by
  intro d
  have hcount := count_outstanding_set (q := q) hi d
  rw [hp] at hcount
  refine ⟨le_rfl, ?_⟩
  change s.manager.stored.count d + _ ≤ s.manager.stored.count d + _
  simp only [pdus, List.map_nil, List.count_nil] at hcount ⊢
  omega

theorem keeps_commandAnswered {s : Bridge} {i : Nat} {c : AtCommand} {a : AtAnswer}
    (hi : s.manager.commands[i]? = some ⟨c, some a, true⟩) :
    Keeps s.manager
      (exec (commandAnswered c a) (setCommand s i ⟨c, some a, false⟩).manager).2 := by
  have hquiet : ∀ p : ModemM Unit, Moves Keeps p →
      listedBy ⟨c, some a, true⟩ = [] →
      Keeps s.manager (exec p (setCommand s i ⟨c, some a, false⟩).manager).2 :=
    fun p hp hnil => keeps_trans _ _ _ (keeps_setCommand hi hnil) (hp.exec _)
  cases a with
  | done => cases c <;> exact hquiet _ (steps_pure _) rfl
  | registration state =>
      cases c with
      | getRegistration => exact hquiet _ (keeps_cbSend _) rfl
      | _ => exact hquiet _ (steps_pure _) rfl
  | signalQuality rssi ber =>
      cases c with
      | getSignalQuality => exact hquiet _ (keeps_cbSend _) rfl
      | _ => exact hquiet _ (steps_pure _) rfl
  | listed msgs =>
      cases c with
      | listSms =>
          intro d
          have hcount := count_outstanding_set
            (q := ⟨.listSms, some (.listed msgs), false⟩) hi d
          refine ⟨le_rfl, ?_⟩
          change s.manager.stored.count d + _ ≤ s.manager.stored.count d + _
          have hout : outstanding (exec (commandAnswered .listSms (.listed msgs))
              (setCommand s i ⟨.listSms, some (.listed msgs), false⟩).manager).2 =
                outstanding (setCommand s i ⟨.listSms, some (.listed msgs), false⟩).manager ++
                  unread msgs := by
            change (s.manager.commands.set i _).flatMap listedBy ++
                (s.manager.rx ++ [ModemCommand.cmglComplete msgs]).flatMap queuedIn =
              ((s.manager.commands.set i _).flatMap listedBy ++
                s.manager.rx.flatMap queuedIn) ++ unread msgs
            simp [queuedIn]
          rw [hout, pdus_append, List.count_append]
          simp only [listedBy, pdus, List.map_nil, List.count_nil] at hcount ⊢
          omega
      | _ => exact hquiet _ (steps_pure _) rfl

theorem filter_received_unread (msgs : List SmsMessage) :
    (unread msgs).filter received = [] := by
  rw [List.filter_eq_nil_iff]
  intro m hm
  have hstatus : m.status = .receivedUnread := by
    simpa [isUnread] using (List.mem_filter.mp hm).2
  simp [received, hstatus]

theorem count_markRead (msgs : List SmsMessage) (d : List UInt8) :
    (pdus ((msgs.map markRead).filter received)).count d =
      (pdus (msgs.filter received)).count d + (pdus (unread msgs)).count d := by
  induction msgs with
  | nil => rfl
  | cons m msgs ih =>
      obtain ⟨status, pdu, rawPdu⟩ := m
      cases status <;>
        simp only [unread, pdus, List.map_cons, List.filter_cons, markRead, isUnread, received,
          reduceCtorEq, decide_false, decide_true, if_true, if_false, Bool.false_eq_true,
          List.count_cons] at ih ⊢ <;> omega

theorem count_outstanding_answer {s : Bridge} {i : Nat} {c : AtCommand} {w : Bool}
    (hi : s.manager.commands[i]? = some ⟨c, none, w⟩) (a : AtAnswer) (d : List UInt8) :
    (pdus (outstanding (setCommand s i ⟨c, some a, w⟩).manager)).count d =
      (pdus (outstanding s.manager)).count d + (pdus (listedBy ⟨c, some a, w⟩)).count d := by
  have hcount := count_outstanding_set (q := ⟨c, some a, w⟩) hi d
  have hnone : listedBy ⟨c, none, w⟩ = [] := by cases c <;> rfl
  simpa [hnone, pdus] using hcount

theorem covered_answer {s : Bridge} {i : Nat} {c : AtCommand} {w : Bool} (h : Covered s)
    (hi : s.manager.commands[i]? = some ⟨c, none, w⟩) (a : AtAnswer) :
    Covered (setCommand s i ⟨c, some a, w⟩) := by
  refine covered_of_keeps h (fun d => ⟨le_rfl, ?_⟩) rfl rfl
  have hout := count_outstanding_answer hi a d
  change s.manager.stored.count d + _ ≤ s.manager.stored.count d + _
  omega

theorem covered_listing {s : Bridge} {i : Nat} {w : Bool} (h : Covered s)
    (hi : s.manager.commands[i]? = some ⟨.listSms, none, w⟩)
    (hmay : w = true ∨ unread s.memory = []) :
    Covered { setCommand s i ⟨.listSms, some (.listed s.memory), w⟩ with
      memory := s.memory.map markRead } := by
  refine ⟨fun d => ?_, fun d => h.deleted d⟩
  have hread := h.read d
  have hlisted := count_outstanding_answer hi (.listed s.memory) d
  have hmark := count_markRead s.memory d
  have hfound : (pdus (unread s.memory)).count d ≤
      (pdus (listedBy ⟨.listSms, some (.listed s.memory), w⟩)).count d := by
    rcases hmay with hw | hnone
    · rw [hw]
      rfl
    · rw [hnone]
      exact Nat.zero_le _
  change (pdus ((s.memory.map markRead).filter received)).count d +
    (pdus s.deleted).count d ≤ s.manager.stored.count d +
      (pdus (outstanding
        (setCommand s i ⟨.listSms, some (.listed s.memory), w⟩).manager)).count d
  omega

theorem covered_deletion {s : Bridge} {i : Nat} {p : Pending} (h : Covered s)
    (hmay : outstanding s.manager = []) :
    Covered { setCommand s i p with
      memory := unread s.memory
      deleted := s.deleted ++ s.memory.filter received } := by
  have hread : ∀ d, (pdus (s.memory.filter received)).count d + (pdus s.deleted).count d ≤
      s.manager.stored.count d := by
    intro d
    simpa [hmay, pdus] using h.read d
  have hdel : ∀ d, (pdus (s.deleted ++ s.memory.filter received)).count d ≤
      s.manager.stored.count d := by
    intro d
    have := hread d
    rw [pdus_append, List.count_append]
    omega
  refine ⟨fun d => ?_, hdel⟩
  have hdeld := hdel d
  change (pdus ((unread s.memory).filter received)).count d +
    (pdus (s.deleted ++ s.memory.filter received)).count d ≤ s.manager.stored.count d + _
  rw [filter_received_unread]
  simp only [pdus, List.map_nil, List.count_nil] at hdeld ⊢
  omega

theorem covered_execute {s t : Bridge} {i : Nat} {shown : Str × Str} (h : Covered s)
    (hc : Careful s (.execute i shown)) (hnext : execute s i shown = some t) :
    Covered t := by
  unfold execute at hnext
  split at hnext
  · rename_i c w hi
    have hmay := hc _ hi
    cases c with
    | getRegistration =>
        cases hnext
        exact covered_answer h hi _
    | getSignalQuality =>
        cases hnext
        exact covered_answer h hi _
    | sendSms addr msg =>
        cases hnext
        exact covered_answer h hi _
    | listSms =>
        cases hnext
        exact covered_listing h hi hmay
    | delSms =>
        cases hnext
        exact covered_deletion h hmay
  · cases hnext

theorem covered_restart {s : Bridge} (path : Option Str) (h : Covered s)
    (hout : outstanding s.manager = []) :
    Covered { s with manager := restart s.manager path, ended := false } := by
  refine covered_of_keeps h (fun d => ⟨le_rfl, ?_⟩) rfl rfl
  rw [hout]
  exact Nat.le_add_right _ _

theorem covered_next {s t : Bridge} {e : Event} (hc : Careful s e) (h : Covered s)
    (hnext : next s e = some t) : Covered t := by
  cases e with
  | arrive pdu rawPdu =>
      cases hnext
      refine ⟨fun d => ?_, h.deleted⟩
      simpa [List.filter_append, received] using h.read d
  | poll ps => exact covered_manage ((keeps_pollModem ps).exec _) h hnext
  | handle ps => exact covered_manage (keeps_handleNext hc) h hnext
  | request c =>
      simp only [next] at hnext
      split at hnext
      · exact covered_manage ((keeps_intSend [c]).exec _) h hnext
      · cases hnext
  | execute i shown => exact covered_execute h hc hnext
  | answer i =>
      simp only [next] at hnext
      split at hnext
      · rename_i c a hi
        have hk := keeps_commandAnswered hi
        unfold manage at hnext
        split at hnext
        · cases hnext
        · cases hnext
          exact covered_of_keeps h hk rfl rfl
      · cases hnext
  | fail i err =>
      simp only [next] at hnext
      split at hnext
      · rename_i c a hi
        have hk := keeps_setCommand (q := ⟨c, a, false⟩) hi (hc _ hi)
        exact covered_manage ((keeps_commandFailed err c).exec _)
          (covered_of_keeps h hk rfl rfl) hnext
      · cases hnext
  | database st =>
      cases hnext
      exact covered_of_keeps h (keeps_of_eq rfl rfl) rfl rfl
  | restart path =>
      cases hnext
      exact covered_restart path h hc

theorem covered_initial {s : Bridge} (h : Initial s) : Covered s := by
  have hread : s.memory.filter received = [] := by
    rw [List.filter_eq_nil_iff]
    exact h.memory
  constructor
  · intro d
    rw [hread, h.deleted]
    exact Nat.zero_le _
  · intro d
    rw [h.deleted]
    exact Nat.zero_le _

/-- In a run that never gives up a listing, no message is deleted from the
memory of the modem more often than its PDU has been stored. -/
theorem deleted_le_stored {s t : Bridge} {es : List Event} (hinit : Initial s)
    (hcareful : AllSteps next Careful s es) (hrun : run next s es = some t)
    (rawPdu : List UInt8) :
    (pdus t.deleted).count rawPdu ≤ t.manager.stored.count rawPdu :=
  (invariant_of_allSteps (fun _ _ _ hc hs hnext => covered_next hc hs hnext)
    hcareful (covered_initial hinit) hrun).deleted rawPdu

end Memory

section Samples

attribute [local instance] Sample.crates

/-- The program has just been started, and the memory of the modem is empty. -/
def started : Bridge where
  manager := ModemManager.new Sample.store (some ("/dev/ttyUSB0" : Str))
  ended := false
  memory := []
  deleted := []

theorem initial_started : Initial started := ⟨⟨_, _, rfl⟩, by simp [started], rfl⟩

/-- The SMS "hi". -/
def hi : List UInt8 := Sample.pdu none ['h', 'i']

def arriveHi : Event := .arrive ⟨Sample.alice, .ok ⟨['h', 'i'], none⟩⟩ hi

/-- The SMS is listed, stored and deleted. -/
def storingRun : List Event :=
  [.poll [⟨[.done], []⟩], arriveHi, .execute 0 ([], []), .answer 0, .handle [], .handle [],
    .execute 2 ([], [])]

theorem careful_storingRun : AllSteps next Careful started storingRun := by
  refine allSteps_cons trivial rfl <| allSteps_cons trivial rfl <|
    allSteps_cons ?_ rfl <| allSteps_cons trivial rfl <|
    allSteps_cons (fun _ _ _ _ => rfl) rfl <|
    allSteps_cons (fun _ _ _ _ => rfl) rfl <| allSteps_cons ?_ rfl trivial
  · intro p hp
    cases hp
    exact .inl rfl
  · intro p hp
    cases hp
    rfl

theorem deleted_le_stored_hi :
    (pdus [(⟨.receivedRead, ⟨Sample.alice, .ok ⟨['h', 'i'], none⟩⟩, hi⟩ : SmsMessage)]).count
      hi ≤ [hi].count hi :=
  deleted_le_stored initial_started careful_storingRun rfl hi

/-- The listing that finds the SMS times out, and the next one takes it for a
message that has been dealt with. -/
def losingRun : List Event :=
  [.poll [⟨[.done], []⟩], arriveHi, .execute 0 ([], []), .fail 0 [], .handle [],
    .handle [⟨[.done, .done], []⟩], .handle [⟨[.done, .done], []⟩], .execute 3 ([], []),
    .answer 3, .handle [], .execute 4 ([], [])]

/-- An SMS is deleted that has never been stored. -/
theorem deleted_without_being_stored :
    ¬ ∀ (s t : Bridge) (es : List Event), Initial s → run next s es = some t →
      ∀ m ∈ t.deleted, m.rawPdu ∈ t.manager.stored := by
  intro h
  have hrun : (run next started losingRun).map
      (fun t => (t.deleted.map SmsMessage.rawPdu, t.manager.stored)) = some ([hi], []) := by
    decide +kernel
  obtain ⟨t, ht, hlost⟩ := Option.map_eq_some_iff.mp hrun
  obtain ⟨hdel, hstored⟩ := Prod.mk.inj hlost
  obtain ⟨m, hm, _⟩ := List.mem_map.mp (hdel ▸ List.mem_singleton_self hi)
  have := h started t losingRun initial_started ht m hm
  rw [hstored] at this
  exact List.not_mem_nil this

end Samples

end SmsIrc.ModemMemory
