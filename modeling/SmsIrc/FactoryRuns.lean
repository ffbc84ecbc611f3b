import SmsIrc.Factory
import SmsIrc.LinkRuns
import SmsIrc.SenderRuns

/-!
Runs of the contact factory: what it has to do at its polls, and what the other parts of
the program do to the database, in any order.
-/

namespace SmsIrc.FactoryRuns

open SmsIrc.Comm SmsIrc.Contact SmsIrc.Database SmsIrc.External SmsIrc.Factory
open SmsIrc.HashMaps SmsIrc.LinkRuns SmsIrc.Models SmsIrc.Program SmsIrc.SenderCommon
open SmsIrc.SenderRuns SmsIrc.Text SmsIrc.Transition SmsIrc.Util

section Runs

variable [Crates]

/-- The parts of a poll. -/
inductive Turn where
  | command (c : ContactFactoryCommand)
  | starting (answers : PduAddress → Answer)
  | contacts (activity : PduAddress → Activity)
  | tick (r : Except Str Unit)

def Turn.run : Turn → FactoryM Unit
  | .command c => handleCommand c
  | .starting answers => pollStarting answers
  | .contacts activity => pollContacts activity
  | .tick r => onTick r

def turnsOf (i : Polled) : List Turn :=
  i.rx.map .command ++ [.starting i.answers, .contacts i.activity] ++ i.ticks.map .tick

theorem forM_turns {α : Type} (xs : List α) (f : α → Turn) (p : α → FactoryM Unit)
    (h : ∀ x, (f x).run = p x) : forM (xs.map f) Turn.run = forM xs p := by
  induction xs with
  | nil => rfl
  | cons x xs ih => rw [List.map_cons, List.forM_cons, List.forM_cons, ih, h]

theorem poll_eq (i : Polled) : Factory.poll i = forM (turnsOf i) Turn.run := by
  rw [turnsOf, List.forM_append, List.forM_append, forM_turns _ _ _ fun _ => rfl,
    forM_turns _ _ _ fun _ => rfl, List.forM_cons, List.forM_cons, List.forM_nil]
  simp only [Factory.poll, bind_assoc, pure_bind]
  rfl

/-- A factory, and what ended it, if anything has. -/
structure Session where
  factory : ContactFactory
  outcome : Option Failure

inductive Event where
  | turn (t : Turn)
  | storeOp (op : StoreOp)
  | clock (now dbNow : NaiveDateTime)

def perform (s : Session) (p : FactoryM Unit) : Session where
  factory := (exec p s.factory).2
  outcome := match (exec p s.factory).1 with
    | .ok _ => none
    | .error e => some e

def step (s : Session) : Event → Session
  | .turn t => perform s t.run
  | .storeOp op => { s with factory := { s.factory with store := (exec op.run s.factory.store).2 } }
  | .clock now dbNow =>
      { s with factory := { s.factory with now := now, store := { s.factory.store with now := dbNow } } }

def next (s : Session) (e : Event) : Option Session :=
  match s.outcome with
  | none => some (step s e)
  | some _ => none

def initial (cfg : ClientConfig) (st : Store) (now : NaiveDateTime) : Session :=
  ⟨ContactFactory.new cfg st now, none⟩

theorem step_of_next {s t : Session} {e : Event} (h : next s e = some t) :
    s.outcome = none ∧ t = step s e := by
  unfold next at h
  split at h
  · exact ⟨by assumption, (Option.some.inj h).symm⟩
  · cases h

/-- What holds of a factory after a handler, whether it failed or not. -/
theorem perform_factory {s : Session} {p : FactoryM Unit} {P : ContactFactory → Prop}
    (h : wp p (fun _ t => P t) (fun _ t => P t) s.factory) : P (perform s p).factory :=
  wp_exec_snd h

/-- What holds of a factory after a part of a poll, unless that has ended the factory. -/
theorem factory_of_next {s t : Session} {u : Turn} {P : ContactFactory → Prop}
    (hu : wp u.run (fun _ f => P f) (fun _ _ => True) s.factory)
    (h : next s (.turn u) = some t) (hout : t.outcome = none) : P t.factory := by
  obtain ⟨-, rfl⟩ := step_of_next h
  simp only [step, perform] at hout ⊢
  rcases hexec : exec u.run s.factory with ⟨e | x, f⟩
  · rw [hexec] at hout
    cases hout
  · rw [wp, hexec] at hu
    exact hu

/-- A poll goes through a run of its parts, to the one that fails if there is one. -/
theorem run_of_poll (i : Polled) (s : Session) (hs : s.outcome = none) :
    ∃ ts, ts <+: turnsOf i ∧ run next s (ts.map .turn) = some (perform s (Factory.poll i)) := by
  rw [poll_eq]
  generalize turnsOf i = ts
  induction ts generalizing s with
  | nil =>
      obtain ⟨f, outcome⟩ := s
      cases hs
      exact ⟨[], List.prefix_rfl, rfl⟩
  | cons t ts ih =>
      have hnext : next s (.turn t) = some (perform s t.run) := by
        rw [next, hs]
        rfl
      rcases hexec : exec t.run s.factory with ⟨e | _, f⟩
      · refine ⟨[t], ⟨ts, rfl⟩, ?_⟩
        rw [List.map_singleton, run, hnext]
        simp only [perform, List.forM_cons, exec_bind, hexec, run, Option.bind_some]
      · obtain ⟨ts', hprefix, hrun⟩ := ih ⟨f, none⟩ rfl
        refine ⟨t :: ts', List.cons_prefix_cons.mpr ⟨rfl, hprefix⟩, ?_⟩
        have hperform : perform s t.run = ⟨f, none⟩ := by rw [perform, hexec]
        rw [List.map_cons, run, hnext, hperform, Option.bind_some, hrun]
        simp only [perform, List.forM_cons, exec_bind, hexec]

end Runs

section Contacts

variable [Crates]

/-- A relation that what contacts do to the database keeps to, unless they change a nick. -/
structure Leaves (S : Store → Store → Prop) : Prop where
  tick : ∀ st, S st st.tick
  mode : ∀ a wa, Moves S (updateRecipientWa a wa)
  delete : ∀ id, Moves S (deleteMessage id)

/-- A contact has done that to the database, and nothing to its address and its queue. -/
def Stored (S : Store → Store → Prop) (s t : ContactManager) : Prop :=
  t.addr = s.addr ∧ t.rx = s.rx ∧ S s.store t.store

variable {S : Store → Store → Prop} [IsPreorder Store S]

instance : IsPreorder ContactManager (Stored S) where
  refl c := ⟨rfl, rfl, refl c.store⟩
  trans _ _ _ hst htu :=
    ⟨htu.1.trans hst.1, htu.2.1.trans hst.2.1, IsTrans.trans _ _ _ hst.2.2 htu.2.2⟩

omit [IsPreorder Store S] in
theorem stored_store {α : Type} {p : StoreM α} (h : Moves S p) :
    Moves (Stored S) (store p : ContactM α) := Steps.zoom h fun _ _ hst => ⟨rfl, rfl, hst⟩

theorem stored_modify {f : ContactManager → ContactManager} (hstore : ∀ c, (f c).store = c.store)
    (haddr : ∀ c, (f c).addr = c.addr) (hrx : ∀ c, (f c).rx = c.rx) :
    Moves (Stored S) (modify f : ContactM PUnit) :=
  steps_modify fun c => ⟨haddr c, hrx c, by rw [hstore c]; exact refl c.store⟩

theorem stored_call (k : ClientCall) : Moves (Stored S) (Contact.call k) := by
  refine steps_get_bind fun c => ?_
  rw [wp_bind, wp_set]
  have hsame : Stored S c { c with calls := c.calls + 1 } := ⟨rfl, rfl, refl c.store⟩
  cases hrefuses : c.refuses c.calls with
  | some e => exact ⟨hsame, trivial⟩
  | none => exact ⟨rfl, rfl, refl c.store⟩

theorem Leaves.getGroupById (h : Leaves S) (g : Nat) : Moves S (getGroupById g) := by
  refine Steps.bind (moves_query h.tick _) fun grp => ?_
  cases grp with
  | some grp => exact steps_pure _
  | none => exact steps_throw trivial

theorem Leaves.senderSteps (h : Leaves S) :
    SenderSteps ContactManager (Stored S) fun _ => True where
  record _ := steps_pure _
  getGroupById g := stored_store (h.getGroupById g)
  privateTarget := Steps.bind steps_get fun _ => steps_pure _
  sendIrcMessage _ _ _ := stored_call _
  ensureJoined _ := steps_pure _
  getAllConcatenated _ _ := stored_store (moves_query h.tick _)
  deleteMessage id := stored_store (h.delete id)
  reportError _ _ := Steps.bind steps_get fun _ => stored_call _
  utcNow := Steps.bind steps_get fun _ => steps_pure _
  error _ := trivial
  messageText := trivial
  concatenatedPdu := trivial
  concatenatedHeader := trivial

theorem Leaves.processGroups (h : Leaves S) : Moves (Stored S) Contact.processGroups := by
  have hgroups : ∀ a, Moves S (getGroupsForRecipient a) := by
    refine fun a => Steps.bind (moves_query h.tick _) fun row => ?_
    cases row with
    | some row => exact moves_query h.tick _
    | none => exact steps_throw trivial
  refine Steps.bind steps_get fun c => Steps.when ?_
  refine Steps.bind (stored_store (hgroups _)) fun grps => ?_
  refine Steps.bind (Steps.forM fun ch _ => stored_call _) fun _ => ?_
  refine Steps.bind (stored_modify (fun _ => rfl) (fun _ => rfl) fun _ => rfl) fun _ => ?_
  exact Steps.forM fun ch _ => Steps.when (stored_call _)

theorem Leaves.switchMode (h : Leaves S) (wa : Bool) : Moves (Stored S) (switchMode wa) := by
  refine steps_get_bind fun c => ?_
  rw [wp_when]
  split
  · rw [wp_bind, wp_set]
    apply Steps.after (Steps.bind (stored_store (h.mode _ _)) fun _ => stored_call _)
    exact ⟨rfl, rfl, refl c.store⟩
  · exact refl c

theorem Leaves.processMessages (h : Leaves S) : Moves (Stored S) Contact.processMessages := by
  refine Steps.bind steps_get fun c => Steps.when ?_
  refine Steps.bind (stored_store (moves_query h.tick _)) fun msgs => Steps.forM fun msg _ => ?_
  unfold Contact.processMessage
  split
  · split
    · exact steps_throw trivial
    · exact Steps.bind (h.switchMode _) fun _ => h.senderSteps.processMsgPdu _ _ _
  · exact Steps.bind (h.switchMode _) fun _ => h.senderSteps.processMsgPlain _ _

theorem stored_updateAway : Moves (Stored S) Contact.updateAway :=
  Steps.bind steps_get fun _ => Steps.when (stored_call _)

theorem Leaves.handleIrcMessage (h : Leaves S) (m : ContactMessage) :
    Moves (Stored S) (handleIrcMessage m) := by
  obtain ⟨source, command⟩ := m
  cases command with
  | endOfMotd =>
      refine Steps.bind (stored_modify (fun _ => rfl) (fun _ => rfl) fun _ => rfl) fun _ => ?_
      refine Steps.bind h.processMessages fun _ => ?_
      refine Steps.bind (Steps.bind steps_get fun _ => stored_call _) fun _ => ?_
      exact Steps.bind stored_updateAway fun _ => h.processGroups
  | nick nick =>
      cases source with
      | none => exact steps_pure _
      | some source =>
          refine steps_modify fun c => ?_
          split
          · exact ⟨rfl, rfl, refl c.store⟩
          · exact (refl c : Stored S c c)
  | privmsg target mesg =>
      cases source with
      | none => exact steps_pure _
      | some source =>
          refine Steps.bind steps_get fun c => ?_
          split
          · exact stored_call _
          · split
            · split <;> exact stored_modify (fun _ => rfl) (fun _ => rfl) fun _ => rfl
            · exact steps_pure _
  | raw cmd args =>
      refine steps_get_bind fun c => ?_
      split
      · exact (refl c : Stored S c c)
      · split
        · rw [wp_when]
          split
          · rw [wp_bind, wp_set]
            exact Steps.after h.processMessages ⟨rfl, rfl, refl c.store⟩
          · exact (refl c : Stored S c c)
        · split
          · exact ⟨rfl, rfl, refl c.store⟩
          · exact (refl c : Stored S c c)
  | error msg => exact steps_throw trivial
  | other => exact steps_pure _

/-- What a contact does for a command, with what it does where the command is a change of nick. -/
theorem Leaves.handleIntRx (h : Leaves S) {cmd : ContactManagerCommand}
    (hnick : ∀ nick src, cmd = .changeNick nick src →
      ∀ a, Moves S (updateRecipientNick a nick src)) :
    Moves (Stored S) (handleIntRx cmd) := by
  cases cmd with
  | processMessages => exact h.processMessages
  | processGroups => exact h.processGroups
  | updateAway text =>
      exact Steps.bind (stored_modify (fun _ => rfl) (fun _ => rfl) fun _ => rfl)
        fun _ => stored_updateAway
  | changeNick nick src =>
      refine Steps.bind steps_get fun c => ?_
      exact Steps.bind (stored_store (hnick nick src rfl _)) fun _ => stored_call _
  | setWhatsapp wam =>
      refine Steps.bind (stored_modify (fun _ => rfl) (fun _ => rfl) fun _ => rfl) fun _ => ?_
      exact Steps.bind steps_get fun _ => stored_store (h.mode _ _)

theorem stored_drive (r : Except Str Unit) : Moves (Stored S) (drive r) := by
  cases r with
  | ok _ => exact steps_pure _
  | error e => exact steps_throw trivial

theorem stored_identify : Moves (Stored S) Contact.identify := by
  refine Steps.bind steps_get fun c => Steps.when (Steps.bind ?_ fun _ => ?_)
  · unfold sendWebirc
    split
    · exact stored_call _
    · exact steps_pure _
  · exact Steps.bind (stored_call _)
      fun _ => stored_modify (fun _ => rfl) (fun _ => rfl) fun _ => rfl

theorem Leaves.readItem (h : Leaves S) (i : StreamItem) : Moves (Stored S) (readItem i) := by
  cases i with
  | message m => exact h.handleIrcMessage m
  | stopped => exact steps_throw trivial
  | failed e => exact steps_throw trivial

theorem Leaves.poll (h : Leaves S) {c : ContactManager} (i : Activity)
    (hnick : ∀ nick src, .changeNick nick src ∈ c.rx →
      ∀ a, Moves S (updateRecipientNick a nick src)) :
    wp (Contact.poll i) (fun _ t => S c.store t.store) (fun _ t => S c.store t.store) c := by
  have hfirst : Moves (Stored S) (do
      Contact.identify
      drive i.before
      forM i.items Contact.readItem) := by
    refine Steps.bind stored_identify fun _ => Steps.bind (stored_drive _) fun _ => ?_
    exact Steps.forM fun item _ => h.readItem item
  have hlast : ∀ cs : List ContactManagerCommand, (∀ cmd ∈ cs, cmd ∈ c.rx) → Moves (Stored S) (do
      forM cs Contact.handleIntRx
      drive i.after) := by
    intro cs hcs
    refine Steps.bind (Steps.forM fun cmd hcmd => h.handleIntRx fun nick src heq => ?_)
      fun _ => stored_drive _
    exact hnick nick src (heq ▸ hcs cmd hcmd)
  have heq : Contact.poll i = (do
      (do
        Contact.identify
        drive i.before
        forM i.items Contact.readItem)
      receive
      drive i.after) := by
    simp only [Contact.poll, bind_assoc]
  rw [heq, wp_bind]
  refine wp_mono (hfirst c) ?_ fun _ t ht => ht.1.2.2
  rintro _ t ⟨-, hrx, ht⟩
  have hrest : receive >>= (fun _ => drive i.after) = (do
      let c ← get
      set { c with rx := [] }
      forM c.rx Contact.handleIntRx
      drive i.after) := by
    simp only [receive, bind_assoc]
  rw [hrest, wp_bind, wp_get, wp_bind, wp_set, hrx]
  refine wp_mono (hlast c.rx (fun _ h => h) { t with rx := [] }) ?_ ?_
  · exact fun _ u hu => IsTrans.trans _ _ _ ht hu.2.2
  · exact fun _ u hu => IsTrans.trans _ _ _ ht hu.1.2.2

end Contacts

end SmsIrc.FactoryRuns
