import SmsIrc.ContactFrame
import SmsIrc.FactoryKeeping
import SmsIrc.PartFrames

/-!
What the contact factory leaves alone, with all its contacts: the uses that it makes of
the database, and the commands that it sends to the managers.
-/

namespace SmsIrc.FactoryFrame

open SmsIrc.Comm SmsIrc.Contact SmsIrc.ContactCommon SmsIrc.ContactFrame SmsIrc.Database
open SmsIrc.External SmsIrc.Factory SmsIrc.FactoryKeeping SmsIrc.FactoryRuns SmsIrc.HashMaps
open SmsIrc.LinkEffects SmsIrc.Models SmsIrc.PartFrames SmsIrc.Program SmsIrc.SenderCommon
open SmsIrc.Simulation SmsIrc.Text SmsIrc.Util

section Frame

variable [Crates]

/-- The command for a contact that a command carries. -/
def carries : ContactFactoryCommand → Option ContactManagerCommand
  | .forwardCommand _ cmd => some cmd
  | .forwardCommandByNick _ cmd => some cmd
  | _ => none

/-- A relation that is kept by the steps of a factory that deals with a command, but for
what it notes of the presence of a contact. -/
structure Frame (R : ContactFactory → ContactFactory → Prop) : Prop where
  query : ∀ {α : Type} (f : Store → α), Moves R (store (query f) : FactoryM α)
  setupFor : ∀ recip a, Moves R (Factory.setupContactFor recip a)
  askModem : ∀ a, Moves R (Factory.mSend (.makeContact a))
  askWhatsapp : ∀ a, Moves R (Factory.waSend (.makeContact a))
  subscribe : ∀ a, Moves R (Factory.waSend (.subscribePresence a))
  respond : ∀ resp, Moves R (Factory.cbSend (.commandResponse resp))
  command : ∀ a cmd, (∀ text, cmd ≠ .updateAway text) → Moves R (addCommandTo a cmd)
  drop : ∀ a, Moves R (dropContact a : FactoryM Unit)
  groups : Moves R Factory.processGroups
  retried : ∀ f, R f { f with failedContacts := [] }

theorem moves_byNick {R : ContactFactory → ContactFactory → Prop} [IsPreorder ContactFactory R]
    (nick : Str) {p : Option PduAddress → FactoryM Unit} (hnone : Moves R (p none))
    (hsome : ∀ a, Moves R (p (some a))) : Moves R (Factory.resolveNick nick >>= p) := by
  refine Steps.bind (Steps.bind steps_get fun f => steps_pure _) fun a => ?_
  cases a with
  | some a => exact hsome a
  | none => exact hnone

namespace Frame

variable {R : ContactFactory → ContactFactory → Prop} [IsPreorder ContactFactory R] (h : Frame R)
include h

theorem setupRecipient (recip : Recipient) : Moves R (setupRecipient recip : FactoryM Unit) := by
  refine Steps.bind (steps_getAddr (fun _ => trivial) _) fun a => ?_
  refine Steps.bind (Steps.bind steps_get fun f => steps_pure _) fun present => ?_
  exact Steps.when (h.setupFor recip a)

theorem setupContact (a : PduAddress) : Moves R (setupContact a : FactoryM Unit) := by
  refine Steps.bind (h.query _) fun row => ?_
  cases row with
  | some recip => exact h.setupRecipient recip
  | none => exact steps_pure _

theorem requestContact (a : PduAddress) (src : Nat) :
    Moves R (requestContact a src : FactoryM Bool) := by
  refine Steps.bind (h.query _) fun row => ?_
  cases row with
  | some recip => exact Steps.bind (h.setupRecipient recip) fun _ => steps_pure _
  | none =>
      refine Steps.bind ?_ fun _ => steps_pure _
      unfold requestCreation
      split
      · exact h.askModem a
      · split
        · exact h.askWhatsapp a
        · exact steps_pure _

theorem queryContact (a : PduAddress) (src : Nat) :
    Moves R (queryContact a src : FactoryM Unit) := by
  refine Steps.bind (h.query _) fun row => ?_
  cases row with
  | some recip => exact Steps.bind (h.respond _) fun _ => h.setupRecipient recip
  | none =>
      refine Steps.bind (h.respond _) fun _ => ?_
      exact Steps.bind (h.requestContact a src) fun _ => steps_pure _

theorem processMessage (msg : Message) : Moves R (Factory.processMessage msg) := by
  refine Steps.bind (steps_getAddr (fun _ => trivial) _) fun a => Steps.bind steps_get fun f => ?_
  split
  · exact steps_pure _
  · split
    · exact h.command a _ (by simp)
    · exact Steps.bind (h.requestContact a _) fun _ => steps_pure _

theorem processMessages (hseen : ∀ ids f, R f { f with messagesProcessed := ids }) :
    Moves R Factory.processMessages := by
  refine Steps.bind (h.query _) fun msgs => Steps.forM fun msg _ => steps_get_bind fun f => ?_
  rw [wp_when]
  split
  · rw [wp_bind, wp_set]
    exact (h.processMessage msg).after (hseen _ f)
  · exact refl f

omit [IsPreorder ContactFactory R] in
theorem forwardCmd (a : PduAddress) {cmd : ContactManagerCommand}
    (haway : ∀ text, cmd = .updateAway text → Moves R (Factory.updateAway a text)) :
    Moves R (Factory.forwardCmd a cmd) := by
  cases cmd with
  | updateAway text => exact haway text rfl
  | processMessages => exact h.command a _ (by simp)
  | processGroups => exact h.command a _ (by simp)
  | changeNick nick src => exact h.command a _ (by simp)
  | setWhatsapp wam => exact h.command a _ (by simp)

theorem handleCommand {c : ContactFactoryCommand}
    (hmessages : c = .processMessages → Moves R Factory.processMessages)
    (haway : ∀ a text, carries c = some (.updateAway text) → Moves R (updateAway a text)) :
    Moves R (Factory.handleCommand c) := by
  cases c with
  | processMessages => exact hmessages rfl
  | processGroups => exact h.groups
  | loadRecipients =>
      exact Steps.bind (h.query _) fun recips => Steps.forM fun recip _ => h.setupRecipient recip
  | setupContact a => exact h.setupContact a
  | queryContact a src => exact h.queryContact a src
  | dropContact a => exact h.drop a
  | dropContactByNick nick => exact moves_byNick nick (steps_pure _) h.drop
  | forwardCommand a cmd =>
      exact h.forwardCmd a fun text heq => haway a text (congrArg some heq)
  | forwardCommandByNick nick cmd =>
      refine moves_byNick nick (steps_pure _) fun a => ?_
      exact h.forwardCmd a fun text heq => haway a text (congrArg some heq)
  | subscribePresenceByNick nick => exact moves_byNick nick (steps_pure _) h.subscribe
  | processAvatars => exact steps_pure _

theorem onTick (r : Except Str Unit) : Moves R (Factory.onTick r) := by
  cases r with
  | ok _ =>
      refine steps_get_bind fun f => ?_
      rw [wp_bind, wp_set]
      exact (Steps.forM fun a _ => h.setupContact a).after (h.retried f)
  | error e => exact steps_throw trivial

end Frame

end Frame

section Dealings

variable [Crates]

/-- Commands that the managers can be sent by the others. -/
abbrev Requested (xs ys : List Comm.WhatsappCommand) : Prop :=
  Appends (fun c => WhatsappRuns.isRequest c = true) xs ys

abbrev RequestedModem (xs ys : List Comm.ModemCommand) : Prop :=
  Appends (fun c => ModemMemory.isRequest c = true) xs ys

theorem requested {c : Comm.WhatsappCommand} (hc : WhatsappRuns.isRequest c = true)
    (xs : List Comm.WhatsappCommand) : Requested xs (xs ++ [c]) :=
  appends_single (P := fun c => WhatsappRuns.isRequest c = true) hc xs

theorem requestedModem {c : Comm.ModemCommand} (hc : ModemMemory.isRequest c = true)
    (xs : List Comm.ModemCommand) : RequestedModem xs (xs ++ [c]) :=
  appends_single (P := fun c => ModemMemory.isRequest c = true) hc xs

/-- What the program learns of a step of a contact. -/
structure Served (S : Store → Store → Prop) (s t : ContactManager) : Prop where
  store : S s.store t.store
  waTx : Requested s.waTx t.waTx
  mTx : RequestedModem s.mTx t.mTx

/-- What it learns of a step of the factory. -/
structure Dealt (S : Store → Store → Prop) (s t : ContactFactory) : Prop where
  store : S s.store t.store
  waTx : Requested s.waTx t.waTx
  mTx : RequestedModem s.mTx t.mTx
  cbTx : Appends (fun _ => True) s.cbTx t.cbTx

variable {S : Store → Store → Prop} [IsPreorder Store S]

instance isPreorder_served : IsPreorder ContactManager (Served S) where
  refl c := ⟨refl c.store, refl c.waTx, refl c.mTx⟩
  trans _ _ _ hst htu :=
    ⟨IsTrans.trans _ _ _ hst.store htu.store, IsTrans.trans _ _ _ hst.waTx htu.waTx,
      IsTrans.trans _ _ _ hst.mTx htu.mTx⟩

instance isPreorder_dealt : IsPreorder ContactFactory (Dealt S) where
  refl f := ⟨refl f.store, refl f.waTx, refl f.mTx, refl f.cbTx⟩
  trans _ _ _ hst htu :=
    ⟨IsTrans.trans _ _ _ hst.store htu.store, IsTrans.trans _ _ _ hst.waTx htu.waTx,
      IsTrans.trans _ _ _ hst.mTx htu.mTx, IsTrans.trans _ _ _ hst.cbTx htu.cbTx⟩

omit [IsPreorder Store S] in
theorem served_store {α : Type} {p : StoreM α} (hp : Moves S p) :
    Moves (Served S) (store p : ContactM α) :=
  Steps.zoom hp fun c _ hst => ⟨hst, refl c.waTx, refl c.mTx⟩

theorem served_coarse (h : LinkUses S) : Coarse (Served S) where
  inside s t hst := by
    refine ⟨?_, ?_, ?_⟩
    · rw [hst.store]
      exact refl _
    · rw [hst.waTx]
      exact refl _
    · rw [hst.mTx]
      exact refl _
  query f := served_store (moves_query h.tick f)
  nick a n src := served_store (h.nick a n src)
  mode a wa := served_store (h.mode a wa)
  deleteMessage id := served_store (h.deleteMessage id)
  direct a text c := ⟨refl c.store, requested rfl c.waTx, refl c.mTx⟩
  sms a text c := ⟨refl c.store, refl c.waTx, requestedModem rfl c.mTx⟩

theorem dealt_of_eq {s t : ContactFactory} (hstore : t.store = s.store) (hwa : t.waTx = s.waTx)
    (hm : t.mTx = s.mTx) (hcb : t.cbTx = s.cbTx) : Dealt S s t := by
  refine ⟨?_, ?_, ?_, ?_⟩
  · rw [hstore]
    exact refl _
  · rw [hwa]
    exact refl _
  · rw [hm]
    exact refl _
  · rw [hcb]
    exact refl _

theorem dealt_modify {f : ContactFactory → ContactFactory} (hstore : ∀ s, (f s).store = s.store)
    (hwa : ∀ s, (f s).waTx = s.waTx) (hm : ∀ s, (f s).mTx = s.mTx)
    (hcb : ∀ s, (f s).cbTx = s.cbTx) : Moves (Dealt S) (modify f : FactoryM PUnit) :=
  steps_modify fun s => dealt_of_eq (hstore s) (hwa s) (hm s) (hcb s)

omit [IsPreorder Store S] in
theorem dealt_store {α : Type} {p : StoreM α} (hp : Moves S p) :
    Moves (Dealt S) (store p : FactoryM α) :=
  Steps.zoom hp fun f _ hst => ⟨hst, refl f.waTx, refl f.mTx, refl f.cbTx⟩

theorem dealt_addCommandTo (a : PduAddress) (cmd : ContactManagerCommand) :
    Moves (Dealt S) (addCommandTo a cmd) := by
  refine steps_modify fun f => ?_
  split
  · exact dealt_of_eq rfl rfl rfl rfl
  · exact refl f

theorem dealt_frame (h : LinkUses S) : Frame (Dealt S) where
  query f := dealt_store (moves_query h.tick f)
  setupFor _ _ := dealt_modify (fun _ => rfl) (fun _ => rfl) (fun _ => rfl) fun _ => rfl
  askModem a := steps_modify fun f =>
    ⟨refl f.store, refl f.waTx, requestedModem rfl f.mTx, refl f.cbTx⟩
  askWhatsapp a := steps_modify fun f =>
    ⟨refl f.store, requested rfl f.waTx, refl f.mTx, refl f.cbTx⟩
  subscribe a := steps_modify fun f =>
    ⟨refl f.store, requested rfl f.waTx, refl f.mTx, refl f.cbTx⟩
  respond resp := steps_modify fun f =>
    ⟨refl f.store, refl f.waTx, refl f.mTx, appends_single trivial f.cbTx⟩
  command a cmd _ := dealt_addCommandTo a cmd
  drop a := by
    refine Steps.bind (dealt_store (h.dropRecipient a)) fun _ => ?_
    exact dealt_modify (fun _ => rfl) (fun _ => rfl) (fun _ => rfl) fun _ => rfl
  groups := dealt_modify (fun _ => rfl) (fun _ => rfl) (fun _ => rfl) fun _ => rfl
  retried _ := dealt_of_eq rfl rfl rfl rfl

theorem dealt_updateAway (a : PduAddress) (away : Option Str) :
    Moves (Dealt S) (updateAway a away) :=
  Steps.bind (dealt_addCommandTo a _) fun _ =>
    dealt_modify (fun _ => rfl) (fun _ => rfl) (fun _ => rfl) fun _ => rfl

theorem dealt_noteFailure (a : PduAddress) : Moves (Dealt S) (noteFailure a) :=
  dealt_modify (fun _ => rfl) (fun _ => rfl) (fun _ => rfl) fun _ => rfl

theorem dealt_pollAttempt (a : PduAddress) (recip : Recipient) (answer : Answer) :
    Moves (Dealt S) (pollAttempt a recip answer) := by
  cases answer with
  | ready nick refuses =>
      refine Steps.bind ?_ fun _ => steps_pure _
      exact dealt_modify (fun _ => rfl) (fun _ => rfl) (fun _ => rfl) fun _ => rfl
  | notReady => exact steps_pure _
  | failed e => exact Steps.bind (dealt_noteFailure a) fun _ => steps_pure _

theorem dealt_pollContact (h : LinkUses S) (a : PduAddress) (c : ContactManager) (i : Activity) :
    Moves (Dealt S) (pollContact a c i) := by
  have hpoll : Moves (Dealt S)
      (zoom (fun f => sharing f c) (putContact a) (Contact.poll i) : FactoryM Unit) :=
    Steps.zoom ((served_coarse h).poll i) fun f _ hst => ⟨hst.store, hst.waTx, hst.mTx, refl f.cbTx⟩
  intro s
  rw [pollContact, wp_bind]
  refine wp_attempt ?_ ?_
  · refine wp_mono (hpoll s) (fun _ t ht => ht) fun _ t ht _ => ?_
    exact wp_mono ((Steps.bind (dealt_noteFailure a) fun _ => steps_pure _).after ht.1)
      (fun _ _ hu => hu) fun _ _ hu => hu
  · exact wp_mono (hpoll s) (fun _ _ _ => trivial) fun _ t ht _ _ => ⟨ht.1, trivial⟩

theorem dealt_turn (h : LinkUses S) (t : Turn) : Moves (Dealt S) t.run := by
  have hframe := dealt_frame h
  cases t with
  | command c =>
      refine hframe.handleCommand (fun _ => ?_) fun a text _ => dealt_updateAway a text
      exact hframe.processMessages fun _ _ => dealt_of_eq rfl rfl rfl rfl
  | starting answers =>
      refine Steps.bind steps_get fun f => Steps.bind (Steps.mapM fun e => ?_) fun ended => ?_
      · exact dealt_pollAttempt _ _ _
      · refine Steps.forM fun a _ => ?_
        exact dealt_modify (fun _ => rfl) (fun _ => rfl) (fun _ => rfl) fun _ => rfl
  | contacts activity =>
      refine Steps.bind steps_get fun f => Steps.bind (Steps.mapM fun e => ?_) fun ended => ?_
      · exact dealt_pollContact h _ _ _
      · refine Steps.forM fun a _ => ?_
        exact dealt_modify (fun _ => rfl) (fun _ => rfl) (fun _ => rfl) fun _ => rfl
  | tick r => exact hframe.onTick r

end Dealings

section Polls

variable [Crates]

/-- Polling the contacts has done that to the rest of the factory. -/
structure Beside (T : Store → Store → Prop) (s t : ContactFactory) : Prop where
  store : T s.store t.store
  presence : t.contactsPresence = s.contactsPresence
  processed : t.messagesProcessed = s.messagesProcessed
  starting : t.contactsStarting = s.contactsStarting

/-- Some of the contacts have been polled, of which those in `ended` have failed. -/
structure Underway (P : Store → PduAddress → ContactManager → Prop) (T : Store → Store → Prop)
    (s : ContactFactory) (done : List (PduAddress × ContactManager))
    (ended : List (Option PduAddress)) (t : ContactFactory) : Prop where
  beside : Beside T s t
  waiting : ∀ a, a ∉ done.map Prod.fst → t.contacts.lookup a = s.contacts.lookup a
  good : ∀ a c, t.contacts.lookup a = some c →
    a ∈ done.map Prod.fst ∧ some a ∈ ended ∨ P t.store a c

variable {P : Store → PduAddress → ContactManager → Prop} {S : PduAddress → Store → Store → Prop}
  {T : Store → Store → Prop} [IsPreorder Store T]

theorem underway_put {s t : ContactFactory} {done : List (PduAddress × ContactManager)}
    {ended : List (Option PduAddress)} {a : PduAddress} {c c' : ContactManager}
    {y : Option PduAddress} (failed : List PduAddress)
    (hstable : ∀ {a b : PduAddress} {st st' : Store} {c : ContactManager}, b ≠ a → S b st st' →
      P st a c → P st' a c)
    (hT : ∀ {a : PduAddress} {st st' : Store}, S a st st' → T st st')
    (h : Underway P T s done ended t) (hst : S a t.store c'.store)
    (hy : y = some a ∨ P c'.store a c') :
    Underway P T s (done ++ [(a, c)]) (ended ++ [y])
      { putContact a t c' with failedContacts := failed } := by
  have hlookup : ∀ b, (t.contacts.insert a c').lookup b =
      if b = a then some c' else t.contacts.lookup b := fun b => lookup_insert _ _ _ _
  have hmem : ∀ b, b ∈ (done ++ [(a, c)]).map Prod.fst ↔ b ∈ done.map Prod.fst ∨ b = a := by
    intro b
    rw [List.map_append, List.mem_append, List.map_singleton, List.mem_singleton]
  refine ⟨⟨IsTrans.trans _ _ _ h.beside.store (hT hst), h.beside.presence, h.beside.processed,
    h.beside.starting⟩, fun b hb => ?_, fun b c'' hc'' => ?_⟩
  · rw [hmem, not_or] at hb
    exact ((hlookup b).trans (if_neg hb.2)).trans (h.waiting b hb.1)
  · change (t.contacts.insert a c').lookup b = some c'' at hc''
    rw [hlookup] at hc''
    rw [hmem, List.mem_append, List.mem_singleton]
    split at hc''
    · rename_i heq
      cases hc''
      subst heq
      refine hy.imp (fun hy => ⟨.inr rfl, .inr hy.symm⟩) fun hP => hP
    · rename_i hne
      refine (h.good b c'' hc'').imp (fun hb => ⟨.inl hb.1, .inl hb.2⟩) fun hP => ?_
      exact hstable (Ne.symm hne) hst hP

/-- What holds of all contacts, is kept by a poll of each, and is not harmed by what polling
the others does to the database, holds of the contacts that are left. -/
theorem wp_pollContacts_of
    (hstable : ∀ {a b : PduAddress} {st st' : Store} {c : ContactManager}, b ≠ a → S b st st' →
      P st a c → P st' a c)
    (hT : ∀ {a : PduAddress} {st st' : Store}, S a st st' → T st st')
    (hpoll : ∀ f a c i, P f.store a c →
      wp (Contact.poll i) (fun _ t => P t.store a t ∧ S a f.store t.store)
        (fun _ t => S a f.store t.store) (sharing f c))
    {s : ContactFactory} (hs : ∀ a c, s.contacts.lookup a = some c → P s.store a c)
    (activity : PduAddress → Activity) :
    wp (pollContacts activity)
      (fun _ u => Beside T s u ∧ ∀ a c, u.contacts.lookup a = some c → P u.store a c)
      (fun _ _ => True) s := by
  have hkeys : ((Crates.hashOrder.run (pairs s.contacts)).map Prod.fst).Nodup :=
    ((Crates.hashOrder.perm _).map Prod.fst).nodup_iff.mpr (nodup_keys_pairs s.contacts)
  have hloop : wp ((Crates.hashOrder.run (pairs s.contacts)).mapM
      fun e => pollContact e.1 e.2 (activity e.1))
      (fun ended t => Underway P T s (Crates.hashOrder.run (pairs s.contacts)) ended t)
      (fun _ _ => True) s := by
    refine wp_mapM_prefix (fun done ended t => Underway P T s done ended t)
      (fun done e rest hxs ended t ht => ?_)
      ⟨⟨refl _, rfl, rfl, rfl⟩, fun _ _ => rfl, fun a c hc => .inr (hs a c hc)⟩
    obtain ⟨a, c⟩ := e
    have hct : s.contacts.lookup a = some c := by
      rw [← mem_pairs, ← Crates.hashOrder.mem_run, hxs]
      simp
    have hnew : a ∉ done.map Prod.fst := by
      rw [hxs, List.map_append, List.map_cons] at hkeys
      exact fun hmem => List.disjoint_of_nodup_append hkeys hmem List.mem_cons_self
    have hP : P t.store a c := by
      refine (ht.good a c ((ht.waiting a hnew).trans hct)).resolve_left fun hdone => ?_
      exact hnew hdone.1
    rw [pollContact, wp_bind]
    refine wp_attempt ?_ ?_
    · rw [wp_zoom]
      refine wp_mono (hpoll t a c (activity a) hP) (fun _ c' hc' => ?_) fun _ c' hc' _ => ?_
      · exact underway_put t.failedContacts hstable hT ht hc'.2 (.inr hc'.1)
      · rw [noteFailure, wp_bind, wp_modify, wp_pure]
        exact underway_put _ hstable hT ht hc' (.inl rfl)
    · exact wp_mono (wp_exec _ _) (fun _ _ _ => trivial) fun _ _ _ _ _ => trivial
  rw [pollContacts, wp_bind, wp_get, wp_bind]
  refine wp_mono hloop (fun ended t ht => ?_) fun _ _ _ => trivial
  refine wp_mono (wp_erasing (fun f => f.contacts) (fun f m => { f with contacts := m })
    (fun _ _ => rfl) (fun _ _ _ => rfl) (fun _ => rfl) ended.reduceOption t) ?_
    fun _ _ he => he
  rintro _ _ ⟨m, rfl, hm⟩
  refine ⟨⟨ht.beside.store, ht.beside.presence, ht.beside.processed, ht.beside.starting⟩,
    fun a c hc => ?_⟩
  change m.lookup a = some c at hc
  rw [hm] at hc
  split at hc
  · cases hc
  · rename_i hnot
    rw [List.reduceOption_mem_iff] at hnot
    exact (ht.good a c hc).resolve_left fun hdone => hnot hdone.2

/-- Polling the attempts has given it more contacts. -/
structure Joined (P : Store → PduAddress → ContactManager → Prop) (s t : ContactFactory) :
    Prop where
  store : t.store = s.store
  presence : t.contactsPresence = s.contactsPresence
  processed : t.messagesProcessed = s.messagesProcessed
  good : ∀ a c, t.contacts.lookup a = some c → P s.store a c

/-- What holds of the contacts that there are and of the new ones holds of all of them when
the attempts have been polled. -/
theorem wp_pollStarting_of {s : ContactFactory}
    (hnew : ∀ f a recip nick refuses, f.store = s.store →
      f.contactsPresence = s.contactsPresence → P s.store a (newContact f recip a nick refuses))
    (hs : ∀ a c, s.contacts.lookup a = some c → P s.store a c)
    (answers : PduAddress → Answer) :
    wp (pollStarting answers) (fun _ u => Joined P s u) (fun _ _ => False) s := by
  have hloop : wp ((Crates.hashOrder.run (pairs s.contactsStarting)).mapM
      fun e => pollAttempt e.1 e.2 (answers e.1)) (fun _ t => Joined P s t) (fun _ _ => False)
      s := by
    refine wp_mapM_prefix (fun _ _ t => Joined P s t) (fun done e rest _ ended t ht => ?_)
      ⟨rfl, rfl, rfl, hs⟩
    cases answers e.1 with
    | ready nick refuses =>
        rw [pollAttempt, wp_bind, wp_modify, wp_pure]
        refine ⟨ht.store, ht.presence, ht.processed, fun a c hc => ?_⟩
        change (t.contacts.insert e.1 _).lookup a = some c at hc
        rw [lookup_insert] at hc
        split at hc
        · rename_i heq
          cases hc
          subst heq
          exact hnew t e.1 e.2 nick refuses ht.store ht.presence
        · exact ht.good a c hc
    | notReady => exact ht
    | failed e' =>
        rw [pollAttempt, noteFailure, wp_bind, wp_modify, wp_pure]
        exact ⟨ht.store, ht.presence, ht.processed, ht.good⟩
  rw [pollStarting, wp_bind, wp_get, wp_bind]
  refine wp_mono hloop (fun ended t ht => ?_) fun _ _ he => he
  refine wp_forM (I := fun u => Joined P s u) (fun _ _ u hu => ?_) ht
  exact ⟨hu.store, hu.presence, hu.processed, hu.good⟩

end Polls

end SmsIrc.FactoryFrame
