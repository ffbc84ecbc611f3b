import SmsIrc.NickRuns

/-!
What the factory and its contacts make of the changes of nicks: the factory passes them on,
and each contact carries them out one after the other.
-/

namespace SmsIrc.ContactNicks

open SmsIrc.Comm SmsIrc.Contact SmsIrc.ContactCommon SmsIrc.ControlCommands SmsIrc.Database
open SmsIrc.External SmsIrc.Factory SmsIrc.HashMaps SmsIrc.LinkAgreement SmsIrc.Models
open SmsIrc.NickQueues SmsIrc.NickRuns SmsIrc.NickSources SmsIrc.Program
open SmsIrc.SenderCommon SmsIrc.Text SmsIrc.Transition SmsIrc.Util SmsIrc.Whatsapp
open SmsIrc.FactoryKeeping (Present Starts)
open SmsIrc.FactoryRuns (Leaves Stored stored_call stored_store)
open SmsIrc.Link (InspLink)
open SmsIrc.LinkEffects (Keyed)

section Contacts

variable [Crates]

/-- What the factory and its contacts do beside receiving commands. -/
inductive ContactTurn where
  | attempts (answers : PduAddress → Answer)
  | retry
  /-- A contact reads what its connection yields. -/
  | hear (a : PduAddress) (item : StreamItem)
  /-- A contact carries out the next of its commands. -/
  | serve (a : PduAddress)

/-- A contact does something, and is removed if it fails. -/
def letContact (a : PduAddress) (c : ContactManager) (p : ContactM Unit) : FactoryM Unit := do
  match ← attempt (zoom (fun f => sharing f c) (putContact a) p) with
  | .ok _ => pure ()
  | .error _ => do
      noteFailure a
      modify fun f => { f with contacts := f.contacts.erase a }

def ContactTurn.run : ContactTurn → FactoryM Unit
  | .attempts answers => pollStarting answers
  | .retry => processFailures
  | .hear a item => do
      let f ← get
      match f.contacts.lookup a with
      | some c => letContact a c (readItem item)
      | none => pure ()
  | .serve a => do
      let f ← get
      match f.contacts.lookup a with
      | some c =>
          match c.rx with
          | cmd :: rest => letContact a { c with rx := rest } (handleIntRx cmd)
          | [] => pure ()
      | none => pure ()

def factoryNext : System ContactFactory → Event ContactTurn → Option (System ContactFactory) :=
  next handleCommand ContactTurn.run

/-- The source of the nick that a command of a contact brings. -/
def nickSource : ContactManagerCommand → Option Int
  | .changeNick _ src => some src
  | _ => none

/-- The commands of a contact. -/
def commandsOf (f : ContactFactory) (a : PduAddress) : List ContactManagerCommand :=
  match f.contacts.lookup a with
  | some c => c.rx
  | none => []

/-- The source of the nick that an event has a contact store. -/
def factoryCause (s : System ContactFactory) : Event ContactTurn → Option Int
  | .own (.serve a) => (commandsOf s.side a).head?.bind nickSource
  | _ => none

/-- A change of nick that waits, is no RENAME, and must not replace the one that is being
stored. -/
def Late (stored : Option Int) : ContactManagerCommand → Prop
  | .changeNick _ new =>
      match stored with
      | some src => new ≠ nicksrcUser ∧ ¬ MayReplace src new
      | none => False
  | _ => False

instance (stored : Option Int) (c : ContactManagerCommand) : Decidable (Late stored c) := by
  unfold Late
  split
  · split <;> infer_instance
  · infer_instance

/-- No automatic change is waiting, for the factory or for the contact, that must not replace
the nick that is being stored. -/
def FactoryInOrder (s : System ContactFactory) : Event ContactTurn → Prop
  | .own (.serve a) =>
      (∀ d ∈ s.queue,
        ¬ Outdated (((commandsOf s.side a).head?.bind nickSource).map fun src => (a, src)) d) ∧
      ∀ cmd ∈ (commandsOf s.side a).tail, ¬ Late ((commandsOf s.side a).head?.bind nickSource) cmd
  | _ => True

instance (s : System ContactFactory) : (e : Event ContactTurn) → Decidable (FactoryInOrder s e)
  | .own (.serve _) => inferInstanceAs (Decidable (_ ∧ _))
  | .own (.attempts _) => .isTrue trivial
  | .own .retry => .isTrue trivial
  | .own (.hear _ _) => .isTrue trivial
  | .contact _ => .isTrue trivial
  | .rename _ _ => .isTrue trivial
  | .receive => .isTrue trivial

/-- The nicks are respected, and no automatic change passes for a RENAME. -/
def FactoryRespects (s : System ContactFactory) (e : Event ContactTurn) : Prop :=
  ∀ t, factoryNext s e = some t →
    Respected s.side.store t.side.store (factoryCause s e) ∧ Genuine t.queue

/-- A command of a contact is right for what is stored. -/
def Due (st : Store) (a : PduAddress) : ContactManagerCommand → Prop
  | .changeNick _ src =>
      src = nicksrcUser ∨ RowWith st a fun oldsrc => MayReplace oldsrc src
  | _ => True

/-- What holds of a factory: its contacts have their addresses, and their commands are right. -/
structure Dutiful (f : ContactFactory) : Prop where
  keyed : Keyed f.store
  readsBack : ∀ a, Present f a → ReadsBack a
  address : ∀ a c, f.contacts.lookup a = some c → c.addr = a
  due : ∀ a c, f.contacts.lookup a = some c → ∀ cmd ∈ c.rx, Due f.store a cmd

/-- What holds of a factory and the commands that it has not received. -/
structure FactoryOrdered (s : System ContactFactory) : Prop where
  genuine : Genuine s.queue
  dutiful : s.outcome = none → Dutiful s.side
  owed : s.outcome = none → ∀ c ∈ s.queue, Owed (fun _ => True) s.side.store c

theorem Due.kept {ch : Option (PduAddress × Int)} {st st' : Store} {a : PduAddress}
    {cmd : ContactManagerCommand} (h : Due st a cmd) (hkept : Kept ch st st')
    (hch : ∀ b src, ch = some (b, src) → normalizeAddress a = normalizeAddress b →
      ¬ Late (some src) cmd) : Due st' a cmd := by
  cases cmd with
  | changeNick nick new =>
      rcases h with huser | hrow
      · exact .inl huser
      · by_cases huser : new = nicksrcUser
        · exact .inl huser
        · refine .inr (hrow.kept hkept fun b src hb hnum => ?_)
          by_contra hno
          exact hch b src hb hnum ⟨huser, hno⟩
  | _ => trivial

/-- The factory changes no nick; a contact may be new, or have got one command. -/
structure Passes (add : Option (PduAddress × ContactManagerCommand)) (s t : ContactFactory) :
    Prop where
  store : Kept none s.store t.store
  readsBack : Keyed s.store → ∀ a, Present t a → Present s a ∨ ReadsBack a
  contacts : ∀ a c', t.contacts.lookup a = some c' →
    (∃ c, s.contacts.lookup a = some c ∧ c'.addr = c.addr ∧
      ∀ cmd ∈ c'.rx, cmd ∈ c.rx ∨ add = some (a, cmd)) ∨
    c'.addr = a ∧ ∀ cmd ∈ c'.rx, nickSource cmd = none

theorem passes_of_same {s t : ContactFactory} (hstore : Kept none s.store t.store)
    (hpresent : ∀ a, Present t a → Present s a) (hcontacts : t.contacts = s.contacts) :
    Passes none s t :=
  ⟨hstore, fun _ a ha => .inl (hpresent a ha),
    fun _ c' hc' => .inl ⟨c', hcontacts ▸ hc', rfl, fun _ hcmd => .inl hcmd⟩⟩

instance : IsPreorder ContactFactory (Passes none) where
  refl _ := passes_of_same (refl _) (fun _ ha => ha) rfl
  trans s t u hst htu := by
    refine ⟨hst.store.trans htu.store, fun hk a ha => ?_, fun a c'' hc'' => ?_⟩
    · rcases htu.readsBack (hst.store.keyed hk) a ha with ha | ha
      · exact hst.readsBack hk a ha
      · exact .inr ha
    · rcases htu.contacts a c'' hc'' with ⟨c', hc', haddr', hrx'⟩ | hnew
      · have hold : ∀ cmd ∈ c''.rx, cmd ∈ c'.rx := fun cmd hcmd => (hrx' cmd hcmd).elim id nofun
        rcases hst.contacts a c' hc' with ⟨c, hc, haddr, hrx⟩ | ⟨haddr, hnone⟩
        · exact .inl ⟨c, hc, haddr'.trans haddr, fun cmd hcmd => hrx cmd (hold cmd hcmd)⟩
        · exact .inr ⟨haddr'.trans haddr, fun cmd hcmd => hnone cmd (hold cmd hcmd)⟩
      · exact .inr hnew

theorem Dutiful.passes {add : Option (PduAddress × ContactManagerCommand)} {s t : ContactFactory}
    (h : Dutiful s) (ht : Passes add s t)
    (hadd : ∀ a cmd, add = some (a, cmd) → Due s.store a cmd) : Dutiful t := by
  refine ⟨ht.store.keyed h.keyed, fun a ha => ?_, fun a c' hc' => ?_, fun a c' hc' cmd hcmd => ?_⟩
  · exact (ht.readsBack h.keyed a ha).elim (h.readsBack a) id
  · rcases ht.contacts a c' hc' with ⟨c, hc, haddr, -⟩ | ⟨haddr, -⟩
    · exact haddr.trans (h.address a c hc)
    · exact haddr
  · rcases ht.contacts a c' hc' with ⟨c, hc, -, hrx⟩ | ⟨-, hnone⟩
    · refine Due.kept ?_ ht.store nofun
      exact (hrx cmd hcmd).elim (h.due a c hc cmd) (hadd a cmd)
    · cases cmd with
      | changeNick nick src => cases hnone _ hcmd
      | _ => trivial

/-- A step that leaves the contacts alone. -/
def SameContacts (s t : ContactFactory) : Prop := t.contacts = s.contacts

instance : IsPreorder ContactFactory SameContacts where
  refl _ := rfl
  trans _ _ _ hst htu := htu.trans hst

theorem same_query {α : Type} (f : Store → α) :
    Moves SameContacts (store (query f) : FactoryM α) := moves_zoom _ fun _ _ => rfl

theorem same_setupRecipient (recip : Recipient) :
    Moves SameContacts (setupRecipient recip : FactoryM Unit) := by
  have haddr : Moves SameContacts (recip.getAddr : FactoryM PduAddress) := by
    exact steps_getAddr (fun _ => trivial) _
  refine Steps.bind haddr fun a => Steps.bind ?_ fun _ => Steps.when ?_
  · exact Steps.bind steps_get fun _ => steps_pure _
  · exact steps_modify fun _ => rfl

theorem same_setupContact (a : PduAddress) :
    Moves SameContacts (setupContact a : FactoryM Unit) := by
  refine Steps.bind (same_query _) fun row => ?_
  cases row with
  | some row => exact same_setupRecipient row
  | none => exact steps_pure _

theorem passes_of_starts {s t : ContactFactory} (h : Starts s t) (hsame : SameContacts s t) :
    Passes none s t := by
  refine ⟨kept_of_eq h.recipients, fun hk a ha => ?_,
    fun _ c' hc' => .inl ⟨c', hsame ▸ hc', rfl, fun _ hcmd => .inl hcmd⟩⟩
  rcases ha with hstarting | hct
  · rcases h.started a hstarting with hold | ⟨-, hrow⟩
    · exact .inl (.inl hold)
    · obtain ⟨row, hrow⟩ := hrow hk
      exact .inr hrow.readsBack
  · exact .inl (.inr (h.contacts a ▸ hct))

theorem passes_of_moves {α : Type} {p : FactoryM α} (h : Moves Starts p)
    (hsame : Moves SameContacts p) : Moves (Passes none) p := fun s =>
  wp_mono (wp_and (h s) (hsame s)) (fun _ _ ht => passes_of_starts ht.1 ht.2)
    fun _ _ ht => ⟨passes_of_starts ht.1.1 ht.2.1, trivial⟩

theorem passes_setupContact (a : PduAddress) :
    Moves (Passes none) (setupContact a : FactoryM Unit) :=
  passes_of_moves (FactoryKeeping.starts_setupContact a) (same_setupContact a)

theorem passes_loadRecipients : Moves (Passes none) loadRecipients :=
  passes_of_moves FactoryKeeping.starts_loadRecipients
    (Steps.bind (same_query _) fun _ => Steps.forM fun row _ => same_setupRecipient row)

theorem passes_processFailures : Moves (Passes none) processFailures := by
  refine steps_get_bind fun s => ?_
  rw [wp_bind, wp_set]
  apply Steps.after (Steps.forM fun a _ => passes_setupContact a)
  exact passes_of_same (refl _) (fun _ ha => ha) rfl

theorem passes_addCommandTo (a : PduAddress) (cmd : ContactManagerCommand) :
    Moves (Passes (some (a, cmd))) (addCommandTo a cmd) := by
  refine steps_modify fun s => ?_
  have hold : ∀ (b : PduAddress) (c : ContactManager), s.contacts.lookup b = some c →
      ∃ c', s.contacts.lookup b = some c' ∧ c.addr = c'.addr ∧
        ∀ cmd' ∈ c.rx, cmd' ∈ c'.rx ∨ some (a, cmd) = some (b, cmd') :=
    fun _ c hc => ⟨c, hc, rfl, fun _ hcmd => .inl hcmd⟩
  cases hct : s.contacts.lookup a with
  | none => exact ⟨refl _, fun _ _ ha => .inl ha, fun b c hc => .inl (hold b c hc)⟩
  | some c =>
      refine ⟨refl _, fun _ b hb => .inl (hb.imp_right fun hb => ?_), fun b c' hc' => .inl ?_⟩
      · change ((s.contacts.insert a (addCommand c cmd)).lookup b).isSome at hb
        rw [lookup_insert] at hb
        split at hb
        · rename_i heq
          rw [heq, hct]
          rfl
        · exact hb
      · change (s.contacts.insert a (addCommand c cmd)).lookup b = some c' at hc'
        rw [lookup_insert] at hc'
        split at hc'
        · rename_i heq
          cases hc'
          refine ⟨c, heq ▸ hct, rfl, fun cmd' hcmd => ?_⟩
          rcases List.mem_append.mp hcmd with hcmd | hcmd
          · exact .inl hcmd
          · rw [List.mem_singleton.mp hcmd, heq]
            exact .inr rfl
        · exact hold b c' hc'

/-- A command is received: the factory passes a change of nick on to its contact. -/
theorem dutiful_handleCommand {f : ContactFactory} (h : Dutiful f) {c : ContactFactoryCommand}
    (hc : Owed (fun _ => True) f.store c) :
    wp (handleCommand c) (fun _ t => Dutiful t ∧ Kept none f.store t.store)
      (fun _ t => Kept none f.store t.store) f := by
  have hmoves : ∀ {p : FactoryM Unit}, Moves (Passes none) p →
      wp p (fun _ t => Dutiful t ∧ Kept none f.store t.store)
        (fun _ t => Kept none f.store t.store) f := fun hp =>
    wp_mono (hp f) (fun _ _ ht => ⟨h.passes ht nofun, ht.store⟩) fun _ _ ht => ht.1.store
  have hforward : ∀ a nick src, Due f.store a (.changeNick nick src) →
      wp (Factory.forwardCmd a (.changeNick nick src))
        (fun _ t => Dutiful t ∧ Kept none f.store t.store)
        (fun _ t => Kept none f.store t.store) f := by
    intro a nick src hdue
    refine wp_mono (passes_addCommandTo a _ f) (fun _ t ht => ⟨h.passes ht ?_, ht.store⟩)
      fun _ _ ht => ht.1.store
    rintro b cmd ⟨⟩
    exact hdue
  cases hc with
  | change hsrc hrow => exact hforward _ _ _ (Or.inr hrow)
  | @rename nick new =>
      change wp (forwardCmdByNick nick _) _ _ f
      rw [forwardCmdByNick, wp_bind]
      change wp (resolveNick nick) _ _ f
      rw [resolveNick, wp_bind, wp_get, wp_pure]
      split
      · exact hforward _ _ _ (Or.inl rfl)
      · exact ⟨h, refl _⟩
  | setup hset => exact hmoves (passes_setupContact _)
  | load => exact hmoves passes_loadRecipients

theorem passes_pollAttempt {s : ContactFactory} {a : PduAddress} (ha : Present s a)
    (recip : Recipient) (answer : Answer) :
    wp (pollAttempt a recip answer) (fun _ t => Passes none s t) (fun _ _ => False) s := by
  cases answer with
  | ready nick refuses =>
      rw [pollAttempt, wp_bind, wp_modify, wp_pure]
      refine ⟨refl _, fun _ b hb => .inl ?_, fun b c' hc' => ?_⟩
      · rcases hb with hb | hb
        · exact .inl hb
        · change ((s.contacts.insert a _).lookup b).isSome at hb
          rw [lookup_insert] at hb
          split at hb
          · rename_i heq
            exact heq ▸ ha
          · exact .inr hb
      · change (s.contacts.insert a _).lookup b = some c' at hc'
        rw [lookup_insert] at hc'
        split at hc'
        · rename_i heq
          cases hc'
          refine .inr ⟨heq.symm, fun cmd hcmd => ?_⟩
          unfold newContact at hcmd
          dsimp only at hcmd
          split at hcmd
          · cases List.mem_singleton.mp hcmd
            rfl
          · cases hcmd
        · exact .inl ⟨c', hc', rfl, fun _ hcmd => .inl hcmd⟩
  | notReady => exact refl s
  | failed e =>
      rw [pollAttempt, noteFailure, wp_bind, wp_modify, wp_pure]
      exact passes_of_same (refl _) (fun _ hb => hb) rfl

theorem passes_pollStarting (answers : PduAddress → Answer) :
    Moves (Passes none) (pollStarting answers) := by
  refine steps_get_bind fun s => ?_
  have hloop : wp ((Crates.hashOrder.run (pairs s.contactsStarting)).mapM
      fun e => pollAttempt e.1 e.2 (answers e.1))
      (fun _ t => t.contactsStarting = s.contactsStarting ∧ Passes none s t)
      (fun _ t => Passes none s t ∧ True) s := by
    refine wp_mapM_prefix (fun _ _ t => t.contactsStarting = s.contactsStarting ∧ Passes none s t)
      (fun done e rest hxs _ t ht => ?_) ⟨rfl, refl s⟩
    have hmem : e ∈ pairs s.contactsStarting := by
      rw [← Crates.hashOrder.mem_run, hxs]
      simp
    have hpresent : Present t e.1 := by
      refine .inl ?_
      rw [ht.1, mem_pairs.mp hmem]
      rfl
    have hstarting : Moves (fun t u : ContactFactory => u.contactsStarting = t.contactsStarting)
        (pollAttempt e.1 e.2 (answers e.1)) := by
      cases answers e.1 <;> exact fun _ => rfl
    refine wp_mono (wp_and (passes_pollAttempt hpresent e.2 (answers e.1)) (hstarting t)) ?_
      fun _ _ he => he.1.elim
    exact fun _ u hu => ⟨hu.2.trans ht.1, IsTrans.trans _ _ _ ht.2 hu.1⟩
  rw [wp_bind]
  refine wp_mono hloop (fun ended t ht => ?_) fun _ _ he => he
  refine Steps.after (Steps.forM fun a _ => steps_modify fun u => ?_) ht.2
  refine passes_of_same (refl _) (fun b hb => hb.imp_left fun hb => ?_) rfl
  change ((u.contactsStarting.erase a).lookup b).isSome at hb
  rw [lookup_erase] at hb
  split at hb
  · cases hb
  · exact hb

/-- A contact that has done something, or has failed. -/
structure Acted (ch : Option (PduAddress × Int)) (a : PduAddress) (c : ContactManager)
    (s t : ContactFactory) : Prop where
  store : Kept ch s.store t.store
  starting : t.contactsStarting = s.contactsStarting
  contact : ∀ c', t.contacts.lookup a = some c' → c'.addr = c.addr ∧ c'.rx = c.rx
  others : ∀ b, b ≠ a → t.contacts.lookup b = s.contacts.lookup b

theorem acted_putContact {ch : Option (PduAddress × Int)} {f : ContactFactory} (a : PduAddress)
    {c c' : ContactManager} (haddr : c'.addr = c.addr) (hrx : c'.rx = c.rx)
    (hstore : Kept ch f.store c'.store) : Acted ch a c f (putContact a f c') := by
  have hlookup : ∀ b, (f.contacts.insert a c').lookup b =
      if b = a then some c' else f.contacts.lookup b := fun b => lookup_insert _ _ _ _
  refine ⟨hstore, rfl, fun c'' hc'' => ?_, fun b hb => (hlookup b).trans (if_neg hb)⟩
  change (f.contacts.insert a c').lookup a = some c'' at hc''
  rw [hlookup, if_pos rfl] at hc''
  cases hc''
  exact ⟨haddr, hrx⟩

theorem acted_removed {ch : Option (PduAddress × Int)} {a : PduAddress} {c : ContactManager}
    {s t u : ContactFactory} (h : Acted ch a c s t) (hstore : u.store = t.store)
    (hstarting : u.contactsStarting = t.contactsStarting)
    (hcontacts : u.contacts = t.contacts.erase a) : Acted ch a c s u := by
  refine ⟨by rw [hstore]; exact h.store, hstarting.trans h.starting, fun c' hc' => ?_,
    fun b hb => ?_⟩
  · rw [hcontacts, lookup_erase, if_pos rfl] at hc'
    cases hc'
  · rw [hcontacts, lookup_erase, if_neg hb]
    exact h.others b hb

theorem wp_letContact {ch : Option (PduAddress × Int)} {f : ContactFactory} (a : PduAddress)
    {c : ContactManager} {p : ContactM Unit}
    (h : wp p (fun _ t => t.addr = c.addr ∧ t.rx = c.rx ∧ Kept ch f.store t.store)
      (fun _ t => t.addr = c.addr ∧ t.rx = c.rx ∧ Kept ch f.store t.store) (sharing f c)) :
    wp (letContact a c p) (fun _ t => Acted ch a c f t) (fun _ t => Acted ch a c f t) f := by
  rw [letContact, wp_bind]
  refine wp_attempt ?_ ?_
  · rw [wp_zoom]
    apply wp_mono h (fun _ c' hc' => acted_putContact a hc'.1 hc'.2.1 hc'.2.2)
    intro _ c' hc' _
    rw [wp_bind, noteFailure, wp_modify, wp_modify]
    exact acted_removed (acted_putContact a hc'.1 hc'.2.1 hc'.2.2) rfl rfl rfl
  · rw [wp_zoom]
    refine wp_mono h (fun _ _ _ => trivial) fun _ c' hc' _ _ => ?_
    exact acted_putContact a hc'.1 hc'.2.1 hc'.2.2

/-- A contact has done something, of whose commands only those that are left are due. -/
theorem Dutiful.acted (hkeys : KeysRead) {ch : Option (PduAddress × Int)} {a : PduAddress}
    {c c₀ : ContactManager} {f t : ContactFactory} (h : Dutiful f) (ht : Acted ch a c f t)
    (hct : f.contacts.lookup a = some c₀) (haddr : c.addr = c₀.addr)
    (hrx : ∀ cmd ∈ c.rx, cmd ∈ c₀.rx)
    (hch : ∀ b src, ch = some (b, src) → b = a ∧ ∀ cmd ∈ c.rx, ¬ Late (some src) cmd) :
    Dutiful t := by
  have hknown : Present f a := .inr (by rw [hct]; rfl)
  refine ⟨ht.store.keyed h.keyed, fun b hb => ?_, fun b c' hc' => ?_, fun b c' hc' cmd hcmd => ?_⟩
  · by_cases heq : b = a
    · exact heq ▸ h.readsBack a hknown
    · apply h.readsBack b
      rw [Present, ← ht.starting, ← ht.others b heq]
      exact hb
  · by_cases heq : b = a
    · subst heq
      exact ((ht.contact c' hc').1.trans haddr).trans (h.address b c₀ hct)
    · exact h.address b c' ((ht.others b heq).symm.trans hc')
  · by_cases heq : b = a
    · subst heq
      rw [(ht.contact c' hc').2] at hcmd
      refine Due.kept (h.due b c₀ hct cmd (hrx cmd hcmd)) ht.store fun d src hd _ => ?_
      exact (hch d src hd).2 cmd hcmd
    · have hold := (ht.others b heq).symm.trans hc'
      refine Due.kept (h.due b c' hold cmd hcmd) ht.store fun d src hd hnum => ?_
      -- the number of the one contact is not that of another
      obtain ⟨rfl, -⟩ := hch d src hd
      have hback : ReadsBack b := h.readsBack b (.inr (by rw [hold]; rfl))
      exact absurd (hkeys.eq hback hnum) heq

theorem leaves_kept : Leaves (Kept none) where
  tick := kept_tick
  mode a wa := moves_execute kept_tick fun st => kept_rowChanged st a
    (fun r => { r with whatsapp := wa }) (fun _ => rfl) (fun _ => rfl) fun _ => .inl ⟨rfl, rfl⟩
  delete _ := moves_checked kept_tick fun _ => kept_of_eq rfl

/-- The change that a command of a contact makes in the database. -/
def changeBy (a : PduAddress) (cmd : ContactManagerCommand) : Option (PduAddress × Int) :=
  (nickSource cmd).map fun src => (a, src)

/-- A contact carries out a command, and stores the nick that it brings if it brings one. -/
theorem wp_handleIntRx (cmd : ContactManagerCommand) (c : ContactManager) :
    wp (handleIntRx cmd)
      (fun _ t => t.addr = c.addr ∧ t.rx = c.rx ∧ Kept (changeBy c.addr cmd) c.store t.store)
      (fun _ t => t.addr = c.addr ∧ t.rx = c.rx ∧ Kept (changeBy c.addr cmd) c.store t.store)
      c := by
  have hquiet : (∀ nick src, cmd ≠ .changeNick nick src) → wp (handleIntRx cmd)
      (fun _ t => t.addr = c.addr ∧ t.rx = c.rx ∧ Kept (changeBy c.addr cmd) c.store t.store)
      (fun _ t => t.addr = c.addr ∧ t.rx = c.rx ∧ Kept (changeBy c.addr cmd) c.store t.store)
      c := by
    intro hno
    refine wp_mono (leaves_kept.handleIntRx (fun nick src heq => absurd heq (hno nick src)) c) ?_ ?_
    · exact fun _ t ht => ⟨ht.1, ht.2.1, ht.2.2.weaken⟩
    · exact fun _ t ht => ⟨ht.1.1, ht.1.2.1, ht.1.2.2.weaken⟩
  cases cmd with
  | changeNick nick src =>
      change wp (changeNick nick src) _ _ c
      rw [changeNick, wp_bind, wp_get, wp_bind, store, wp_zoom]
      refine wp_mono (kept_updateRecipientNick c.addr nick src c.store) ?_ ?_
      · intro _ st hst
        refine wp_mono (stored_call (S := Kept none) _ _) ?_ ?_
        · exact fun _ t ht => ⟨ht.1, ht.2.1, hst.then ht.2.2⟩
        · exact fun _ t ht => ⟨ht.1.1, ht.1.2.1, hst.then ht.1.2.2⟩
      · exact fun _ st hst => ⟨rfl, rfl, hst.1⟩
  | _ => exact hquiet (by rintro _ _ ⟨⟩)

theorem dutiful_serve (hkeys : KeysRead) {f : ContactFactory} (h : Dutiful f) (a : PduAddress)
    (hin : ∀ cmd ∈ (commandsOf f a).tail, ¬ Late ((commandsOf f a).head?.bind nickSource) cmd) :
    wp (ContactTurn.serve a).run
      (fun _ t => Dutiful t ∧ ∃ ch, Kept ch f.store t.store ∧
        ∀ b src, ch = some (b, src) → b = a ∧
          ∃ nick rest, commandsOf f a = .changeNick nick src :: rest)
      (fun _ t => ∃ ch, Kept ch f.store t.store ∧
        ∀ b src, ch = some (b, src) → b = a ∧
          ∃ nick rest, commandsOf f a = .changeNick nick src :: rest) f := by
  have hidle : ∃ ch, Kept ch f.store f.store ∧ ∀ b src, ch = some (b, src) → b = a ∧
      ∃ nick rest, commandsOf f a = .changeNick nick src :: rest := ⟨none, refl _, nofun⟩
  rw [ContactTurn.run, wp_bind, wp_get]
  cases hct : f.contacts.lookup a with
  | none => exact ⟨h, hidle⟩
  | some c =>
      have hcommands : commandsOf f a = c.rx := by rw [commandsOf, hct]
      rw [hcommands] at hin hidle ⊢
      dsimp only
      cases hrx : c.rx with
      | nil => exact ⟨h, hrx ▸ hidle⟩
      | cons cmd rest =>
          rw [hrx] at hin
          have haddr : c.addr = a := h.address a c hct
          have hch : ∀ b src, changeBy c.addr cmd = some (b, src) →
              b = a ∧ nickSource cmd = some src := by
            intro b src hb
            obtain ⟨src', hsrc, hpair⟩ := Option.map_eq_some_iff.mp hb
            cases hpair
            exact ⟨haddr, hsrc⟩
          have hnick : ∀ b src, changeBy c.addr cmd = some (b, src) → b = a ∧
              ∃ nick rest', cmd :: rest = .changeNick nick src :: rest' := by
            intro b src hb
            obtain ⟨heq, hsrc⟩ := hch b src hb
            cases cmd <;> cases hsrc
            exact ⟨heq, _, rest, rfl⟩
          have hserved : wp (letContact a { c with rx := rest } (handleIntRx cmd))
              (fun _ t => Acted (changeBy c.addr cmd) a { c with rx := rest } f t)
              (fun _ t => Acted (changeBy c.addr cmd) a { c with rx := rest } f t) f :=
            wp_letContact a (wp_handleIntRx cmd _)
          refine wp_mono hserved ?_ ?_
          · refine fun _ t ht => ⟨?_, _, ht.store, hnick⟩
            apply h.acted hkeys ht hct rfl (fun _ hcmd => hrx ▸ List.mem_cons_of_mem cmd hcmd)
            intro b src hb
            obtain ⟨heq, hsrc⟩ := hch b src hb
            refine ⟨heq, fun cmd' hcmd' => ?_⟩
            have hcurrent := hin cmd' hcmd'
            rw [List.head?_cons, Option.bind_some, hsrc] at hcurrent
            exact hcurrent
          · exact fun _ t ht => ⟨_, ht.store, hnick⟩

theorem dutiful_hear (hkeys : KeysRead) {f : ContactFactory} (h : Dutiful f) (a : PduAddress)
    (item : StreamItem) :
    wp (ContactTurn.hear a item).run (fun _ t => Dutiful t ∧ Kept none f.store t.store)
      (fun _ t => Kept none f.store t.store) f := by
  rw [ContactTurn.run, wp_bind, wp_get]
  cases hct : f.contacts.lookup a with
  | none => exact ⟨h, refl _⟩
  | some c =>
      have hread : wp (letContact a c (readItem item)) (fun _ t => Acted none a c f t)
          (fun _ t => Acted none a c f t) f :=
        wp_letContact a (wp_mono (leaves_kept.readItem item (sharing f c)) (fun _ _ ht => ht)
          fun _ _ ht => ht.1)
      refine wp_mono hread ?_ fun _ _ ht => ht.store
      exact fun _ t ht => ⟨h.acted hkeys ht hct rfl (fun _ hcmd => hcmd) nofun, ht.store⟩

/-- A nick may be stored for an address, as far as the stored one and the commands that wait
are concerned. -/
structure Allowed (queue : List ContactFactoryCommand) (cause : Option Int) (st : Store)
    (a : PduAddress) (src : Int) : Prop where
  stored : ∀ r ∈ st.recipients.rows, r.phoneNumber = normalizeAddress a →
    (Settled r.nicksrc → cause = some nicksrcUser) ∧
      (r.nicksrc = nicksrcWaContact → cause ≠ some nicksrcWaNotify ∧ cause ≠ some nicksrcAuto)
  waiting : ∀ d ∈ queue, ¬ Outdated (some (a, src)) d

/-- Nothing but nicks that may be stored has been stored. -/
def Stores (queue : List ContactFactoryCommand) (cause : Option Int) (st st' : Store) : Prop :=
  ∃ ch, Kept ch st st' ∧ ∀ a src, ch = some (a, src) → Allowed queue cause st a src

theorem stores_of_kept {queue : List ContactFactoryCommand} {cause : Option Int} {st st' : Store}
    (h : Kept none st st') : Stores queue cause st st' := ⟨none, h, nofun⟩

theorem ordered_performed {s : System ContactFactory} {queue : List ContactFactoryCommand}
    {cause : Option Int} {p : FactoryM Unit} (hgenuine : Genuine queue)
    (howed : ∀ c ∈ queue, Owed (fun _ => True) s.side.store c)
    (h : wp p (fun _ t => Dutiful t ∧ Stores queue cause s.side.store t.store)
      (fun _ t => Stores queue cause s.side.store t.store) s.side) :
    FactoryOrdered (perform { s with queue := queue } p) ∧
      Respected s.side.store (exec p s.side).2.store cause := by
  have hrespected : ∀ {t : Store}, Stores queue cause s.side.store t →
      Respected s.side.store t cause := by
    rintro t ⟨ch, hkept, hallowed⟩
    exact respected_of_kept hkept fun a src hch => (hallowed a src hch).stored
  unfold wp at h
  unfold perform
  dsimp only
  rcases hexec : exec p s.side with ⟨e | _, t⟩
  · rw [hexec] at h
    exact ⟨⟨hgenuine, nofun, nofun⟩, hrespected h⟩
  · rw [hexec] at h
    obtain ⟨ht, hstores⟩ := h
    refine ⟨⟨hgenuine, fun _ => ht, fun _ c hc => ?_⟩, hrespected hstores⟩
    obtain ⟨ch, hkept, hallowed⟩ := hstores
    refine (howed c hc).kept hkept (fun _ _ => trivial) ?_ fun _ _ _ _ _ _ => trivial
    rintro a nick src b new rfl hch hnum
    exact mayReplace_of_not_outdated ((hallowed b new hch).waiting _ hc) hnum

theorem respected_contactTurn (hkeys : KeysRead) {s : System ContactFactory} (h : FactoryOrdered s)
    (hup : s.outcome = none) (turn : ContactTurn) (hin : FactoryInOrder s (.own turn)) :
    wp turn.run
      (fun _ t => Dutiful t ∧ Stores s.queue (factoryCause s (.own turn)) s.side.store t.store)
      (fun _ t => Stores s.queue (factoryCause s (.own turn)) s.side.store t.store) s.side := by
  have hdutiful := h.dutiful hup
  have hmoves : ∀ {cause : Option Int} {p : FactoryM Unit}, Moves (Passes none) p →
      wp p (fun _ t => Dutiful t ∧ Stores s.queue cause s.side.store t.store)
        (fun _ t => Stores s.queue cause s.side.store t.store) s.side := fun hp =>
    wp_mono (hp s.side) (fun _ _ ht => ⟨hdutiful.passes ht nofun, stores_of_kept ht.store⟩)
      fun _ _ ht => stores_of_kept ht.1.store
  cases turn with
  | attempts answers => exact hmoves (passes_pollStarting answers)
  | retry => exact hmoves passes_processFailures
  | hear a item =>
      exact wp_mono (dutiful_hear hkeys hdutiful a item)
        (fun _ _ ht => ⟨ht.1, stores_of_kept ht.2⟩) fun _ _ ht => stores_of_kept ht
  | serve a =>
      have hstores : ∀ {t : ContactFactory}, (∃ ch, Kept ch s.side.store t.store ∧
          ∀ b src, ch = some (b, src) → b = a ∧
            ∃ nick rest, commandsOf s.side a = .changeNick nick src :: rest) →
          Stores s.queue (factoryCause s (.own (.serve a))) s.side.store t.store := by
        rintro t ⟨ch, hkept, hch⟩
        refine ⟨ch, hkept, fun b src hb => ?_⟩
        obtain ⟨rfl, nick, rest, hcommands⟩ := hch b src hb
        have hcause : factoryCause s (.own (.serve b)) = some src := by
          rw [factoryCause, hcommands]
          rfl
        refine ⟨fun r hr hnum => ?_, fun d hd => ?_⟩
        · rw [hcause]
          have hdue : Due s.side.store b (.changeNick nick src) := by
            cases hct : s.side.contacts.lookup b with
            | none =>
                rw [commandsOf, hct] at hcommands
                cases hcommands
            | some c =>
                rw [commandsOf, hct] at hcommands
                apply hdutiful.due b c hct _
                rw [show c.rx = _ from hcommands]
                exact List.mem_cons_self
          rcases hdue with rfl | hrow
          · exact ⟨fun _ => rfl, fun _ => ⟨fun heq => absurd (Option.some.inj heq) (by decide),
              fun heq => absurd (Option.some.inj heq) (by decide)⟩⟩
          · obtain ⟨hsettled, hcontact⟩ := of_rowWith hdutiful.keyed hrow hr hnum
            refine ⟨fun hs => absurd hs hsettled, fun hs => ?_⟩
            exact ⟨fun heq => (hcontact hs).1 (Option.some.inj heq),
              fun heq => (hcontact hs).2 (Option.some.inj heq)⟩
        · have hcurrent := hin.1 d hd
          rw [hcommands] at hcurrent
          exact hcurrent
      exact wp_mono (dutiful_serve hkeys hdutiful a hin.2)
        (fun _ _ ht => ⟨ht.1, hstores ht.2⟩) fun _ _ ht => hstores ht

theorem ordered_factoryNext (hkeys : KeysRead) {s t : System ContactFactory}
    {e : Event ContactTurn} (h : FactoryOrdered s) (hin : FactoryInOrder s e)
    (ht : factoryNext s e = some t) :
    FactoryOrdered t ∧ Respected s.side.store t.side.store (factoryCause s e) ∧
      Genuine t.queue := by
  have hup : s.outcome = none := by
    unfold factoryNext NickQueues.next at ht
    split at ht
    · assumption
    · cases ht
  rw [factoryNext, NickQueues.next, hup] at ht
  suffices hstep : FactoryOrdered t ∧
      Respected s.side.store t.side.store (factoryCause s e) from
    ⟨hstep.1, hstep.2, hstep.1.genuine⟩
  cases e with
  | contact ct =>
      cases ht
      obtain ⟨hkept, cs, hqueue, hasked⟩ := tell_asks hkeys (fun _ _ => rfl) s ct
      refine ⟨⟨?_, fun _ => ?_, fun _ c hc => ?_⟩, respected_of_kept hkept (by rintro _ _ ⟨⟩)⟩
      · rw [hqueue]
        exact genuine_append h.genuine (genuine_of_asked hasked)
      · exact (h.dutiful hup).passes (passes_of_same hkept (fun _ ha => ha) rfl) (by rintro _ _ ⟨⟩)
      · rw [hqueue] at hc
        rcases List.mem_append.mp hc with hc | hc
        · exact (h.owed hup c hc).kept_of_same hkept fun _ ha => ha
        · exact .of_asked (hasked c hc)
  | rename nick new =>
      cases ht
      have hsame : Kept none s.side.store s.side.store := refl _
      refine ⟨⟨?_, h.dutiful, fun _ c hc => ?_⟩, respected_of_kept hsame (by rintro _ _ ⟨⟩)⟩
      · refine genuine_append h.genuine fun a nick hmem => ?_
        cases List.mem_singleton.mp hmem
      · rcases List.mem_append.mp hc with hc | hc
        · exact h.owed hup c hc
        · cases List.mem_singleton.mp hc
          exact .rename
  | receive =>
      cases hqueue : s.queue with
      | nil =>
          rw [NickQueues.step, hqueue] at ht
          cases ht
      | cons c rest =>
          rw [NickQueues.step, hqueue] at ht
          cases ht
          have howed := h.owed hup
          have hgenuine := h.genuine
          rw [hqueue] at howed hgenuine
          refine ordered_performed
            (fun a nick hmem => hgenuine a nick (List.mem_cons_of_mem c hmem))
            (fun d hd => howed d (List.mem_cons_of_mem c hd)) ?_
          exact wp_mono (dutiful_handleCommand (h.dutiful hup) (howed c List.mem_cons_self))
            (fun _ _ ht => ⟨ht.1, stores_of_kept ht.2⟩) fun _ _ ht => stores_of_kept ht
  | own turn =>
      cases ht
      exact ordered_performed h.genuine (h.owed hup) (respected_contactTurn hkeys h hup turn hin)

/-- The WhatsApp side beside a link that a run has led to, which waits for nothing yet. -/
def LinkStart (s : System InspLink) : Prop :=
  s.queue = [] ∧ s.outcome = none ∧ ∃ cfg st now es, Written st ∧
    run LinkRuns.next (LinkRuns.initial cfg st now) es = some ⟨s.side, none⟩

/-- The same with a new factory, which has told itself to load the recipients. -/
def FactoryStart (s : System ContactFactory) : Prop :=
  s.queue = [.loadRecipients] ∧ s.outcome = none ∧ ∃ cfg st now, Written st ∧
    s.side = ContactFactory.new cfg st now

theorem ordered_linkStart (hkeys : KeysRead) {s : System InspLink} (h : LinkStart s) :
    Ordered s := by
  obtain ⟨hqueue, -, cfg, st, now, es, hst, hrun⟩ := h
  refine ⟨?_, fun _ => readable_of_run hkeys hst hrun, fun _ => ?_⟩ <;> rw [hqueue]
  · exact nofun
  · exact nofun

theorem ordered_factoryStart (hkeys : KeysRead) {s : System ContactFactory} (h : FactoryStart s) :
    FactoryOrdered s := by
  obtain ⟨hqueue, -, cfg, st, now, hst, hside⟩ := h
  refine ⟨?_, fun _ => ?_, fun _ => ?_⟩
  · rw [hqueue]
    intro a nick hmem
    cases List.mem_singleton.mp hmem
  · rw [hside]
    refine ⟨hst.keyed hkeys, fun a ha => ?_, fun a c hc => ?_, fun a c hc => ?_⟩
    · rcases ha with ha | ha <;> cases ha
    · cases hc
    · cases hc
  · rw [hqueue]
    intro c hc
    rw [List.mem_singleton.mp hc]
    exact .load

/-- In every interleaving whose events store no nick that an automatic change waits for which
must not replace it, only a RENAME replaces a nick of the user or of a collision, and no
automatic change of lesser rank one of the address book. -/
theorem renames_win (hcodes : CodesRead) :
    (∀ s es, LinkStart s → AllSteps linkNext LinkInOrder s es →
      AllSteps linkNext LinkRespects s es) ∧
    ∀ s es, FactoryStart s → AllSteps factoryNext FactoryInOrder s es →
      AllSteps factoryNext FactoryRespects s es := by
  have hkeys := hcodes.keysRead
  constructor
  · intro s es hs hin
    refine hin.imp (I := Ordered) (fun _ _ _ hC h ht => (ordered_linkNext hkeys h hC ht).1) ?_
      (ordered_linkStart hkeys hs)
    exact fun _ _ hC h t ht => (ordered_linkNext hkeys h hC ht).2
  · intro s es hs hin
    refine hin.imp (I := FactoryOrdered)
      (fun _ _ _ hC h ht => (ordered_factoryNext hkeys h hC ht).1) ?_
      (ordered_factoryStart hkeys hs)
    exact fun _ _ hC h t ht => (ordered_factoryNext hkeys h hC ht).2

end Contacts

section Samples

attribute [local instance] Sample.crates

/-- An entry of the address book, for the number of the only recipient. -/
def entry : WaContact := ⟨⟨("44123" : Str), false⟩, some ("alice" : Str), none⟩

def linkSystem : System InspLink := ⟨WhatsappRuns.sampleManager, befriended.link, [], none⟩

theorem session_eq {s : LinkRuns.Session} (h : s.outcome = none) : s = ⟨s.link, none⟩ := by
  rw [← h]

theorem linkStart_linkSystem : LinkStart linkSystem := by
  have hrun : run LinkRuns.next LinkRuns.sampleStart befriending = some befriended :=
    (Option.some_get _).symm
  have hlink : befriended = ⟨befriended.link, none⟩ := session_eq (by decide +kernel)
  have hside : linkSystem.side = befriended.link := by rw [linkSystem]
  refine ⟨rfl, rfl, LinkRuns.sampleConfig, Sample.store, 0, befriending, ?_, ?_⟩
  · exact ⟨List.nodup_nil, fun r hr => by cases hr⟩
  · rw [hside, ← hlink]
    exact hrun

def factorySystem : System ContactFactory :=
  ⟨WhatsappRuns.sampleManager, .new FactoryKeeping.sampleConfig Sample.store 0,
    [.loadRecipients], none⟩

theorem factoryStart_factorySystem : FactoryStart factorySystem :=
  ⟨rfl, rfl, FactoryKeeping.sampleConfig, Sample.store, 0,
    ⟨List.nodup_nil, fun r hr => by cases hr⟩, rfl⟩

/-- The entry is there at first, and the ghost is renamed when this has been dealt with. -/
def settling : List (Event Empty) :=
  [.contact entry, .receive, .rename ("alice" : Str) ['u'], .receive, .contact entry]

/-- The recipient is created; then somebody is found for it. -/
def connecting : List (Event ContactTurn) :=
  [.receive, .contact ⟨entry.jid, none, some ("al" : Str)⟩, .receive,
    .own (.attempts fun _ => .ready ("al" : Str) fun _ => none)]

def contactSettling : List (Event ContactTurn) :=
  connecting ++ [.contact entry, .receive, .own (.serve Sample.alice),
    .rename ("al" : Str) ['u'], .receive, .own (.serve Sample.alice), .contact entry]

theorem renames_win_settling : AllSteps linkNext LinkRespects linkSystem settling ∧
    AllSteps factoryNext FactoryRespects factorySystem contactSettling :=
  ⟨(renames_win codesRead).1 _ _ linkStart_linkSystem (by decide +kernel),
    (renames_win codesRead).2 _ _ factoryStart_factorySystem (by decide +kernel)⟩

/-- The entry is noticed before the RENAME has been received. -/
def overruling : List (Event Empty) := [.rename ['a'] ['u'], .contact entry, .receive, .receive]

def contactOverruling : List (Event ContactTurn) :=
  connecting ++ [.rename ("al" : Str) ['u'], .contact entry, .receive, .receive,
    .own (.serve Sample.alice), .own (.serve Sample.alice)]

theorem not_respected {st st' : Store} {cause : Option Int} (hcause : cause ≠ some nicksrcUser)
    (h : ∃ r ∈ st.recipients.rows, ∃ r' ∈ st'.recipients.rows,
      r'.id = r.id ∧ r.nicksrc = nicksrcUser ∧ r'.nicksrc ≠ r.nicksrc) :
    ¬ Respected st st' cause := by
  obtain ⟨r, hr, r', hr', hid, hsrc, hchanged⟩ := h
  intro hno
  exact hcause ((hno r hr r' hr' hid (.inr hchanged)).1 (.inl hsrc))

def renamed : System InspLink :=
  (run linkNext linkSystem (overruling.take 3)).get (by decide +kernel)

def overruled : System InspLink := (linkNext renamed .receive).get (by decide +kernel)

def contactRenamed : System ContactFactory :=
  (run factoryNext factorySystem (contactOverruling.take 9)).get (by decide +kernel)

def contactOverruled : System ContactFactory :=
  (factoryNext contactRenamed (.own (.serve Sample.alice))).get (by decide +kernel)

theorem rename_overruled : ¬ (∀ s es, LinkStart s → AllSteps linkNext LinkRespects s es) ∧
    ¬ ∀ s es, FactoryStart s → AllSteps factoryNext FactoryRespects s es := by
  constructor
  · intro h
    have hsteps : AllSteps linkNext LinkRespects linkSystem (overruling.take 3 ++ [.receive]) :=
      h linkSystem _ linkStart_linkSystem
    obtain ⟨-, hlast⟩ := hsteps.append (Option.some_get _).symm
    have hnext : linkNext renamed .receive = some overruled := (Option.some_get _).symm
    exact absurd (hlast.1 _ hnext).1 (not_respected (by decide +kernel) (by decide +kernel))
  · intro h
    have hsteps : AllSteps factoryNext FactoryRespects factorySystem
        (contactOverruling.take 9 ++ [.own (.serve Sample.alice)]) :=
      h factorySystem _ factoryStart_factorySystem
    obtain ⟨-, hlast⟩ := hsteps.append (Option.some_get _).symm
    have hnext : factoryNext contactRenamed (.own (.serve Sample.alice)) = some contactOverruled :=
      (Option.some_get _).symm
    exact absurd (hlast.1 _ hnext).1 (not_respected (by decide +kernel) (by decide +kernel))

end Samples

end SmsIrc.ContactNicks
