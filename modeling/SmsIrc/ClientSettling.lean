import SmsIrc.ClientViews
import SmsIrc.ContactSessions
import SmsIrc.Settling

/-!
Contacts with connections of their own, in a run of the whole program: where they are, against
the groups of the database, and what they say of their presence, against what the factory has
noted.
-/

namespace SmsIrc.ClientSettling

open SmsIrc.Attendance SmsIrc.ClientMain SmsIrc.Comm SmsIrc.Contact SmsIrc.ContactSessions
open SmsIrc.Database SmsIrc.External SmsIrc.Factory
open SmsIrc.FactoryFrame (Beside Joined moves_byNick wp_pollContacts_of wp_pollStarting_of)
open SmsIrc.FactoryKeeping (Kept droppedFrom wp_dropContact)
open SmsIrc.FactoryRuns (Leaves Turn factory_of_next step_of_next)
open SmsIrc.HashMaps SmsIrc.LinkAgreement SmsIrc.LinkChannels SmsIrc.LinkEffects
open SmsIrc.LinkGhosts SmsIrc.LinkSettled
open SmsIrc.Main (World)
open SmsIrc.MainViews (LinkOther modem_of_uses whatsapp_of_uses modem_linkOther
  whatsapp_linkOther)
open SmsIrc.Models SmsIrc.Program SmsIrc.SenderCommon
open SmsIrc.Settling (modemUses_sameMembers regroups_next rowsKept_of_linkOther)
open SmsIrc.Text SmsIrc.Transition SmsIrc.Util

section Contacts

variable [Crates]

theorem leaves_keeps : Leaves Keeps where
  tick := keeps_tick
  mode a wa := keeps_updateRecipient a (fun r => { r with whatsapp := wa }) _ fun _ => rfl
  delete id := keeps_deleteMessage id

/-- A contact is in the channels of its groups unless a command to go there is on its way,
to it or (if `told` holds) to the factory; and it says of its presence, or has been told to,
what the factory has noted. -/
structure Fits (told : Prop) (pres : Option Str) (st : Store) (a : PduAddress)
    (c : ContactManager) : Prop where
  addr : c.addr = a
  faithful : Faithful c
  settled : told ∨ .processGroups ∈ c.rx ∨
    (ReadsBack a → c.connected = true → Current st a c.channels)
  presence : awayAfter c.rx c.presence = pres

theorem Fits.kept {told : Prop} {pres : Option Str} {st st' : Store} {a : PduAddress}
    {c : ContactManager} (h : Fits told pres st a c) (hst : Keeps st st') :
    Fits told pres st' a c :=
  ⟨h.addr, h.faithful, h.settled.imp_right fun hs => hs.imp_right fun hs ha hc =>
    (hs ha hc).kept hst, h.presence⟩

theorem Fits.imp {told told' : Prop} {pres : Option Str} {st : Store} {a : PduAddress}
    {c : ContactManager} (h : Fits told pres st a c) (htold : told → told') :
    Fits told' pres st a c := ⟨h.addr, h.faithful, h.settled.imp_left htold, h.presence⟩

/-- Where the factory is told to go through the groups, the database does not matter. -/
theorem Fits.told {told told' : Prop} {pres : Option Str} {st : Store} {a : PduAddress}
    {c : ContactManager} (h : Fits told pres st a c) (htold : told') (st' : Store) :
    Fits told' pres st' a c := ⟨h.addr, h.faithful, .inl htold, h.presence⟩

theorem Fits.command {told : Prop} {pres : Option Str} {st : Store} {a : PduAddress}
    {c : ContactManager} (h : Fits told pres st a c) (cmd : ContactManagerCommand) :
    Fits told (awayAfter [cmd] pres) st a (addCommand c cmd) := by
  refine ⟨h.addr, ⟨h.faithful.idle, h.faithful.channels, h.faithful.presence⟩, ?_, ?_⟩
  · exact h.settled.imp_right fun hs => hs.imp_left fun hmem => List.mem_append_left _ hmem
  · change awayAfter (c.rx ++ [cmd]) c.presence = _
    rw [awayAfter_append, h.presence]

theorem Fits.regroup {told told' : Prop} {pres : Option Str} {st : Store} {a : PduAddress}
    {c : ContactManager} (h : Fits told pres st a c) :
    Fits told' pres st a (addCommand c .processGroups) :=
  ⟨h.addr, ⟨h.faithful.idle, h.faithful.channels, h.faithful.presence⟩,
    .inr (.inl (List.mem_append_right _ (List.mem_singleton_self _))),
    (h.command .processGroups).presence⟩

theorem fits_poll {told : Prop} {pres : Option Str} {f : ContactFactory} {a : PduAddress}
    {c : ContactManager} (h : Fits told pres f.store a c) (i : Activity) :
    wp (Contact.poll i) (fun _ t => Fits told pres t.store a t ∧ Keeps f.store t.store)
      (fun _ t => Keeps f.store t.store) (sharing f c) := by
  have hkeeps : wp (Contact.poll i) (fun _ t => Keeps f.store t.store)
      (fun _ t => Keeps f.store t.store) (sharing f c) :=
    leaves_keeps.poll i fun nick src _ a =>
      keeps_updateRecipient a (fun r => { r with nick := nick, nicksrc := src }) _ fun _ => rfl
  refine wp_mono (wp_and (polled_poll i (sharing f c)) hkeeps) ?_ fun _ t ht => ht.2
  rintro _ t ⟨ht, hst⟩
  refine ⟨⟨ht.addr.trans h.addr, ?_, ?_, ?_⟩, hst⟩
  · exact ht.faithful ⟨h.faithful.idle, h.faithful.channels, h.faithful.presence⟩
  · refine h.settled.imp_right fun hs => .inr ?_
    have hsettled : Settled t := by
      refine ht.settled (hs.symm.imp (fun hs => ?_) fun hmem => hmem)
      change ReadsBack c.addr → c.connected = true → Current f.store c.addr c.channels
      rwa [h.addr]
    rw [Settled, ht.addr.trans h.addr] at hsettled
    exact hsettled
  · rw [ht.rx]
    exact ht.presence.trans h.presence

end Contacts

section Factory

variable [Crates]

/-- What the factory has noted of the presence of a contact. -/
def presenceOf (f : ContactFactory) (a : PduAddress) : Option Str :=
  (f.contactsPresence.lookup a).join

/-- All contacts are like that. -/
def AllFit (told : Prop) (f : ContactFactory) : Prop :=
  ∀ a c, f.contacts.lookup a = some c → Fits told (presenceOf f a) f.store a c

/-- A step of the factory that keeps them so. -/
def KeepsFit (told : Prop) (s t : ContactFactory) : Prop := AllFit told s → AllFit told t

instance isPreorder_keepsFit (told : Prop) : IsPreorder ContactFactory (KeepsFit told) where
  refl _ hs := hs
  trans _ _ _ hst htu hs := htu (hst hs)

variable {told : Prop}

theorem keepsFit_of_eq {s t : ContactFactory} (hcontacts : t.contacts = s.contacts)
    (hpresence : t.contactsPresence = s.contactsPresence) (hst : Keeps s.store t.store) :
    KeepsFit told s t := by
  intro hs a c hc
  rw [hcontacts] at hc
  rw [presenceOf, hpresence]
  exact (hs a c hc).kept hst

theorem keepsFit_modify {f : ContactFactory → ContactFactory}
    (hf : ∀ s, (f s).contacts = s.contacts ∧ (f s).contactsPresence = s.contactsPresence ∧
      (f s).store = s.store) : Moves (KeepsFit told) (modify f : FactoryM PUnit) := by
  refine steps_modify fun s => ?_
  obtain ⟨hcontacts, hpresence, hst⟩ := hf s
  exact keepsFit_of_eq hcontacts hpresence (hst ▸ refl _)

theorem allFit_command {s t : ContactFactory} (hs : AllFit told s) {a : PduAddress}
    (cmd : ContactManagerCommand)
    (hcontacts : ∀ b c, t.contacts.lookup b = some c →
      b = a ∧ (∃ c', s.contacts.lookup a = some c' ∧ c = addCommand c' cmd) ∨
        b ≠ a ∧ s.contacts.lookup b = some c)
    (hpresence : ∀ b, presenceOf t b =
      if b = a then awayAfter [cmd] (presenceOf s a) else presenceOf s b)
    (hst : t.store = s.store) : AllFit told t := by
  intro b c hc
  rw [hst, hpresence]
  rcases hcontacts b c hc with ⟨rfl, c', hc', rfl⟩ | ⟨hne, hc'⟩
  · rw [if_pos rfl]
    exact (hs _ c' hc').command cmd
  · rw [if_neg hne]
    exact hs b c hc'

theorem lookup_commanded {s : ContactFactory} {a b : PduAddress} {c c' : ContactManager}
    {cmd : ContactManagerCommand} (hc' : s.contacts.lookup a = some c')
    (hc : (s.contacts.insert a (addCommand c' cmd)).lookup b = some c) :
    b = a ∧ (∃ c', s.contacts.lookup a = some c' ∧ c = addCommand c' cmd) ∨
      b ≠ a ∧ s.contacts.lookup b = some c := by
  rw [lookup_insert] at hc
  split at hc
  · cases hc
    exact .inl ⟨by assumption, c', hc', rfl⟩
  · exact .inr ⟨by assumption, hc⟩

theorem keepsFit_addCommandTo (a : PduAddress) {cmd : ContactManagerCommand}
    (hcmd : ∀ text, cmd ≠ .updateAway text) : Moves (KeepsFit told) (addCommandTo a cmd) := by
  have haway : ∀ pres, awayAfter [cmd] pres = pres := by
    intro pres
    cases cmd with
    | updateAway text => exact absurd rfl (hcmd text)
    | processMessages => rfl
    | processGroups => rfl
    | changeNick nick src => rfl
    | setWhatsapp wam => rfl
  refine steps_modify fun s hs => ?_
  cases hc' : s.contacts.lookup a with
  | none => exact hs
  | some c' =>
      refine allFit_command hs cmd (fun b c hc => lookup_commanded hc' hc) (fun b => ?_) rfl
      change presenceOf s b = _
      rw [haway]
      split
      · rename_i heq
        rw [heq]
      · rfl

/-- The presence of a contact is noted for when it connects, and sent to it if it has. -/
theorem keepsFit_updateAway (a : PduAddress) (away : Option Str) :
    Moves (KeepsFit told) (Factory.updateAway a away) := by
  intro s
  rw [Factory.updateAway, addCommandTo, wp_bind, wp_modify, wp_modify]
  have hnoted : ∀ b, ((s.contactsPresence.insert a away).lookup b).join =
      if b = a then awayAfter [.updateAway away] (presenceOf s a) else presenceOf s b := by
    intro b
    rw [lookup_insert]
    split
    · rfl
    · rfl
  cases hc' : s.contacts.lookup a with
  | none =>
      intro hs
      refine allFit_command hs (.updateAway away) (fun b c hc => .inr ⟨?_, hc⟩) hnoted rfl
      rintro rfl
      exact absurd (hc'.symm.trans hc) (by simp)
  | some c' =>
      exact fun hs => allFit_command hs (.updateAway away)
        (fun b c hc => lookup_commanded hc' hc) hnoted rfl

/-- All contacts are told to go through the groups: the factory need not be any more. -/
theorem allFit_processGroups {told' : Prop} {s : ContactFactory} (hs : AllFit told s) :
    wp Factory.processGroups (fun _ t => AllFit told' t) (fun _ _ => False) s := by
  rw [Factory.processGroups, wp_modify]
  intro a c hc
  change (mapValues _ s.contacts).lookup a = some c at hc
  rw [lookup_mapValues, Option.map_eq_some_iff] at hc
  obtain ⟨c', hc', rfl⟩ := hc
  exact (hs a c' hc').regroup

/-- The recipients of the other contacts are still there when one is dropped. -/
theorem allFit_droppedFrom (hkeys : ¬ told → KeysRead) {s : ContactFactory} (hs : AllFit told s)
    (a : PduAddress) : AllFit told (droppedFrom s a) := by
  intro b c hc
  change (s.contacts.erase a).lookup b = some c at hc
  rw [lookup_erase] at hc
  split at hc
  · cases hc
  · rename_i hne
    have hb := hs b c hc
    refine ⟨hb.addr, hb.faithful, ?_, hb.presence⟩
    by_cases htold : told
    · exact .inl htold
    · refine hb.settled.imp_right fun h => h.imp_right fun h hread hconn => ?_
      obtain ⟨row, hrow, hchans⟩ := h hread hconn
      refine ⟨row, ⟨List.mem_filter.mpr ⟨hrow.stored, decide_eq_true fun heq => ?_⟩, hrow.number,
        hrow.readsBack⟩, hchans⟩
      exact hne ((hkeys htold).eq hrow.readsBack (hrow.number.symm.trans heq))

theorem keepsFit_dropContact (hkeys : ¬ told → KeysRead) (a : PduAddress) :
    Moves (KeepsFit told) (ContactCommon.dropContact a : FactoryM Unit) := by
  intro s
  refine wp_mono (wp_dropContact s a) ?_ ?_
  · rintro _ t ⟨-, rfl⟩ hs
    exact allFit_droppedFrom hkeys hs a
  · rintro _ t rfl
    exact ⟨keepsFit_of_eq rfl rfl (keeps_tick _), trivial⟩

theorem keepsFit_frame (hkeys : ¬ told → KeysRead) : FactoryFrame.Frame (KeepsFit told) where
  query f := Steps.zoom (moves_query keeps_tick f) fun _ _ hst => keepsFit_of_eq rfl rfl hst
  setupFor _ _ := keepsFit_modify fun _ => ⟨rfl, rfl, rfl⟩
  askModem _ := keepsFit_modify fun _ => ⟨rfl, rfl, rfl⟩
  askWhatsapp _ := keepsFit_modify fun _ => ⟨rfl, rfl, rfl⟩
  subscribe _ := keepsFit_modify fun _ => ⟨rfl, rfl, rfl⟩
  respond _ := keepsFit_modify fun _ => ⟨rfl, rfl, rfl⟩
  command a _ hcmd := keepsFit_addCommandTo a hcmd
  drop := keepsFit_dropContact hkeys
  groups := by
    refine steps_modify fun s hs => ?_
    have h : wp Factory.processGroups (fun _ t => AllFit told t) (fun _ _ => False) s :=
      allFit_processGroups hs
    rwa [Factory.processGroups, wp_modify] at h
  retried _ := keepsFit_of_eq rfl rfl (refl _)

theorem fits_newContact (f : ContactFactory) (recip : Recipient) (a : PduAddress) (nick : Str)
    (refuses : Nat → Option Str) (st : Store) :
    Fits told (presenceOf f a) st a (newContact f recip a nick refuses) := by
  refine ⟨rfl, ⟨fun _ => ⟨rfl, rfl, rfl⟩, fun ch => Iff.rfl, fun h => (by cases h)⟩,
    .inr (.inr fun _ h => (by cases h)), ?_⟩
  rw [presenceOf, newContact]
  cases f.contactsPresence.lookup a with
  | none => rfl
  | some pre => rfl

theorem allFit_turn (hkeys : ¬ told → KeysRead) {s : ContactFactory} (hs : AllFit told s)
    (u : Turn) :
    wp u.run (fun _ t => AllFit told t) (fun _ _ => True) s := by
  have hframe : FactoryFrame.Frame (KeepsFit told) := keepsFit_frame hkeys
  cases u with
  | command c =>
      have hcommand : Moves (KeepsFit told) (Factory.handleCommand c) := by
        refine hframe.handleCommand (fun _ => ?_) fun a text _ => keepsFit_updateAway a text
        exact hframe.processMessages fun _ _ => keepsFit_of_eq rfl rfl (refl _)
      exact wp_mono (hcommand s) (fun _ t ht => ht hs) fun _ _ _ => trivial
  | starting answers =>
      have hnew : ∀ f a recip nick refuses, f.store = s.store →
          f.contactsPresence = s.contactsPresence →
            Fits told (presenceOf s a) s.store a (newContact f recip a nick refuses) := by
        intro f a recip nick refuses _ hpresence
        have h : Fits told (presenceOf f a) s.store a (newContact f recip a nick refuses) :=
          fits_newContact f recip a nick refuses s.store
        rwa [presenceOf, hpresence] at h
      refine wp_mono (wp_pollStarting_of (P := fun st a => Fits told (presenceOf s a) st a) hnew
        hs answers) (fun _ t ht a c hc => ?_) fun _ _ _ => trivial
      rw [presenceOf, ht.presence, ht.store]
      exact ht.good a c hc
  | contacts activity =>
      refine wp_mono (wp_pollContacts_of (P := fun st a => Fits told (presenceOf s a) st a)
        (S := fun _ => Keeps) (T := Keeps) (fun _ hst h => h.kept hst) (fun hst => hst)
        (fun f a c i h => fits_poll h i) hs activity) (fun _ t ht a c hc => ?_)
        fun _ _ _ => trivial
      rw [presenceOf, ht.1.presence]
      exact ht.2 a c hc
  | tick r => exact wp_mono (hframe.onTick r s) (fun _ t ht => ht hs) fun _ _ _ => trivial

end Factory

section Program

variable [Crates]

/-- All contacts of the program fit, with the commands that the factory has not received;
where `anywhere` holds, whatever channels they are in. -/
def Fitting (anywhere : Prop) (s : Parts) : Prop :=
  AllFit (anywhere ∨ .processGroups ∈ s.cfRx) s.factory.factory

variable {anywhere : Prop}

theorem keeps_of_linkOther (hkeys : ¬ anywhere → KeysRead) {st st' : Store}
    (h : LinkOther st st') (hmembers : SameMembers st st') : Keeps st st' ∨ anywhere := by
  by_cases hany : anywhere
  · exact .inr hany
  · exact .inl ⟨hmembers, (rowsKept_of_linkOther (hkeys hany) h).2⟩

/-- The factory goes on with what another part has made of the database, and has been sent. -/
theorem fitting_now {s t : Parts} {st : Store} (h : Fitting anywhere s)
    (hfactory : t.factory = factoryNow s.factory st)
    (hst : Keeps s.factory.factory.store st ∨ anywhere ∨ .processGroups ∈ t.cfRx)
    (hrx : .processGroups ∈ s.cfRx → .processGroups ∈ t.cfRx) : Fitting anywhere t := by
  intro a c hc
  rw [hfactory] at hc ⊢
  have hold := h a c hc
  rcases hst with hst | htold
  · exact (hold.imp fun htold => htold.imp_right hrx).kept hst
  · exact hold.told htold st

theorem fitting_stepped (hkeys : ¬ anywhere → KeysRead) {s t : Parts} {e : Event}
    (hs : Shared s) (h : Fitting anywhere s) (hstep : Stepped s e t) (ht : running t = true) :
    Fitting anywhere t := by
  obtain ⟨-, -, hout, -⟩ := outcomes_of_running ht
  have hread : ∀ {told : Prop}, ¬ (anywhere ∨ told) → KeysRead :=
    fun htold => hkeys fun hany => htold (.inl hany)
  cases hstep with
  | begin => exact fun a c hc => (h a c hc).imp (Or.imp_right (List.mem_append_left _))
  | modem hown hu =>
      have hst := modem_of_uses modem_linkOther hown hu
      have hmembers := modem_of_uses modemUses_sameMembers hown hu
      rw [hs.modem] at hst hmembers
      exact fitting_now h rfl ((keeps_of_linkOther hkeys hst hmembers).imp_right .inl)
        (List.mem_append_left _)
  | whatsapp hown hu =>
      rename_i w u
      have hst := whatsapp_of_uses whatsapp_linkOther hown hu
      obtain ⟨cs, bs, hcf, -, hsame⟩ := (regroups_next hown hu).told
      have hrx : (afterWhatsapp s u).cfRx = s.cfRx ++ cs := by
        rw [afterWhatsapp, hcf, Simulation.since_append]
      rw [hs.wa] at hst
      refine fitting_now h rfl ?_ (hrx ▸ List.mem_append_left _)
      rcases hsame with hsame | ⟨hc, -⟩
      · refine (keeps_of_linkOther hkeys hst ?_).imp_right .inl
        rwa [PartFrames.waStore, hs.wa] at hsame
      · exact .inr (.inr (hrx ▸ List.mem_append_right _ hc))
  | turn hown hu => exact factory_of_next (allFit_turn hread h _) hu hout
  | cf hrx hu =>
      rename_i c rest u
      change AllFit (anywhere ∨ .processGroups ∈ rest) u.factory
      by_cases hc : c = .processGroups
      · subst hc
        obtain ⟨-, rfl⟩ := step_of_next hu
        exact FactoryRuns.perform_factory (wp_mono (allFit_processGroups h) (fun _ _ hf => hf)
          fun _ _ he => he.elim)
      · have hrest : .processGroups ∈ s.cfRx → .processGroups ∈ rest := by
          intro hmem
          rw [hrx] at hmem
          exact (List.mem_cons.mp hmem).resolve_left fun heq => hc heq.symm
        have hall : AllFit (anywhere ∨ .processGroups ∈ rest) s.factory.factory :=
          fun a ct hct => (h a ct hct).imp fun htold => htold.imp_right hrest
        exact factory_of_next (allFit_turn hread hall _) hu hout
  | bot hown hu =>
      have hheard := ClientViews.heard_of_next keeps_tick
        (ClientViews.ne_storeOp_of_ownBot hown) hu
      refine fitting_now h rfl (.inl ?_) (List.mem_append_left _)
      rw [← hs.bot]
      exact hheard.store
  | cb hrx hu =>
      have hheard := ClientViews.heard_of_next keeps_tick (by simp) hu
      refine fitting_now h rfl (.inl ?_) (List.mem_append_left _)
      rw [← hs.bot]
      exact hheard.store
  | log => exact h
  | clock => exact fun a c hc => (h a c hc).kept (keeps_of_eq rfl rfl)

theorem fitting_of_run (hkeys : ¬ anywhere → KeysRead) {cfg : Config} {w : World}
    {refuses : Nat → Option Str} {s : Parts} (h : Reachable next (start cfg w refuses) s)
    (hs : running s = true) : Fitting anywhere s := by
  obtain ⟨es, hrun⟩ := h
  have hstart : Fitting anywhere (start cfg w refuses) := fun a c hc => by cases hc
  have hall := invariant (I := fun s => Shared s ∧ (running s = true → Fitting anywhere s))
    (fun s e t hs hnext => ?_) ⟨shared_start cfg w refuses, fun _ => hstart⟩ hrun
  · exact hall.2 hs
  · have hstep := stepped_of_next hnext
    exact ⟨shared_stepped hs.1 hstep,
      fitting_stepped hkeys hs.1 (hs.2 (running_of_next hnext).1) hstep⟩

theorem kept_of_reachable (hkeys : KeysRead) {cfg : Config} {w : World}
    {refuses : Nat → Option Str} {s : Parts} (hup : Up w.store) (hst : Written w.store)
    (h : Reachable next (start cfg w refuses) s) : Kept [] s.factory.factory := by
  obtain ⟨es, hrun⟩ := ClientViews.reachable_factory h
  exact FactoryKeeping.kept_of_run hkeys hup hst hrun

/-- In every run of the program in client mode without errors of the database, when neither
the factory nor a connected contact has still to go through the groups, its calls have taken
the contact to the channels of its groups, and to no others. -/
theorem contacts_settle (hcodes : CodesRead) {cfg : Config} {w : World}
    {refuses : Nat → Option Str} {s : Parts} (hup : Up w.store) (hst : Written w.store)
    (h : Reachable next (start cfg w refuses) s) (hs : running s = true) {a : PduAddress}
    {c : ContactManager} (hc : s.factory.factory.contacts.lookup a = some c)
    (hconn : c.connected = true) (hfactory : .processGroups ∉ s.cfRx)
    (hcontact : .processGroups ∉ c.rx) (ch : Str) :
    ch ∈ replay [] (moves c) ↔ BridgedFor s.factory.factory.store a ch := by
  have hkept := kept_of_reachable hcodes.keysRead hup hst h
  have hfitting : Fitting False s := fitting_of_run (fun _ => hcodes.keysRead) h hs
  have hfits := hfitting a c hc
  have hread : ReadsBack a := hkept.readsBack a (.inl (.inl (.inr (by rw [hc]; rfl))))
  obtain ⟨row, hrow, hchans⟩ :=
    ((hfits.settled.resolve_left fun htold => htold.elim id hfactory).resolve_left hcontact)
      hread hconn
  rw [hfits.faithful.channels, hchans]
  exact (bridgedFor_iff_member hkept.keyed hrow ch).symm

end Program

section Samples

attribute [local instance] Sample.crates

/-- A line of the admin to the control bot. -/
def asking (line : Str) : Event :=
  .bot (.item (.message ⟨some ("admin!a@irc.example" : Str), .privmsg ("#sms" : Str) line⟩))

/-- The admin has a group bridged, and its metadata arrive; its member goes away before the
contact that is made for it connects. -/
def connecting : List Event :=
  [.begin, .receiveCf, asking ("WHATSAPP SETUP" : Str), .whatsapp .handle, .whatsapp .handle,
    .whatsapp (.poll [.ready]),
    .whatsapp (.poll [.event (.sessionEstablished ⟨("1" : Str), false⟩ ())]),
    asking ("GROUP BRIDGE 2@g.us #g" : Str), .whatsapp .handle,
    .whatsapp (.poll [.event (.groupMetadata (.ok ⟨⟨("2" : Str), true⟩, ("s" : Str),
      [(⟨("44123" : Str), false⟩, true)]⟩))]),
    .whatsapp (.poll [.event (.presenceChange ⟨("44123" : Str), false⟩ .unavailable none)]),
    .receiveCf, .receiveCf, .receiveCf, .receiveCf,
    .turn (.starting fun _ => .ready ("alice" : Str) fun _ => none), hearing [.endOfMotd]]

def connected : Parts := (run next sampleStart connecting).get (by decide +kernel)

def alice : ContactManager :=
  (connected.factory.factory.contacts.lookup Sample.alice).get (by decide +kernel)

example : alice.sent = [.identify, .raw ("WATCH" : Str) [("+admin" : Str)], .away none,
    .join ("#g" : Str), .away (some ("currently offline" : Str))] := by decide +kernel

theorem connected_reachable : Reachable next sampleStart connected :=
  ⟨connecting, (Option.some_get _).symm⟩

theorem lookup_alice : connected.factory.factory.contacts.lookup Sample.alice = some alice :=
  (Option.some_get _).symm

theorem contacts_settle_connected : ("#g" : Str) ∈ replay [] (moves alice) ↔
    BridgedFor connected.factory.factory.store Sample.alice ("#g" : Str) := by
  have hwritten : Written Main.sampleWorld.store := ⟨List.nodup_nil, fun r hr => by cases hr⟩
  have hs : running connected = true := by decide +kernel
  have hconn : alice.connected = true := by decide +kernel
  have hfactory : .processGroups ∉ connected.cfRx := by decide +kernel
  have hcontact : .processGroups ∉ alice.rx := by decide +kernel
  exact contacts_settle codesRead (fun _ => rfl) hwritten connected_reachable hs lookup_alice
    hconn hfactory hcontact _

end Samples

end SmsIrc.ClientSettling
