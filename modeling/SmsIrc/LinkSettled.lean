import SmsIrc.LinkMembership
import SmsIrc.LinkWalk

/-!
The channels of ghosts, for as long as nobody's groups change: those that have been brought
up to date stay so, and once the link is established all ghosts are.
-/

namespace SmsIrc.LinkSettled

open SmsIrc.Comm SmsIrc.Composition SmsIrc.ContactCommon SmsIrc.Database SmsIrc.External
open SmsIrc.HashMaps SmsIrc.InspUsers SmsIrc.Link SmsIrc.LinkAgreement SmsIrc.LinkChannels
open SmsIrc.LinkEffects SmsIrc.LinkEvents SmsIrc.LinkGhosts SmsIrc.LinkLedger
open SmsIrc.LinkMembership SmsIrc.LinkReturns SmsIrc.LinkRuns SmsIrc.LinkSteady
open SmsIrc.LinkWalk SmsIrc.Models SmsIrc.Program SmsIrc.SenderCommon SmsIrc.SenderRuns
open SmsIrc.Text SmsIrc.Util

section Members

variable [Crates]

/-- A recipient takes part in a group with a channel. -/
def Member (st : Store) (part : Nat) (ch : Str) : Prop :=
  ∃ grp ∈ st.groups.rows, grp.participants.contains part = true ∧ grp.channel = ch

/-- All recipients are in the groups that they were in. -/
def SameMembers (st st' : Store) : Prop := ∀ part ch, Member st' part ch ↔ Member st part ch

instance isPreorder_sameMembers : IsPreorder Store SameMembers where
  refl _ _ _ := Iff.rfl
  trans _ _ _ hst htu part ch := (htu part ch).trans (hst part ch)

theorem sameMembers_of_eq {st st' : Store} (h : st'.groups = st.groups) :
    SameMembers st st' := by
  intro part ch
  rw [Member, Member, h]

/-- The rows of addresses keep their numbers. -/
def IdsKept (st st' : Store) : Prop :=
  ∀ a row, RowOf st a row → ∃ row', RowOf st' a row' ∧ row'.id = row.id

instance isPreorder_idsKept : IsPreorder Store IdsKept where
  refl _ _ row h := ⟨row, h, rfl⟩
  trans _ _ _ hst htu a row h := by
    obtain ⟨row', h', hid⟩ := hst a row h
    obtain ⟨row'', h'', hid'⟩ := htu a row' h'
    exact ⟨row'', h'', hid'.trans hid⟩

theorem idsKept_of_mem {st st' : Store}
    (h : ∀ r ∈ st.recipients.rows, r ∈ st'.recipients.rows) : IdsKept st st' :=
  fun _ row hrow => ⟨row, ⟨h row hrow.stored, hrow.number, hrow.readsBack⟩, rfl⟩

theorem idsKept_of_eq {st st' : Store} (h : st'.recipients = st.recipients) :
    IdsKept st st' := idsKept_of_mem fun _ hr => h ▸ hr

theorem idsKept_rowChanged (st : Store) (a : PduAddress) (f : Recipient → Recipient)
    (hf : ∀ r, (f r).id = r.id) (hnum : ∀ r, (f r).phoneNumber = r.phoneNumber) :
    IdsKept st (rowChanged st a f hf) := by
  intro b row hrow
  by_cases hb : row.phoneNumber = normalizeAddress a
  · have hmem : f row ∈ (rowChanged st a f hf).recipients.rows :=
      List.mem_map.mpr ⟨row, hrow.stored, if_pos hb⟩
    exact ⟨f row, ⟨hmem, (hnum row).trans hrow.number, hrow.readsBack⟩, hf row⟩
  · have hmem : row ∈ (rowChanged st a f hf).recipients.rows :=
      List.mem_map.mpr ⟨row, hrow.stored, if_neg hb⟩
    exact ⟨row, ⟨hmem, hrow.number, hrow.readsBack⟩, rfl⟩

theorem idsKept_storeOp (op : StoreOp) : Moves IdsKept op.run := by
  have htick : ∀ st : Store, IdsKept st st.tick := fun st => idsKept_of_eq rfl
  have hexecute : ∀ {f : Store → Store}, (∀ st, (f st).recipients = st.recipients) →
      Moves IdsKept (execute f) := fun hf => moves_execute htick fun st => idsKept_of_eq (hf st)
  have hinsert : ∀ {addr : PduAddress} {row : Nat → Recipient} {hrow : ∀ n, (row n).id = n},
      Moves IdsKept (insertRecipient addr row hrow) := by
    refine moves_insertRecipient htick fun st => idsKept_of_mem fun r hr => ?_
    exact List.mem_append_left _ hr
  cases op with
  | smsMessage addr pdu csmsData => exact hexecute fun _ => rfl
  | waMessage addr text groupTarget ts => exact moves_checked htick fun st => idsKept_of_eq rfl
  | recipient addr nick => exact Steps.bind hinsert fun _ => steps_pure _
  | waRecipient addr nick ntf nicksrc => exact Steps.bind hinsert fun _ => steps_pure _
  | notify addr n =>
      exact moves_execute htick fun st =>
        idsKept_rowChanged st addr (fun r => { r with notify := n }) (fun _ => rfl) fun _ => rfl
  | group jid chan parts adms topic =>
      refine Steps.bind (moves_storeGroup htick fun st row hrow _ => ?_) fun _ => steps_pure _
      exact idsKept_of_eq rfl
  | updateGroup jid parts adms topic =>
      refine Steps.bind (moves_updateGroup htick fun st change hid _ => ?_) fun _ => steps_pure _
      exact idsKept_of_eq rfl
  | deleteGroup id => exact moves_checked htick fun st => idsKept_of_eq rfl
  | waMsgid id => exact hexecute fun _ => rfl
  | waPersistence p => exact hexecute fun _ => rfl

theorem bridgedFor_iff_member {st : Store} (hk : Keyed st) {a : PduAddress} {row : Recipient}
    (hrow : RowOf st a row) (ch : Str) : BridgedFor st a ch ↔ Member st row.id ch := by
  have hfind := hk.find_row hrow.stored hrow.number
  constructor
  · rintro ⟨r, grp, hr, hgrp, hpart, hch⟩
    rw [hfind] at hr
    cases hr
    exact ⟨grp, hgrp, hpart, hch⟩
  · rintro ⟨grp, hgrp, hpart, hch⟩
    exact ⟨row, grp, hfind, hgrp, hpart, hch⟩

end Members

section Upkeep

variable [Crates]

/-- What holds of a link whose database works: each contact has a recipient. -/
structure Backed (l : InspLink) : Prop where
  ledger : Ledger l
  up : Up l.store
  keyed : Keyed l.store
  rows : ∀ a ct, l.contacts.lookup a = some ct → ∃ row, RowOf l.store a row

/-- No contact that is in channels at all is behind. -/
def Current (l : InspLink) : Prop :=
  ∀ a ct, l.contacts.lookup a = some ct → ct.channels = [] ∨ UpToDate l a ct

/-- The contact of an address is as it was, with the same recipient. -/
def Same (s t : InspLink) (a : PduAddress) (ct : InspContact) : Prop :=
  (∃ ct', s.contacts.lookup a = some ct' ∧ ct.channels = ct'.channels) ∧
    ∀ row, RowOf s.store a row → ∃ row', RowOf t.store a row' ∧ row'.id = row.id

/-- It has a recipient, and has just got its channels, or has none yet. -/
def Tended (t : InspLink) (a : PduAddress) (ct : InspContact) : Prop :=
  (∃ row, RowOf t.store a row) ∧ (ct.channels = [] ∨ UpToDate t a ct)

/-- A step in which nobody's groups change. -/
structure Upkeep (s t : InspLink) : Prop where
  ledger : Ledger t
  cfg : t.cfg = s.cfg
  dbDown : t.store.dbDown = s.store.dbDown
  keyed : Keyed t.store
  members : SameMembers s.store t.store
  contacts : ∀ a ct, t.contacts.lookup a = some ct → Same s t a ct ∨ Tended t a ct

theorem Upkeep.backed {s t : InspLink} (h : Upkeep s t) (hs : Backed s) : Backed t := by
  refine ⟨h.ledger, fun n => by rw [h.dbDown]; exact hs.up n, h.keyed, fun a ct hct => ?_⟩
  rcases h.contacts a ct hct with ⟨⟨ct', hct', -⟩, hrows⟩ | ⟨hrow, -⟩
  · obtain ⟨row, hrow⟩ := hs.rows a ct' hct'
    obtain ⟨row', hrow', -⟩ := hrows row hrow
    exact ⟨row', hrow'⟩
  · exact hrow

theorem Upkeep.current {s t : InspLink} (h : Upkeep s t) (hs : Backed s) (hc : Current s) :
    Current t := by
  intro a ct hct
  rcases h.contacts a ct hct with ⟨⟨ct', hct', hchans⟩, hrows⟩ | ⟨-, hnew⟩
  · obtain ⟨row, hrow⟩ := hs.rows a ct' hct'
    obtain ⟨row', hrow', hid⟩ := hrows row hrow
    refine (hc a ct' hct').imp (fun hnil => hchans.trans hnil) fun hup ch => ?_
    rw [hchans, hup ch, h.cfg, bridgedFor_iff_member h.keyed hrow',
      bridgedFor_iff_member hs.keyed hrow, hid, h.members]
  · exact hnew

theorem Same.of_eq {s t : InspLink} {a : PduAddress} {ct : InspContact}
    (hct : s.contacts.lookup a = some ct) (hids : IdsKept s.store t.store) : Same s t a ct :=
  ⟨⟨ct, hct, rfl⟩, hids a⟩

theorem upkeep_of_same {s t : InspLink} (ht : Ledger t) (hcfg : t.cfg = s.cfg)
    (hdown : t.store.dbDown = s.store.dbDown) (hkeyed : Keyed t.store)
    (hgroups : t.store.groups = s.store.groups) (hids : IdsKept s.store t.store)
    (hcontacts : ∀ a ct, t.contacts.lookup a = some ct →
      ∃ ct', s.contacts.lookup a = some ct' ∧ ct.channels = ct'.channels) : Upkeep s t :=
  ⟨ht, hcfg, hdown, hkeyed, sameMembers_of_eq hgroups,
    fun a ct hct => .inl ⟨hcontacts a ct hct, hids a⟩⟩

theorem same_of_insert {s : InspLink} {a b : PduAddress} {ct ct'' : InspContact}
    (ct' : InspContact) (hct : s.contacts.lookup a = some ct) (hchans : ct'.channels = ct.channels)
    (hb : (s.contacts.insert a ct').lookup b = some ct'') :
    ∃ old, s.contacts.lookup b = some old ∧ ct''.channels = old.channels := by
  rw [lookup_insert] at hb
  split at hb
  · rename_i heq
    cases hb
    exact ⟨ct, heq ▸ hct, hchans⟩
  · exact ⟨ct'', hb, rfl⟩

theorem upkeep_introduced {s : InspLink} (h : Backed s) {a : PduAddress} {nick : Str} {wa : Bool}
    (ha : s.contacts.lookup a = none) (hrow : ∃ r, RowOf s.store a r) :
    Upkeep s (introduced s a nick wa) := by
  refine ⟨ledger_introduced h.ledger nick wa ha, rfl, rfl, h.keyed, sameMembers_of_eq rfl,
    fun b ct hct => ?_⟩
  change (s.contacts.insert a _).lookup b = _ at hct
  rw [lookup_insert] at hct
  split at hct
  · rename_i hb
    cases hct
    exact .inr ⟨hb ▸ hrow, .inl rfl⟩
  · exact .inl (.of_eq hct (idsKept_of_eq rfl))

theorem upkeep_regrouped {s : InspLink} (h : Backed s) {a : PduAddress} {ct : InspContact}
    {r : Recipient} {grps : List Group} (hct : s.contacts.lookup a = some ct)
    (hr : s.store.recipients.rows.find? (fun r => r.phoneNumber = normalizeAddress a) = some r)
    (hgrps : grps.Perm (s.store.groups.rows.filter fun grp => grp.participants.contains r.id)) :
    Upkeep s (regrouped s a ct (grps.map Group.channel)) := by
  have hledger : Ledger (regrouped s a ct (grps.map Group.channel)) :=
    ledger_of_eq h.ledger rfl rfl rfl rfl (lookup_uuid_insert hct rfl) fun _ => rfl
  refine ⟨hledger, rfl, rfl, h.keyed, sameMembers_of_eq rfl, fun b ct' hct' => ?_⟩
  change (s.contacts.insert a _).lookup b = _ at hct'
  rw [lookup_insert] at hct'
  split at hct'
  · rename_i hb
    cases hct'
    refine .inr ⟨hb ▸ h.rows a ct hct, .inr fun ch => ?_⟩
    subst hb
    exact mem_withLog.trans (or_congr_right (bridgedFor_iff hr hgrps))
  · exact .inl (.of_eq hct' (idsKept_of_eq rfl))

theorem upkeep_dropped (hkeys : KeysRead) {s : InspLink} (h : Backed s) (a : PduAddress) :
    Upkeep s (dropped s a) := by
  refine ⟨ledger_dropped h.ledger a, (quitted_eq s a).1, rfl, keyed_dropped h.keyed a,
    sameMembers_of_eq rfl, fun b ct hct => ?_⟩
  obtain ⟨hold, hb⟩ := h.ledger.dropped_contact.mp hct
  refine .inl ⟨⟨ct, hold, rfl⟩, fun row hrow => ⟨row, ⟨?_, hrow.number, hrow.readsBack⟩, rfl⟩⟩
  refine List.mem_filter.mpr ⟨hrow.stored, decide_eq_true fun heq => hb ?_⟩
  exact hkeys.eq hrow.readsBack (hrow.number.symm.trans heq)

theorem upkeep_effect (hkeys : KeysRead) {c r : Prop} {s t : InspLink} (h : Backed s)
    (heff : Effect c r s t) : Upkeep s t := by
  have ht := ledger_effect h.ledger heff
  have hchanged : ∀ {a : PduAddress} (f : Recipient → Recipient) (hf : ∀ r, (f r).id = r.id),
      (∀ r, (f r).phoneNumber = r.phoneNumber) → t.store = rowChanged s.store a f hf →
        t.cfg = s.cfg → t.store.groups = s.store.groups → (∀ b ct, t.contacts.lookup b = some ct →
          ∃ ct', s.contacts.lookup b = some ct' ∧ ct.channels = ct'.channels) → Upkeep s t := by
    intro a f hf hnum hstore hcfg hgroups hcontacts
    have hids : IdsKept s.store t.store := hstore ▸ idsKept_rowChanged s.store a f hf hnum
    exact upkeep_of_same ht hcfg (by rw [hstore]; rfl)
      (hstore ▸ keyed_rowChanged h.keyed a f hf hnum) hgroups hids hcontacts
  cases heff with
  | apart ha =>
      refine upkeep_of_same ht ha.cfg ha.dbDown (keyed_of_numbers h.keyed (by rw [ha.recipients]))
        ha.groups (idsKept_of_eq ha.recipients) fun a ct hct => ⟨ct, ?_, rfl⟩
      rwa [ha.contacts] at hct
  | said hm =>
      exact upkeep_of_same ht rfl rfl h.keyed rfl (idsKept_of_eq rfl) fun a ct hct => ⟨ct, hct, rfl⟩
  | collided ha =>
      rename_i a nick
      exact hchanged (fun r => { r with nick := nick, nicksrc := nicksrcCollision })
        (fun _ => rfl) (fun _ => rfl) rfl rfl rfl fun b ct hct => ⟨ct, hct, rfl⟩
  | introduced ha hid hfree hrow =>
      obtain ⟨row, hrow, -⟩ := hrow h.keyed
      exact upkeep_introduced h ha ⟨row, hrow⟩
  | regrouped hct hr hgrps => exact upkeep_regrouped h hct hr hgrps
  | moded hct =>
      rename_i a ct wa
      refine hchanged (fun r => { r with whatsapp := wa }) (fun _ => rfl) (fun _ => rfl) rfl rfl
        rfl fun b ct' hct' => ?_
      exact same_of_insert { ct with waMode := wa } hct rfl hct'
  | marked hct hdown => exact absurd h.up hdown
  | renamed hct huser hfree =>
      rename_i a ct user nick src
      exact hchanged (fun r => { r with nick := nick, nicksrc := src }) (fun _ => rfl)
        (fun _ => rfl) rfl rfl rfl fun b ct hct => ⟨ct, hct, rfl⟩
  | announced hct huser hfree hdown => exact absurd h.up hdown
  | dropped => exact upkeep_dropped hkeys h _

/-- What the changes keep of the contacts. -/
structure Kept (l : InspLink) (c : Prop) : Prop where
  backed : Backed l
  current : c → Current l

theorem Upkeep.kept {s t : InspLink} {c : Prop} (h : Upkeep s t) (hs : Kept s c) : Kept t c :=
  ⟨h.backed hs.backed, fun hc => h.current hs.backed (hs.current hc)⟩

theorem kept_effects (hkeys : KeysRead) {c r d : Prop} {s t : InspLink} (h : Kept s d)
    (heff : Effects c r s t) : Kept t d :=
  heff.invariant (fun _ _ hs he => (upkeep_effect hkeys hs.backed he).kept hs) h

theorem kept_opening (hkeys : KeysRead) {c r d : Prop} {e : Event} {s t : InspLink}
    (h : Kept s d) (he : ∀ op, e ≠ .storeOp op) (hopen : Opening c r e s t) : Kept t d := by
  have ht := ledger_opening h.backed.ledger hopen
  have hsame : ∀ {u : InspLink}, Kept u d → t.cfg = u.cfg → t.store.dbDown = u.store.dbDown →
      t.store.recipients = u.store.recipients → t.store.groups = u.store.groups →
        (∀ a ct, t.contacts.lookup a = some ct → u.contacts.lookup a = some ct) → Kept t d := by
    intro u hu hcfg hdown hrec hgroups hcontacts
    refine Upkeep.kept (s := u) ?_ hu
    exact upkeep_of_same ht hcfg hdown (keyed_of_numbers hu.backed.keyed (by rw [hrec])) hgroups
      (idsKept_of_eq hrec) fun a ct hct => ⟨ct, hcontacts a ct hct, rfl⟩
  cases hopen with
  | nothing hno => exact h
  | connected heff =>
      exact hsame (kept_effects hkeys h heff) rfl rfl rfl rfl fun _ _ hct => hct
  | linked heff =>
      exact hsame (kept_effects hkeys h heff) rfl rfl rfl rfl fun _ _ hct => hct
  | killed =>
      exact hsame h rfl rfl rfl rfl fun _ _ hct => (h.backed.ledger.withoutUser_contact.mp hct).1
  | quit =>
      exact hsame h rfl rfl rfl rfl fun _ _ hct => (h.backed.ledger.withoutUser_contact.mp hct).1
  | burst => exact hsame h rfl rfl rfl rfl fun _ _ hct => hct
  | user huid => exact hsame h rfl rfl rfl rfl fun _ _ hct => hct
  | nick huser => exact hsame h rfl rfl rfl rfl fun _ _ hct => hct
  | host huser => exact hsame h rfl rfl rfl rfl fun _ _ hct => hct
  | squit => exact hsame h rfl rfl rfl rfl fun _ _ hct => hct
  | stored => exact absurd rfl (he _)
  | clock => exact hsame h rfl rfl rfl rfl fun _ _ hct => hct

theorem kept_next (hkeys : KeysRead) {d : Prop} {s t : Session} {e : Event}
    (h : Kept s.link d) (he : ∀ op, e ≠ .storeOp op) (ht : next s e = some t) :
    Kept t.link d := by
  obtain ⟨-, u, hopen, heff⟩ :=
    happened_of_next (c := True) (r := True) (fun _ => trivial) (fun _ => trivial) ht
  exact kept_effects hkeys (kept_opening hkeys h he hopen) heff

theorem kept_stored {c d : Prop} {l : InspLink} {st : Store} (h : Kept l c)
    (hrows : RowsKept l.store st) (hids : IdsKept l.store st)
    (hmembers : d → SameMembers l.store st) (hdc : d → c) : Kept { l with store := st } d := by
  have hledger : Ledger { l with store := st } :=
    ledger_of_eq h.backed.ledger rfl rfl rfl rfl (fun _ => rfl) fun _ => rfl
  have hback : Backed { l with store := st } := by
    refine ⟨hledger, fun n => ?_, hrows.keyed h.backed.keyed, fun a ct hct => ?_⟩
    · change st.dbDown n = false
      rw [hrows.dbDown]
      exact h.backed.up n
    · obtain ⟨row, hrow⟩ := h.backed.rows a ct hct
      obtain ⟨row', hrow', -⟩ := hids a row hrow
      exact ⟨row', hrow'⟩
  refine ⟨hback, fun hd => ?_⟩
  have hupkeep : Upkeep l { l with store := st } :=
    ⟨hledger, rfl, hrows.dbDown, hback.keyed, hmembers hd, fun a ct hct => .inl (.of_eq hct hids)⟩
  exact hupkeep.current h.backed (h.current (hdc hd))

end Upkeep

section Joined

variable [Crates]

/-- A linked link has no contact that has not got its channels. -/
def Joined (l : InspLink) : Prop :=
  l.state = .linked → ∀ a ct, l.contacts.lookup a = some ct → ct.channels ≠ []

/-- There are no other contacts, and none with other channels. -/
structure Tame (s t : InspLink) : Prop where
  state : t.state = s.state
  contacts : ∀ a ct, t.contacts.lookup a = some ct →
    ∃ ct', s.contacts.lookup a = some ct' ∧ ct.channels = ct'.channels

instance isPreorder_tame : IsPreorder InspLink Tame where
  refl _ := ⟨rfl, fun _ ct h => ⟨ct, h, rfl⟩⟩
  trans _ _ _ hst htu := by
    refine ⟨htu.state.trans hst.state, fun a ct hct => ?_⟩
    obtain ⟨ct', hct', hchans⟩ := htu.contacts a ct hct
    obtain ⟨ct'', hct'', hchans'⟩ := hst.contacts a ct' hct'
    exact ⟨ct'', hct'', hchans.trans hchans'⟩

def KeepsJoined (s t : InspLink) : Prop := Joined s → Joined t

instance isPreorder_keepsJoined : IsPreorder InspLink KeepsJoined where
  refl _ h := h
  trans _ _ _ hst htu h := htu (hst h)

theorem Tame.joined {s t : InspLink} (h : Tame s t) : KeepsJoined s t := by
  intro hs hstate a ct hct
  obtain ⟨ct', hct', hchans⟩ := h.contacts a ct hct
  rw [hchans]
  exact hs (h.state ▸ hstate) a ct' hct'

theorem leads_of_tame {α : Type} {p : LinkM α} (h : Moves Tame p) : Leads KeepsJoined p :=
  leads_of_moves (h.mono fun _ _ => Tame.joined)

theorem tame_of_eq {s t : InspLink} (hstate : t.state = s.state)
    (hcontacts : t.contacts = s.contacts) : Tame s t :=
  ⟨hstate, fun _ ct hct => ⟨ct, hcontacts ▸ hct, rfl⟩⟩

theorem tame_store {α : Type} (p : StoreM α) : Moves Tame (store p : LinkM α) :=
  moves_zoom p fun _ _ => tame_of_eq rfl rfl

theorem tame_push (u : Str) (cmd : String) (args : List Str) (suffix : Option Str) :
    Moves Tame (push u cmd args suffix) := steps_modify fun _ => tame_of_eq rfl rfl

theorem tame_contactMessage (u : Str) (kind : String) (target message : Str) :
    Moves Tame (contactMessage u kind target message) := by
  refine Steps.bind steps_get fun l => ?_
  split
  · exact steps_throw trivial
  · split
    · exact steps_throw trivial
    · exact tame_push _ _ _ _

theorem senderSteps_tame : SenderSteps InspLink Tame fun _ => True where
  record _ := steps_modify fun _ => tame_of_eq rfl rfl
  getGroupById _ := tame_store _
  privateTarget := Steps.bind steps_get fun _ => steps_pure _
  sendIrcMessage _ _ _ := tame_contactMessage _ _ _ _
  ensureJoined ch := by
    refine Steps.bind steps_get fun l => ?_
    split
    · cases adminUuid l with
      | some admu => exact Steps.bind steps_get fun _ => tame_push _ _ _ _
      | none => exact steps_pure _
    · exact steps_pure _
  getAllConcatenated _ _ := tame_store _
  deleteMessage _ := tame_store _
  reportError _ _ := Steps.bind steps_get fun _ => tame_contactMessage _ _ _ _
  utcNow := Steps.bind steps_get fun _ => steps_pure _
  error _ := trivial
  messageText := trivial
  concatenatedPdu := trivial
  concatenatedHeader := trivial

theorem tame_insertUser (u : Str) (user : InspUser) : Moves Tame (insertUser u user) :=
  steps_modify fun _ => tame_of_eq rfl rfl

theorem tame_updateUser (u : Str) (f : InspUser → InspUser) : Moves Tame (updateUser u f) := by
  apply steps_modify
  intro l
  split
  · exact tame_of_eq rfl rfl
  · exact tame_of_eq rfl rfl

theorem tame_newUser (user : InspUser) : Moves Tame (newUser user) := by
  have hget : Moves Tame getUuid := by
    refine steps_get_bind fun l => ?_
    split
    · exact ⟨tame_of_eq rfl rfl, trivial⟩
    · exact tame_of_eq rfl rfl
  have hline : ∀ u, Moves Tame (makeUidLine u) := by
    refine fun u => Steps.bind steps_get fun l => ?_
    split
    · exact steps_pure _
    · exact steps_throw trivial
  refine Steps.bind hget fun u => Steps.bind (tame_insertUser _ _) fun _ => ?_
  refine Steps.bind (hline _) fun m => Steps.bind ?_ fun _ => steps_pure _
  exact steps_modify fun _ => tame_of_eq rfl rfl

theorem tame_nickFor (recip : Recipient) (a : PduAddress) : Moves Tame (nickFor recip a) := by
  refine Steps.bind steps_get fun l => ?_
  cases checkNickForCollisions l recip.nick with
  | some n => exact Steps.bind (tame_store _) fun _ => steps_pure _
  | none => exact steps_pure _

theorem tame_withoutUser (l : InspLink) (u : Str) : Tame l (withoutUser l u) :=
  ⟨rfl, fun _ ct hct => ⟨ct, (withoutUser_contact hct).1, rfl⟩⟩

theorem tame_removeUser (u : Str) : Moves Tame (removeUser u false) := by
  refine steps_get_bind fun l => ?_
  dsimp only
  rw [wp_bind, wp_set]
  refine Steps.after ?_ (tame_withoutUser l u)
  cases l.contactsUuidPdua.lookup u with
  | some a => exact steps_pure _
  | none => exact steps_pure _

theorem tame_dropContact (a : PduAddress) : Moves Tame (dropContact a : LinkM Unit) := by
  have hremove : Moves Tame (removeContactFor a) := by
    refine Steps.bind steps_get fun l => Steps.bind ?_ fun _ => steps_modify fun l => ⟨rfl, ?_⟩
    · cases l.contacts.lookup a with
      | some ct => exact Steps.bind (tame_push _ _ _ _) fun _ => tame_removeUser _
      | none => exact steps_pure _
    · intro b ct hct
      rw [lookup_erase] at hct
      split at hct
      · cases hct
      · exact ⟨ct, hct, rfl⟩
  exact Steps.bind (tame_store _) fun _ => hremove

theorem tame_marked {l : InspLink} {a : PduAddress} {ct : InspContact} (wa : Bool)
    (hct : l.contacts.lookup a = some ct) : Tame l (marked l a ct wa) :=
  ⟨rfl, fun _ _ hb => same_of_insert { ct with waMode := wa } hct rfl hb⟩

theorem tame_setWaState (a : PduAddress) (wa : Bool) : Moves Tame (setWaState a wa) := by
  refine steps_get_bind fun l => ?_
  cases hct : l.contacts.lookup a with
  | none => exact ⟨refl l, trivial⟩
  | some ct =>
      rw [wp_bind, wp_unwrap_some, wp_bind, wp_modify]
      refine Steps.after (Steps.bind (tame_store _) fun _ => Steps.bind (tame_push _ _ _ _)
        fun _ => steps_modify fun l => ?_) (tame_marked wa hct)
      split
      · exact tame_of_eq rfl rfl
      · exact tame_of_eq rfl rfl

theorem tame_forwardCmd (a : PduAddress) (cmd : ContactManagerCommand) :
    Moves Tame (forwardCmd a cmd) := by
  refine steps_get_bind fun l => ?_
  split
  swap
  · exact refl l
  cases cmd with
  | processMessages => exact refl l
  | processGroups => exact refl l
  | updateAway text => exact Steps.bind (moves_unwrap _ _) (fun ct => tame_push _ _ _ _) l
  | changeNick st src =>
      refine Steps.bind (moves_unwrap _ _) (fun ct => ?_) l
      refine Steps.bind steps_get fun l => Steps.bind (moves_unwrap _ _) fun u => ?_
      split
      · exact steps_pure _
      · refine Steps.bind (tame_insertUser _ _) fun _ => ?_
        exact Steps.bind (tame_push _ _ _ _) fun _ => tame_store _
  | setWhatsapp wam =>
      dsimp only
      cases hct : l.contacts.lookup a with
      | none => exact ⟨refl l, trivial⟩
      | some ct =>
          rw [wp_bind, wp_unwrap_some, wp_bind, wp_modify]
          exact (tame_setWaState a wam).after (tame_marked wam hct)

omit [Crates] in
theorem withLog_ne_nil (logChan : Str) (chans : List Str) : withLog logChan chans ≠ [] :=
  List.ne_nil_of_mem (mem_withLog.mpr (.inl rfl))

theorem wp_processGroupsForRecipient_joined (a : PduAddress) (l : InspLink) :
    wp (processGroupsForRecipient a)
      (fun _ t => t.state = l.state ∧ ∀ b ct, t.contacts.lookup b = some ct →
        ct.channels ≠ [] ∨ b ≠ a ∧ l.contacts.lookup b = some ct) (fun _ _ => True) l := by
  refine wp_mono (wp_processGroupsForRecipient_regrouped a l) ?_ fun _ _ _ => trivial
  rintro _ _ ⟨ct, row, hct, hfind, chs, grps, hgrps, rfl⟩
  refine ⟨rfl, fun b ct' hct' => ?_⟩
  change (l.contacts.insert a _).lookup b = _ at hct'
  rw [lookup_insert] at hct'
  split at hct'
  · cases hct'
    exact .inl (withLog_ne_nil _ _)
  · exact .inr ⟨by assumption, hct'⟩

theorem leads_processGroupsForRecipient (a : PduAddress) :
    Leads KeepsJoined (processGroupsForRecipient a) := by
  intro l
  refine wp_mono (wp_processGroupsForRecipient_joined a l) ?_ fun _ _ _ => trivial
  rintro _ t ⟨hstate, hcontacts⟩ hl ht b ct hct
  rcases hcontacts b ct hct with hne | ⟨-, hold⟩
  · exact hne
  · exact hl (hstate ▸ ht) b ct hold

theorem leads_setupContactFor (recip : Recipient) (a : PduAddress) :
    Leads KeepsJoined (setupContactFor recip a) := by
  refine composes_leads.bind (leads_of_tame (tame_nickFor recip a)) fun nick l => ?_
  rw [wp_bind, wp_get, wp_bind]
  refine wp_mono (tame_newUser _ l) (fun uuid u hu => ?_) fun _ _ _ => trivial
  rw [wp_bind, addContact, wp_modify, wp_when]
  have hold : ∀ b ct, b ≠ a → (u.contacts.insert a ⟨uuid, [], recip.whatsapp⟩).lookup b = some ct →
      u.contacts.lookup b = some ct := by
    intro b ct hb hct
    rwa [lookup_insert, if_neg hb] at hct
  split
  · refine wp_mono (wp_processGroupsForRecipient_joined a _) ?_ fun _ _ _ => trivial
    rintro _ t ⟨hstate, hcontacts⟩ hl ht b ct hct
    rcases hcontacts b ct hct with hne | ⟨hb, hct'⟩
    · exact hne
    · obtain ⟨ct', hct'', hchans⟩ := hu.contacts b ct (hold b ct hb hct')
      rw [hchans]
      exact hl (by assumption) b ct' hct''
  · rename_i hstate
    exact fun _ ht => absurd (hu.state.symm.trans ht) hstate

theorem leads_removeUser (u : Str) (recreate : Bool)
    (hsetup : ∀ a, Leads KeepsJoined (setupContact a : LinkM Unit)) :
    Leads KeepsJoined (removeUser u recreate) := by
  intro l
  rw [removeUser, wp_bind, wp_get]
  dsimp only
  rw [wp_bind, wp_set]
  refine Leads.after ?_ (tame_withoutUser l u).joined
  cases l.contactsUuidPdua.lookup u with
  | some a => exact composes_leads.when (hsetup a)
  | none => exact composes_leads.pure ()

theorem leads_handleEndburst (source : Str) (hmessages : Leads KeepsJoined processMessages)
    (hsetup : ∀ recip, Leads KeepsJoined (setupRecipient recip : LinkM Unit)) :
    Leads KeepsJoined (handleEndburst source) := by
  refine composes_leads.getBind fun l => composes_leads.when ?_
  have hburst : Leads KeepsJoined doQuasiburst :=
    composes_leads.bind (leads_of_tame (tame_store _)) fun recips =>
      composes_leads.forM fun recip _ => hsetup recip
  refine composes_leads.bind hburst fun _ l => ?_
  rw [wp_bind, wp_modify, onLinked, wp_bind, wp_get, wp_bind, push, wp_modify, wp_bind]
  refine wp_mono (wp_processGroups_upToDate _) (fun _ t ht => ?_) fun _ _ _ => trivial
  refine wp_mono (hmessages t) (fun _ u hu _ => hu fun _ a ct hct hnil => ?_) fun _ _ _ => trivial
  have hlog := (ht a ct hct t.cfg.logChan).mpr (.inl rfl)
  rw [hnil] at hlog
  cases hlog

theorem joined_of_unlinked (s t : InspLink) (h : t.state ≠ .linked) : KeepsJoined s t :=
  fun _ ht => absurd ht h

theorem walk_joined : Walk fun {α : Type} (p : LinkM α) => Leads KeepsJoined p where
  toComposes := composes_leads
  push _ _ _ _ _ := leads_of_tame (tame_push _ _ _ _)
  query _ := leads_of_tame (tame_store _)
  insertUser _ _ := leads_of_tame (tame_insertUser _ _)
  updateUser _ _ := leads_of_tame (tame_updateUser _ _)
  setupFor := leads_setupContactFor
  regroup := leads_processGroupsForRecipient
  noChannels := leads_of_tame (steps_modify fun _ => tame_of_eq rfl rfl)
  topic _ _ := leads_of_tame (steps_modify fun _ => tame_of_eq rfl rfl)
  removeUser := leads_removeUser
  drop _ := leads_of_tame (tame_dropContact _)
  mode _ _ := leads_of_tame (tame_setWaState _ _)
  forward _ _ := leads_of_tame (tame_forwardCmd _ _)
  pdu _ _ _ := leads_of_tame (senderSteps_tame.processMsgPdu _ _ _)
  plain _ _ := leads_of_tame (senderSteps_tame.processMsgPlain _ _)
  askModem _ := leads_of_tame (steps_modify fun _ => tame_of_eq rfl rfl)
  askWhatsapp _ := leads_of_tame (steps_modify fun _ => tame_of_eq rfl rfl)
  subscribe _ := leads_of_tame (steps_modify fun _ => tame_of_eq rfl rfl)
  respond _ := leads_of_tame (steps_modify fun _ => tame_of_eq rfl rfl)
  squit _ := leads_of_tame (steps_modify fun _ => tame_of_eq rfl rfl)
  connect := leads_of_last joined_of_unlinked fun _ _ => by simp
  server args suffix := by
    refine composes_leads.getBind fun l => ?_
    split
    · split
      · exact composes_leads.throw _
      · split
        · exact composes_leads.throw _
        · refine composes_leads.bind (leads_of_tame (steps_logVerified trivial _)) fun _ => ?_
          refine composes_leads.bind (leads_of_tame (steps_modify fun _ => tame_of_eq rfl rfl))
            fun _ => leads_of_last joined_of_unlinked fun _ _ => by simp
    · exact composes_leads.throw _
  endburst source hsetup _ hmessages := leads_handleEndburst source hmessages hsetup

theorem commands_joined : Commands fun {α : Type} (p : LinkM α) => Leads KeepsJoined p where
  toWalk := walk_joined
  modem _ := leads_of_tame (steps_modify fun _ => tame_of_eq rfl rfl)
  whatsapp _ := leads_of_tame (steps_modify fun _ => tame_of_eq rfl rfl)
  group _ := leads_of_tame (steps_modify fun _ => tame_of_eq rfl rfl)
  ghost _ _ := leads_of_tame (steps_modify fun _ => tame_of_eq rfl rfl)
  contact _ := leads_of_tame (steps_modify fun _ => tame_of_eq rfl rfl)

theorem joined_stored {l : InspLink} (h : Joined l) (st : Store) :
    Joined { l with store := st } := fun hstate a ct hct => h hstate a ct hct

theorem joined_next {s t : Session} {e : Event} (h : Joined s.link) (ht : next s e = some t)
    (hout : t.outcome = none) : Joined t.link := by
  by_cases hstore : ∃ op, e = .storeOp op
  · obtain ⟨op, rfl⟩ := hstore
    rw [next, outcome_of_next ht] at ht
    cases ht
    exact joined_stored h _
  by_cases hclock : ∃ now dbNow, e = .clock now dbNow
  · obtain ⟨now, dbNow, rfl⟩ := hclock
    rw [next, outcome_of_next ht] at ht
    cases ht
    exact fun hstate a ct hct => h hstate a ct hct
  have hpriv : ∀ source target msg, Leads KeepsJoined (handlePrivmsg source target msg) := by
    intro source target msg
    refine commands_joined.handlePrivmsg source target msg (fun _ _ => ?_) ?_ (fun _ => ?_)
      fun _ => ?_
    all_goals exact leads_of_tame (steps_modify fun _ => tame_of_eq rfl rfl)
  have hreport : ∀ fail, Leads KeepsJoined (handleCbCommand (.reportFailure fail)) := by
    intro fail
    refine leads_of_tame (Steps.bind steps_get fun l => ?_)
    cases adminUuid l with
    | some admu => exact tame_push _ _ _ _
    | none => exact steps_pure _
  obtain ⟨p, hp, rfl⟩ := walk_joined.of_next ht (fun source target msg _ => hpriv _ _ _)
    (fun fail _ => hreport fail) (fun op he => hstore ⟨op, he⟩)
    fun now dbNow he => hclock ⟨now, dbNow, he⟩
  exact hp.exec (exec_of_perform hout) h

end Joined

end SmsIrc.LinkSettled
