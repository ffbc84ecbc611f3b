import SmsIrc.LinkAgreement
import SmsIrc.LinkChannels

/-!
A ghost whose user is killed or quits, and the one that comes back for it.
-/

namespace SmsIrc.LinkReturns

open SmsIrc.Comm SmsIrc.ContactCommon SmsIrc.Database SmsIrc.External SmsIrc.HashMaps
open SmsIrc.InspUsers SmsIrc.Link SmsIrc.LinkAgreement SmsIrc.LinkChannels SmsIrc.LinkEffects
open SmsIrc.LinkEvents SmsIrc.LinkGhosts SmsIrc.LinkLedger SmsIrc.LinkRouting SmsIrc.LinkRuns
open SmsIrc.Models SmsIrc.Program SmsIrc.SenderCommon SmsIrc.Text SmsIrc.Transition SmsIrc.Util

section Returns

variable [Crates]

/-- A contact is as its row has it, and so is its user unless the server took it for gone. -/
structure Shows (l : InspLink) (ct : InspContact) (row : Recipient) : Prop where
  free : row.nick ≠ l.cfg.adminNick
  mode : ct.waMode = row.whatsapp
  user : ∀ user, l.users.lookup ct.uuid = some user → user.nick = row.nick

/-- What holds of a link whose database works. -/
structure Shown (l : InspLink) : Prop where
  ledger : Ledger l
  up : Up l.store
  keyed : Keyed l.store
  contacts : ∀ a ct, l.contacts.lookup a = some ct → ∃ row, RowOf l.store a row ∧ Shows l ct row

/-- A contact that was there, with the same mode, and a user with the same nick. -/
def Stays (s t : InspLink) (a : PduAddress) (ct : InspContact) : Prop :=
  ∃ ct', s.contacts.lookup a = some ct' ∧ ct.uuid = ct'.uuid ∧ ct.waMode = ct'.waMode ∧
    (∀ user, t.users.lookup ct'.uuid = some user →
      ∃ old, s.users.lookup ct'.uuid = some old ∧ old.nick = user.nick) ∧
    ∀ row, RowOf s.store a row →
      ∃ row', RowOf t.store a row' ∧ row'.nick = row.nick ∧ row'.whatsapp = row.whatsapp

theorem Shown.trans {s t : InspLink} (h : Shown s) (ht : Ledger t) (hcfg : t.cfg = s.cfg)
    (hdown : t.store.dbDown = s.store.dbDown) (hkeyed : Keyed t.store)
    (hcontacts : ∀ a ct, t.contacts.lookup a = some ct → Stays s t a ct ∨
      ∃ row, RowOf t.store a row ∧ Shows t ct row) : Shown t := by
  refine ⟨ht, fun n => by rw [hdown]; exact h.up n, hkeyed, fun a ct hct => ?_⟩
  rcases hcontacts a ct hct with ⟨ct', hct', huuid, hmode, husers, hrows⟩ | hnew
  · obtain ⟨row, hrow, hshows⟩ := h.contacts a ct' hct'
    obtain ⟨row', hrow', hnick, hwa⟩ := hrows row hrow
    refine ⟨row', hrow', by rw [hnick, hcfg]; exact hshows.free, ?_, fun user huser => ?_⟩
    · rw [hmode, hwa]
      exact hshows.mode
    · rw [huuid] at huser
      obtain ⟨old, hold, holdnick⟩ := husers user huser
      rw [← holdnick, hnick]
      exact hshows.user old hold
  · exact hnew

theorem stays_of_eq {s t : InspLink} {a : PduAddress} {ct : InspContact}
    (hct : s.contacts.lookup a = some ct)
    (husers : ∀ user, t.users.lookup ct.uuid = some user → s.users.lookup ct.uuid = some user)
    (hrows : ∀ row, RowOf s.store a row → RowOf t.store a row) : Stays s t a ct :=
  ⟨ct, hct, rfl, rfl, fun user huser => ⟨user, husers user huser, rfl⟩,
    fun row hrow => ⟨row, hrows row hrow, rfl, rfl⟩⟩

theorem shown_of_same {s t : InspLink} (h : Shown s) (ht : Ledger t) (hcfg : t.cfg = s.cfg)
    (hstore : RowsKept s.store t.store)
    (hcontacts : ∀ a ct, t.contacts.lookup a = some ct → s.contacts.lookup a = some ct ∧
      ∀ user, t.users.lookup ct.uuid = some user → s.users.lookup ct.uuid = some user) :
    Shown t := by
  refine h.trans ht hcfg hstore.dbDown (hstore.keyed h.keyed) fun a ct hct => .inl ?_
  obtain ⟨hold, husers⟩ := hcontacts a ct hct
  exact ⟨ct, hold, rfl, rfl, fun user huser => ⟨user, husers user huser, rfl⟩, hstore.rows a⟩

theorem shown_introduced {s : InspLink} (h : Shown s) {a : PduAddress} {nick : Str} {wa : Bool}
    (ha : s.contacts.lookup a = none) (hfree : nickExists s nick = false)
    (hrow : ∃ r, RowOf s.store a r ∧ r.nick = nick ∧ r.whatsapp = wa) :
    Shown (introduced s a nick wa) := by
  have hcontacts : ∀ b, (introduced s a nick wa).contacts.lookup b =
      if b = a then some ⟨uuidOf s.cfg.sid s.nextUserId, [], wa⟩ else s.contacts.lookup b :=
    fun b => lookup_insert s.contacts a b _
  have husers : ∀ u, (introduced s a nick wa).users.lookup u =
      if u = uuidOf s.cfg.sid s.nextUserId then
        some (newFromRecipient s.now a nick (hostForWa s wa)) else s.users.lookup u :=
    fun u => lookup_insert s.users _ u _
  refine h.trans (ledger_introduced h.ledger nick wa ha) rfl rfl h.keyed fun b ct hct => ?_
  rw [hcontacts] at hct
  split at hct
  · rename_i hb
    subst hb
    cases hct
    obtain ⟨row, hrow, rfl, hwa⟩ := hrow
    refine .inr ⟨row, hrow, ne_admin_of_free (l := s) hfree, hwa.symm, fun user huser => ?_⟩
    rw [husers, if_pos rfl] at huser
    cases huser
    rfl
  · refine .inl (stays_of_eq hct (fun user huser => ?_) fun _ hrow => hrow)
    rwa [husers, if_neg (h.ledger.contact_ne_next hct)] at huser

theorem shown_of_row (hkeys : KeysRead) {s t : InspLink} (h : Shown s) (ht : Ledger t)
    (hcfg : t.cfg = s.cfg) {a : PduAddress} (f : Recipient → Recipient)
    (hf : ∀ r, (f r).id = r.id) (hstore : t.store = rowChanged s.store a f hf)
    (hnum : ∀ r, (f r).phoneNumber = r.phoneNumber)
    (hothers : ∀ b ct, b ≠ a → t.contacts.lookup b = some ct → s.contacts.lookup b = some ct ∧
      ∀ user, t.users.lookup ct.uuid = some user → s.users.lookup ct.uuid = some user)
    (ha : ∀ ct, t.contacts.lookup a = some ct → ∃ row, RowOf s.store a row ∧ Shows t ct (f row)) :
    Shown t := by
  have hdown : t.store.dbDown = s.store.dbDown := by rw [hstore, rowChanged]
  refine h.trans ht hcfg hdown (hstore ▸ keyed_rowChanged h.keyed a f hf hnum) fun b ct hct => ?_
  by_cases hb : b = a
  · subst hb
    obtain ⟨row, hrow, hshows⟩ := ha ct hct
    exact .inr ⟨f row, hstore ▸ hrow.changed hf hnum, hshows⟩
  · obtain ⟨hold, husers⟩ := hothers b ct hb hct
    exact .inl (stays_of_eq hold husers fun row hrow =>
      hstore ▸ rowOf_other hkeys f hf hnum hb hrow)

theorem shown_moded (hkeys : KeysRead) {s : InspLink} (h : Shown s) {a : PduAddress}
    {ct : InspContact} (wa : Bool) (hct : s.contacts.lookup a = some ct) :
    Shown (moded s a ct wa) := by
  obtain ⟨row, hrow, hshows⟩ := h.contacts a ct hct
  have hledger : Ledger (moded s a ct wa) :=
    ledger_of_eq h.ledger rfl rfl rfl rfl (lookup_uuid_insert hct rfl) fun _ => rfl
  have hcontacts : ∀ b, (moded s a ct wa).contacts.lookup b =
      if b = a then some { ct with waMode := wa } else s.contacts.lookup b :=
    fun b => lookup_insert s.contacts a b _
  refine shown_of_row hkeys h hledger rfl (fun r => { r with whatsapp := wa }) (fun _ => rfl)
    rfl (fun _ => rfl) ?_ ?_
  · intro b ct' hb hct'
    rw [hcontacts, if_neg hb] at hct'
    refine ⟨hct', fun user huser => ?_⟩
    have hne : ct'.uuid ≠ ct.uuid := fun heq => hb (h.ledger.uuid_injective hct' hct heq)
    simp only [moded] at huser
    split at huser
    · rwa [lookup_insert, if_neg hne] at huser
    · exact huser
  · intro ct' hct'
    rw [hcontacts, if_pos rfl] at hct'
    cases hct'
    refine ⟨row, hrow, hshows.free, rfl, fun user huser => ?_⟩
    simp only [moded] at huser
    split at huser
    · rename_i old hold
      rw [lookup_insert, if_pos rfl] at huser
      cases huser
      exact hshows.user old hold
    · exact hshows.user user huser

theorem shown_renamed (hkeys : KeysRead) {s : InspLink} (h : Shown s) {a : PduAddress}
    {ct : InspContact} {user : InspUser} {nick : Str} {src : Int}
    (hct : s.contacts.lookup a = some ct) (hfree : nickExists s nick = false) :
    Shown { renamed s ct user nick with store := nickChanged s.store a nick src } := by
  obtain ⟨row, hrow, hshows⟩ := h.contacts a ct hct
  have hledger : Ledger { renamed s ct user nick with store := nickChanged s.store a nick src } :=
    ledger_of_eq h.ledger rfl rfl rfl rfl (fun _ => rfl) fun _ => rfl
  have husers : ∀ u, (renamed s ct user nick).users.lookup u =
      if u = ct.uuid then some { user with nick := nick } else s.users.lookup u :=
    fun u => lookup_insert s.users ct.uuid u _
  refine shown_of_row hkeys h hledger rfl (fun r => { r with nick := nick, nicksrc := src })
    (fun _ => rfl) rfl (fun _ => rfl) ?_ ?_
  · intro b ct' hb hct'
    refine ⟨hct', fun user' huser' => ?_⟩
    rwa [husers, if_neg fun heq => hb (h.ledger.uuid_injective hct' hct heq)] at huser'
  · intro ct' hct'
    rw [show s.contacts.lookup a = some ct' from hct'] at hct
    cases hct
    refine ⟨row, hrow, ne_admin_of_free (l := s) hfree, hshows.mode, fun user' huser' => ?_⟩
    rw [husers, if_pos rfl] at huser'
    cases huser'
    rfl

theorem shown_collided (hkeys : KeysRead) {s : InspLink} (h : Shown s) {a : PduAddress}
    {nick : Str} (ha : s.contacts.lookup a = none) :
    Shown { s with store := nickChanged s.store a nick nicksrcCollision } := by
  refine shown_of_row hkeys h
    (ledger_of_eq h.ledger rfl rfl rfl rfl (fun _ => rfl) fun _ => rfl) rfl
    (fun r => { r with nick := nick, nicksrc := nicksrcCollision }) (fun _ => rfl) rfl
    (fun _ => rfl) (fun _ _ _ hct => ⟨hct, fun _ huser => huser⟩) fun ct hct => ?_
  rw [show s.contacts.lookup a = some ct from hct] at ha
  cases ha

theorem shown_dropped (hkeys : KeysRead) {s : InspLink} (h : Shown s) (a : PduAddress) :
    Shown (dropped s a) := by
  refine h.trans (ledger_dropped h.ledger a) (quitted_eq s a).1 rfl (keyed_dropped h.keyed a)
    fun b ct hct => .inl ?_
  obtain ⟨hold, hb⟩ := h.ledger.dropped_contact.mp hct
  refine stays_of_eq hold (fun user huser => quitted_users huser) fun row hrow => ?_
  refine ⟨List.mem_filter.mpr ⟨hrow.stored, decide_eq_true fun heq => hb ?_⟩, hrow.number,
    hrow.readsBack⟩
  exact hkeys.eq hrow.readsBack (hrow.number.symm.trans heq)

theorem shown_effect (hkeys : KeysRead) {c r : Prop} {s t : InspLink} (h : Shown s)
    (heff : Effect c r s t) : Shown t := by
  have ht := ledger_effect h.ledger heff
  cases heff with
  | apart ha =>
      refine shown_of_same h ht ha.cfg (rowsKept_of_eq ha.recipients ha.dbDown) fun a ct hct => ?_
      rw [ha.contacts] at hct
      exact ⟨hct, fun user huser => ha.users ▸ huser⟩
  | said hm => exact shown_of_same h ht rfl (refl _) fun a ct hct => ⟨hct, fun _ huser => huser⟩
  | collided ha => exact shown_collided hkeys h ha
  | introduced ha hid hfree hrow => exact shown_introduced h ha hfree (hrow h.keyed)
  | regrouped hct hr hgrps =>
      rename_i a ct row grps
      refine h.trans ht rfl rfl h.keyed fun b ct' hct' => .inl ?_
      change (s.contacts.insert a _).lookup b = _ at hct'
      rw [lookup_insert] at hct'
      split at hct'
      · rename_i hb
        cases hct'
        exact ⟨ct, by rw [hb, hct], rfl, rfl, fun user huser => ⟨user, huser, rfl⟩,
          fun row hrow => ⟨row, hrow, rfl, rfl⟩⟩
      · exact stays_of_eq hct' (fun _ huser => huser) fun _ hrow => hrow
  | moded hct => exact shown_moded hkeys h _ hct
  | marked hct hdown => exact absurd h.up hdown
  | renamed hct huser hfree => exact shown_renamed hkeys h hct hfree
  | announced hct huser hfree hdown => exact absurd h.up hdown
  | dropped => exact shown_dropped hkeys h _

theorem shown_effects (hkeys : KeysRead) {c r : Prop} {s t : InspLink} (h : Shown s)
    (heff : Effects c r s t) : Shown t :=
  heff.invariant (fun _ _ hs he => shown_effect hkeys hs he) h

/-- The UID and NICK lines of the other side are about users of its own. -/
def NamesOthers (l : InspLink) : Event → Prop
  | .remote ⟨some source, .raw cmd args suffix⟩ =>
      (cmd = ("UID" : Str) → ∀ uuid user, newFromUidLine args suffix = .ok (uuid, user) →
        ¬ IsOurs l uuid) ∧ (cmd = ("NICK" : Str) → ¬ IsOurs l source)
  | _ => True

theorem shown_withoutUser {s : InspLink} (h : Shown s) (uuid : Str) :
    Shown (withoutUser s uuid) := by
  refine shown_of_same h (ledger_withoutUser h.ledger uuid) rfl (refl _) fun a ct hct => ?_
  exact ⟨(h.ledger.withoutUser_contact.mp hct).1, fun user huser => lookup_of_erase huser⟩

theorem shown_insertUser {s t : InspLink} (h : Shown s) (ht : Ledger t) (hcfg : t.cfg = s.cfg)
    (hstore : t.store = s.store) (hcontacts : t.contacts = s.contacts) {uuid : Str}
    {user : InspUser} (husers : t.users = s.users.insert uuid user)
    (hours : ∀ a ct, s.contacts.lookup a = some ct → ct.uuid ≠ uuid) : Shown t := by
  refine shown_of_same h ht hcfg (hstore ▸ refl _) fun a ct hct => ?_
  rw [hcontacts] at hct
  refine ⟨hct, fun user' huser' => ?_⟩
  rwa [husers, lookup_insert, if_neg (hours a ct hct)] at huser'

theorem shown_opening (hkeys : KeysRead) {c r : Prop} {e : Event} {s t : InspLink}
    (h : Shown s) (he : NamesOthers s e) (hopen : Opening c r e s t) : Shown t := by
  have ht := ledger_opening h.ledger hopen
  have hsame : ∀ {u : InspLink}, Shown u → t.cfg = u.cfg → t.contacts = u.contacts →
      t.users = u.users → RowsKept u.store t.store → Shown t := by
    intro u hu hcfg hcontacts husers hstore
    refine shown_of_same hu ht hcfg hstore fun a ct hct => ?_
    rw [hcontacts] at hct
    exact ⟨hct, fun user huser => husers ▸ huser⟩
  cases hopen with
  | nothing hno => exact h
  | connected heff => exact hsame (shown_effects hkeys h heff) rfl rfl rfl (refl _)
  | linked heff => exact hsame (shown_effects hkeys h heff) rfl rfl rfl (refl _)
  | killed => exact shown_withoutUser h _
  | quit => exact shown_withoutUser h _
  | burst =>
      exact shown_insertUser h ht rfl rfl rfl rfl fun a ct hct => h.ledger.contact_ne_control hct
  | user huid =>
      refine shown_insertUser h ht rfl rfl rfl rfl fun a ct hct heq => he.1 rfl _ _ huid ?_
      exact heq ▸ h.ledger.isOurs_of_contact hct
  | nick huser =>
      refine shown_insertUser h ht rfl rfl rfl rfl fun a ct hct heq => he.2 rfl ?_
      exact heq ▸ h.ledger.isOurs_of_contact hct
  | host huser =>
      rename_i old
      refine h.trans ht rfl rfl h.keyed fun a ct hct => .inl ⟨ct, hct, rfl, rfl, ?_, ?_⟩
      · intro user hnew
        rw [lookup_insert] at hnew
        split at hnew
        · rename_i hsource
          cases hnew
          exact ⟨old, hsource ▸ huser, rfl⟩
        · exact ⟨user, hnew, rfl⟩
      · exact fun row hrow => ⟨row, hrow, rfl, rfl⟩
  | squit =>
      refine shown_of_same h ht rfl (refl _) fun a ct hct => ⟨hct, fun user huser => ?_⟩
      exact (lookup_retain_eq_some.mp huser).1
  | stored => exact hsame h rfl rfl rfl ((rowsKept_storeOp hkeys _).exec _)
  | clock => exact hsame h rfl rfl rfl (rowsKept_of_eq rfl rfl)

theorem shown_next (hkeys : KeysRead) {s t : Session} {e : Event} (h : Shown s.link)
    (he : NamesOthers s.link e) (ht : next s e = some t) : Shown t.link := by
  obtain ⟨-, u, hopen, heff⟩ :=
    happened_of_next (c := True) (r := True) (fun _ => trivial) (fun _ => trivial) ht
  exact shown_effects hkeys (shown_opening hkeys h he hopen) heff

/-- The channels of a ghost are brought up to date, unless it is missing or the database fails. -/
theorem wp_processGroupsForRecipient_regrouped (a : PduAddress) (l : InspLink) :
    wp (processGroupsForRecipient a)
      (fun _ t => ∃ ct row, l.contacts.lookup a = some ct ∧
        l.store.recipients.rows.find? (fun r => r.phoneNumber = normalizeAddress a) = some row ∧
        ∃ chs, ∃ grps : List Group,
          grps.Perm (l.store.groups.rows.filter fun grp => grp.participants.contains row.id) ∧
            t = { regrouped l a ct (grps.map Group.channel) with
              store := l.store.tick.tick, channels := chs })
      (fun _ _ => Up l.store → (l.contacts.lookup a).isSome →
        l.store.recipients.rows.find? (fun r => r.phoneNumber = normalizeAddress a) = none) l := by
  have hdown : ∀ {n : Nat} {P : Prop}, l.store.dbDown n = true → Up l.store → P := by
    intro n P hfails hup
    rw [hup] at hfails
    cases hfails
  rw [processGroupsForRecipient, wp_bind, wp_get]
  cases hct : l.contacts.lookup a with
  | none => exact fun _ hpresent => by cases hpresent
  | some ct =>
      dsimp only
      rw [wp_bind, wp_unwrap_some, wp_bind, wp_store, getGroupsForRecipient, wp_bind,
        getRecipientByAddrOpt, wp_query]
      split
      · rename_i hfails
        exact fun hup _ => hdown hfails hup
      · cases hfind : l.store.recipients.rows.find? fun r =>
            r.phoneNumber = normalizeAddress a with
        | none =>
            rw [show l.store.tick.recipients.rows.find? _ = none from hfind]
            exact fun _ _ => rfl
        | some row =>
            rw [show l.store.tick.recipients.rows.find? _ = some row from hfind]
            dsimp only
            rw [wp_query]
            split
            · rename_i hfails
              exact fun hup _ => hdown hfails hup
            · rw [wp_bind]
              refine wp_mono (wp_joins _ _ _) ?_ fun _ _ he => he
              rintro _ _ ⟨chs, rfl⟩
              rw [wp_bind]
              refine wp_mono (wp_joinLog _ _ _ _) ?_ fun _ _ he => he
              rintro _ _ rfl
              rw [wp_bind]
              refine wp_mono (wp_parts _ _ _ _) ?_ fun _ _ he => he
              rintro _ _ rfl
              rw [wp_modify]
              refine ⟨ct, row, rfl, rfl, chs, _, Crates.scanOrder.perm _, ?_⟩
              unfold regrouped
              rw [joinLines_withLog, ← List.append_assoc]
              rfl

/-- The link with the ghost of an address back in it. -/
def restored (l : InspLink) (a : PduAddress) (row : Recipient) (chans : List Str) : InspLink :=
  regrouped (introduced l a row.nick row.whatsapp) a
    ⟨uuidOf l.cfg.sid l.nextUserId, [], row.whatsapp⟩ chans

theorem wp_setupContact_restored {l : InspLink} {a : PduAddress} {row : Recipient}
    (hup : Up l.store) (hlinked : l.state = .linked) (hids : l.nextUserId ≤ 99999)
    (ha : l.contacts.lookup a = none) (hread : unNormalizeAddress row.phoneNumber = some a)
    (hfind : l.store.recipients.rows.find? (fun r => r.phoneNumber = normalizeAddress a) =
      some row) (hfree : nickExists l row.nick = false) :
    wp (setupContact a : LinkM Unit)
      (fun _ t => ∃ st chs, ∃ grps : List Group,
        grps.Perm (l.store.groups.rows.filter fun grp => grp.participants.contains row.id) ∧
          t = { restored l a row (grps.map Group.channel) with store := st, channels := chs })
      (fun _ _ => False) l := by
  have hnick : checkNickForCollisions l row.nick = none := by
    rw [checkNickForCollisions, hfree]
    rfl
  rw [setupContact, wp_bind, wp_store, getRecipientByAddrOpt, hup.wp_query]
  rw [show l.store.tick.recipients.rows.find? _ = some row from hfind]
  dsimp only
  rw [setupRecipient, wp_bind, Recipient.getAddr, Models.getAddr, hread]
  dsimp only
  rw [wp_pure, wp_bind]
  change wp (hasContact a) _ _ _
  rw [hasContact, wp_bind, wp_get, wp_pure, wp_when, if_pos (by rw [ha]; rfl)]
  change wp (setupContactFor row a) _ _ { l with store := l.store.tick }
  rw [setupContactFor, wp_bind, nickFor, wp_bind, wp_get]
  rw [show checkNickForCollisions { l with store := l.store.tick } row.nick = none from hnick]
  dsimp only
  rw [wp_pure, wp_bind, wp_get, wp_bind, newUser, wp_bind, getUuid, wp_bind, wp_get,
    if_neg (Nat.not_lt.mpr hids), wp_bind, wp_set, wp_pure, wp_bind, insertUser, wp_modify,
    wp_bind, makeUidLine, wp_bind, wp_get]
  dsimp only
  rw [AList.lookup_insert]
  dsimp only
  rw [wp_pure, wp_bind, send, wp_modify, wp_pure, wp_bind, addContact, wp_modify, wp_when,
    if_pos hlinked]
  have hnew : (introduced { l with store := l.store.tick } a row.nick
      row.whatsapp).contacts.lookup a =
        some ⟨uuidOf l.cfg.sid l.nextUserId, [], row.whatsapp⟩ := AList.lookup_insert _
  refine wp_mono (wp_processGroupsForRecipient_regrouped a _) ?_ fun _ _ hfails => ?_
  · rintro _ _ ⟨ct, row', hct, hrow', chs, grps, hgrps, rfl⟩
    cases hct.symm.trans hnew
    cases hrow'.symm.trans hfind
    exact ⟨_, chs, grps, hgrps, rfl⟩
  · have hmissing := hfails hup (Option.isSome_iff_exists.mpr ⟨_, hnew⟩)
    cases hfind.symm.trans hmissing

/-- The ghost of an address has come back as another user. -/
structure ReturnedAs (s t : InspLink) (a : PduAddress) (ct : InspContact) (nick u : Str) : Prop where
  fresh : u ∉ s.issued
  address : ∀ v, t.contactsUuidPdua.lookup v = some a ↔ v = u
  gone : t.users.lookup ct.uuid = none ∧ t.contactsUuidPdua.lookup ct.uuid = none ∧
    ∀ b ct', t.contacts.lookup b = some ct' → ct'.uuid ≠ ct.uuid
  contact : ∃ user chans, t.contacts.lookup a = some ⟨u, chans, ct.waMode⟩ ∧
    t.users.lookup u = some user ∧ user.nick = nick ∧
    t.outbox = s.outbox ++ uidLine s.cfg.sid u user :: joinLines u chans ∧
    ∀ ch, ch ∈ chans ↔ ch = s.cfg.logChan ∨ BridgedFor s.store a ch
  contacts : ∀ b, b ≠ a → t.contacts.lookup b = s.contacts.lookup b
  users : ∀ v, v ≠ ct.uuid → v ≠ u → t.users.lookup v = s.users.lookup v ∧
    t.contactsUuidPdua.lookup v = s.contactsUuidPdua.lookup v

omit [Crates] in
theorem mem_withLog {logChan ch : Str} {chans : List Str} :
    ch ∈ withLog logChan chans ↔ ch = logChan ∨ ch ∈ chans := by
  unfold withLog
  split
  · refine ⟨.inr, fun h => h.elim ?_ id⟩
    rintro rfl
    assumption
  · rw [List.mem_append, List.mem_singleton, or_comm]

theorem bridgedFor_iff {st : Store} {a : PduAddress} {row : Recipient} {grps : List Group}
    {ch : Str} (hfind : st.recipients.rows.find? (fun r => r.phoneNumber = normalizeAddress a) =
      some row)
    (hgrps : grps.Perm (st.groups.rows.filter fun grp => grp.participants.contains row.id)) :
    ch ∈ grps.map Group.channel ↔ BridgedFor st a ch := by
  simp only [List.mem_map, hgrps.mem_iff, List.mem_filter]
  constructor
  · rintro ⟨grp, ⟨hgrp, hpart⟩, hch⟩
    exact ⟨row, grp, hfind, hgrp, hpart, hch⟩
  · rintro ⟨r, grp, hr, hgrp, hpart, hch⟩
    cases hr.symm.trans hfind
    exact ⟨grp, ⟨hgrp, hpart⟩, hch⟩

section Restored

variable (l : InspLink) (uuid : Str) (a : PduAddress) (row : Recipient) (chs : List Str)

theorem lookup_uuids_restored (v : Str) :
    (restored (withoutUser l uuid) a row chs).contactsUuidPdua.lookup v =
      if v = uuidOf l.cfg.sid l.nextUserId then some a
      else (l.contactsUuidPdua.erase uuid).lookup v :=
  lookup_insert (l.contactsUuidPdua.erase uuid) _ v a

theorem lookup_users_restored (v : Str) :
    (restored (withoutUser l uuid) a row chs).users.lookup v =
      if v = uuidOf l.cfg.sid l.nextUserId then
        some (newFromRecipient l.now a row.nick (hostForWa l row.whatsapp))
      else (l.users.erase uuid).lookup v :=
  lookup_insert (l.users.erase uuid) _ v _

theorem lookup_contacts_restored (b : PduAddress) :
    (restored (withoutUser l uuid) a row chs).contacts.lookup b =
      if b = a then some ⟨uuidOf l.cfg.sid l.nextUserId, withLog l.cfg.logChan chs, row.whatsapp⟩
      else (withoutUser l uuid).contacts.lookup b := by
  refine (lookup_insert _ a b _).trans ?_
  split
  · rfl
  · rename_i hb
    exact (lookup_insert (withoutUser l uuid).contacts a b _).trans (if_neg hb)

end Restored

theorem returnedAs_restored {l t : InspLink} (h : Ledger l) {a : PduAddress} {ct : InspContact}
    {row : Recipient} {grps : List Group} (hct : l.contacts.lookup a = some ct)
    (hmode : ct.waMode = row.whatsapp)
    (hfind : l.store.recipients.rows.find? (fun r => r.phoneNumber = normalizeAddress a) =
      some row)
    (hgrps : grps.Perm (l.store.groups.rows.filter fun grp => grp.participants.contains row.id))
    {st : Store} {chs : List Str}
    (ht : t = { restored (withoutUser l ct.uuid) a row (grps.map Group.channel) with
      store := st, channels := chs }) :
    ReturnedAs l t a ct row.nick (uuidOf l.cfg.sid l.nextUserId) := by
  subst ht
  have hw := ledger_withoutUser h ct.uuid
  have hghosts := lookup_uuids_restored l ct.uuid a row (grps.map Group.channel)
  have husers := lookup_users_restored l ct.uuid a row (grps.map Group.channel)
  have hcontacts := lookup_contacts_restored l ct.uuid a row (grps.map Group.channel)
  have hothers : ∀ b, b ≠ a →
      (withoutUser l ct.uuid).contacts.lookup b = l.contacts.lookup b := by
    intro b hb
    refine Option.ext fun ct' => h.withoutUser_contact.trans (and_iff_left_of_imp fun hct' => ?_)
    exact fun heq => hb (h.uuid_injective hct' hct heq)
  have hne := h.contact_ne_next hct
  constructor
  · exact h.unissued le_rfl
  · intro v
    rw [hghosts]
    split
    · rename_i hv
      exact iff_of_true rfl hv
    · rename_i hv
      refine iff_of_false (fun hold => ?_) hv
      obtain ⟨ct', hct', -⟩ := hw.contact_of_uuid v a hold
      obtain ⟨hct', huuid⟩ := h.withoutUser_contact.mp hct'
      rw [hct] at hct'
      cases hct'
      exact huuid rfl
  · refine ⟨?_, ?_, fun b ct' hct' => ?_⟩
    · rw [husers, if_neg hne, lookup_erase, if_pos rfl]
    · rw [hghosts, if_neg hne, lookup_erase, if_pos rfl]
    · rw [hcontacts] at hct'
      split at hct'
      · cases hct'
        exact hne.symm
      · exact (h.withoutUser_contact.mp hct').2
  · refine ⟨_, withLog l.cfg.logChan (grps.map Group.channel), (hcontacts a).trans ?_,
      (husers _).trans (if_pos rfl), rfl, ?_, fun ch => ?_⟩
    · rw [if_pos rfl, hmode]
    · exact (List.append_nil _).trans (List.append_assoc ..)
    · rw [mem_withLog, bridgedFor_iff hfind hgrps]
  · intro b hb
    rw [hcontacts, if_neg hb, hothers b hb]
  · intro v hv hv'
    rw [husers, hghosts, if_neg hv', if_neg hv', lookup_erase, if_neg hv, lookup_erase, if_neg hv]
    exact ⟨rfl, rfl⟩

/-- Lines that say that a user is gone. -/
def Removes (u : Str) : Event → Prop
  | .remote ⟨some _, .kill uuid _⟩ => uuid = u
  | .remote ⟨some source, .quit _⟩ => source = u
  | _ => False

theorem wp_removeUser_returned {l : InspLink} (h : Shown l) (hlinked : l.state = .linked)
    (hids : l.nextUserId ≤ 99999) {a : PduAddress} {ct : InspContact} {row : Recipient}
    (hct : l.contacts.lookup a = some ct) (hrow : RowOf l.store a row) (hshows : Shows l ct row)
    (hnick : ∀ v user, v ≠ ct.uuid → l.users.lookup v = some user → user.nick ≠ row.nick) :
    wp (removeUser ct.uuid true)
      (fun _ t => ReturnedAs l t a ct row.nick (uuidOf l.cfg.sid l.nextUserId))
      (fun _ _ => False) l := by
  have hfind := h.keyed.find_row hrow.stored hrow.number
  have hread : unNormalizeAddress row.phoneNumber = some a := by
    rw [hrow.number]
    exact hrow.readsBack
  have hgone : (withoutUser l ct.uuid).contacts.lookup a = none := by
    rw [Option.eq_none_iff_forall_ne_some]
    intro ct' hct'
    obtain ⟨hct', huuid⟩ := h.ledger.withoutUser_contact.mp hct'
    rw [hct] at hct'
    cases hct'
    exact huuid rfl
  have hfree : nickExists (withoutUser l ct.uuid) row.nick = false := by
    rw [Bool.eq_false_iff]
    intro hexists
    simp only [nickExists, Bool.or_eq_true, List.any_eq_true, decide_eq_true_eq] at hexists
    rcases hexists with ⟨⟨v, user⟩, hmem, heq⟩ | hadmin
    · have huser : (l.users.erase ct.uuid).lookup v = some user :=
        mem_pairs.mp ((Crates.hashOrder.mem_run).mp hmem)
      rw [lookup_erase] at huser
      split at huser
      · cases huser
      · rename_i hv
        exact hnick v user hv huser heq
    · exact hshows.free hadmin
  rw [removeUser, wp_bind, wp_get, h.ledger.uuidOf_contact a ct hct]
  dsimp only
  rw [wp_bind, wp_set]
  have hstate : (withoutUser l ct.uuid) = { l with
      contacts := l.contacts.erase a
      contactsUuidPdua := l.contactsUuidPdua.erase ct.uuid
      users := l.users.erase ct.uuid } := by
    rw [withoutUser, h.ledger.uuidOf_contact a ct hct]
  rw [← hstate, wp_when, if_pos rfl]
  refine wp_mono (wp_setupContact_restored (l := withoutUser l ct.uuid) h.up hlinked hids hgone
    hread hfind hfree) ?_ fun _ _ he => he
  rintro _ t ⟨st, chs, grps, hgrps, ht⟩
  exact returnedAs_restored h.ledger hct hshows.mode hfind hgrps ht

theorem next_of_removes {s t : Session} {u : Str} {e : Event} (he : Removes u e)
    (h : next s e = some t) : t = perform s (removeUser u true) := by
  unfold next at h
  split at h
  swap
  · cases h
  match e, he with
  | .remote ⟨some _, .kill _ _⟩, he =>
      subst he
      simp only [step] at h
      split at h
      · cases h
      · exact (Option.some.inj h).symm
  | .remote ⟨some _, .quit _⟩, he =>
      subst he
      simp only [step] at h
      split at h
      · cases h
      · exact (Option.some.inj h).symm

theorem shown_of_run (hkeys : KeysRead) {cfg : InspConfig} {st : Store} {now : NaiveDateTime}
    {es : List Event} {s : Session} (hup : Up st) (hst : Written st)
    (hes : AllSteps next (fun s e => NamesOthers s.link e) (initial cfg st now) es)
    (hrun : run next (initial cfg st now) es = some s) : Shown s.link := by
  have hstart : Shown (initial cfg st now).link :=
    ⟨ledger_initial cfg st now, hup, hst.keyed hkeys, fun a ct hct => by cases hct⟩
  exact invariant_of_allSteps (I := fun s => Shown s.link)
    (fun _ _ _ he hs ht => shown_next hkeys hs he ht) hes hstart hrun

/-- A ghost that is taken from a link which is up comes back with the nick and the mode that
it had, and nothing else changes. -/
theorem returned_of_run (hcodes : CodesRead) {cfg : InspConfig} {st : Store}
    {now : NaiveDateTime} {es : List Event} {s : Session} (hup : Up st) (hst : Written st)
    (hes : AllSteps next (fun s e => NamesOthers s.link e) (initial cfg st now) es)
    (hrun : run next (initial cfg st now) es = some s) (hlinked : s.link.state = .linked)
    (hids : s.link.nextUserId ≤ 99999) {a : PduAddress} {ct : InspContact}
    (hct : s.link.contacts.lookup a = some ct) :
    ∃ row, s.link.store.recipients.rows.find? (fun r => r.phoneNumber = normalizeAddress a) =
      some row ∧ (∀ user, s.link.users.lookup ct.uuid = some user → user.nick = row.nick) ∧
      ((∀ v user, v ≠ ct.uuid → s.link.users.lookup v = some user → user.nick ≠ row.nick) →
        ∀ e t, Removes ct.uuid e → next s e = some t →
          t.outcome = none ∧ ∃ u, ReturnedAs s.link t.link a ct row.nick u) := by
  have h := shown_of_run hcodes.keysRead hup hst hes hrun
  obtain ⟨row, hrow, hshows⟩ := h.contacts a ct hct
  refine ⟨row, h.keyed.find_row hrow.stored hrow.number, hshows.user, fun hnick e t he ht => ?_⟩
  have hback := wp_removeUser_returned h hlinked hids hct hrow hshows hnick
  rw [next_of_removes he ht]
  obtain ⟨hreturned, hout⟩ := wp_perform (P := fun _ => False)
    (I := fun t => ReturnedAs s.link t a ct row.nick (uuidOf s.link.cfg.sid s.link.nextUserId))
    (wp_mono hback (fun _ _ hq => hq) fun _ _ hfalse => hfalse.elim)
  exact ⟨Option.eq_none_iff_forall_ne_some.mpr hout, _, hreturned⟩

end Returns

section Samples

attribute [local instance] Sample.crates

theorem namesOthers_befriending :
    AllSteps next (fun s e => NamesOthers s.link e) sampleStart befriending := by
  refine AllSteps.imp (I := fun _ => True) (fun _ _ _ _ _ _ => trivial) (fun s e he _ => ?_)
    foreign_befriending trivial
  obtain ⟨-, hforeign⟩ := he
  cases e with
  | remote m =>
      obtain ⟨_ | source, cmd⟩ := m
      · trivial
      · cases cmd with
        | raw cmd args suffix => exact ⟨hforeign.1, fun hcmd => hforeign.2 (.inl hcmd)⟩
        | _ => trivial
  | _ => trivial

/-- The only ghost is killed. -/
theorem returned_befriended : ∃ ct t u, befriended.link.contacts.lookup Sample.alice = some ct ∧
    next befriended (.remote ⟨some ("00BAAAAAA" : Str), .kill ct.uuid []⟩) = some t ∧
      ReturnedAs befriended.link t.link Sample.alice ct ['a'] u := by
  have hwritten : Written Sample.store := ⟨List.nodup_nil, fun r hr => by cases hr⟩
  have hcontact : (befriended.link.contacts.lookup Sample.alice).isSome = true := by
    decide +kernel
  obtain ⟨ct, hct⟩ := Option.isSome_iff_exists.mp hcontact
  have hrun : run next sampleStart befriending = some befriended := (Option.some_get _).symm
  obtain ⟨row, hrow, -, hback⟩ := returned_of_run codesRead (fun _ => rfl) hwritten
    namesOthers_befriending hrun (by decide +kernel) (by decide +kernel) hct
  have hnick : (befriended.link.store.recipients.rows.find? fun r =>
      r.phoneNumber = normalizeAddress Sample.alice).map Recipient.nick = some ['a'] := by
    decide +kernel
  rw [hrow] at hnick
  have hothers : ∀ user ∈ pairs befriended.link.users, user.1 ≠ ("00AZ00001" : Str) →
      user.2.nick ≠ ['a'] := by decide +kernel
  have huuid : (befriended.link.contacts.lookup Sample.alice).map InspContact.uuid =
      some ("00AZ00001" : Str) := by decide +kernel
  rw [hct] at huuid
  rw [Option.map_some, Option.some_inj] at hnick
  rw [hnick] at hback
  have hnext : (next befriended (.remote ⟨some ("00BAAAAAA" : Str),
      .kill ("00AZ00001" : Str) []⟩)).isSome = true := by decide +kernel
  obtain ⟨t, ht⟩ := Option.isSome_iff_exists.mp hnext
  rw [← Option.some.inj huuid] at ht hothers
  obtain ⟨-, u, hu⟩ := hback
    (fun v user hv huser => hothers (v, user) (mem_pairs.mpr huser) hv)
    (.remote ⟨some ("00BAAAAAA" : Str), .kill ct.uuid []⟩) t rfl ht
  exact ⟨ct, t, u, hct, ht, hu⟩

end Samples

end SmsIrc.LinkReturns
