import SmsIrc.LinkRouting

/-!
The three copies of what is known about a ghost: its row, the user map, and the network.
-/

namespace SmsIrc.LinkAgreement

open SmsIrc.Comm SmsIrc.Database SmsIrc.External SmsIrc.HashMaps SmsIrc.InspUsers
open SmsIrc.Link SmsIrc.LinkEffects SmsIrc.LinkEvents SmsIrc.LinkGhosts SmsIrc.LinkLedger
open SmsIrc.LinkRouting SmsIrc.LinkRuns SmsIrc.Models SmsIrc.Program SmsIrc.SerialTable
open SmsIrc.Text SmsIrc.Transition SmsIrc.Util

/-- The nick that a line gives to a user. -/
def nickSaid (u : Str) (m : IrcMessage) : Option Str :=
  if wordOf m = ("UID" : Str) ∧ (argsOf m).head? = some u then (argsOf m)[2]?
  else if wordOf m = ("NICK" : Str) ∧ m.prefixStr = some u then (argsOf m).head?
  else none

/-- The host that a line gives to a user. -/
def hostSaid (u : Str) (m : IrcMessage) : Option Str :=
  if wordOf m = ("UID" : Str) ∧ (argsOf m).head? = some u then (argsOf m)[4]?
  else if wordOf m = ("FHOST" : Str) ∧ m.prefixStr = some u then (argsOf m).head?
  else none

/-- What the last line that says something says. -/
def lastSaid (f : IrcMessage → Option Str) (out : List IrcMessage) : Option Str :=
  (out.filterMap f).getLast?

theorem lastSaid_append {f : IrcMessage → Option Str} {out ms : List IrcMessage}
    (h : ∀ m ∈ ms, f m = none) : lastSaid f (out ++ ms) = lastSaid f out := by
  have hnone : ms.filterMap f = [] := List.filterMap_eq_nil_iff.mpr h
  rw [lastSaid, List.filterMap_append, hnone, List.append_nil, lastSaid]

theorem lastSaid_concat {f : IrcMessage → Option Str} {out : List IrcMessage} {m : IrcMessage}
    {x : Str} (h : f m = some x) : lastSaid f (out ++ [m]) = some x := by
  have hsome : [m].filterMap f = [x] := by rw [List.filterMap_cons, h, List.filterMap_nil]
  rw [lastSaid, List.filterMap_append, hsome, List.getLast?_concat]

theorem said_none {u : Str} {m : IrcMessage} (huid : wordOf m ≠ ("UID" : Str))
    (hnick : wordOf m = ("NICK" : Str) → m.prefixStr ≠ some u)
    (hhost : wordOf m = ("FHOST" : Str) → m.prefixStr ≠ some u) :
    nickSaid u m = none ∧ hostSaid u m = none := by
  rw [nickSaid, if_neg fun h => huid h.1, if_neg fun h => hnick h.1 h.2, hostSaid,
    if_neg fun h => huid h.1, if_neg fun h => hhost h.1 h.2]
  exact ⟨rfl, rfl⟩

section Agreement

variable [Crates]

/-- Octets are read back from their display, and types of address from their octets. -/
structure CodesRead : Prop where
  octets : ∀ toa bytes, Crates.hexDecode (hexByte toa ++ Crates.hexDisplay bytes) =
    some (toa :: bytes)
  types : ∀ toa toa', Crates.toaTryFrom (Crates.toaToU8 toa) = some toa' → toa' = toa

/-- What is read back from a key of the database is the address that it was made of. -/
def KeysRead : Prop :=
  ∀ a b : PduAddress, unNormalizeAddress (normalizeAddress a) = some b → b = a

theorem CodesRead.keysRead (h : CodesRead) : KeysRead := by
  rintro ⟨toa, number⟩ b hb
  unfold unNormalizeAddress at hb
  split at hb
  · cases hb
  · rw [normalizeAddress, h.octets] at hb
    obtain ⟨toa', htoa, rfl⟩ := Option.map_eq_some_iff.mp hb
    rw [h.types toa toa' htoa]

theorem KeysRead.eq {a b : PduAddress} (h : KeysRead) (hb : ReadsBack b)
    (heq : normalizeAddress b = normalizeAddress a) : b = a :=
  h a b (by rw [← heq]; exact hb)

/-- A user, its row and the last lines about it agree. -/
structure Agree (l : InspLink) (ct : InspContact) (row : Recipient) (user : InspUser) : Prop where
  nick : user.nick = row.nick
  nickSaid : lastSaid (nickSaid ct.uuid) l.outbox = some row.nick
  mode : ct.waMode = row.whatsapp
  host : user.displayedHostname = hostForWa l ct.waMode
  hostSaid : lastSaid (hostSaid ct.uuid) l.outbox = some (hostForWa l ct.waMode)

/-- What holds of a link whose database works. -/
structure Agreed (l : InspLink) : Prop where
  ledger : Ledger l
  up : Up l.store
  keyed : Keyed l.store
  contacts : ∀ a ct, l.contacts.lookup a = some ct → ∃ row user, RowOf l.store a row ∧
    l.users.lookup ct.uuid = some user ∧ Agree l ct row user

theorem agree_of_eq {s t : InspLink} {ct ct' : InspContact} {row row' : Recipient}
    {user user' : InspUser} (h : Agree s ct row user) (hcfg : t.cfg = s.cfg)
    (huuid : ct'.uuid = ct.uuid) (hmode : ct'.waMode = ct.waMode)
    (hnick : row'.nick = row.nick) (hwa : row'.whatsapp = row.whatsapp)
    (husernick : user'.nick = user.nick)
    (hhost : user'.displayedHostname = user.displayedHostname)
    (hout : ∃ ms, t.outbox = s.outbox ++ ms ∧
      ∀ m ∈ ms, LinkAgreement.nickSaid ct.uuid m = none ∧ LinkAgreement.hostSaid ct.uuid m = none) :
    Agree t ct' row' user' := by
  obtain ⟨ms, hms, hnone⟩ := hout
  have hhosts : ∀ wa, hostForWa t wa = hostForWa s wa := by
    intro wa
    rw [hostForWa, hostForWa, hcfg]
  constructor
  · rw [husernick, hnick]
    exact h.nick
  · rw [hms, huuid, hnick, lastSaid_append fun m hm => (hnone m hm).1]
    exact h.nickSaid
  · rw [hmode, hwa]
    exact h.mode
  · rw [hhost, hmode, hhosts]
    exact h.host
  · rw [hms, huuid, hmode, hhosts, lastSaid_append fun m hm => (hnone m hm).2]
    exact h.hostSaid

/-- The rows of ghosts keep their nicks and modes. -/
structure RowsKept (st st' : Store) : Prop where
  rows : ∀ a row, RowOf st a row →
    ∃ row', RowOf st' a row' ∧ row'.nick = row.nick ∧ row'.whatsapp = row.whatsapp
  keyed : Keyed st → Keyed st'
  dbDown : st'.dbDown = st.dbDown

instance : IsPreorder Store RowsKept where
  refl _ := ⟨fun _ row h => ⟨row, h, rfl, rfl⟩, fun h => h, rfl⟩
  trans _ _ _ hst htu := by
    refine ⟨fun a row h => ?_, fun h => htu.keyed (hst.keyed h), htu.dbDown.trans hst.dbDown⟩
    obtain ⟨row', h', hnick, hwa⟩ := hst.rows a row h
    obtain ⟨row'', h'', hnick', hwa'⟩ := htu.rows a row' h'
    exact ⟨row'', h'', hnick'.trans hnick, hwa'.trans hwa⟩

/-- A step after which every contact was there before, and every user of one. -/
theorem agreed_of_same {s t : InspLink} (h : Agreed s) (ht : Ledger t) (hcfg : t.cfg = s.cfg)
    (hstore : RowsKept s.store t.store)
    (hcontacts : ∀ a ct, t.contacts.lookup a = some ct → ∃ ct', s.contacts.lookup a = some ct' ∧
      ct.uuid = ct'.uuid ∧ ct.waMode = ct'.waMode ∧
        t.users.lookup ct'.uuid = s.users.lookup ct'.uuid)
    (hout : ∃ ms, t.outbox = s.outbox ++ ms ∧ ∀ a ct, t.contacts.lookup a = some ct →
      ∀ m ∈ ms, nickSaid ct.uuid m = none ∧ hostSaid ct.uuid m = none) : Agreed t := by
  obtain ⟨ms, hms, hnone⟩ := hout
  refine ⟨ht, fun n => by rw [hstore.dbDown]; exact h.up n, hstore.keyed h.keyed,
    fun a ct hct => ?_⟩
  obtain ⟨ct', hct', huuid, hmode, husers⟩ := hcontacts a ct hct
  obtain ⟨row, user, hrow, huser, hagree⟩ := h.contacts a ct' hct'
  obtain ⟨row', hrow', hnick, hwa⟩ := hstore.rows a row hrow
  refine ⟨row', user, hrow', by rw [huuid, husers, huser], ?_⟩
  refine agree_of_eq hagree hcfg huuid hmode hnick hwa rfl rfl ⟨ms, hms, fun m hm => ?_⟩
  rw [← huuid]
  exact hnone a ct hct m hm

theorem agreed_of_one {s t : InspLink} (h : Agreed s) (ht : Ledger t) (hcfg : t.cfg = s.cfg)
    (hup : t.store.dbDown = s.store.dbDown) (hkeyed : Keyed t.store) (a : PduAddress)
    (hothers : ∀ b ct, b ≠ a → t.contacts.lookup b = some ct →
      s.contacts.lookup b = some ct ∧ t.users.lookup ct.uuid = s.users.lookup ct.uuid ∧
        ∀ row, RowOf s.store b row → RowOf t.store b row)
    (hout : ∃ ms, t.outbox = s.outbox ++ ms ∧ ∀ b ct, b ≠ a → t.contacts.lookup b = some ct →
      ∀ m ∈ ms, nickSaid ct.uuid m = none ∧ hostSaid ct.uuid m = none)
    (ha : ∀ ct, t.contacts.lookup a = some ct → ∃ row user, RowOf t.store a row ∧
      t.users.lookup ct.uuid = some user ∧ Agree t ct row user) : Agreed t := by
  obtain ⟨ms, hms, hnone⟩ := hout
  refine ⟨ht, fun n => by rw [hup]; exact h.up n, hkeyed, fun b ct hct => ?_⟩
  by_cases hb : b = a
  · subst hb
    exact ha ct hct
  · obtain ⟨hold, husers, hrows⟩ := hothers b ct hb hct
    obtain ⟨row, user, hrow, huser, hagree⟩ := h.contacts b ct hold
    exact ⟨row, user, hrows row hrow, husers.trans huser,
      agree_of_eq hagree hcfg rfl rfl rfl rfl rfl rfl ⟨ms, hms, hnone b ct hb hct⟩⟩

theorem rowOf_other (hkeys : KeysRead) {st : Store} {a b : PduAddress} {row : Recipient}
    (f : Recipient → Recipient) (hf : ∀ r, (f r).id = r.id)
    (hnum : ∀ r, (f r).phoneNumber = r.phoneNumber) (hne : b ≠ a) (h : RowOf st b row) :
    RowOf (rowChanged st a f hf) b row := by
  refine ⟨(touched_rowChanged st a f hf hnum).others row h.stored fun heq => hne ?_, h.number,
    h.readsBack⟩
  exact hkeys.eq h.readsBack (h.number.symm.trans heq)

theorem keyed_rowChanged {st : Store} (h : Keyed st) (a : PduAddress)
    (f : Recipient → Recipient) (hf : ∀ r, (f r).id = r.id)
    (hnum : ∀ r, (f r).phoneNumber = r.phoneNumber) : Keyed (rowChanged st a f hf) :=
  keyed_of_numbers h (touched_rowChanged st a f hf hnum).numbers

theorem rowsKept_of_eq {st st' : Store} (hrec : st'.recipients = st.recipients)
    (hdown : st'.dbDown = st.dbDown) : RowsKept st st' := by
  refine ⟨fun a row h => ⟨row, ⟨by rw [hrec]; exact h.stored, h.number, h.readsBack⟩, rfl, rfl⟩,
    fun h => keyed_of_numbers h (by rw [hrec]), hdown⟩

theorem line_none {c : Prop} {l : InspLink} {m : IrcMessage} (h : Line c False l m) (u : Str) :
    nickSaid u m = none ∧ hostSaid u m = none := by
  have hplain : ∀ {cmd : String}, Plain cmd → wordOf m = cmd.toList →
      nickSaid u m = none ∧ hostSaid u m = none := by
    intro cmd hcmd hword
    refine said_none ?_ ?_ ?_
    · rw [hword]
      exact hcmd.ne _ (by simp)
    · rw [hword]
      exact fun h => absurd h (hcmd.ne "NICK" (by simp))
    · rw [hword]
      exact fun h => absurd h (hcmd.ne "FHOST" (by simp))
  cases h with
  | server hcmd => exact hplain hcmd rfl
  | ghost hct hcmd => exact hplain hcmd rfl
  | control hc hcmd =>
      rcases hcmd with hcmd | rfl
      · exact hplain hcmd rfl
      · exact said_none (by decide : ("JOIN" : Str) ≠ ("UID" : Str))
          (fun h => absurd h (by decide : ("JOIN" : Str) ≠ ("NICK" : Str)))
          fun h => absurd h (by decide : ("JOIN" : Str) ≠ ("FHOST" : Str))
  | raw hr => exact hr.elim

omit [Crates] in
theorem uidLine_none {sid u v : Str} {user : InspUser} (hne : v ≠ u) :
    nickSaid u (uidLine sid v user) = none ∧ hostSaid u (uidLine sid v user) = none := by
  have hhead : ¬ (wordOf (uidLine sid v user) = ("UID" : Str) ∧
      (argsOf (uidLine sid v user)).head? = some u) := fun h => hne (Option.some.inj h.2)
  have hword : wordOf (uidLine sid v user) = ("UID" : Str) := rfl
  rw [nickSaid, if_neg hhead, if_neg (by rw [hword]; exact fun h => absurd h.1 (by decide)),
    hostSaid, if_neg hhead, if_neg (by rw [hword]; exact fun h => absurd h.1 (by decide))]
  exact ⟨rfl, rfl⟩

omit [Crates] in
theorem uidLine_said (sid u : Str) (user : InspUser) :
    nickSaid u (uidLine sid u user) = some user.nick ∧
      hostSaid u (uidLine sid u user) = some user.displayedHostname := by
  rw [nickSaid, if_pos ⟨rfl, rfl⟩, hostSaid, if_pos ⟨rfl, rfl⟩]
  exact ⟨rfl, rfl⟩

omit [Crates] in
theorem nickLine_said (u nick : Str) (args : List Str) :
    nickSaid u (.new (some u) ("NICK" : Str) (nick :: args) none) = some nick ∧
      hostSaid u (.new (some u) ("NICK" : Str) (nick :: args) none) = none := by
  have hne : ("NICK" : Str) ≠ ("UID" : Str) ∧ ("NICK" : Str) ≠ ("FHOST" : Str) := by decide
  rw [nickSaid, if_neg fun h => hne.1 h.1, if_pos ⟨rfl, rfl⟩, hostSaid,
    if_neg fun h => hne.1 h.1, if_neg fun h => hne.2 h.1]
  exact ⟨rfl, rfl⟩

omit [Crates] in
theorem hostLine_said (u host : Str) :
    nickSaid u (.new (some u) ("FHOST" : Str) [host] none) = none ∧
      hostSaid u (.new (some u) ("FHOST" : Str) [host] none) = some host := by
  have hne : ("FHOST" : Str) ≠ ("UID" : Str) ∧ ("FHOST" : Str) ≠ ("NICK" : Str) := by decide
  rw [nickSaid, if_neg fun h => hne.1 h.1, if_neg fun h => hne.2 h.1, hostSaid,
    if_neg fun h => hne.1 h.1, if_pos ⟨rfl, rfl⟩]
  exact ⟨rfl, rfl⟩

theorem agreed_introduced {s : InspLink} (h : Agreed s) {a : PduAddress} {nick : Str} {wa : Bool}
    (ha : s.contacts.lookup a = none)
    (hrow : ∃ r, RowOf s.store a r ∧ r.nick = nick ∧ r.whatsapp = wa) :
    Agreed (introduced s a nick wa) := by
  have hcontacts : ∀ b, (introduced s a nick wa).contacts.lookup b =
      if b = a then some ⟨uuidOf s.cfg.sid s.nextUserId, [], wa⟩ else s.contacts.lookup b :=
    fun b => lookup_insert s.contacts a b _
  have husers : ∀ u, (introduced s a nick wa).users.lookup u =
      if u = uuidOf s.cfg.sid s.nextUserId then
        some (newFromRecipient s.now a nick (hostForWa s wa)) else s.users.lookup u :=
    fun u => lookup_insert s.users _ u _
  have hold : ∀ b ct, b ≠ a → (introduced s a nick wa).contacts.lookup b = some ct →
      s.contacts.lookup b = some ct := by
    intro b ct hb hct
    rwa [hcontacts, if_neg hb] at hct
  refine agreed_of_one h (ledger_introduced h.ledger nick wa ha) rfl rfl h.keyed a ?_ ?_ ?_
  · intro b ct hb hct
    have hct' := hold b ct hb hct
    refine ⟨hct', ?_, fun _ hrow => hrow⟩
    rw [husers, if_neg (h.ledger.contact_ne_next hct')]
  · refine ⟨_, rfl, fun b ct hb hct m hm => ?_⟩
    rw [List.mem_singleton.mp hm]
    exact uidLine_none (h.ledger.contact_ne_next (hold b ct hb hct)).symm
  · intro ct hct
    rw [hcontacts, if_pos rfl] at hct
    cases hct
    obtain ⟨row, hrow, hnick, hwa⟩ := hrow
    obtain ⟨hsaid, hhost⟩ := uidLine_said s.cfg.sid (uuidOf s.cfg.sid s.nextUserId)
      (newFromRecipient s.now a nick (hostForWa s wa))
    exact ⟨row, _, hrow, by rw [husers, if_pos rfl], hnick.symm,
      by rw [hnick]; exact lastSaid_concat hsaid, hwa.symm, rfl, lastSaid_concat hhost⟩

omit [Crates] in
theorem word_none {source : Option Str} (cmd : String) {args : List Str} {suffix : Option Str}
    (h : cmd ∉ ["UID", "NICK", "FHOST"]) (u : Str) :
    nickSaid u (.new source cmd.toList args suffix) = none ∧
      hostSaid u (.new source cmd.toList args suffix) = none := by
  have hne : ∀ word ∈ ["UID", "NICK", "FHOST"], cmd.toList ≠ word.toList := by
    intro word hword heq
    rw [String.toList_inj] at heq
    exact h (heq ▸ hword)
  exact said_none (hne "UID" (by simp)) (fun heq => absurd heq (hne "NICK" (by simp)))
    fun heq => absurd heq (hne "FHOST" (by simp))

theorem ghostLine_none {l : InspLink} (h : Ledger l) {a b : PduAddress} {ct ct' : InspContact}
    (hct : l.contacts.lookup a = some ct) (hct' : l.contacts.lookup b = some ct') (hb : b ≠ a)
    (cmd : String) (hcmd : cmd ≠ "UID") (args : List Str) (suffix : Option Str) :
    nickSaid ct'.uuid (.new (some ct.uuid) cmd.toList args suffix) = none ∧
      hostSaid ct'.uuid (.new (some ct.uuid) cmd.toList args suffix) = none := by
  have hne : some ct.uuid ≠ some ct'.uuid := by
    intro heq
    exact hb (h.uuid_injective hct' hct (Option.some.inj heq).symm)
  refine said_none (fun heq => hcmd ?_) (fun _ => hne) fun _ => hne
  exact String.toList_inj.mp heq

theorem agreed_of_row (hkeys : KeysRead) {s t : InspLink} (h : Agreed s) (ht : Ledger t)
    (hcfg : t.cfg = s.cfg) {a : PduAddress} (f : Recipient → Recipient)
    (hf : ∀ r, (f r).id = r.id) (hstore : t.store = rowChanged s.store a f hf)
    (hnum : ∀ r, (f r).phoneNumber = r.phoneNumber)
    (hothers : ∀ b ct, b ≠ a → t.contacts.lookup b = some ct →
      s.contacts.lookup b = some ct ∧ t.users.lookup ct.uuid = s.users.lookup ct.uuid)
    (hout : ∃ ms, t.outbox = s.outbox ++ ms ∧ ∀ b ct, b ≠ a → t.contacts.lookup b = some ct →
      ∀ m ∈ ms, nickSaid ct.uuid m = none ∧ hostSaid ct.uuid m = none)
    (ha : ∀ ct, t.contacts.lookup a = some ct → ∃ row user, RowOf s.store a row ∧
      t.users.lookup ct.uuid = some user ∧ Agree t ct (f row) user) : Agreed t := by
  have hdown : t.store.dbDown = s.store.dbDown := by rw [hstore, rowChanged]
  have hkeyed : Keyed t.store := hstore ▸ keyed_rowChanged h.keyed a f hf hnum
  refine agreed_of_one h ht hcfg hdown hkeyed a (fun b ct hb hct => ?_) hout fun ct hct => ?_
  · obtain ⟨hold, husers⟩ := hothers b ct hb hct
    exact ⟨hold, husers, fun row hrow => hstore ▸ rowOf_other hkeys f hf hnum hb hrow⟩
  · obtain ⟨row, user, hrow, huser, hagree⟩ := ha ct hct
    exact ⟨f row, user, hstore ▸ hrow.changed hf hnum, huser, hagree⟩

theorem agreed_collided (hkeys : KeysRead) {s : InspLink} (h : Agreed s) {a : PduAddress}
    {nick : Str} (ha : s.contacts.lookup a = none) :
    Agreed { s with store := nickChanged s.store a nick nicksrcCollision } := by
  have hledger : Ledger { s with store := nickChanged s.store a nick nicksrcCollision } :=
    ledger_of_eq h.ledger rfl rfl rfl rfl (fun _ => rfl) fun _ => rfl
  refine agreed_of_row hkeys h hledger rfl
    (fun r => { r with nick := nick, nicksrc := nicksrcCollision }) (fun _ => rfl) rfl
    (fun _ => rfl) (fun _ _ _ hct => ⟨hct, rfl⟩)
    ⟨[], (List.append_nil _).symm, fun _ _ _ _ m hm => by cases hm⟩ ?_
  · intro ct hct
    rw [show s.contacts.lookup a = some ct from hct] at ha
    cases ha

theorem agreed_regrouped {s : InspLink} (h : Agreed s) {a : PduAddress} {ct : InspContact}
    (chans : List Str) (hct : s.contacts.lookup a = some ct) :
    Agreed (regrouped s a ct chans) := by
  have hledger : Ledger (regrouped s a ct chans) :=
    ledger_of_eq h.ledger rfl rfl rfl rfl (lookup_uuid_insert hct rfl) fun _ => rfl
  refine agreed_of_same h hledger rfl (refl _) ?_ ⟨_, List.append_assoc .., ?_⟩
  · intro b ct' hct'
    change (s.contacts.insert a _).lookup b = _ at hct'
    rw [lookup_insert] at hct'
    split at hct'
    · rename_i hb
      cases hct'
      exact ⟨ct, by rw [hb, hct], rfl, rfl, rfl⟩
    · exact ⟨ct', hct', rfl, rfl, rfl⟩
  · intro b ct' _ m hm
    rcases List.mem_append.mp hm with hm | hm
    · obtain ⟨ch, _, rfl⟩ := List.mem_map.mp hm
      exact word_none "JOIN" (by decide) _
    · obtain ⟨ch, _, rfl⟩ := List.mem_map.mp hm
      exact word_none "PART" (by decide) _

theorem agreed_moded (hkeys : KeysRead) {s : InspLink} (h : Agreed s) {a : PduAddress}
    {ct : InspContact} (wa : Bool) (hct : s.contacts.lookup a = some ct) :
    Agreed (moded s a ct wa) := by
  obtain ⟨row, user, hrow, huser, hagree⟩ := h.contacts a ct hct
  have hledger : Ledger (moded s a ct wa) :=
    ledger_of_eq h.ledger rfl rfl rfl rfl (lookup_uuid_insert hct rfl) fun _ => rfl
  have husers : ∀ u, (moded s a ct wa).users.lookup u =
      if u = ct.uuid then some { user with displayedHostname := hostForWa s wa }
      else s.users.lookup u := by
    intro u
    simp only [moded, huser]
    exact lookup_insert s.users ct.uuid u _
  have hcontacts : ∀ b, (moded s a ct wa).contacts.lookup b =
      if b = a then some { ct with waMode := wa } else s.contacts.lookup b :=
    fun b => lookup_insert s.contacts a b _
  refine agreed_of_row hkeys h hledger rfl (fun r => { r with whatsapp := wa }) (fun _ => rfl)
    rfl (fun _ => rfl) ?_ ⟨_, rfl, ?_⟩ ?_
  · intro b ct' hb hct'
    rw [hcontacts, if_neg hb] at hct'
    refine ⟨hct', ?_⟩
    rw [husers, if_neg fun heq => hb (h.ledger.uuid_injective hct' hct heq)]
  · intro b ct' hb hct' m hm
    rw [hcontacts, if_neg hb] at hct'
    rw [List.mem_singleton.mp hm]
    exact ghostLine_none h.ledger hct hct' hb "FHOST" (by decide) _ _
  · intro ct' hct'
    rw [hcontacts, if_pos rfl] at hct'
    cases hct'
    obtain ⟨hnick, hhost⟩ := hostLine_said ct.uuid (hostForWa s wa)
    refine ⟨row, _, hrow, (husers _).trans (if_pos rfl), hagree.nick, ?_, rfl, rfl,
      lastSaid_concat hhost⟩
    exact (lastSaid_append fun m hm => (List.mem_singleton.mp hm) ▸ hnick).trans hagree.nickSaid

theorem agreed_renamed (hkeys : KeysRead) {s : InspLink} (h : Agreed s) {a : PduAddress}
    {ct : InspContact} {user : InspUser} {nick : Str} {src : Int}
    (hct : s.contacts.lookup a = some ct) (huser : s.users.lookup ct.uuid = some user) :
    Agreed { renamed s ct user nick with store := nickChanged s.store a nick src } := by
  obtain ⟨row, user', hrow, huser', hagree⟩ := h.contacts a ct hct
  rw [huser] at huser'
  cases huser'
  have hledger : Ledger { renamed s ct user nick with store := nickChanged s.store a nick src } :=
    ledger_of_eq h.ledger rfl rfl rfl rfl (fun _ => rfl) fun _ => rfl
  have husers : ∀ u, (renamed s ct user nick).users.lookup u =
      if u = ct.uuid then some { user with nick := nick } else s.users.lookup u :=
    fun u => lookup_insert s.users ct.uuid u _
  refine agreed_of_row hkeys h hledger rfl (fun r => { r with nick := nick, nicksrc := src })
    (fun _ => rfl) rfl (fun _ => rfl) ?_ ⟨_, rfl, ?_⟩ ?_
  · intro b ct' hb hct'
    refine ⟨hct', ?_⟩
    exact (husers _).trans (if_neg fun heq => hb (h.ledger.uuid_injective hct' hct heq))
  · intro b ct' hb hct' m hm
    rw [List.mem_singleton.mp hm]
    exact ghostLine_none h.ledger hct hct' hb "NICK" (by decide) _ _
  · intro ct' hct'
    rw [show s.contacts.lookup a = some ct' from hct'] at hct
    cases hct
    obtain ⟨hnick, hhost⟩ := nickLine_said ct.uuid nick [decimalInt (timestamp s.now)]
    refine ⟨row, _, hrow, (husers _).trans (if_pos rfl), rfl, lastSaid_concat hnick, hagree.mode,
      hagree.host, ?_⟩
    exact (lastSaid_append fun m hm => (List.mem_singleton.mp hm) ▸ hhost).trans hagree.hostSaid

theorem keyed_dropped {s : InspLink} (h : Keyed s.store) (a : PduAddress) :
    Keyed (dropped s a).store where
  nodup := h.nodup.sublist (List.Sublist.map _ List.filter_sublist)
  normal r hr := h.normal r (List.mem_of_mem_filter hr)

theorem agreed_dropped (hkeys : KeysRead) {s : InspLink} (h : Agreed s) (a : PduAddress) :
    Agreed (dropped s a) := by
  have hcfg : (quitted s a).cfg = s.cfg := (quitted_eq s a).1
  obtain ⟨ms, hms, hquit⟩ := quitted_outbox s a
  refine agreed_of_one h (ledger_dropped h.ledger a) hcfg rfl (keyed_dropped h.keyed a) a ?_
    ⟨ms, hms, ?_⟩ ?_
  · intro b ct hb hct
    obtain ⟨hold, -⟩ := h.ledger.dropped_contact.mp hct
    refine ⟨hold, quitted_user fun ct' hct' heq => hb (h.ledger.uuid_injective hold hct' heq),
      fun row hrow => ⟨List.mem_filter.mpr ⟨hrow.stored, decide_eq_true fun heq => hb ?_⟩,
        hrow.number, hrow.readsBack⟩⟩
    exact hkeys.eq hrow.readsBack (hrow.number.symm.trans heq)
  · intro b ct hb hct m hm
    obtain ⟨ct', hct', rfl⟩ := hquit m hm
    exact word_none "QUIT" (by decide) _
  · intro ct hct
    exact absurd rfl (h.ledger.dropped_contact.mp hct).2

theorem agreed_effect (hkeys : KeysRead) {c : Prop} {s t : InspLink} (h : Agreed s)
    (heff : Effect c False s t) : Agreed t := by
  have ht := ledger_effect h.ledger heff
  cases heff with
  | apart ha =>
      refine agreed_of_same h ht ha.cfg (rowsKept_of_eq ha.recipients ha.dbDown) ?_
        ⟨[], by rw [ha.outbox, List.append_nil], fun _ _ _ m hm => by cases hm⟩
      intro a ct hct
      rw [ha.contacts] at hct
      exact ⟨ct, hct, rfl, rfl, by rw [ha.users]⟩
  | said hm =>
      refine agreed_of_same h ht rfl (refl _) (fun a ct hct => ⟨ct, hct, rfl, rfl, rfl⟩)
        ⟨_, rfl, fun a ct _ m hmem => ?_⟩
      rw [List.mem_singleton.mp hmem]
      exact line_none hm _
  | collided ha => exact agreed_collided hkeys h ha
  | introduced ha hid hfree hrow => exact agreed_introduced h ha (hrow h.keyed)
  | regrouped hct hr hgrps => exact agreed_regrouped h _ hct
  | moded hct => exact agreed_moded hkeys h _ hct
  | marked hct hdown => exact absurd h.up hdown
  | renamed hct huser hfree => exact agreed_renamed hkeys h hct huser
  | announced hct huser hfree hdown => exact absurd h.up hdown
  | dropped => exact agreed_dropped hkeys h _

theorem agreed_effects (hkeys : KeysRead) {c : Prop} {s t : InspLink} (h : Agreed s)
    (heff : Effects c False s t) : Agreed t :=
  heff.invariant (fun _ _ hs he => agreed_effect hkeys hs he) h

theorem rowsKept_tick (st : Store) : RowsKept st st.tick := rowsKept_of_eq rfl rfl

theorem rowsKept_insert (hkeys : KeysRead) (addr : PduAddress) {row : Nat → Recipient}
    (hrow : ∀ n, (row n).id = n) (hnum : ∀ n, (row n).phoneNumber = normalizeAddress addr) :
    Moves RowsKept (insertRecipient addr row hrow) := by
  intro st
  rw [insertRecipient, wp_bind]
  apply wp_query_of ⟨rowsKept_tick st, trivial⟩
  split
  · exact ⟨rowsKept_tick st, trivial⟩
  · rename_i hnew
    simp only [List.any_eq_true, decide_eq_true_eq, not_exists, not_and] at hnew
    have hfresh : ∀ r ∈ st.recipients.rows, r.phoneNumber ≠ normalizeAddress addr :=
      fun r hr => hnew r hr
    rw [wp_bind, wp_get, wp_bind, wp_set, wp_pure]
    refine ⟨fun a q hq => ⟨q, ⟨List.mem_append_left _ hq.stored, hq.number, hq.readsBack⟩, rfl,
      rfl⟩, fun hk => ⟨?_, ?_⟩, rfl⟩
    · change ((st.recipients.rows ++ [row st.recipients.next]).map Recipient.phoneNumber).Nodup
      rw [List.map_append]
      refine hk.nodup.append (List.nodup_singleton _) fun num hmem hlast => ?_
      obtain ⟨q, hq, rfl⟩ := List.mem_map.mp hmem
      exact hfresh q hq ((List.mem_singleton.mp hlast).trans (hnum _))
    · intro q hq a ha
      rcases List.mem_append.mp hq with hq | hq
      · exact hk.normal q hq a ha
      · rw [List.mem_singleton.mp hq, hnum] at ha ⊢
        rw [hkeys addr a ha]

theorem rowsKept_rowChanged (st : Store) (a : PduAddress) (f : Recipient → Recipient)
    (hf : ∀ r, (f r).id = r.id) (hnum : ∀ r, (f r).phoneNumber = r.phoneNumber)
    (hnick : ∀ r, (f r).nick = r.nick) (hwa : ∀ r, (f r).whatsapp = r.whatsapp) :
    RowsKept st (rowChanged st a f hf) := by
  refine ⟨fun b row hrow => ?_, fun hk => keyed_rowChanged hk a f hf hnum, rfl⟩
  by_cases hb : row.phoneNumber = normalizeAddress a
  · refine ⟨f row, ⟨List.mem_map.mpr ⟨row, hrow.stored, if_pos hb⟩, ?_, hrow.readsBack⟩,
      hnick row, hwa row⟩
    exact (hnum row).trans hrow.number
  · exact ⟨row, ⟨List.mem_map.mpr ⟨row, hrow.stored, if_neg hb⟩, hrow.number, hrow.readsBack⟩,
      rfl, rfl⟩

theorem rowsKept_storeOp (hkeys : KeysRead) (op : StoreOp) : Moves RowsKept op.run := by
  have hexecute : ∀ {f : Store → Store}, (∀ st, (f st).recipients = st.recipients) →
      (∀ st, (f st).dbDown = st.dbDown) → Moves RowsKept (execute f) :=
    fun hrec hdown => moves_execute rowsKept_tick fun st => rowsKept_of_eq (hrec st) (hdown st)
  cases op with
  | smsMessage addr pdu csmsData => exact hexecute (fun _ => rfl) fun _ => rfl
  | waMessage addr text groupTarget ts =>
      exact moves_checked rowsKept_tick fun st => rowsKept_of_eq rfl rfl
  | recipient addr nick =>
      exact Steps.bind (rowsKept_insert hkeys addr _ fun _ => rfl) fun _ => steps_pure _
  | waRecipient addr nick ntf nicksrc =>
      exact Steps.bind (rowsKept_insert hkeys addr _ fun _ => rfl) fun _ => steps_pure _
  | notify addr n =>
      exact moves_execute rowsKept_tick fun st =>
        rowsKept_rowChanged st addr (fun r => { r with notify := n }) (fun _ => rfl)
          (fun _ => rfl) (fun _ => rfl) fun _ => rfl
  | group jid chan parts adms topic =>
      refine Steps.bind (moves_storeGroup rowsKept_tick fun st row hrow _ => ?_) fun _ =>
        steps_pure _
      exact rowsKept_of_eq rfl rfl
  | updateGroup jid parts adms topic =>
      refine Steps.bind (moves_updateGroup rowsKept_tick fun st change hid _ => ?_) fun _ =>
        steps_pure _
      exact rowsKept_of_eq rfl rfl
  | deleteGroup id => exact moves_checked rowsKept_tick fun st => rowsKept_of_eq rfl rfl
  | waMsgid id => exact hexecute (fun _ => rfl) fun _ => rfl
  | waPersistence p => exact hexecute (fun _ => rfl) fun _ => rfl

/-- A line of the other side introduces, renames and moves users of its own, and no
server of ours quits. -/
def Foreign (l : InspLink) : Event → Prop
  | .remote ⟨some source, .raw cmd args suffix⟩ =>
      (cmd = ("UID" : Str) → ∀ uuid user, newFromUidLine args suffix = .ok (uuid, user) →
        ¬ IsOurs l uuid) ∧
      (cmd = ("NICK" : Str) ∨ cmd = ("FHOST" : Str) → ¬ IsOurs l source)
  | .remote ⟨some _, .squit server _⟩ => ∀ uuid, IsOurs l uuid → ¬ server <+: uuid
  | _ => True

/-- A step after which there are no other contacts, and their users are the same. -/
theorem agreed_of_users {s t : InspLink} (h : Agreed s) (ht : Ledger t) (hcfg : t.cfg = s.cfg)
    (hstore : t.store = s.store) (hout : t.outbox = s.outbox)
    (hcontacts : ∀ a ct, t.contacts.lookup a = some ct → s.contacts.lookup a = some ct ∧
      t.users.lookup ct.uuid = s.users.lookup ct.uuid) : Agreed t := by
  refine agreed_of_same h ht hcfg (hstore ▸ refl _) (fun a ct hct => ?_)
    ⟨[], by rw [hout, List.append_nil], fun _ _ _ m hm => by cases hm⟩
  obtain ⟨hold, husers⟩ := hcontacts a ct hct
  exact ⟨ct, hold, rfl, rfl, husers⟩

theorem agreed_withoutUser {s : InspLink} (h : Agreed s) (uuid : Str) :
    Agreed (withoutUser s uuid) := by
  refine agreed_of_users h (ledger_withoutUser h.ledger uuid) rfl rfl rfl fun a ct hct => ?_
  obtain ⟨hold, hne⟩ := h.ledger.withoutUser_contact.mp hct
  refine ⟨hold, ?_⟩
  change (s.users.erase uuid).lookup ct.uuid = _
  rw [lookup_erase, if_neg hne]

theorem agreed_insertUser {s : InspLink} (h : Agreed s) {uuid : Str} (user : InspUser)
    (hours : ∀ a ct, s.contacts.lookup a = some ct → ct.uuid ≠ uuid) :
    Agreed { s with users := s.users.insert uuid user } := by
  have hledger : Ledger { s with users := s.users.insert uuid user } :=
    ledger_of_eq h.ledger rfl rfl rfl rfl (fun _ => rfl) fun _ => rfl
  refine agreed_of_users h hledger rfl rfl rfl fun a ct hct => ⟨hct, ?_⟩
  rw [lookup_insert, if_neg (hours a ct hct)]

theorem agreed_burst {s : InspLink} (h : Agreed s) (sid : Str) : Agreed (burst s sid) := by
  have hledger : Ledger (burst s sid) :=
    ledger_of_eq h.ledger rfl rfl rfl rfl (fun _ => rfl) fun _ => rfl
  refine agreed_of_same h hledger rfl (refl _) (fun a ct hct => ⟨ct, hct, rfl, rfl, ?_⟩)
    ⟨_, rfl, fun a ct hct m hm => ?_⟩
  · change (s.users.insert _ _).lookup ct.uuid = _
    rw [lookup_insert, if_neg (h.ledger.contact_ne_control hct)]
  · simp only [burstLines, List.mem_cons, List.not_mem_nil, or_false] at hm
    rcases hm with rfl | rfl | rfl
    · exact word_none "BURST" (by decide) _
    · exact uidLine_none (h.ledger.contact_ne_control hct).symm
    · exact word_none "ENDBURST" (by decide) _

theorem agreed_squit {s : InspLink} (h : Agreed s) {server : Str}
    (hours : ∀ uuid, IsOurs s uuid → ¬ server <+: uuid) :
    Agreed { s with users := retain (fun k _ => !startsWith k server) s.users } := by
  have hledger : Ledger { s with users := retain (fun k _ => !startsWith k server) s.users } :=
    ledger_of_eq h.ledger rfl rfl rfl rfl (fun _ => rfl) fun _ => rfl
  refine agreed_of_users h hledger rfl rfl rfl fun a ct hct => ⟨hct, ?_⟩
  have hstays : startsWith ct.uuid server = false := by
    rw [startsWith, Bool.eq_false_iff, ne_eq, List.isPrefixOf_iff_prefix]
    exact hours ct.uuid (h.ledger.isOurs_of_contact hct)
  refine Option.ext fun user => lookup_retain_eq_some.trans ?_
  rw [hstays]
  exact and_iff_left rfl

theorem agreed_opening (hkeys : KeysRead) {c : Prop} {e : Event} {s t : InspLink}
    (h : Agreed s) (he : Foreign s e) (hopen : Opening c False e s t) : Agreed t := by
  have hsame : ∀ {u v : InspLink}, Agreed u → Ledger v → v.cfg = u.cfg →
      RowsKept u.store v.store → v.contacts = u.contacts → v.users = u.users →
        v.outbox = u.outbox → Agreed v := by
    intro u v hu hv hcfg hstore hcontacts husers hout
    refine agreed_of_same hu hv hcfg hstore (fun a ct hct => ?_)
      ⟨[], by rw [hout, List.append_nil], fun _ _ _ m hm => by cases hm⟩
    rw [hcontacts] at hct
    exact ⟨ct, hct, rfl, rfl, by rw [husers]⟩
  have ht := ledger_opening h.ledger hopen
  cases hopen with
  | nothing hno => exact h
  | connected heff => exact hsame (agreed_effects hkeys h heff) ht rfl (refl _) rfl rfl rfl
  | linked heff => exact hsame (agreed_effects hkeys h heff) ht rfl (refl _) rfl rfl rfl
  | killed => exact agreed_withoutUser h _
  | quit => exact agreed_withoutUser h _
  | burst => exact agreed_burst h _
  | user huid =>
      refine agreed_insertUser h _ fun a ct hct heq => he.1 rfl _ _ huid ?_
      rw [← heq]
      exact h.ledger.isOurs_of_contact hct
  | nick huser =>
      refine agreed_insertUser h _ fun a ct hct heq => he.2 (.inl rfl) ?_
      rw [← heq]
      exact h.ledger.isOurs_of_contact hct
  | host huser =>
      refine agreed_insertUser h _ fun a ct hct heq => he.2 (.inr rfl) ?_
      rw [← heq]
      exact h.ledger.isOurs_of_contact hct
  | squit => exact agreed_squit h he
  | stored => exact hsame h ht rfl ((rowsKept_storeOp hkeys _).exec _) rfl rfl rfl
  | clock => exact hsame h ht rfl (rowsKept_of_eq rfl rfl) rfl rfl rfl

theorem agreed_next (hkeys : KeysRead) {s t : Session} {e : Event} (h : Agreed s.link)
    (he : ¬ Raws s.link e ∧ Foreign s.link e) (ht : next s e = some t) : Agreed t.link := by
  obtain ⟨-, u, hopen, heff⟩ :=
    happened_of_next (c := True) (r := False) (fun _ => trivial) he.1 ht
  exact agreed_effects hkeys (agreed_opening hkeys h he.2 hopen) heff

/-- The numbers of the rows are those of addresses, each of one row. -/
structure Written (st : Store) : Prop where
  nodup : (st.recipients.rows.map Recipient.phoneNumber).Nodup
  numbers : ∀ r ∈ st.recipients.rows, ∃ a, r.phoneNumber = normalizeAddress a

theorem Written.keyed {st : Store} (h : Written st) (hkeys : KeysRead) : Keyed st := by
  refine ⟨h.nodup, fun r hr a ha => ?_⟩
  obtain ⟨b, hb⟩ := h.numbers r hr
  rw [hb] at ha ⊢
  rw [hkeys b a ha]

/-- In every run without errors of the database and without lines sent as they are, in
which the other side keeps to its own users, the row of a ghost, its user and the last
lines about it agree. -/
theorem agree_of_run (hcodes : CodesRead) {cfg : InspConfig} {st : Store} {now : NaiveDateTime}
    {es : List Event} {t : Session} (hup : Up st) (hst : Written st)
    (hes : AllSteps next (fun s e => ¬ Raws s.link e ∧ Foreign s.link e)
      (initial cfg st now) es) (hrun : run next (initial cfg st now) es = some t) :
    ∀ a ct, t.link.contacts.lookup a = some ct → ∃ row user,
      t.link.store.recipients.rows.find? (fun r => r.phoneNumber = normalizeAddress a) =
        some row ∧ t.link.users.lookup ct.uuid = some user ∧ Agree t.link ct row user := by
  have hkeys := hcodes.keysRead
  have hstart : Agreed (initial cfg st now).link := by
    refine ⟨ledger_initial cfg st now, hup, hst.keyed hkeys, fun a ct hct => ?_⟩
    cases hct
  have h := invariant_of_allSteps (I := fun s => Agreed s.link)
    (fun _ _ _ he hs ht => agreed_next hkeys hs he ht) hes hstart hrun
  intro a ct hct
  obtain ⟨row, user, hrow, huser, hagree⟩ := h.contacts a ct hct
  exact ⟨row, user, h.keyed.find_row hrow.stored hrow.number, huser, hagree⟩

end Agreement

section Samples

attribute [local instance] Sample.crates

theorem codesRead : CodesRead where
  octets toa bytes := Sample.hexDecode_bytes (toa :: bytes)
  types toa toa' h := by
    change (if toa = Sample.international ∨ toa = Sample.unknown then some toa else none) =
      some toa' at h
    split at h
    · exact (Option.some.inj h).symm
    · cases h

/-- A recipient is stored before the link is established. -/
def befriending : List Event := .storeOp (.recipient Sample.alice ['a']) :: linking

def befriended : Session := (run next sampleStart befriending).get (by decide +kernel)

theorem foreign_befriending :
    AllSteps next (fun s e => ¬ Raws s.link e ∧ Foreign s.link e) sampleStart befriending := by
  have hours : (run next sampleStart (befriending.take 3)).map (fun s =>
      (decide (("00BAAAAAA" : Str) = s.link.controlUuid), s.link.issued)) =
        some (false, []) := by decide +kernel
  refine allSteps_of_take fun k e t he ht => ?_
  match k, he with
  | 0, he =>
      cases he
      exact ⟨id, trivial⟩
  | 1, he =>
      cases he
      exact ⟨id, trivial⟩
  | 2, he =>
      cases he
      exact ⟨id, trivial⟩
  | 3, he =>
      cases he
      refine ⟨id, fun _ uuid user hline hmem => ?_, fun h => absurd h (by decide)⟩
      have huuid : (newFromUidLine [("00BAAAAAA" : Str), ['1'], ("admin" : Str), ['h'], ['h'],
          ['i'], ['0'], ['1'], ("+i" : Str)] (some [])).toOption.map Prod.fst =
            some ("00BAAAAAA" : Str) := by decide
      rw [hline] at huuid
      rw [ht] at hours
      obtain ⟨hcontrol, hissued⟩ := Prod.mk.inj (Option.some.inj hours)
      rcases hmem with hmem | hmem
      · rw [decide_eq_false_iff_not] at hcontrol
        exact hcontrol ((Option.some.inj huuid).symm.trans hmem)
      · rw [hissued] at hmem
        cases hmem
  | 4, he =>
      cases he
      exact ⟨id, fun h => absurd h (by decide), fun h => absurd h (by decide)⟩

/-- There is a ghost, whose three copies agree. -/
theorem agree_befriended : (∃ ct, befriended.link.contacts.lookup Sample.alice = some ct) ∧
    ∀ a ct, befriended.link.contacts.lookup a = some ct → ∃ row user,
      befriended.link.store.recipients.rows.find? (fun r => r.phoneNumber = normalizeAddress a) =
        some row ∧ befriended.link.users.lookup ct.uuid = some user ∧
          Agree befriended.link ct row user := by
  have hwritten : Written Sample.store := ⟨List.nodup_nil, fun r hr => by cases hr⟩
  refine ⟨Option.isSome_iff_exists.mp (by decide +kernel), ?_⟩
  exact agree_of_run codesRead (fun _ => rfl) hwritten foreign_befriending
    (Option.some_get _).symm

end Samples

end SmsIrc.LinkAgreement
