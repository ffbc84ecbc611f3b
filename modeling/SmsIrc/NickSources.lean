import SmsIrc.FactoryRuns
import SmsIrc.LinkAgreement
import SmsIrc.WhatsappFrame

/-!
Where the nicks of recipients come from: which of them an automatic change may replace,
and when WhatsApp asks for one.
-/

namespace SmsIrc.NickSources

open SmsIrc.Comm SmsIrc.Database SmsIrc.External SmsIrc.LinkAgreement SmsIrc.LinkEffects
open SmsIrc.Models SmsIrc.Program SmsIrc.SenderCommon SmsIrc.SerialTable SmsIrc.Text
open SmsIrc.Util SmsIrc.Whatsapp SmsIrc.WhatsappMsg
open SmsIrc.WhatsappFrame (moves_store)
open SmsIrc.WhatsappRuns (setStore)

/-- Nicks that only the user replaces. -/
def Settled (src : Int) : Prop := src = nicksrcUser ∨ src = nicksrcCollision

instance (src : Int) : Decidable (Settled src) := inferInstanceAs (Decidable (_ ∨ _))

/-- An automatic change may replace a nick of one source by one of another. -/
def MayReplace (oldsrc newsrc : Int) : Prop :=
  ¬ Settled oldsrc ∧
    (oldsrc = nicksrcWaContact → newsrc ≠ nicksrcWaNotify ∧ newsrc ≠ nicksrcAuto)

instance (oldsrc newsrc : Int) : Decidable (MayReplace oldsrc newsrc) :=
  inferInstanceAs (Decidable (_ ∧ (_ → _)))

/-- The decision that is made when a contact changes is right for what is stored then. -/
theorem mayReplace_of_shouldUpdate {oldsrc newsrc : Int}
    (h : shouldUpdate oldsrc newsrc = true) : MayReplace oldsrc newsrc := by
  unfold shouldUpdate at h
  unfold MayReplace Settled nicksrcUser nicksrcCollision nicksrcWaContact nicksrcWaNotify
    nicksrcAuto
  unfold nicksrcMigrated nicksrcAuto nicksrcWaNotify nicksrcWaContact at h
  split at h
  · omega
  · split at h
    · omega
    · split at h
      · omega
      · split at h
        · rw [decide_eq_true_eq] at h
          omega
        · cases h

section Stores

variable [Crates]

/-- A use of the database that changes at most one nick, that of an address. -/
structure Kept (ch : Option (PduAddress × Int)) (st st' : Store) : Prop where
  rows : ∀ r ∈ st.recipients.rows, ∃ r' ∈ st'.recipients.rows, r'.id = r.id ∧
    r'.phoneNumber = r.phoneNumber ∧ (r'.nick = r.nick ∧ r'.nicksrc = r.nicksrc ∨
      ∃ a src, ch = some (a, src) ∧ r.phoneNumber = normalizeAddress a ∧ r'.nicksrc = src)
  keyed : Keyed st → Keyed st'

theorem kept_of_eq {ch : Option (PduAddress × Int)} {st st' : Store}
    (h : st'.recipients = st.recipients) : Kept ch st st' := by
  refine ⟨fun r hr => ⟨r, ?_, rfl, rfl, .inl ⟨rfl, rfl⟩⟩, fun hk => keyed_of_numbers hk (by rw [h])⟩
  rw [h]
  exact hr

theorem Kept.trans {ch : Option (PduAddress × Int)} {s t u : Store} (hst : Kept none s t)
    (htu : Kept ch t u) : Kept ch s u := by
  refine ⟨fun r hr => ?_, fun hk => htu.keyed (hst.keyed hk)⟩
  obtain ⟨r', hr', hid, hnum, hsame | ⟨a, src, hno, -⟩⟩ := hst.rows r hr
  · obtain ⟨r'', hr'', hid', hnum', hlater⟩ := htu.rows r' hr'
    refine ⟨r'', hr'', hid'.trans hid, hnum'.trans hnum, ?_⟩
    rcases hlater with hlater | ⟨a, src, hch, ha, hsrc⟩
    · exact .inl ⟨hlater.1.trans hsame.1, hlater.2.trans hsame.2⟩
    · exact .inr ⟨a, src, hch, hnum.symm.trans ha, hsrc⟩
  · cases hno

theorem Kept.then {ch : Option (PduAddress × Int)} {s t u : Store} (hst : Kept ch s t)
    (htu : Kept none t u) : Kept ch s u := by
  refine ⟨fun r hr => ?_, fun hk => htu.keyed (hst.keyed hk)⟩
  obtain ⟨r', hr', hid, hnum, hch⟩ := hst.rows r hr
  obtain ⟨r'', hr'', hid', hnum', hsame | ⟨a, src, hno, -⟩⟩ := htu.rows r' hr'
  · refine ⟨r'', hr'', hid'.trans hid, hnum'.trans hnum, ?_⟩
    rcases hch with hold | ⟨a, src, hch, ha, hsrc⟩
    · exact .inl ⟨hsame.1.trans hold.1, hsame.2.trans hold.2⟩
    · exact .inr ⟨a, src, hch, ha, hsame.2.trans hsrc⟩
  · cases hno

instance : IsPreorder Store (Kept none) where
  refl _ := kept_of_eq rfl
  trans _ _ _ hst htu := hst.trans htu

theorem Kept.weaken {ch : Option (PduAddress × Int)} {s t : Store} (h : Kept none s t) :
    Kept ch s t := h.trans (kept_of_eq rfl)

theorem kept_tick {ch : Option (PduAddress × Int)} (st : Store) : Kept ch st st.tick :=
  kept_of_eq rfl

theorem kept_rowChanged {ch : Option (PduAddress × Int)} (st : Store) (a : PduAddress)
    (f : Recipient → Recipient) (hf : ∀ r, (f r).id = r.id)
    (hnum : ∀ r, (f r).phoneNumber = r.phoneNumber)
    (hch : ∀ r, (f r).nick = r.nick ∧ (f r).nicksrc = r.nicksrc ∨
      ∃ src, ch = some (a, src) ∧ (f r).nicksrc = src) : Kept ch st (rowChanged st a f hf) := by
  refine ⟨fun r hr => ?_, fun hk => keyed_rowChanged hk a f hf hnum⟩
  by_cases hnumber : r.phoneNumber = normalizeAddress a
  · refine ⟨f r, List.mem_map.mpr ⟨r, hr, if_pos hnumber⟩, hf r, hnum r, ?_⟩
    rcases hch r with hsame | ⟨src, hch, hsrc⟩
    · exact .inl hsame
    · exact .inr ⟨a, src, hch, hnumber, hsrc⟩
  · exact ⟨r, List.mem_map.mpr ⟨r, hr, if_neg hnumber⟩, rfl, rfl, .inl ⟨rfl, rfl⟩⟩

theorem kept_updateRecipientNick (a : PduAddress) (nick : Str) (src : Int) :
    Moves (Kept (some (a, src))) (updateRecipientNick a nick src) := by
  intro st
  rw [updateRecipientNick, updateRecipient, wp_execute]
  split
  · exact ⟨kept_tick st, trivial⟩
  · exact (kept_tick st).trans (kept_rowChanged st.tick a
      (fun r => { r with nick := nick, nicksrc := src }) (fun _ => rfl) (fun _ => rfl)
      fun _ => .inr ⟨src, rfl, rfl⟩)

theorem kept_query {α : Type} (f : Store → α) : Moves (Kept none) (query f) :=
  moves_query kept_tick f

theorem kept_insertRecipient (hkeys : KeysRead) (addr : PduAddress) {row : Nat → Recipient}
    (hrow : ∀ n, (row n).id = n) (hnum : ∀ n, (row n).phoneNumber = normalizeAddress addr) :
    Moves (Kept none) (insertRecipient addr row hrow) := by
  have hrows : Moves (fun st st' : Store => st.recipients.rows ⊆ st'.recipients.rows)
      (insertRecipient addr row hrow) := by
    have : IsPreorder Store (fun st st' : Store => st.recipients.rows ⊆ st'.recipients.rows) :=
      { refl := fun _ => List.Subset.refl _
        trans := fun _ _ _ h h' => List.Subset.trans h h' }
    exact moves_insertRecipient (fun _ => List.Subset.refl _) fun st =>
      List.subset_append_left _ _
  intro st
  refine wp_mono (wp_and (hrows st) (rowsKept_insert hkeys addr hrow hnum st)) ?_ ?_
  · rintro _ t ⟨hsub, hkept⟩
    exact ⟨fun r hr => ⟨r, hsub hr, rfl, rfl, .inl ⟨rfl, rfl⟩⟩, hkept.keyed⟩
  · rintro _ t ⟨⟨hsub, -⟩, hkept, -⟩
    exact ⟨⟨fun r hr => ⟨r, hsub hr, rfl, rfl, .inl ⟨rfl, rfl⟩⟩, hkept.keyed⟩, trivial⟩

/-- The row of an address has a source with a property. -/
def RowWith (st : Store) (a : PduAddress) (P : Int → Prop) : Prop :=
  ∃ r ∈ st.recipients.rows, r.phoneNumber = normalizeAddress a ∧ P r.nicksrc

theorem RowWith.kept {ch : Option (PduAddress × Int)} {st st' : Store} {a : PduAddress}
    {P : Int → Prop} (h : RowWith st a P) (hkept : Kept ch st st')
    (hch : ∀ b src, ch = some (b, src) → normalizeAddress a = normalizeAddress b → P src) :
    RowWith st' a P := by
  obtain ⟨r, hr, hnum, hP⟩ := h
  obtain ⟨r', hr', -, hnum', hsame | ⟨b, src, heq, hb, hsrc⟩⟩ := hkept.rows r hr
  · exact ⟨r', hr', hnum'.trans hnum, hsame.2.symm ▸ hP⟩
  · exact ⟨r', hr', hnum'.trans hnum, hsrc.symm ▸ hch b src heq (hnum.symm.trans hb)⟩

/-- A command that WhatsApp has sent for a contact is right for what is stored. -/
inductive Asked (st : Store) : ContactFactoryCommand → Prop
  | setup {a : PduAddress} (h : RowWith st a fun src => ¬ Settled src) : Asked st (.setupContact a)
  | change {a : PduAddress} {nick : Str} {src : Int} (hsrc : src ≠ nicksrcUser)
      (h : RowWith st a fun oldsrc => MayReplace oldsrc src) :
      Asked st (.forwardCommand a (.changeNick nick src))

/-- What WhatsApp has done: it has changed no nick itself. -/
def Asks (m t : WhatsappManager) : Prop :=
  Kept none m.msgproc.store t.msgproc.store ∧
    ∃ cs, t.cfTx = m.cfTx ++ cs ∧ ∀ c ∈ cs, Asked t.msgproc.store c

theorem Asked.kept {st st' : Store} {c : ContactFactoryCommand} (h : Asked st c)
    (hkept : Kept none st st') : Asked st' c := by
  cases h with
  | setup h => exact .setup (h.kept hkept nofun)
  | change hsrc h => exact .change hsrc (h.kept hkept nofun)

theorem asks_of_kept {m t : WhatsappManager} (h : Kept none m.msgproc.store t.msgproc.store)
    (hcf : t.cfTx = m.cfTx) : Asks m t := ⟨h, [], by rw [hcf, List.append_nil], nofun⟩

instance : IsPreorder WhatsappManager Asks where
  refl m := asks_of_kept (refl _) rfl
  trans _ _ _ hst htu := by
    obtain ⟨hst, cs, hcs, hasked⟩ := hst
    obtain ⟨htu, ds, hds, hlater⟩ := htu
    refine ⟨hst.trans htu, cs ++ ds, by rw [hds, hcs, List.append_assoc], fun c hc => ?_⟩
    rcases List.mem_append.mp hc with hc | hc
    · exact (hasked c hc).kept htu
    · exact hlater c hc

theorem asks_cfSend {m : WhatsappManager} {c : ContactFactoryCommand}
    (h : Asked m.msgproc.store c) : Asks m { m with cfTx := m.cfTx ++ [c] } :=
  ⟨refl _, [c], rfl, fun _ hd => List.mem_singleton.mp hd ▸ h⟩

theorem asks_store {α : Type} {p : StoreM α} (h : Moves (Kept none) p) :
    Moves Asks (store p : WaM α) := moves_store h fun _ _ ht => asks_of_kept ht rfl

/-- What a JID stands for, which does not depend on the state. -/
def addressOf (jid : Jid) : Except Failure (Option PduAddress) :=
  (exec (jidToAddress jid : Prog Failure Unit (Option PduAddress)) ()).1

theorem exec_jidToAddress {σ : Type} (jid : Jid) (s : σ) :
    exec (jidToAddress jid) s = (addressOf jid, s) := by
  unfold addressOf jidToAddress
  split
  · rename_i pn hpn
    cases Crates.parseAddress pn <;> rfl
  · rfl

theorem wp_addressOf {σ : Type} (jid : Jid) (s : σ) :
    wp (jidToAddress jid) (fun o t => s = t ∧ addressOf jid = .ok o) (fun _ t => s = t) s := by
  unfold wp
  rw [exec_jidToAddress]
  cases addressOf jid with
  | ok o => exact ⟨rfl, rfl⟩
  | error e => rfl

theorem wp_nickForJid (jid : Jid) (m : WhatsappManager) :
    wp (getNickForJid jid) (fun p t => m = t ∧ p.2 ≠ nicksrcUser ∧ ¬ Settled p.2)
      (fun _ t => m = t) m := by
  have hcontact : nicksrcWaContact ≠ nicksrcUser ∧ ¬ Settled nicksrcWaContact := by decide
  have hnotify : nicksrcWaNotify ≠ nicksrcUser ∧ ¬ Settled nicksrcWaNotify := by decide
  have hauto : nicksrcAuto ≠ nicksrcUser ∧ ¬ Settled nicksrcAuto := by decide
  rw [getNickForJid, wp_bind, wp_get]
  dsimp only
  split
  · exact ⟨rfl, hcontact⟩
  · exact ⟨rfl, hnotify⟩
  · rw [wp_bind]
    refine wp_mono (wp_addressOf jid m) ?_ fun _ _ h => h
    rintro (_ | a) _ ⟨rfl, -⟩
    · rfl
    · exact ⟨rfl, hauto⟩

theorem wp_insertedRow (hkeys : KeysRead) (addr : PduAddress) {row : Nat → Recipient}
    (hrow : ∀ n, (row n).id = n) (hnum : ∀ n, (row n).phoneNumber = normalizeAddress addr)
    {src : Int} (hsrc : ∀ n, (row n).nicksrc = src) (st : Store) :
    wp (insertRecipient addr row hrow)
      (fun r t => Kept none st t ∧ r ∈ t.recipients.rows ∧ r.phoneNumber = normalizeAddress addr ∧
        r.nicksrc = src) (fun _ t => Kept none st t) st := by
  have hin : wp (insertRecipient addr row hrow)
      (fun r t => r ∈ t.recipients.rows ∧ r.phoneNumber = normalizeAddress addr ∧
        r.nicksrc = src) (fun _ _ => True) st := by
    rw [insertRecipient, wp_bind]
    apply wp_query_of trivial
    split
    · trivial
    · rw [wp_bind, wp_get, wp_bind, wp_set, wp_pure]
      exact ⟨List.mem_append_right _ (List.mem_singleton.mpr rfl), hnum _, hsrc _⟩
  exact wp_mono (wp_and (kept_insertRecipient hkeys addr hrow hnum st) hin) (fun _ _ h => h)
    fun _ _ h => h.1.1

theorem wp_recipientRow (hkeys : KeysRead) (jid : Jid) (addr : PduAddress)
    (m : WhatsappManager) :
    wp (recipientFor jid addr)
      (fun r t => Asks m t ∧ r ∈ t.msgproc.store.recipients.rows ∧
        r.phoneNumber = normalizeAddress addr) (fun _ t => Asks m t) m := by
  have htick : Asks m (setStore m m.msgproc.store.tick) := asks_of_kept (kept_tick _) rfl
  rw [recipientFor, wp_bind, WhatsappFrame.wp_store]
  apply wp_query_of htick
  split
  · rename_i r hr
    exact ⟨htick, List.mem_of_find?_eq_some hr, by simpa using List.find?_some hr⟩
  · rw [wp_bind]
    refine wp_mono (wp_nickForJid jid _) ?_ ?_
    swap
    · rintro _ _ rfl
      exact htick
    rintro ⟨nick, src⟩ _ ⟨rfl, -, hsrc⟩
    rw [wp_bind, wp_get, wp_bind, WhatsappFrame.wp_store]
    refine wp_mono (wp_insertedRow hkeys addr (fun _ => rfl) (fun _ => rfl)
      (fun _ => (rfl : _ = src)) _) ?_ ?_
    · rintro r t ⟨ht, hr, hnum, hnew⟩
      have hstored : Asks m (setStore m t) :=
        IsTrans.trans _ _ _ htick (asks_of_kept ht rfl)
      rw [wp_bind, cfSend, wp_modify, wp_pure]
      refine ⟨IsTrans.trans _ _ _ hstored (asks_cfSend (.setup ⟨r, hr, hnum, ?_⟩)), hr, hnum⟩
      rw [hnew]
      exact hsrc
    · exact fun _ t ht => IsTrans.trans _ _ _ htick (asks_of_kept ht rfl)

theorem asks_contactChanged (hkeys : KeysRead) (ct : WaContact) {addr : PduAddress}
    (haddr : addressOf ct.jid = .ok (some addr)) : Moves Asks (contactChanged ct addr) := by
  have hmeets : ∀ m, wp (getWaRecipient ct.jid)
      (fun r t => Asks m t ∧ r ∈ t.msgproc.store.recipients.rows ∧
        r.phoneNumber = normalizeAddress addr) (fun _ t => Asks m t) m := by
    intro m
    rw [getWaRecipient, wp_bind]
    refine wp_mono (wp_addressOf ct.jid m) ?_ ?_
    · rintro o _ ⟨rfl, ho⟩
      rw [haddr, Except.ok.injEq] at ho
      subst ho
      exact wp_recipientRow hkeys ct.jid addr m
    · rintro _ _ rfl
      exact refl m
  have hntf : Moves (Kept none) (updateRecipientNotify addr ct.notify) :=
    moves_execute kept_tick fun st => kept_rowChanged st addr
      (fun r => { r with notify := ct.notify }) (fun _ => rfl) (fun _ => rfl)
      fun _ => .inl ⟨rfl, rfl⟩
  intro m
  rw [contactChanged, wp_bind, wp_modify, wp_bind]
  have hknown : Asks m { m with contacts := m.contacts.insert ct.jid ct } :=
    asks_of_kept (refl _) rfl
  refine wp_mono (hmeets _) ?_ fun _ t ht => ⟨IsTrans.trans _ _ _ hknown ht, trivial⟩
  rintro recip t ⟨ht, hrecip, hnum⟩
  have hmt : Asks m t := IsTrans.trans _ _ _ hknown ht
  rw [wp_bind]
  refine wp_mono (wp_nickForJid ct.jid t) ?_ ?_
  swap
  · rintro _ _ rfl
    exact ⟨hmt, trivial⟩
  rintro ⟨nick, src⟩ _ ⟨rfl, huser, -⟩
  rw [wp_bind]
  refine wp_mono (Steps.when (P := fun _ => True) (asks_store hntf) t) ?_ ?_
  swap
  · exact fun _ u hu => ⟨IsTrans.trans _ _ _ hmt hu.1, trivial⟩
  intro _ u hu
  have hmu : Asks m u := IsTrans.trans _ _ _ hmt hu
  rw [wp_bind, wp_get, wp_when]
  split
  · rename_i hdecided
    rw [cfSend, wp_modify]
    refine IsTrans.trans _ _ _ hmu (asks_cfSend (.change huser ?_))
    have hrow : RowWith t.msgproc.store addr fun oldsrc => MayReplace oldsrc src :=
      ⟨recip, hrecip, hnum, mayReplace_of_shouldUpdate hdecided.2.1⟩
    exact hrow.kept hu.1 nofun
  · exact hmu

theorem asks_onContactChange (hkeys : KeysRead) (ct : WaContact) :
    Moves Asks (onContactChange ct) := by
  unfold onContactChange
  split
  · exact steps_pure _
  · intro m
    rw [wp_bind]
    refine wp_mono (wp_addressOf ct.jid m) ?_ ?_
    · rintro (_ | addr) _ ⟨rfl, haddr⟩
      · exact (refl m : Asks m m)
      · exact asks_contactChanged hkeys ct haddr m
    · rintro _ _ rfl
      exact ⟨refl m, trivial⟩

end Stores

end SmsIrc.NickSources
