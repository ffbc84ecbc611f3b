import Mathlib.Data.List.ReduceOption
import SmsIrc.FactoryRuns
import SmsIrc.LinkAgreement

/-!
Where a ghost with a connection of its own is kept: among the attempts to connect, the
contacts, or the failures.
-/

namespace SmsIrc.FactoryKeeping

open SmsIrc.Comm SmsIrc.Contact SmsIrc.ContactCommon SmsIrc.Database SmsIrc.External
open SmsIrc.Factory SmsIrc.FactoryRuns SmsIrc.HashMaps SmsIrc.LinkAgreement SmsIrc.LinkEffects
open SmsIrc.LinkGhosts SmsIrc.Models SmsIrc.Program SmsIrc.SenderCommon
open SmsIrc.Text SmsIrc.Transition SmsIrc.Util

section Keeping

variable [Crates]

/-- A step that may start attempts to connect, for addresses of rows that have no contact. -/
structure Starts (s t : ContactFactory) : Prop where
  starting : ∀ a, (s.contactsStarting.lookup a).isSome → (t.contactsStarting.lookup a).isSome
  started : ∀ a, (t.contactsStarting.lookup a).isSome → (s.contactsStarting.lookup a).isSome ∨
    s.contacts.lookup a = none ∧ (Keyed s.store → ∃ row, RowOf s.store a row)
  contacts : ∀ a, (t.contacts.lookup a).isSome = (s.contacts.lookup a).isSome
  failed : t.failedContacts = s.failedContacts
  setUp : ∀ a ∈ t.setUp, a ∈ s.setUp ∨ (t.contactsStarting.lookup a).isSome ∧
    (Keyed s.store → ∃ row, RowOf s.store a row)
  recipients : t.store.recipients = s.store.recipients
  dbDown : t.store.dbDown = s.store.dbDown

theorem rowOf_congr {st st' : Store} (h : st'.recipients = st.recipients) {a : PduAddress}
    {row : Recipient} (hrow : RowOf st a row) : RowOf st' a row :=
  ⟨by rw [h]; exact hrow.stored, hrow.number, hrow.readsBack⟩

theorem keyed_congr {st st' : Store} (h : st'.recipients = st.recipients) (hk : Keyed st) :
    Keyed st' := keyed_of_numbers hk (by rw [h])

theorem starts_of_eq {s t : ContactFactory} (hstarting : t.contactsStarting = s.contactsStarting)
    (hcontacts : ∀ a, (t.contacts.lookup a).isSome = (s.contacts.lookup a).isSome)
    (hfailed : t.failedContacts = s.failedContacts) (hsetUp : t.setUp = s.setUp)
    (hrec : t.store.recipients = s.store.recipients) (hdown : t.store.dbDown = s.store.dbDown) :
    Starts s t :=
  ⟨fun _ h => hstarting ▸ h, fun _ h => .inl (hstarting ▸ h), hcontacts, hfailed,
    fun _ h => .inl (hsetUp ▸ h), hrec, hdown⟩

instance : IsPreorder ContactFactory Starts where
  refl _ := starts_of_eq rfl (fun _ => rfl) rfl rfl rfl rfl
  trans s t u hst htu := by
    refine ⟨fun a h => htu.starting a (hst.starting a h), fun a h => ?_,
      fun a => (htu.contacts a).trans (hst.contacts a), htu.failed.trans hst.failed,
      fun a h => ?_, htu.recipients.trans hst.recipients, htu.dbDown.trans hst.dbDown⟩
    · rcases htu.started a h with h | ⟨hnone, hrow⟩
      · exact hst.started a h
      · refine .inr ⟨?_, fun hk => ?_⟩
        · rw [← Option.not_isSome_iff_eq_none, ← hst.contacts, hnone]
          simp
        · obtain ⟨row, hrow⟩ := hrow (keyed_congr hst.recipients hk)
          exact ⟨row, rowOf_congr hst.recipients.symm hrow⟩
    · rcases htu.setUp a h with h | ⟨hstarting, hrow⟩
      · exact (hst.setUp a h).imp_right fun h => ⟨htu.starting a h.1, h.2⟩
      · refine .inr ⟨hstarting, fun hk => ?_⟩
        obtain ⟨row, hrow⟩ := hrow (keyed_congr hst.recipients hk)
        exact ⟨row, rowOf_congr hst.recipients.symm hrow⟩

theorem starts_query {α : Type} (f : Store → α) :
    Moves Starts (store (query f) : FactoryM α) := by
  intro s
  have htick : Starts s { s with store := s.store.tick } :=
    starts_of_eq rfl (fun _ => rfl) rfl rfl rfl rfl
  rw [store, wp_zoom]
  exact wp_query_of ⟨htick, trivial⟩ htick

theorem starts_modify {f : ContactFactory → ContactFactory}
    (hstarting : ∀ s, (f s).contactsStarting = s.contactsStarting)
    (hcontacts : ∀ s a, ((f s).contacts.lookup a).isSome = (s.contacts.lookup a).isSome)
    (hfailed : ∀ s, (f s).failedContacts = s.failedContacts)
    (hsetUp : ∀ s, (f s).setUp = s.setUp) (hstore : ∀ s, (f s).store = s.store) :
    Moves Starts (modify f : FactoryM PUnit) :=
  steps_modify fun s => starts_of_eq (hstarting s) (hcontacts s) (hfailed s) (hsetUp s)
    (by rw [hstore]) (by rw [hstore])

theorem starts_setupContactFor {s : ContactFactory} {recip : Recipient} {a : PduAddress}
    (ha : s.contacts.lookup a = none) (hrow : Keyed s.store → ∃ row, RowOf s.store a row) :
    wp (setupContactFor recip a)
      (fun _ t => Starts s t ∧ (t.contactsStarting.lookup a).isSome) (fun _ _ => False) s := by
  have hlookup : ∀ b, (s.contactsStarting.insert a recip).lookup b =
      if b = a then some recip else s.contactsStarting.lookup b :=
    fun b => lookup_insert s.contactsStarting a b recip
  have hnew : ((s.contactsStarting.insert a recip).lookup a).isSome := by
    rw [hlookup, if_pos rfl]
    rfl
  rw [setupContactFor, wp_modify]
  refine ⟨⟨fun b hb => ?_, fun b hb => ?_, fun _ => rfl, rfl, fun b hb => ?_, rfl, rfl⟩, hnew⟩
  · change ((s.contactsStarting.insert a recip).lookup b).isSome
    rw [hlookup]
    split
    · rfl
    · exact hb
  · change ((s.contactsStarting.insert a recip).lookup b).isSome at hb
    rw [hlookup] at hb
    split at hb
    · rename_i heq
      exact .inr ⟨heq ▸ ha, heq ▸ hrow⟩
    · exact .inl hb
  · rcases List.mem_append.mp hb with hb | hb
    · exact .inl hb
    · cases List.mem_singleton.mp hb
      exact .inr ⟨hnew, hrow⟩

/-- There is an attempt to connect, or a contact. -/
def Present (f : ContactFactory) (a : PduAddress) : Prop :=
  (f.contactsStarting.lookup a).isSome ∨ (f.contacts.lookup a).isSome

theorem starts_present {s t : ContactFactory} (h : Starts s t) {a : PduAddress}
    (ha : Present s a) : Present t a :=
  ha.imp (h.starting a) fun hc => (h.contacts a).symm ▸ hc

theorem wp_setupRecipient_starts {s : ContactFactory} {recip : Recipient}
    (hrow : Keyed s.store → recip ∈ s.store.recipients.rows) :
    wp (setupRecipient recip)
      (fun _ t => Starts s t ∧ ∀ a, unNormalizeAddress recip.phoneNumber = some a → Present t a)
      (fun _ t => Starts s t ∧ unNormalizeAddress recip.phoneNumber = none) s := by
  rw [setupRecipient, wp_bind, Recipient.getAddr, Models.getAddr]
  cases hnum : unNormalizeAddress recip.phoneNumber with
  | none => exact ⟨refl s, rfl⟩
  | some a =>
      rw [wp_pure, wp_bind]
      change wp (hasContact a) _ _ _
      rw [hasContact, wp_bind, wp_get, wp_pure, wp_when]
      split
      · rename_i habsent
        rw [Bool.not_eq_true', Bool.or_eq_false_iff] at habsent
        refine wp_mono (starts_setupContactFor (a := a) ?_ fun hk => ?_) ?_ fun _ _ he => he.elim
        · simpa using habsent.2
        · have hnormal := hk.normal recip (hrow hk) a hnum
          exact ⟨recip, hrow hk, hnormal, by rw [ReadsBack, ← hnormal]; exact hnum⟩
        · rintro _ t ⟨ht, hstarting⟩
          refine ⟨ht, fun b hb => ?_⟩
          cases hb
          exact .inl hstarting
      · rename_i hpresent
        rw [Bool.not_eq_true', Bool.not_eq_false, Bool.or_eq_true] at hpresent
        refine ⟨refl s, fun b hb => ?_⟩
        cases hb
        exact hpresent

theorem rowOf_of_find {st : Store} {a : PduAddress} {row : Recipient}
    (h : st.recipients.rows.find? (fun r => r.phoneNumber = normalizeAddress a) = some row) :
    row ∈ st.recipients.rows ∧ row.phoneNumber = normalizeAddress a :=
  ⟨List.mem_of_find?_eq_some h, by simpa using List.find?_some h⟩

theorem starts_afterQuery {s : ContactFactory} {α β : Type} {f : Store → α} {p : α → FactoryM β}
    {Q : β → ContactFactory → Prop} {E : Failure → ContactFactory → Prop}
    (herror : E .db { s with store := s.store.tick })
    (h : wp (p (f s.store.tick)) Q E { s with store := s.store.tick }) :
    wp (store (query f) >>= p) Q E s := by
  rw [wp_bind, store, wp_zoom]
  exact wp_query_of herror h

theorem starts_tick (s : ContactFactory) : Starts s { s with store := s.store.tick } :=
  starts_of_eq rfl (fun _ => rfl) rfl rfl rfl rfl

theorem starts_setupRow {s t : ContactFactory} {a : PduAddress} {row : Recipient}
    (hst : Starts s t)
    (hrow : t.store.recipients.rows.find? (fun r => r.phoneNumber = normalizeAddress a) =
      some row) :
    wp (setupRecipient row) (fun _ u => Starts s u) (fun _ u => Starts s u ∧ True) t := by
  refine wp_mono (wp_setupRecipient_starts fun _ => (rowOf_of_find hrow).1) ?_ ?_
  · exact fun _ u hu => IsTrans.trans _ _ _ hst hu.1
  · exact fun _ u hu => ⟨IsTrans.trans _ _ _ hst hu.1, trivial⟩

theorem starts_setupContact (a : PduAddress) :
    Moves Starts (setupContact a : FactoryM Unit) := by
  intro s
  apply starts_afterQuery ⟨starts_tick s, trivial⟩
  split
  · rename_i row hrow
    exact starts_setupRow (starts_tick s) hrow
  · exact starts_tick s

theorem starts_send {f : ContactFactory → ContactFactory}
    (h : ∀ s, ∃ cb wa m, f s = { s with cbTx := cb, waTx := wa, mTx := m }) :
    Moves Starts (modify f : FactoryM PUnit) := by
  refine steps_modify fun s => ?_
  obtain ⟨cb, wa, m, heq⟩ := h s
  rw [heq]
  exact starts_of_eq rfl (fun _ => rfl) rfl rfl rfl rfl

theorem starts_requestContact (a : PduAddress) (src : Nat) :
    Moves Starts (requestContact a src : FactoryM Bool) := by
  intro s
  apply starts_afterQuery ⟨starts_tick s, trivial⟩
  split
  · rename_i row hrow
    rw [wp_bind]
    exact starts_setupRow (starts_tick s) hrow
  · have hcreate : Moves Starts (requestCreation a src : FactoryM Unit) := by
      unfold requestCreation
      split
      · exact starts_send fun _ => ⟨_, _, _, rfl⟩
      · split
        · exact starts_send fun _ => ⟨_, _, _, rfl⟩
        · exact steps_pure _
    exact (Steps.bind hcreate fun _ => steps_pure _).after (starts_tick s)

theorem starts_queryContact (a : PduAddress) (src : Nat) :
    Moves Starts (queryContact a src : FactoryM Unit) := by
  intro s
  apply starts_afterQuery ⟨starts_tick s, trivial⟩
  split
  · rename_i row hrow
    rw [wp_bind]
    exact starts_setupRow (starts_of_eq rfl (fun _ => rfl) rfl rfl rfl rfl) hrow
  · refine Steps.after (Steps.bind ?_ fun _ => ?_) (starts_tick s)
    · exact starts_send fun _ => ⟨_, _, _, rfl⟩
    · exact Steps.bind (starts_requestContact a src) fun _ => steps_pure _

theorem starts_loadRecipients : Moves Starts loadRecipients := by
  intro s
  apply starts_afterQuery ⟨starts_tick s, trivial⟩
  refine wp_forM (I := Starts s) (fun row hrow t ht => ?_) (starts_tick s)
  have hstored : row ∈ t.store.recipients.rows := by
    rw [ht.recipients]
    exact Crates.scanOrder.mem_run.mp hrow
  refine wp_mono (wp_setupRecipient_starts fun _ => hstored) ?_ ?_
  · exact fun _ u hu => IsTrans.trans _ _ _ ht hu.1
  · exact fun _ u hu => ⟨IsTrans.trans _ _ _ ht hu.1, trivial⟩

theorem starts_addCommandTo (a : PduAddress) (cmd : ContactManagerCommand) :
    Moves Starts (addCommandTo a cmd) := by
  refine steps_modify fun s => ?_
  cases hct : s.contacts.lookup a with
  | none => exact refl s
  | some c =>
      refine starts_of_eq rfl (fun b => ?_) rfl rfl rfl rfl
      change ((s.contacts.insert a (addCommand c cmd)).lookup b).isSome = _
      rw [lookup_insert]
      split
      · rename_i heq
        rw [heq, hct]
        rfl
      · rfl

theorem starts_forwardCmd (a : PduAddress) (cmd : ContactManagerCommand) :
    Moves Starts (Factory.forwardCmd a cmd) := by
  cases cmd with
  | updateAway away =>
      refine Steps.bind (starts_addCommandTo a _) fun _ => ?_
      exact starts_modify (fun _ => rfl) (fun _ _ => rfl) (fun _ => rfl) (fun _ => rfl)
        fun _ => rfl
  | processMessages => exact starts_addCommandTo a _
  | processGroups => exact starts_addCommandTo a _
  | changeNick nick src => exact starts_addCommandTo a _
  | setWhatsapp wam => exact starts_addCommandTo a _

theorem starts_processGroups : Moves Starts Factory.processGroups := by
  refine steps_modify fun s => starts_of_eq rfl (fun a => ?_) rfl rfl rfl rfl
  change ((mapValues _ s.contacts).lookup a).isSome = _
  rw [lookup_mapValues, Option.isSome_map]

theorem starts_processMessage (msg : Message) : Moves Starts (Factory.processMessage msg) := by
  have haddr : Moves Starts (msg.getAddr : FactoryM PduAddress) := by
    exact steps_getAddr (fun _ => trivial) _
  refine Steps.bind haddr fun a => Steps.bind steps_get fun f => ?_
  split
  · exact steps_pure _
  · split
    · exact starts_addCommandTo _ _
    · exact Steps.bind (starts_requestContact _ _) fun _ => steps_pure _

theorem starts_processMessages : Moves Starts Factory.processMessages := by
  refine Steps.bind (starts_query _) fun msgs => Steps.forM fun msg _ => ?_
  refine steps_get_bind fun s => ?_
  rw [wp_when]
  split
  · rw [wp_bind, wp_set]
    apply (starts_processMessage msg).after
    exact starts_of_eq rfl (fun _ => rfl) rfl rfl rfl rfl
  · exact refl s

/-- There is an attempt to connect, or a contact, or a failure that is to be retried. -/
def Tracked (f : ContactFactory) (a : PduAddress) : Prop := Present f a ∨ a ∈ f.failedContacts

/-- What holds of a factory whose database works, while `owed` are being retried. -/
structure Kept (owed : List PduAddress) (f : ContactFactory) : Prop where
  up : Up f.store
  keyed : Keyed f.store
  apart : ∀ a, (f.contactsStarting.lookup a).isSome → f.contacts.lookup a = none
  readsBack : ∀ a, Tracked f a ∨ a ∈ owed → ReadsBack a
  tracked : ∀ a ∈ f.setUp, (∃ row, RowOf f.store a row) ∧ (Tracked f a ∨ a ∈ owed)

variable {owed : List PduAddress}

theorem kept_starts {s t : ContactFactory} (h : Kept owed s) (ht : Starts s t) : Kept owed t := by
  have htracked : ∀ a, Tracked s a → Tracked t a := fun a ha =>
    ha.imp (starts_present ht) fun hf => ht.failed.symm ▸ hf
  refine ⟨fun n => by rw [ht.dbDown]; exact h.up n, keyed_congr ht.recipients h.keyed,
    fun a ha => ?_, fun a ha => ?_, fun a ha => ?_⟩
  · have hnone : s.contacts.lookup a = none := by
      rcases ht.started a ha with hold | ⟨hnone, -⟩
      · exact h.apart a hold
      · exact hnone
    rw [← Option.not_isSome_iff_eq_none, ht.contacts, hnone]
    simp
  · rcases ha with ((hstarting | hct) | hf) | howed
    · rcases ht.started a hstarting with hold | ⟨-, hrow⟩
      · exact h.readsBack a (.inl (.inl (.inl hold)))
      · obtain ⟨row, hrow⟩ := hrow h.keyed
        exact hrow.readsBack
    · exact h.readsBack a (.inl (.inl (.inr (ht.contacts a ▸ hct))))
    · exact h.readsBack a (.inl (.inr (ht.failed ▸ hf)))
    · exact h.readsBack a (.inr howed)
  · rcases ht.setUp a ha with hold | ⟨hstarting, hrow⟩
    · obtain ⟨⟨row, hrow⟩, hwas⟩ := h.tracked a hold
      exact ⟨⟨row, rowOf_congr ht.recipients hrow⟩, hwas.imp_left (htracked a)⟩
    · obtain ⟨row, hrow⟩ := hrow h.keyed
      exact ⟨⟨row, rowOf_congr ht.recipients hrow⟩, .inl (.inl (.inl hstarting))⟩

/-- A retry sets up the contact of its address, if the address still has a row. -/
theorem wp_setupContact_present {s : ContactFactory} (hup : Up s.store) {a : PduAddress}
    (ha : ReadsBack a) :
    wp (setupContact a)
      (fun _ t => Starts s t ∧ ((∃ row, RowOf s.store a row) → Present t a))
      (fun _ _ => False) s := by
  rw [setupContact, wp_bind, store, wp_zoom, getRecipientByAddrOpt]
  apply (Up.wp_query hup).mpr
  split
  · rename_i row hrow
    obtain ⟨hstored, hnum⟩ := rowOf_of_find hrow
    have hback : unNormalizeAddress row.phoneNumber = some a := by rw [hnum]; exact ha
    refine wp_mono (wp_setupRecipient_starts fun _ => hstored) ?_ ?_
    · exact fun _ t ht => ⟨IsTrans.trans _ _ _ (starts_tick s) ht.1, fun _ => ht.2 a hback⟩
    · intro _ t ht
      rw [hback] at ht
      cases ht.2
  · rename_i hnone
    refine ⟨starts_tick s, ?_⟩
    rintro ⟨row, hrow⟩
    exact absurd (decide_eq_true hrow.number) (List.find?_eq_none.mp hnone row hrow.stored)

theorem kept_retry {s : ContactFactory} {a : PduAddress} (h : Kept (a :: owed) s) :
    wp (setupContact a) (fun _ t => Kept owed t) (fun _ _ => False) s := by
  refine wp_mono (wp_setupContact_present h.up (h.readsBack a (.inr (by simp)))) ?_
    fun _ _ he => he
  rintro _ t ⟨ht, hpresent⟩
  have hkept := kept_starts h ht
  refine ⟨hkept.up, hkept.keyed, hkept.apart, fun b hb => ?_, fun b hb => ?_⟩
  · exact hkept.readsBack b (hb.imp_right (List.mem_cons_of_mem a))
  · obtain ⟨⟨row, hrow⟩, hb⟩ := hkept.tracked b hb
    refine ⟨⟨row, hrow⟩, ?_⟩
    rcases hb with hb | hb
    · exact .inl hb
    · rcases List.mem_cons.mp hb with rfl | hb
      · exact .inl (.inl (hpresent ⟨row, rowOf_congr ht.recipients.symm hrow⟩))
      · exact .inr hb

theorem kept_retries {s : ContactFactory} (h : Kept owed s) :
    wp (forM owed setupContact) (fun _ t => Kept [] t) (fun _ _ => False) s := by
  induction owed generalizing s with
  | nil => exact h
  | cons a owed ih =>
      rw [List.forM_cons, wp_bind]
      exact wp_mono (kept_retry h) (fun _ _ ht => ih ht) fun _ _ he => he

theorem kept_processFailures {s : ContactFactory} (h : Kept [] s) :
    wp processFailures (fun _ t => Kept [] t) (fun _ t => Kept [] t) s := by
  rw [processFailures, wp_bind, wp_get, wp_bind, wp_set]
  refine wp_mono (kept_retries ⟨h.up, h.keyed, h.apart, fun a ha => ?_, fun a ha => ?_⟩)
    (fun _ _ ht => ht) fun _ _ he => he.elim
  · refine h.readsBack a (.inl ?_)
    rcases ha with (hpresent | hf) | hf
    · exact .inl hpresent
    · cases hf
    · exact .inr (Crates.hashOrder.mem_run.mp hf)
  · obtain ⟨hrow, htracked⟩ := h.tracked a ha
    refine ⟨hrow, ?_⟩
    rcases htracked with (hpresent | hf) | hno
    · exact .inl (.inl hpresent)
    · exact .inr (Crates.hashOrder.mem_run.mpr hf)
    · cases hno

/-- A contact is dropped, with its row. -/
def droppedFrom (s : ContactFactory) (a : PduAddress) : ContactFactory :=
  { s with
    contacts := s.contacts.erase a
    setUp := s.setUp.filter fun b => b ≠ a
    store := { s.store.tick with
      recipients := s.store.recipients.keep fun r => r.phoneNumber ≠ normalizeAddress a } }

theorem wp_dropContact (s : ContactFactory) (a : PduAddress) :
    wp (dropContact a) (fun _ t => HasRecipient s.store a ∧ t = droppedFrom s a)
      (fun _ t => t = { s with store := s.store.tick }) s := by
  rw [dropContact, wp_bind, store, wp_zoom, deleteRecipientWithAddr, wp_bind]
  apply wp_query_of rfl
  split
  · rename_i hrow
    rw [List.any_eq_true] at hrow
    obtain ⟨row, hmem, hnum⟩ := hrow
    exact ⟨⟨row, hmem, of_decide_eq_true hnum⟩, rfl⟩
  · exact rfl

theorem kept_droppedFrom (hkeys : KeysRead) {s : ContactFactory} (h : Kept [] s)
    (a : PduAddress) : Kept [] (droppedFrom s a) := by
  have hlookup : ∀ b, (s.contacts.erase a).lookup b = if b = a then none
      else s.contacts.lookup b := fun b => lookup_erase s.contacts a b
  have hold : ∀ b, ((s.contacts.erase a).lookup b).isSome → (s.contacts.lookup b).isSome := by
    intro b hb
    rw [hlookup] at hb
    split at hb
    · cases hb
    · exact hb
  refine ⟨h.up, ⟨?_, ?_⟩, fun b hb => ?_, fun b hb => ?_, fun b hb => ?_⟩
  · exact h.keyed.nodup.sublist (List.filter_sublist.map Recipient.phoneNumber)
  · exact fun r hr => h.keyed.normal r (List.mem_of_mem_filter hr)
  · change (s.contacts.erase a).lookup b = none
    rw [hlookup, h.apart b hb]
    exact ite_self none
  · apply h.readsBack b
    rcases hb with ((hb | hb) | hb) | hb
    · exact .inl (.inl (.inl hb))
    · exact .inl (.inl (.inr (hold b hb)))
    · exact .inl (.inr hb)
    · cases hb
  · have hmem : b ∈ s.setUp ∧ b ≠ a := by simpa [droppedFrom] using hb
    obtain ⟨⟨row, hrow⟩, hb⟩ := h.tracked b hmem.1
    refine ⟨⟨row, List.mem_filter.mpr ⟨hrow.stored, decide_eq_true fun heq => ?_⟩, hrow.number,
      hrow.readsBack⟩, ?_⟩
    · exact hmem.2 (hkeys.eq hrow.readsBack (hrow.number.symm.trans heq))
    · refine hb.imp_left fun hb => hb.imp_left fun hb => hb.imp_right fun hb => ?_
      change ((s.contacts.erase a).lookup b).isSome
      rw [hlookup, if_neg hmem.2]
      exact hb

theorem wp_handleCommand_of {I : ContactFactory → Prop}
    (hstarts : ∀ s t, I s → Starts s t → I t) (hdropped : ∀ s a, I s → I (droppedFrom s a))
    {s : ContactFactory} (h : I s) (c : ContactFactoryCommand) :
    wp (handleCommand c) (fun _ t => I t) (fun _ t => I t) s := by
  have hmoves : ∀ {p : FactoryM Unit} {s : ContactFactory}, Moves Starts p → I s →
      wp p (fun _ t => I t) (fun _ t => I t) s := fun hp h =>
    wp_mono (hp _) (fun _ _ ht => hstarts _ _ h ht) fun _ _ ht => hstarts _ _ h ht.1
  have hdrop : ∀ {s : ContactFactory} (a : PduAddress), I s →
      wp (dropContact a) (fun _ t => I t) (fun _ t => I t) s := by
    intro s a h
    refine wp_mono (wp_dropContact s a) ?_ ?_
    · rintro _ _ ⟨-, rfl⟩
      exact hdropped s a h
    · rintro _ _ rfl
      exact hstarts _ _ h (starts_tick s)
  have hnick : ∀ {k : Option PduAddress → FactoryM Unit} (nick : Str),
      (∀ o, wp (k o) (fun _ t => I t) (fun _ t => I t) s) →
        wp (Factory.resolveNick nick >>= k) (fun _ t => I t) (fun _ t => I t) s := by
    intro k nick hk
    rw [Factory.resolveNick, wp_bind, wp_bind, wp_get, wp_pure]
    exact hk _
  cases c with
  | processMessages => exact hmoves starts_processMessages h
  | processGroups => exact hmoves starts_processGroups h
  | loadRecipients => exact hmoves starts_loadRecipients h
  | setupContact a => exact hmoves (starts_setupContact a) h
  | queryContact a src => exact hmoves (starts_queryContact a src) h
  | dropContact a => exact hdrop a h
  | dropContactByNick nick =>
      refine hnick nick fun o => ?_
      cases o with
      | some a => exact hdrop a h
      | none => exact h
  | forwardCommand a cmd => exact hmoves (starts_forwardCmd a cmd) h
  | forwardCommandByNick nick cmd =>
      refine hnick nick fun o => ?_
      cases o with
      | some a => exact hmoves (starts_forwardCmd a cmd) h
      | none => exact h
  | subscribePresenceByNick nick =>
      refine hnick nick fun o => ?_
      cases o with
      | some a => exact hmoves (starts_send fun _ => ⟨_, _, _, rfl⟩) h
      | none => exact h
  | processAvatars => exact h

/-- A use of the database that keeps the numbers of recipients. -/
structure Numbered (st st' : Store) : Prop where
  numbers : st'.recipients.rows.map Recipient.phoneNumber =
    st.recipients.rows.map Recipient.phoneNumber
  dbDown : st'.dbDown = st.dbDown

instance : IsPreorder Store Numbered where
  refl _ := ⟨rfl, rfl⟩
  trans _ _ _ hst htu := ⟨htu.numbers.trans hst.numbers, htu.dbDown.trans hst.dbDown⟩

theorem numbered_updateRecipient (a : PduAddress) (f : Recipient → Recipient)
    (hf : ∀ r, (f r).id = r.id) (hnum : ∀ r, (f r).phoneNumber = r.phoneNumber) :
    Moves Numbered (updateRecipient a f hf) :=
  moves_execute (fun _ => ⟨rfl, rfl⟩) fun st =>
    ⟨(touched_rowChanged st a f hf hnum).numbers, rfl⟩

theorem numbered_leaves : Leaves Numbered where
  tick _ := ⟨rfl, rfl⟩
  mode a wa := numbered_updateRecipient a (fun r => { r with whatsapp := wa }) _ fun _ => rfl
  delete _ := moves_checked (fun _ => ⟨rfl, rfl⟩) fun _ => ⟨rfl, rfl⟩

theorem Numbered.rowOf {st st' : Store} (h : Numbered st st') {a : PduAddress}
    (hrow : ∃ row, RowOf st a row) : ∃ row, RowOf st' a row := by
  obtain ⟨row, hrow⟩ := hrow
  have hmem : row.phoneNumber ∈ st'.recipients.rows.map Recipient.phoneNumber := by
    rw [h.numbers]
    exact List.mem_map_of_mem hrow.stored
  obtain ⟨row', hstored, heq⟩ := List.mem_map.mp hmem
  exact ⟨row', hstored, heq.trans hrow.number, hrow.readsBack⟩

/-- While the attempts or the contacts are polled, of which `ended` are done with: they are
contacts now, or failures. -/
structure Swept (s : ContactFactory) (ended : List (Option PduAddress)) (t : ContactFactory) :
    Prop where
  store : Numbered s.store t.store
  setUp : t.setUp = s.setUp
  starting : t.contactsStarting = s.contactsStarting
  contacts : ∀ a, (s.contacts.lookup a).isSome → (t.contacts.lookup a).isSome
  grown : ∀ a, (t.contacts.lookup a).isSome → (s.contacts.lookup a).isSome ∨ some a ∈ ended
  failed : ∀ a ∈ s.failedContacts, a ∈ t.failedContacts
  failing : ∀ a ∈ t.failedContacts, a ∈ s.failedContacts ∨ some a ∈ ended
  present : ∀ a, some a ∈ ended → Present s a
  ended : ∀ a, some a ∈ ended → a ∈ t.failedContacts ∨
    (s.contactsStarting.lookup a).isSome ∧ (t.contacts.lookup a).isSome

theorem swept_refl (s : ContactFactory) : Swept s [] s :=
  ⟨refl _, rfl, rfl, fun _ h => h, fun _ h => .inl h, fun _ h => h, fun _ h => .inl h,
    (fun _ h => by cases h), fun _ h => by cases h⟩

theorem swept_step {s t u : ContactFactory} {ended : List (Option PduAddress)}
    {y : Option PduAddress} (h : Swept s ended t) (hstore : Numbered t.store u.store)
    (hsetUp : u.setUp = t.setUp) (hstarting : u.contactsStarting = t.contactsStarting)
    (hcontacts : ∀ a, (t.contacts.lookup a).isSome → (u.contacts.lookup a).isSome)
    (hgrown : ∀ a, (u.contacts.lookup a).isSome → (t.contacts.lookup a).isSome ∨ some a = y)
    (hfailed : ∀ a, a ∈ t.failedContacts → a ∈ u.failedContacts)
    (hfailing : ∀ a, a ∈ u.failedContacts → a ∈ t.failedContacts ∨ some a = y)
    (hy : ∀ a, some a = y → Present s a ∧ (a ∈ u.failedContacts ∨
      (s.contactsStarting.lookup a).isSome ∧ (u.contacts.lookup a).isSome)) :
    Swept s (ended ++ [y]) u := by
  have hmem : ∀ a, some a ∈ ended ++ [y] ↔ some a ∈ ended ∨ some a = y := fun a => by
    rw [List.mem_append, List.mem_singleton]
  refine ⟨IsTrans.trans _ _ _ h.store hstore, hsetUp.trans h.setUp,
    hstarting.trans h.starting, fun a ha => hcontacts a (h.contacts a ha), fun a ha => ?_,
    fun a ha => hfailed a (h.failed a ha), fun a ha => ?_, fun a ha => ?_, fun a ha => ?_⟩
  · rw [hmem, ← or_assoc]
    exact (hgrown a ha).imp_left (h.grown a)
  · rw [hmem, ← or_assoc]
    exact (hfailing a ha).imp_left (h.failing a)
  · rcases (hmem a).mp ha with ha | ha
    · exact h.present a ha
    · exact (hy a ha).1
  · rcases (hmem a).mp ha with ha | ha
    · exact (h.ended a ha).imp (hfailed a) fun h => ⟨h.1, hcontacts a h.2⟩
    · exact (hy a ha).2

theorem mem_noteFailure {f : ContactFactory} {a b : PduAddress} :
    b ∈ (if a ∈ f.failedContacts then f.failedContacts else f.failedContacts ++ [a]) ↔
      b ∈ f.failedContacts ∨ b = a := by
  split
  · rename_i ha
    exact ⟨.inl, fun h => h.elim id fun heq => heq ▸ ha⟩
  · rw [List.mem_append, List.mem_singleton]

theorem swept_pollAttempt {s t : ContactFactory} {ended : List (Option PduAddress)}
    {a : PduAddress} {recip : Recipient} (h : Swept s ended t)
    (ha : s.contactsStarting.lookup a = some recip) (answer : Answer) :
    wp (pollAttempt a recip answer) (fun y u => Swept s (ended ++ [y]) u) (fun _ _ => False)
      t := by
  have hstarting : (s.contactsStarting.lookup a).isSome := by
    rw [ha]
    rfl
  cases answer with
  | ready nick refuses =>
      have hlookup : ∀ b, (t.contacts.insert a (newContact t recip a nick refuses)).lookup b =
          if b = a then some (newContact t recip a nick refuses) else t.contacts.lookup b :=
        fun b => lookup_insert _ _ _ _
      rw [pollAttempt, wp_bind, wp_modify, wp_pure]
      refine swept_step h (refl _) rfl rfl (fun b hb => ?_) (fun b hb => ?_) (fun _ hb => hb)
        (fun _ hb => .inl hb) fun b hb => ⟨?_, .inr ⟨?_, ?_⟩⟩
      · change ((t.contacts.insert a _).lookup b).isSome
        rw [hlookup]
        split
        · rfl
        · exact hb
      · change ((t.contacts.insert a _).lookup b).isSome at hb
        rw [hlookup] at hb
        split at hb
        · rename_i heq
          exact .inr (congrArg some heq)
        · exact .inl hb
      all_goals cases hb
      · exact .inl hstarting
      · exact hstarting
      · change ((t.contacts.insert a _).lookup a).isSome
        rw [hlookup, if_pos rfl]
        rfl
  | notReady =>
      exact swept_step h (refl _) rfl rfl (fun _ hb => hb) (fun _ hb => .inl hb) (fun _ hb => hb)
        (fun _ hb => .inl hb) fun b hb => by cases hb
  | failed e =>
      rw [pollAttempt, noteFailure, wp_bind, wp_modify, wp_pure]
      refine swept_step h (refl _) rfl rfl (fun _ hb => hb) (fun _ hb => .inl hb)
        (fun b hb => mem_noteFailure.mpr (.inl hb)) (fun b hb => ?_) fun b hb => ?_
      · exact (mem_noteFailure.mp hb).imp_right fun heq => congrArg some heq
      · cases hb
        exact ⟨.inl hstarting, .inl (mem_noteFailure.mpr (.inr rfl))⟩

theorem wp_erasing {ν : Type} (get : ContactFactory → HashMap PduAddress ν)
    (put : ContactFactory → HashMap PduAddress ν → ContactFactory)
    (hget : ∀ s m, get (put s m) = m) (hput : ∀ s m m', put (put s m) m' = put s m')
    (hself : ∀ s, put s (get s) = s) (as : List PduAddress) (s : ContactFactory)
    {E : Failure → ContactFactory → Prop} :
    wp (forM as fun a => modify fun f => put f ((get f).erase a))
      (fun _ t => ∃ m, t = put s m ∧
        ∀ a, m.lookup a = if a ∈ as then none else (get s).lookup a) E s := by
  refine wp_forM_prefix (fun done t => ∃ m, t = put s m ∧
    ∀ a, m.lookup a = if a ∈ done then none else (get s).lookup a) ?_
    ⟨get s, (hself s).symm, fun a => by simp⟩
  rintro done a rest - _ ⟨m, rfl, hm⟩
  refine ⟨m.erase a, ?_, fun b => ?_⟩
  · show put (put s m) ((get (put s m)).erase a) = put s (m.erase a)
    rw [hget, hput]
  · rw [lookup_erase, hm]
    by_cases hb : b = a
    · simp [hb]
    · simp [hb]

theorem isSome_of_erased {ν : Type} {m m' : HashMap PduAddress ν} {as : List PduAddress}
    (h : ∀ a, m'.lookup a = if a ∈ as then none else m.lookup a) (a : PduAddress) :
    (m'.lookup a).isSome ↔ a ∉ as ∧ (m.lookup a).isSome := by
  rw [h]
  split
  · rename_i ha
    exact ⟨nofun, fun h => absurd ha h.1⟩
  · rename_i ha
    exact ⟨fun h => ⟨ha, h⟩, fun h => h.2⟩

theorem Swept.readsBack {s t : ContactFactory} {ended : List (Option PduAddress)}
    (h : Swept s ended t) (hs : Kept [] s) {a : PduAddress} (ha : Tracked t a) :
    ReadsBack a := by
  refine hs.readsBack a (.inl ?_)
  rcases ha with (ha | ha) | ha
  · rw [h.starting] at ha
    exact .inl (.inl ha)
  · rcases h.grown a ha with ha | ha
    · exact .inl (.inr ha)
    · exact .inl (h.present a ha)
  · rcases h.failing a ha with ha | ha
    · exact .inr ha
    · exact .inl (h.present a ha)

theorem Swept.kept {s t u : ContactFactory} {ended : List (Option PduAddress)}
    (h : Swept s ended t) (hs : Kept [] s) (hstore : u.store = t.store)
    (hsetUp : u.setUp = t.setUp)
    (hapart : ∀ a, (u.contactsStarting.lookup a).isSome → u.contacts.lookup a = none)
    (hback : ∀ a, Tracked u a → Tracked t a)
    (htracked : ∀ a, Tracked s a → Tracked u a) : Kept [] u := by
  refine ⟨fun n => ?_, ?_, hapart, fun a ha => ?_, fun a ha => ?_⟩
  · rw [hstore, h.store.dbDown]
    exact hs.up n
  · rw [hstore]
    exact keyed_of_numbers hs.keyed h.store.numbers
  · rcases ha with ha | ha
    · exact h.readsBack hs (hback a ha)
    · cases ha
  · rw [hsetUp, h.setUp] at ha
    obtain ⟨hrow, ha⟩ := hs.tracked a ha
    rw [hstore]
    refine ⟨h.store.rowOf hrow, ha.imp_left (htracked a)⟩

theorem wp_pollStarting (s : ContactFactory) (answers : PduAddress → Answer) :
    wp (pollStarting answers)
      (fun _ u => ∃ ended t m, Swept s ended t ∧ u = { t with contactsStarting := m } ∧
        ∀ a, (m.lookup a).isSome ↔ some a ∉ ended ∧ (s.contactsStarting.lookup a).isSome)
      (fun _ _ => False) s := by
  have hloop : wp ((Crates.hashOrder.run (pairs s.contactsStarting)).mapM
      fun e => pollAttempt e.1 e.2 (answers e.1)) (fun ended t => Swept s ended t)
      (fun _ _ => False) s := by
    refine wp_mapM_prefix (fun _ ended t => Swept s ended t)
      (fun done e rest hxs ended t ht => ?_) (swept_refl s)
    have hmem : e ∈ pairs s.contactsStarting := by
      rw [← Crates.hashOrder.mem_run, hxs]
      simp
    exact wp_mono (swept_pollAttempt ht (mem_pairs.mp hmem) _) (fun _ _ hu => hu)
      fun _ _ he => he
  rw [pollStarting, wp_bind, wp_get, wp_bind]
  refine wp_mono hloop (fun ended t ht => ?_) fun _ _ he => he
  refine wp_mono (wp_erasing (fun f => f.contactsStarting)
    (fun f m => { f with contactsStarting := m }) (fun _ _ => rfl) (fun _ _ _ => rfl)
    (fun _ => rfl) ended.reduceOption t) ?_ fun _ _ he => he
  rintro _ _ ⟨m, rfl, hm⟩
  refine ⟨ended, t, m, ht, rfl, fun a => ?_⟩
  rw [isSome_of_erased hm, List.reduceOption_mem_iff, ht.starting]

theorem kept_pollStarting {s : ContactFactory} (h : Kept [] s)
    (answers : PduAddress → Answer) :
    wp (pollStarting answers) (fun _ t => Kept [] t) (fun _ t => Kept [] t) s := by
  refine wp_mono (wp_pollStarting s answers) ?_ fun _ _ he => he.elim
  rintro _ _ ⟨ended, t, m, ht, rfl, hmem⟩
  refine ht.kept h rfl rfl (fun a ha => ?_) (fun a ha => ?_) fun a ha => ?_
  · obtain ⟨hnot, hstarting⟩ := (hmem a).mp ha
    refine Option.not_isSome_iff_eq_none.mp fun hct => ?_
    rcases ht.grown a hct with hct | hended
    · rw [h.apart a hstarting] at hct
      cases hct
    · exact hnot hended
  · refine ha.imp_left fun ha => ha.imp_left fun ha => ?_
    rw [ht.starting]
    exact ((hmem a).mp ha).2
  · by_cases hended : some a ∈ ended
    · rcases ht.ended a hended with hf | ⟨-, hct⟩
      · exact .inr hf
      · exact .inl (.inr hct)
    · rcases ha with (ha | ha) | ha
      · exact .inl (.inl ((hmem a).mpr ⟨hended, ha⟩))
      · exact .inl (.inr (ht.contacts a ha))
      · exact .inr (ht.failed a ha)

/-- While the contacts are polled, there are the same ones. -/
def Serving (s : ContactFactory) (ended : List (Option PduAddress)) (t : ContactFactory) : Prop :=
  Swept s ended t ∧ ∀ a, (t.contacts.lookup a).isSome = (s.contacts.lookup a).isSome

theorem Serving.kept {s t : ContactFactory} {ended : List (Option PduAddress)}
    (h : Serving s ended t) (hs : Kept [] s) : Kept [] t := by
  refine h.1.kept hs rfl rfl (fun a ha => ?_) (fun _ ha => ha) fun a ha => ?_
  · rw [h.1.starting] at ha
    rw [← Option.not_isSome_iff_eq_none, h.2, hs.apart a ha]
    simp
  · refine ha.imp (fun ha => ha.imp (fun ha => ?_) (h.1.contacts a)) (h.1.failed a)
    rw [h.1.starting]
    exact ha

theorem serving_pollContact {s t : ContactFactory} {ended : List (Option PduAddress)}
    {a : PduAddress} {c : ContactManager} (h : Serving s ended t)
    (ha : s.contacts.lookup a = some c) (i : Activity) :
    wp (pollContact a c i) (fun y u => Serving s (ended ++ [y]) u)
      (fun _ u => Serving s (ended ++ [none]) u) t := by
  have hct : (s.contacts.lookup a).isSome := by
    rw [ha]
    rfl
  have hsame : ∀ c' b, ((t.contacts.insert a c').lookup b).isSome =
      (s.contacts.lookup b).isSome := by
    intro c' b
    rw [lookup_insert]
    split
    · rename_i heq
      rw [heq, ha]
      rfl
    · exact h.2 b
  have hcontacts : ∀ c' b, ((t.contacts.insert a c').lookup b).isSome =
      (t.contacts.lookup b).isSome := fun c' b => (hsame c' b).trans (h.2 b).symm
  -- what it is after the contact has been polled, for each way that this may end
  have hput : ∀ c' : ContactManager, Numbered t.store c'.store →
      Serving s (ended ++ [none]) (putContact a t c') := by
    intro c' hstore
    refine ⟨swept_step h.1 hstore rfl rfl (fun b hb => (hcontacts c' b).symm ▸ hb)
      (fun b hb => .inl (hcontacts c' b ▸ hb)) (fun _ hb => hb) (fun _ hb => .inl hb) nofun,
      hsame c'⟩
  have hnote : ∀ c' : ContactManager, Numbered t.store c'.store →
      wp (do
          noteFailure a
          pure (some a))
        (fun y u => Serving s (ended ++ [y]) u) (fun _ u => Serving s (ended ++ [none]) u)
        (putContact a t c') := by
    intro c' hstore
    rw [noteFailure, wp_bind, wp_modify, wp_pure]
    refine ⟨swept_step h.1 hstore rfl rfl (fun b hb => (hcontacts c' b).symm ▸ hb)
      (fun b hb => .inl (hcontacts c' b ▸ hb)) (fun b hb => mem_noteFailure.mpr (.inl hb))
      (fun b hb => ?_) (fun b hb => ?_), hsame c'⟩
    · exact (mem_noteFailure.mp hb).imp_right fun heq => congrArg some heq
    · cases hb
      exact ⟨.inr hct, .inl (mem_noteFailure.mpr (.inr rfl))⟩
  have hpoll := numbered_leaves.poll (c := sharing t c) i fun nick src _ b =>
    numbered_updateRecipient b (fun r => { r with nick := nick, nicksrc := src }) _ fun _ => rfl
  rw [pollContact, wp_bind]
  refine wp_attempt ?_ ?_
  · rw [wp_zoom]
    exact wp_mono hpoll (fun _ c' hc => hput c' hc) fun _ c' hc _ => hnote c' hc
  · rw [wp_zoom]
    refine wp_mono hpoll (fun _ _ _ => trivial) fun _ c' hc site _ => ?_
    exact hput c' hc

theorem wp_pollContacts (s : ContactFactory) (activity : PduAddress → Activity) :
    wp (pollContacts activity)
      (fun _ u => ∃ ended t m, Serving s ended t ∧ u = { t with contacts := m } ∧
        ∀ a, (m.lookup a).isSome ↔ some a ∉ ended ∧ (s.contacts.lookup a).isSome)
      (fun _ u => ∃ ended, Serving s ended u) s := by
  have hloop : wp ((Crates.hashOrder.run (pairs s.contacts)).mapM
      fun e => pollContact e.1 e.2 (activity e.1)) (fun ended t => Serving s ended t)
      (fun _ u => ∃ ended, Serving s ended u) s := by
    refine wp_mapM_prefix (fun _ ended t => Serving s ended t)
      (fun done e rest hxs ended t ht => ?_) ⟨swept_refl s, fun _ => rfl⟩
    have hmem : e ∈ pairs s.contacts := by
      rw [← Crates.hashOrder.mem_run, hxs]
      simp
    exact wp_mono (serving_pollContact ht (mem_pairs.mp hmem) _) (fun _ _ hu => hu)
      fun _ _ hu => ⟨_, hu⟩
  rw [pollContacts, wp_bind, wp_get, wp_bind]
  refine wp_mono hloop (fun ended t ht => ?_) fun _ _ he => he
  refine wp_mono (wp_erasing (fun f => f.contacts) (fun f m => { f with contacts := m })
    (fun _ _ => rfl) (fun _ _ _ => rfl) (fun _ => rfl) ended.reduceOption t) ?_
    fun _ _ he => he
  rintro _ _ ⟨m, rfl, hm⟩
  refine ⟨ended, t, m, ht, rfl, fun a => ?_⟩
  rw [isSome_of_erased hm, List.reduceOption_mem_iff, ht.2]

theorem kept_pollContacts {s : ContactFactory} (h : Kept [] s)
    (activity : PduAddress → Activity) :
    wp (pollContacts activity) (fun _ t => Kept [] t) (fun _ t => Kept [] t) s := by
  refine wp_mono (wp_pollContacts s activity) ?_ fun _ _ ⟨_, ht⟩ => ht.kept h
  rintro _ _ ⟨ended, t, m, ht, rfl, hmem⟩
  refine ht.1.kept h rfl rfl (fun a ha => ?_) (fun a ha => ?_) fun a ha => ?_
  · have hnone : s.contacts.lookup a = none := h.apart a (ht.1.starting ▸ ha)
    refine Option.not_isSome_iff_eq_none.mp fun hct => ?_
    have hold := ((hmem a).mp hct).2
    rw [hnone] at hold
    cases hold
  · refine ha.imp_left fun ha => ha.imp_right fun ha => ?_
    exact ht.1.contacts a ((hmem a).mp ha).2
  · rcases ha with (ha | ha) | ha
    · refine .inl (.inl ?_)
      change (t.contactsStarting.lookup a).isSome
      rw [ht.1.starting]
      exact ha
    · by_cases hended : some a ∈ ended
      · rcases ht.1.ended a hended with hf | ⟨hstarting, -⟩
        · exact .inr hf
        · rw [h.apart a hstarting] at ha
          cases ha
      · exact .inl (.inr ((hmem a).mpr ⟨hended, ha⟩))
    · exact .inr (ht.1.failed a ha)

theorem kept_turn (hkeys : KeysRead) {s : ContactFactory} (h : Kept [] s) (t : Turn) :
    wp t.run (fun _ u => Kept [] u) (fun _ u => Kept [] u) s := by
  cases t with
  | command c =>
      exact wp_handleCommand_of (fun _ _ hs ht => kept_starts hs ht)
        (fun _ a hs => kept_droppedFrom hkeys hs a) h c
  | starting answers => exact kept_pollStarting h answers
  | contacts activity => exact kept_pollContacts h activity
  | tick r =>
      cases r with
      | ok _ => exact kept_processFailures h
      | error e => exact h

theorem kept_stored {s : ContactFactory} (h : Kept [] s) {st : Store}
    (hst : RowsKept s.store st) : Kept [] { s with store := st } := by
  refine ⟨fun n => by rw [hst.dbDown]; exact h.up n, hst.keyed h.keyed, h.apart, h.readsBack,
    fun a ha => ?_⟩
  obtain ⟨⟨row, hrow⟩, hwas⟩ := h.tracked a ha
  obtain ⟨row', hrow', -⟩ := hst.rows a row hrow
  exact ⟨⟨row', hrow'⟩, hwas⟩

theorem kept_next (hkeys : KeysRead) {s t : Session} {e : Event} (h : Kept [] s.factory)
    (ht : next s e = some t) : Kept [] t.factory := by
  obtain ⟨-, rfl⟩ := step_of_next ht
  cases e with
  | turn t => exact perform_factory (kept_turn hkeys h t)
  | storeOp op => exact kept_stored h ((rowsKept_storeOp hkeys op).exec s.factory.store)
  | clock now dbNow =>
      have hlater : Kept [] { s.factory with store := { s.factory.store with now := dbNow } } :=
        kept_stored h (rowsKept_of_eq rfl rfl)
      exact ⟨hlater.up, hlater.keyed, hlater.apart, hlater.readsBack, hlater.tracked⟩

theorem kept_of_run (hkeys : KeysRead) {cfg : ClientConfig} {st : Store} {now : NaiveDateTime}
    {es : List Event} {t : Session} (hup : Up st) (hst : Written st)
    (hrun : run next (initial cfg st now) es = some t) : Kept [] t.factory := by
  have hstart : Kept [] (initial cfg st now).factory := by
    refine ⟨hup, hst.keyed hkeys, fun a ha => ?_, fun a ha => ?_, fun a ha => ?_⟩
    · cases ha
    · rcases ha with ((ha | ha) | ha) | ha <;> cases ha
    · cases ha
  exact invariant (I := fun s => Kept [] s.factory)
    (fun _ _ _ hs ht => kept_next hkeys hs ht) hstart hrun

/-- In every run without errors of the database, no address has both an attempt to connect
and a contact; and every address that has been set up, whose row is still there and which
has not been dropped since has one of the two, or is among the failures. -/
theorem tracked_of_run (hcodes : CodesRead) {cfg : ClientConfig} {st : Store}
    {now : NaiveDateTime} {es : List Event} {t : Session} (hup : Up st) (hst : Written st)
    (hrun : run next (initial cfg st now) es = some t) :
    (∀ a, ¬ ((t.factory.contactsStarting.lookup a).isSome ∧
      (t.factory.contacts.lookup a).isSome)) ∧
    ∀ a ∈ t.factory.setUp, HasRecipient t.factory.store a →
      (t.factory.contactsStarting.lookup a).isSome ∨ (t.factory.contacts.lookup a).isSome ∨
        a ∈ t.factory.failedContacts := by
  have h := kept_of_run hcodes.keysRead hup hst hrun
  refine ⟨fun a ⟨hstarting, hct⟩ => ?_, fun a ha _ => ?_⟩
  · rw [h.apart a hstarting] at hct
    cases hct
  · rcases (h.tracked a ha).2 with (hpresent | hf) | hno
    · exact hpresent.elim .inl fun hct => .inr (.inl hct)
    · exact .inr (.inr hf)
    · cases hno

end Keeping

section Samples

attribute [local instance] Sample.crates

def sampleConfig : ClientConfig := ⟨("admin" : Str), none⟩

def sampleStart : Session := initial sampleConfig Sample.store 0

/-- The answer of every attempt. -/
def answering (answer : Answer) : Event := .turn (.starting fun _ => answer)

/-- A contact whose first attempt fails, and whose connection is lost after the second. -/
def retrying : List Event :=
  [.storeOp (.recipient Sample.alice ['a']),
    .turn (.command .loadRecipients),
    answering (.failed ("refused" : Str)),
    .turn (.tick (.ok ())),
    answering (.ready ['a'] fun _ => none),
    .turn (.contacts fun _ => ⟨.ok (), [.stopped], .ok ()⟩)]

def retried : Session := (run next sampleStart retrying).get (by decide +kernel)

example : (List.range 7).map (fun k => (run next sampleStart (retrying.take k)).map fun s =>
    ((s.factory.contactsStarting.lookup Sample.alice).isSome,
      (s.factory.contacts.lookup Sample.alice).isSome,
      decide (Sample.alice ∈ s.factory.failedContacts))) =
    [some (false, false, false), some (false, false, false), some (true, false, false),
      some (false, false, true), some (true, false, false), some (false, true, false),
      some (false, false, true)] := by decide +kernel

/-- An address that has been set up, and whose row is there. -/
theorem kept_retried : Sample.alice ∈ retried.factory.setUp ∧
    (∀ a, ¬ ((retried.factory.contactsStarting.lookup a).isSome ∧
      (retried.factory.contacts.lookup a).isSome)) ∧
    ∀ a ∈ retried.factory.setUp, HasRecipient retried.factory.store a →
      (retried.factory.contactsStarting.lookup a).isSome ∨
        (retried.factory.contacts.lookup a).isSome ∨ a ∈ retried.factory.failedContacts := by
  have hrun : run next sampleStart retrying = some retried := (Option.some_get _).symm
  have hwritten : Written Sample.store := ⟨List.nodup_nil, fun r hr => by cases hr⟩
  exact ⟨by decide +kernel, tracked_of_run codesRead (fun _ => rfl) hwritten hrun⟩

end Samples

end SmsIrc.FactoryKeeping
