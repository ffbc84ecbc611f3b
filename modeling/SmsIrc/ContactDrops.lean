import SmsIrc.FactoryKeeping
import SmsIrc.LinkTwice

/-!
What dropping a contact means in the two contact stores: whether there is still one
afterwards, and whether there may be one again without a new row.
-/

namespace SmsIrc.ContactDrops

open SmsIrc.Comm SmsIrc.ContactCommon SmsIrc.Database SmsIrc.External SmsIrc.Factory
open SmsIrc.FactoryKeeping SmsIrc.HashMaps SmsIrc.Link SmsIrc.LinkAgreement
open SmsIrc.LinkEffects SmsIrc.LinkEvents SmsIrc.LinkGhosts SmsIrc.LinkTwice SmsIrc.Models
open SmsIrc.Program SmsIrc.SenderCommon SmsIrc.Text SmsIrc.Transition SmsIrc.Util
open SmsIrc.LinkRuns (StoreOp)

section Drops

variable [Crates]

/-- `has_contact` says yes. -/
def Has {σ : Type} [HasStore σ] [ContactSetup σ] (s : σ) (a : PduAddress) : Prop :=
  (exec (ContactSetup.hasContact a) s).1 = .ok true

theorem has_link (l : InspLink) (a : PduAddress) : Has l a ↔ (l.contacts.lookup a).isSome := by
  change Except.ok (l.contacts.lookup a).isSome = Except.ok (ε := Failure) true ↔ _
  rw [Except.ok.injEq]

theorem has_factory (f : ContactFactory) (a : PduAddress) : Has f a ↔ Present f a := by
  change Except.ok ((f.contactsStarting.lookup a).isSome || (f.contacts.lookup a).isSome) =
    Except.ok (ε := Failure) true ↔ _
  rw [Except.ok.injEq, Bool.or_eq_true]
  exact Iff.rfl

/-- A use of the database leaves a row for an address. -/
def Makes (a : PduAddress) (st : Store) (op : StoreOp) : Prop :=
  HasRecipient (exec op.run st).2 a

theorem not_hasRecipient_keep (st : Store) (a : PduAddress) :
    ¬ HasRecipient { st with
      recipients := st.recipients.keep fun r => r.phoneNumber ≠ normalizeAddress a } a := by
  rintro ⟨row, hrow, hnum⟩
  exact of_decide_eq_true (List.mem_filter.mp hrow).2 hnum

section Link

theorem met_of_opening (hkeys : KeysRead) {c r : Prop} {e : LinkRuns.Event} {s t : InspLink}
    (hs : Keyed s.store) (h : Opening c r e s t) :
    Keyed t.store ∧ ∀ a, (∀ op, e = .storeOp op → ¬ Makes a s.store op) → Met t a → Met s a := by
  have hsame : ∀ {u : InspLink}, u.store.recipients = s.store.recipients →
      u.contacts = s.contacts →
        Keyed u.store ∧ ∀ a, (∀ op, e = .storeOp op → ¬ Makes a s.store op) →
          Met u a → Met s a := by
    intro u hrec hcontacts
    refine ⟨keyed_of_numbers hs (by rw [hrec]), fun a _ => ?_⟩
    rintro (hct | hrow)
    · exact .inl (hcontacts ▸ hct)
    · rw [HasRecipient, hrec] at hrow
      exact .inr hrow
  have hleft : ∀ uuid, Keyed (withoutUser s uuid).store ∧
      ∀ a, (∀ op, e = .storeOp op → ¬ Makes a s.store op) → Met (withoutUser s uuid) a →
        Met s a := by
    refine fun uuid => ⟨hs, fun a _ => ?_⟩
    rintro (⟨ct, hct⟩ | hrow)
    · exact .inl ⟨ct, (withoutUser_contact hct).1⟩
    · exact .inr hrow
  cases h with
  | nothing hno => exact hsame rfl rfl
  | connected heff | linked heff =>
      obtain ⟨hkeyed, hmet⟩ := met_of_effects hs heff
      exact ⟨hkeyed, fun a _ => hmet a⟩
  | killed | quit => exact hleft _
  | @stored _ op =>
      refine ⟨((rowsKept_storeOp hkeys op).exec s.store).keyed hs, fun a hno => ?_⟩
      rintro (hct | hrow)
      · exact .inl hct
      · exact absurd hrow (hno op rfl)
  | burst | user | nick | host | squit | clock => exact hsame rfl rfl

theorem met_of_next (hkeys : KeysRead) {s t : LinkRuns.Session} {e : LinkRuns.Event}
    (hs : Keyed s.link.store) (h : LinkRuns.next s e = some t) :
    Keyed t.link.store ∧ ∀ a, (∀ op, e = .storeOp op → ¬ Makes a s.link.store op) →
      Met t.link a → Met s.link a := by
  obtain ⟨-, u, hopen, heff⟩ :=
    happened_of_next (c := True) (r := True) (fun _ => trivial) (fun _ => trivial) h
  obtain ⟨hu, hmet⟩ := met_of_opening hkeys hs hopen
  obtain ⟨ht, hmet'⟩ := met_of_effects hu heff
  exact ⟨ht, fun a hno ha => hmet a hno (hmet' a ha)⟩

theorem not_met_of_dropContact {l l' : InspLink} {a : PduAddress}
    (h : exec (dropContact a) l = (.ok (), l')) (hk : Keyed l.store) :
    Keyed l'.store ∧ ¬ Met l' a := by
  have hl' := wp_of_ok h (wp_dropContact_dropped l a)
  rw [hl']
  refine ⟨keyed_dropped (s := { l with store := l.store.tick }) ⟨hk.nodup, hk.normal⟩ a, ?_⟩
  rintro (⟨ct, hct⟩ | hrow)
  · have hnone : (dropped { l with store := l.store.tick } a).contacts.lookup a = none :=
      (lookup_erase _ a a).trans (if_pos rfl)
    rw [hnone] at hct
    cases hct
  · exact not_hasRecipient_keep l.store a hrow

end Link

section Factory

/-- There is a row, an attempt to connect or a contact for an address. -/
def Recalled (f : ContactFactory) (a : PduAddress) : Prop :=
  Present f a ∨ HasRecipient f.store a

/-- A step after which nothing is there for an address that was not there before. -/
def Forgets (s t : ContactFactory) : Prop :=
  Keyed s.store → Keyed t.store ∧ ∀ a, Recalled t a → Recalled s a

instance : IsPreorder ContactFactory Forgets where
  refl _ h := ⟨h, fun _ ha => ha⟩
  trans _ _ _ hst htu hk := by
    obtain ⟨ht, hback⟩ := hst hk
    obtain ⟨hu, hback'⟩ := htu ht
    exact ⟨hu, fun a ha => hback a (hback' a ha)⟩

theorem forgets_of_numbers {s t : ContactFactory}
    (hnum : t.store.recipients.rows.map Recipient.phoneNumber =
      s.store.recipients.rows.map Recipient.phoneNumber)
    (hpresent : ∀ a, Present t a → Recalled s a) : Forgets s t := by
  refine fun hk => ⟨keyed_of_numbers hk hnum, fun a ha => ?_⟩
  rcases ha with ha | ⟨row, hrow, heq⟩
  · exact hpresent a ha
  · have hmem := List.mem_map_of_mem (f := Recipient.phoneNumber) hrow
    rw [hnum] at hmem
    obtain ⟨row', hrow', heq'⟩ := List.mem_map.mp hmem
    exact .inr ⟨row', hrow', heq'.trans heq⟩

theorem forgets_starts {s t : ContactFactory} (h : Starts s t) : Forgets s t := by
  intro hk
  refine forgets_of_numbers (by rw [h.recipients]) (fun a ha => ?_) hk
  rcases ha with hstarting | hct
  · rcases h.started a hstarting with hold | ⟨-, hrow⟩
    · exact .inl (.inl hold)
    · obtain ⟨row, hrow⟩ := hrow hk
      exact .inr ⟨row, hrow.stored, hrow.number⟩
  · rw [h.contacts] at hct
    exact .inl (.inr hct)

theorem forgets_droppedFrom (s : ContactFactory) (b : PduAddress) :
    Forgets s (droppedFrom s b) := by
  refine fun hk => ⟨⟨?_, ?_⟩, fun a ha => ?_⟩
  · exact hk.nodup.sublist (List.filter_sublist.map Recipient.phoneNumber)
  · exact fun r hr => hk.normal r (List.mem_of_mem_filter hr)
  · rcases ha with (hstarting | hct) | ⟨row, hrow, hnum⟩
    · exact .inl (.inl hstarting)
    · change ((s.contacts.erase b).lookup a).isSome at hct
      rw [lookup_erase] at hct
      split at hct
      · cases hct
      · exact .inl (.inr hct)
    · exact .inr ⟨row, List.mem_of_mem_filter hrow, hnum⟩

theorem forgets_swept {s t u : ContactFactory} {ended : List (Option PduAddress)}
    (h : Swept s ended t) (hstore : u.store = t.store)
    (hback : ∀ a, Present u a → Present t a) : Forgets s u := by
  refine forgets_of_numbers (by rw [hstore, h.store.numbers]) fun a ha => .inl ?_
  rcases hback a ha with hstarting | hct
  · rw [h.starting] at hstarting
    exact .inl hstarting
  · exact (h.grown a hct).elim .inr (h.present a)

/-- Nothing that a factory does brings an address back that it has forgotten. -/
theorem forgets_turn (t : FactoryRuns.Turn) : Moves Forgets t.run := by
  intro s
  cases t with
  | command c =>
      have hcommand := wp_handleCommand_of (I := Forgets s)
        (fun _ _ hs ht => IsTrans.trans _ _ _ hs (forgets_starts ht))
        (fun u b hs => IsTrans.trans _ _ _ hs (forgets_droppedFrom u b)) (refl s) c
      exact wp_mono hcommand (fun _ _ ht => ht) fun _ _ ht => ⟨ht, trivial⟩
  | starting answers =>
      refine wp_mono (wp_pollStarting s answers) ?_ fun _ _ he => he.elim
      rintro _ _ ⟨ended, t, m, ht, rfl, hmem⟩
      refine forgets_swept ht rfl fun a ha => ha.imp_left fun hstarting => ?_
      rw [ht.starting]
      exact ((hmem a).mp hstarting).2
  | contacts activity =>
      refine wp_mono (wp_pollContacts s activity) ?_ ?_
      · rintro _ _ ⟨ended, t, m, ht, rfl, hmem⟩
        refine forgets_swept ht.1 rfl fun a ha => ha.imp_right fun hct => ?_
        exact ht.1.contacts a ((hmem a).mp hct).2
      · rintro _ t ⟨ended, ht⟩
        exact ⟨forgets_swept ht.1 rfl fun _ ha => ha, trivial⟩
  | tick r =>
      cases r with
      | error e => exact ⟨refl s, trivial⟩
      | ok _ =>
          -- the failures are set up only where there are rows
          refine steps_get_bind (fun s => ?_) s
          rw [wp_bind, wp_set]
          refine Steps.after (Steps.forM fun a _ => ?_) ?_
          · exact (starts_setupContact a).mono fun _ _ => forgets_starts
          · exact forgets_of_numbers rfl fun a ha => .inl ha

theorem forgets_next (hkeys : KeysRead) {s t : FactoryRuns.Session} {e : FactoryRuns.Event}
    (hs : Keyed s.factory.store) (h : FactoryRuns.next s e = some t) :
    Keyed t.factory.store ∧ ∀ a, (∀ op, e = .storeOp op → ¬ Makes a s.factory.store op) →
      Recalled t.factory a → Recalled s.factory a := by
  obtain ⟨-, rfl⟩ := FactoryRuns.step_of_next h
  cases e with
  | turn t =>
      obtain ⟨hkeyed, hback⟩ := (forgets_turn t).exec s.factory hs
      exact ⟨hkeyed, fun a _ => hback a⟩
  | storeOp op =>
      refine ⟨((rowsKept_storeOp hkeys op).exec s.factory.store).keyed hs, fun a hno => ?_⟩
      rintro (hpresent | hrow)
      · exact .inl hpresent
      · exact absurd hrow (hno op rfl)
  | clock now dbNow => exact ⟨⟨hs.nodup, hs.normal⟩, fun _ _ ha => ha⟩

/-- Whatever was pending, what is there after a drop is the attempt to connect. -/
theorem recalled_droppedFrom (s : ContactFactory) (a : PduAddress) :
    Recalled (droppedFrom s a) a ↔ (s.contactsStarting.lookup a).isSome := by
  have hcontacts : ((s.contacts.erase a).lookup a).isSome = false := by
    rw [lookup_erase, if_pos rfl]
    rfl
  change ((s.contactsStarting.lookup a).isSome ∨ ((s.contacts.erase a).lookup a).isSome) ∨ _ ↔ _
  have hrow : ¬ HasRecipient (droppedFrom s a).store a := not_hasRecipient_keep s.store.tick a
  rw [hcontacts, or_iff_left hrow, or_iff_left Bool.false_ne_true]

end Factory

/-- No event creates a row for an address. -/
def NotMade (a : PduAddress) (s : LinkRuns.Session) (e : LinkRuns.Event) : Prop :=
  ∀ op, e = .storeOp op → ¬ Makes a s.link.store op

/-- The same for a factory. -/
def NeverMade (a : PduAddress) (s : FactoryRuns.Session) (e : FactoryRuns.Event) : Prop :=
  ∀ op, e = .storeOp op → ¬ Makes a s.factory.store op

theorem keyed_of_run (hkeys : KeysRead) {cfg : InspConfig} {st : Store} {now : NaiveDateTime}
    {es : List LinkRuns.Event} {s : LinkRuns.Session} (hst : Written st)
    (hrun : run LinkRuns.next (LinkRuns.initial cfg st now) es = some s) : Keyed s.link.store :=
  invariant (I := fun s => Keyed s.link.store)
    (fun _ _ _ hs ht => (met_of_next hkeys hs ht).1) (hst.keyed hkeys) hrun

theorem keyed_of_factory_run (hkeys : KeysRead) {cfg : ClientConfig} {st : Store}
    {now : NaiveDateTime} {es : List FactoryRuns.Event} {s : FactoryRuns.Session}
    (hst : Written st)
    (hrun : run FactoryRuns.next (FactoryRuns.initial cfg st now) es = some s) :
    Keyed s.factory.store :=
  invariant (I := fun s => Keyed s.factory.store)
    (fun _ _ _ hs ht => (forgets_next hkeys hs ht).1) (hst.keyed hkeys) hrun

/-- In every run, a contact of the link that has been dropped is gone until a row is made for
it; a contact of the factory is so exactly if no attempt to connect is under way for it. -/
theorem has_after_drop_iff (hcodes : CodesRead) {st : Store} (hst : Written st)
    (now : NaiveDateTime) :
    (∀ cfg es s a l, run LinkRuns.next (LinkRuns.initial cfg st now) es = some s →
      exec (dropContact a) s.link = (.ok (), l) → ∀ fs t,
        AllSteps LinkRuns.next (NotMade a) ⟨l, none⟩ fs →
          run LinkRuns.next ⟨l, none⟩ fs = some t → ¬ Has t.link a) ∧
    ∀ cfg es s a f, run FactoryRuns.next (FactoryRuns.initial cfg st now) es = some s →
      exec (dropContact a) s.factory = (.ok (), f) →
        ((∀ fs t, AllSteps FactoryRuns.next (NeverMade a) ⟨f, none⟩ fs →
          run FactoryRuns.next ⟨f, none⟩ fs = some t → ¬ Has t.factory a) ↔
            s.factory.contactsStarting.lookup a = none) := by
  have hkeys := hcodes.keysRead
  constructor
  · intro cfg es s a l hrun hdrop fs t hfs ht
    have hgone := not_met_of_dropContact hdrop (keyed_of_run hkeys hst hrun)
    have hlater := invariant_of_allSteps
      (I := fun s : LinkRuns.Session => Keyed s.link.store ∧ ¬ Met s.link a)
      (fun u e v he hu hv => ⟨(met_of_next hkeys hu.1 hv).1,
        fun hmet => hu.2 ((met_of_next hkeys hu.1 hv).2 a he hmet)⟩) hfs hgone ht
    rw [has_link, Option.isSome_iff_exists]
    exact fun hct => hlater.2 (.inl hct)
  · intro cfg es s a f hrun hdrop
    obtain ⟨-, rfl⟩ := wp_of_ok hdrop (wp_dropContact s.factory a)
    constructor
    · intro h
      have hnow := h [] _ trivial rfl
      rw [has_factory] at hnow
      exact Option.not_isSome_iff_eq_none.mp fun hstarting => hnow (.inl hstarting)
    · intro hnone fs t hfs ht
      have hkeyed := keyed_of_factory_run hkeys hst hrun
      have hgone : Keyed (droppedFrom s.factory a).store ∧
          ¬ Recalled (droppedFrom s.factory a) a := by
        refine ⟨(forgets_droppedFrom s.factory a hkeyed).1, ?_⟩
        rw [recalled_droppedFrom, hnone]
        exact Bool.false_ne_true
      have hlater := invariant_of_allSteps
        (I := fun s : FactoryRuns.Session => Keyed s.factory.store ∧ ¬ Recalled s.factory a)
        (fun u e v he hu hv => ⟨(forgets_next hkeys hu.1 hv).1,
          fun hback => hu.2 ((forgets_next hkeys hu.1 hv).2 a he hback)⟩) hfs hgone ht
      rw [has_factory]
      exact fun hpresent => hlater.2 (.inl hpresent)

end Drops

section Samples

attribute [local instance] Sample.crates

/-- A contact whose first attempt is under way. -/
def attempting : List FactoryRuns.Event :=
  [.storeOp (.recipient Sample.alice ['a']), .turn (.command .loadRecipients)]

def attempted : FactoryRuns.Session :=
  (run FactoryRuns.next sampleStart attempting).get (by decide +kernel)

/-- The contact that is dropped before it has connected is still there, and stays when the
attempt succeeds. -/
theorem has_after_drop : run FactoryRuns.next sampleStart attempting = some attempted ∧
    ∃ f t, exec (dropContact Sample.alice) attempted.factory = (.ok (), f) ∧
      Has f Sample.alice ∧
      run FactoryRuns.next ⟨f, none⟩ [answering (.ready ['a'] fun _ => none)] = some t ∧
      ¬ HasRecipient t.factory.store Sample.alice ∧ Has t.factory Sample.alice := by
  have hok : (exec (dropContact Sample.alice) attempted.factory).1.isOk = true := by
    decide +kernel
  refine ⟨(Option.some_get _).symm, _, _, exec_eq_of_isOk hok, ?_, rfl, ?_, ?_⟩
  · rw [has_factory]
    exact .inl (by decide +kernel)
  · rintro ⟨row, hrow, -⟩
    have hnone : (FactoryRuns.step ⟨(exec (dropContact Sample.alice) attempted.factory).2, none⟩
        (answering (.ready ['a'] fun _ => none))).factory.store.recipients.rows = [] := by
      decide +kernel
    rw [hnone] at hrow
    cases hrow
  · rw [has_factory]
    exact .inr (by decide +kernel)

/-- A contact that has connected. -/
def connecting : List FactoryRuns.Event :=
  attempting ++ [answering (.ready ['a'] fun _ => none)]

def connected : FactoryRuns.Session :=
  (run FactoryRuns.next sampleStart connecting).get (by decide +kernel)

/-- When it is dropped, it is gone. -/
theorem gone_after_drop : ∃ f, exec (dropContact Sample.alice) connected.factory = (.ok (), f) ∧
    ∀ fs t, AllSteps FactoryRuns.next (NeverMade Sample.alice) ⟨f, none⟩ fs →
      run FactoryRuns.next ⟨f, none⟩ fs = some t → ¬ Has t.factory Sample.alice := by
  have hrun : run FactoryRuns.next sampleStart connecting = some connected :=
    (Option.some_get _).symm
  have hok : (exec (dropContact Sample.alice) connected.factory).1.isOk = true := by
    decide +kernel
  have hwritten : Written Sample.store := ⟨List.nodup_nil, fun r hr => by cases hr⟩
  have hnone : connected.factory.contactsStarting.lookup Sample.alice = none :=
    Option.isNone_iff_eq_none.mp (by decide +kernel)
  refine ⟨_, exec_eq_of_isOk hok, ?_⟩
  exact ((has_after_drop_iff codesRead hwritten 0).2 sampleConfig connecting connected
    Sample.alice _ hrun (exec_eq_of_isOk hok)).mpr hnone

end Samples

end SmsIrc.ContactDrops
