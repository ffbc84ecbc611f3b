import SmsIrc.LinkEvents

/-!
The two contact maps and the UUIDs that have been issued, in every state of every run.
-/

namespace SmsIrc.LinkLedger

open SmsIrc.Database SmsIrc.External SmsIrc.HashMaps SmsIrc.InspUsers SmsIrc.Link
open SmsIrc.LinkEffects SmsIrc.LinkEvents SmsIrc.LinkGhosts SmsIrc.LinkRuns SmsIrc.Models
open SmsIrc.Program SmsIrc.Text SmsIrc.Transition SmsIrc.Util

section Ledger

variable [Crates]

/-- The maps of contacts are inverse to each other, and their UUIDs have been issued. -/
structure Ledger (l : InspLink) : Prop where
  uuidOf_contact : ∀ a ct, l.contacts.lookup a = some ct →
    l.contactsUuidPdua.lookup ct.uuid = some a
  contact_of_uuid : ∀ u a, l.contactsUuidPdua.lookup u = some a →
    ∃ ct, l.contacts.lookup a = some ct ∧ ct.uuid = u
  issued_of_contact : ∀ a ct, l.contacts.lookup a = some ct → ct.uuid ∈ l.issued
  issued : l.issued = (List.range' 1 (l.nextUserId - 1)).map (uuidOf l.cfg.sid)
  next : 1 ≤ l.nextUserId
  control : l.controlUuid = l.cfg.sid ++ ("A00000" : Str)

theorem Ledger.uuid_injective {l : InspLink} (h : Ledger l) {a b : PduAddress}
    {ct ct' : InspContact} (hct : l.contacts.lookup a = some ct)
    (hct' : l.contacts.lookup b = some ct') (huuid : ct.uuid = ct'.uuid) : a = b := by
  have ha := h.uuidOf_contact a ct hct
  rw [huuid, h.uuidOf_contact b ct' hct'] at ha
  exact (Option.some.inj ha).symm

theorem Ledger.unissued {l : InspLink} (h : Ledger l) {n : Nat} (hn : l.nextUserId ≤ n) :
    uuidOf l.cfg.sid n ∉ l.issued := by
  rw [h.issued]
  intro hmem
  obtain ⟨k, hk, heq⟩ := List.mem_map.mp hmem
  have := uuidOf_injective heq
  rw [List.mem_range'_1] at hk
  omega

theorem Ledger.control_ne_uuidOf {l : InspLink} (h : Ledger l) (n : Nat) :
    uuidOf l.cfg.sid n ≠ l.controlUuid := by
  rw [h.control]
  intro heq
  exact absurd (List.cons.inj (List.append_cancel_left heq)).1 (by decide)

theorem Ledger.control_notMem {l : InspLink} (h : Ledger l) : l.controlUuid ∉ l.issued := by
  rw [h.issued]
  intro hmem
  obtain ⟨n, _, hn⟩ := List.mem_map.mp hmem
  exact h.control_ne_uuidOf n hn

theorem Ledger.sid_ne {l : InspLink} (h : Ledger l) {u : Str} (hu : IsOurs l u) :
    u ≠ l.cfg.sid := by
  have hlong : ∀ tail : Str, tail ≠ [] → l.cfg.sid ++ tail ≠ l.cfg.sid := by
    intro tail htail heq
    exact htail (List.append_right_eq_self.mp heq)
  rcases hu with rfl | hu
  · rw [h.control]
    exact hlong _ (by decide)
  · rw [h.issued] at hu
    obtain ⟨n, _, rfl⟩ := List.mem_map.mp hu
    exact hlong _ (by simp)

theorem Ledger.isOurs_of_contact {l : InspLink} (h : Ledger l) {a : PduAddress}
    {ct : InspContact} (hct : l.contacts.lookup a = some ct) : IsOurs l ct.uuid :=
  .inr (h.issued_of_contact a ct hct)

theorem Ledger.contact_ne_control {l : InspLink} (h : Ledger l) {a : PduAddress}
    {ct : InspContact} (hct : l.contacts.lookup a = some ct) : ct.uuid ≠ l.controlUuid := by
  intro heq
  exact h.control_notMem (heq ▸ h.issued_of_contact a ct hct)

theorem Ledger.contact_ne_next {l : InspLink} (h : Ledger l) {a : PduAddress}
    {ct : InspContact} (hct : l.contacts.lookup a = some ct) :
    ct.uuid ≠ uuidOf l.cfg.sid l.nextUserId := by
  intro heq
  exact h.unissued le_rfl (heq ▸ h.issued_of_contact a ct hct)

theorem ledger_of_eq {s t : InspLink} (h : Ledger s) (hcfg : t.cfg = s.cfg)
    (hcontrol : t.controlUuid = s.controlUuid) (hnext : t.nextUserId = s.nextUserId)
    (hissued : t.issued = s.issued)
    (hcontacts : ∀ a, (t.contacts.lookup a).map InspContact.uuid =
      (s.contacts.lookup a).map InspContact.uuid)
    (hghosts : ∀ u, t.contactsUuidPdua.lookup u = s.contactsUuidPdua.lookup u) : Ledger t := by
  have hback : ∀ a ct, t.contacts.lookup a = some ct →
      ∃ ct', s.contacts.lookup a = some ct' ∧ ct'.uuid = ct.uuid := by
    intro a ct hct
    have heq := hcontacts a
    rw [hct] at heq
    exact Option.map_eq_some_iff.mp heq.symm
  constructor
  · intro a ct hct
    obtain ⟨ct', hct', huuid⟩ := hback a ct hct
    rw [hghosts, ← huuid]
    exact h.uuidOf_contact a ct' hct'
  · intro u a hu
    rw [hghosts] at hu
    obtain ⟨ct, hct, rfl⟩ := h.contact_of_uuid u a hu
    have heq := hcontacts a
    rw [hct] at heq
    exact Option.map_eq_some_iff.mp heq
  · intro a ct hct
    obtain ⟨ct', hct', huuid⟩ := hback a ct hct
    rw [hissued, ← huuid]
    exact h.issued_of_contact a ct' hct'
  · rw [hissued, hnext, hcfg]
    exact h.issued
  · rw [hnext]
    exact h.next
  · rw [hcontrol, hcfg]
    exact h.control

theorem lookup_uuid_insert {l : InspLink} {a : PduAddress} {ct ct' : InspContact}
    (hct : l.contacts.lookup a = some ct) (huuid : ct'.uuid = ct.uuid) (b : PduAddress) :
    ((l.contacts.insert a ct').lookup b).map InspContact.uuid =
      (l.contacts.lookup b).map InspContact.uuid := by
  rw [lookup_insert]
  split
  · rename_i h
    rw [h, hct, Option.map_some, Option.map_some, huuid]
  · rfl

theorem ledger_introduced {l : InspLink} (h : Ledger l) {a : PduAddress} (nick : Str) (wa : Bool)
    (ha : l.contacts.lookup a = none) : Ledger (introduced l a nick wa) := by
  have hfresh : l.contactsUuidPdua.lookup (uuidOf l.cfg.sid l.nextUserId) = none := by
    rw [Option.eq_none_iff_forall_ne_some]
    intro b hb
    obtain ⟨ct, hct, huuid⟩ := h.contact_of_uuid _ b hb
    exact h.contact_ne_next hct huuid
  have hcontacts : ∀ b, (introduced l a nick wa).contacts.lookup b =
      if b = a then some ⟨uuidOf l.cfg.sid l.nextUserId, [], wa⟩ else l.contacts.lookup b :=
    fun b => lookup_insert l.contacts a b _
  have hghosts : ∀ u, (introduced l a nick wa).contactsUuidPdua.lookup u =
      if u = uuidOf l.cfg.sid l.nextUserId then some a else l.contactsUuidPdua.lookup u :=
    fun u => lookup_insert l.contactsUuidPdua _ u a
  constructor
  · intro b ct hct
    rw [hcontacts] at hct
    rw [hghosts]
    split at hct
    · rename_i hb
      cases hct
      rw [if_pos rfl, hb]
    · rw [if_neg (h.contact_ne_next hct)]
      exact h.uuidOf_contact b ct hct
  · intro u b hu
    rw [hghosts] at hu
    split at hu
    · rename_i hu'
      cases hu
      exact ⟨_, by rw [hcontacts, if_pos rfl], hu'.symm⟩
    · obtain ⟨ct, hct, huuid⟩ := h.contact_of_uuid u b hu
      have hne : b ≠ a := by
        rintro rfl
        rw [ha] at hct
        cases hct
      exact ⟨ct, by rw [hcontacts, if_neg hne, hct], huuid⟩
  · intro b ct hct
    rw [hcontacts] at hct
    change ct.uuid ∈ l.issued ++ [_]
    split at hct
    · cases hct
      exact List.mem_append_right _ (List.mem_singleton.mpr rfl)
    · exact List.mem_append_left _ (h.issued_of_contact b ct hct)
  · have hnext := h.next
    have hlen : l.nextUserId + 1 - 1 = l.nextUserId - 1 + 1 := by omega
    have hlast : 1 + (l.nextUserId - 1) = l.nextUserId := by omega
    change l.issued ++ [_] = (List.range' 1 (l.nextUserId + 1 - 1)).map (uuidOf l.cfg.sid)
    rw [h.issued, hlen, List.range'_1_concat, List.map_append, hlast]
    rfl
  · exact Nat.le_succ_of_le h.next
  · exact h.control

theorem Ledger.withoutUser_contact {l : InspLink} (h : Ledger l) {uuid : Str} {b : PduAddress}
    {ct : InspContact} : (withoutUser l uuid).contacts.lookup b = some ct ↔
      l.contacts.lookup b = some ct ∧ ct.uuid ≠ uuid := by
  unfold withoutUser
  cases ha : l.contactsUuidPdua.lookup uuid with
  | none =>
      refine ⟨fun hct => ⟨hct, ?_⟩, fun hct => hct.1⟩
      rintro rfl
      rw [h.uuidOf_contact b ct hct] at ha
      cases ha
  | some a =>
      dsimp only
      rw [lookup_erase]
      split
      · rename_i hb
        refine ⟨fun hct => (by cases hct), fun hct => absurd ?_ hct.2⟩
        obtain ⟨ct', hct', huuid⟩ := h.contact_of_uuid uuid a ha
        rw [← hb, hct.1] at hct'
        cases hct'
        exact huuid
      · rename_i hb
        refine ⟨fun hct => ⟨hct, ?_⟩, fun hct => hct.1⟩
        rintro rfl
        rw [h.uuidOf_contact b ct hct] at ha
        exact hb (Option.some.inj ha)

theorem ledger_withoutUser {l : InspLink} (h : Ledger l) (uuid : Str) :
    Ledger (withoutUser l uuid) := by
  have hghosts : ∀ u, (withoutUser l uuid).contactsUuidPdua.lookup u =
      if u = uuid then none else l.contactsUuidPdua.lookup u :=
    fun u => lookup_erase l.contactsUuidPdua uuid u
  constructor
  · intro b ct hct
    obtain ⟨hct, hne⟩ := h.withoutUser_contact.mp hct
    rw [hghosts, if_neg hne]
    exact h.uuidOf_contact b ct hct
  · intro u b hu
    rw [hghosts] at hu
    split at hu
    · cases hu
    · rename_i hne
      obtain ⟨ct, hct, huuid⟩ := h.contact_of_uuid u b hu
      exact ⟨ct, h.withoutUser_contact.mpr ⟨hct, huuid ▸ hne⟩, huuid⟩
  · intro b ct hct
    exact h.issued_of_contact b ct (h.withoutUser_contact.mp hct).1
  · exact h.issued
  · exact h.next
  · exact h.control

theorem Ledger.quitted_contact {l : InspLink} (h : Ledger l) {a b : PduAddress}
    {ct : InspContact} : (quitted l a).contacts.lookup b = some ct ↔
      l.contacts.lookup b = some ct ∧ b ≠ a := by
  unfold quitted
  cases ha : l.contacts.lookup a with
  | none =>
      refine ⟨fun hct => ⟨hct, ?_⟩, fun hct => hct.1⟩
      rintro rfl
      rw [ha] at hct
      cases hct
  | some ct' =>
      have hsaid : Ledger (said l (quitLine ct'.uuid)) :=
        ledger_of_eq h rfl rfl rfl rfl (fun _ => rfl) fun _ => rfl
      refine hsaid.withoutUser_contact.trans ⟨fun hct => ⟨hct.1, ?_⟩, fun hct => ⟨hct.1, ?_⟩⟩
      · rintro rfl
        have hct' : l.contacts.lookup b = some ct := hct.1
        rw [ha] at hct'
        cases hct'
        exact hct.2 rfl
      · exact fun huuid => hct.2 (h.uuid_injective hct.1 ha huuid)

theorem quitted_eq (l : InspLink) (a : PduAddress) :
    (quitted l a).cfg = l.cfg ∧ (quitted l a).controlUuid = l.controlUuid ∧
      (quitted l a).issued = l.issued := by
  unfold quitted
  split <;> exact ⟨rfl, rfl, rfl⟩

theorem quitted_outbox (l : InspLink) (a : PduAddress) :
    ∃ ms, (quitted l a).outbox = l.outbox ++ ms ∧
      ∀ m ∈ ms, ∃ ct, l.contacts.lookup a = some ct ∧ m = quitLine ct.uuid := by
  unfold quitted
  cases hct : l.contacts.lookup a with
  | none => exact ⟨[], (List.append_nil _).symm, fun m hm => by cases hm⟩
  | some ct => exact ⟨[quitLine ct.uuid], rfl, fun m hm => ⟨ct, rfl, List.mem_singleton.mp hm⟩⟩

theorem quitted_user {l : InspLink} {a : PduAddress} {u : Str}
    (hu : ∀ ct, l.contacts.lookup a = some ct → u ≠ ct.uuid) :
    (quitted l a).users.lookup u = l.users.lookup u := by
  unfold quitted
  cases hct : l.contacts.lookup a with
  | none => rfl
  | some ct =>
      change (l.users.erase ct.uuid).lookup u = _
      rw [lookup_erase, if_neg (hu ct hct)]

theorem ledger_quitted {l : InspLink} (h : Ledger l) (a : PduAddress) : Ledger (quitted l a) := by
  unfold quitted
  split
  · rename_i ct _
    exact ledger_withoutUser (l := said l (quitLine ct.uuid))
      (ledger_of_eq h rfl rfl rfl rfl (fun _ => rfl) fun _ => rfl) _
  · exact h

theorem Ledger.dropped_contact {l : InspLink} (h : Ledger l) {a b : PduAddress}
    {ct : InspContact} : (dropped l a).contacts.lookup b = some ct ↔
      l.contacts.lookup b = some ct ∧ b ≠ a := by
  change ((quitted l a).contacts.erase a).lookup b = some ct ↔ _
  rw [lookup_erase]
  split
  · rename_i hb
    exact ⟨fun hct => (by cases hct), fun hct => absurd hb hct.2⟩
  · exact h.quitted_contact

theorem ledger_dropped {l : InspLink} (h : Ledger l) (a : PduAddress) : Ledger (dropped l a) := by
  have hq := ledger_quitted h a
  have hgone : (quitted l a).contacts.lookup a = none := by
    rw [Option.eq_none_iff_forall_ne_some]
    intro ct hct
    exact (h.quitted_contact.mp hct).2 rfl
  refine ledger_of_eq (s := quitted l a) hq rfl rfl rfl rfl (fun b => ?_) ?_
  · change (((quitted l a).contacts.erase a).lookup b).map _ = _
    rw [lookup_erase]
    split
    · rename_i hb
      rw [hb, hgone]
    · rfl
  · intro u
    refine Option.ext fun b => ?_
    refine lookup_retain_eq_some.trans ⟨fun hu => hu.1, fun hu => ⟨hu, ?_⟩⟩
    obtain ⟨ct, hct, _⟩ := hq.contact_of_uuid u b hu
    exact decide_eq_true (h.quitted_contact.mp hct).2

theorem ledger_effect {c r : Prop} {s t : InspLink} (h : Ledger s) (heff : Effect c r s t) :
    Ledger t := by
  cases heff with
  | apart ha =>
      exact ledger_of_eq h ha.cfg ha.controlUuid ha.nextUserId ha.issued
        (fun _ => by rw [ha.contacts]) fun _ => by rw [ha.ghosts]
  | said hm => exact ledger_of_eq h rfl rfl rfl rfl (fun _ => rfl) fun _ => rfl
  | collided ha => exact ledger_of_eq h rfl rfl rfl rfl (fun _ => rfl) fun _ => rfl
  | introduced ha hid hfree hrow => exact ledger_introduced h _ _ ha
  | regrouped hct hr hgrps =>
      exact ledger_of_eq h rfl rfl rfl rfl (lookup_uuid_insert hct rfl) fun _ => rfl
  | moded hct =>
      exact ledger_of_eq h rfl rfl rfl rfl (lookup_uuid_insert hct rfl) fun _ => rfl
  | marked hct hdown =>
      exact ledger_of_eq h rfl rfl rfl rfl (lookup_uuid_insert hct rfl) fun _ => rfl
  | renamed hct huser hfree => exact ledger_of_eq h rfl rfl rfl rfl (fun _ => rfl) fun _ => rfl
  | announced hct huser hfree hdown =>
      exact ledger_of_eq h rfl rfl rfl rfl (fun _ => rfl) fun _ => rfl
  | dropped => exact ledger_dropped h _

theorem ledger_effects {c r : Prop} {s t : InspLink} (h : Ledger s) (heff : Effects c r s t) :
    Ledger t := heff.invariant (fun _ _ hs he => ledger_effect hs he) h

theorem ledger_opening {c r : Prop} {e : Event} {s t : InspLink} (h : Ledger s)
    (hopen : Opening c r e s t) : Ledger t := by
  cases hopen with
  | nothing he => exact h
  | connected heff =>
      exact ledger_of_eq (ledger_effects h heff) rfl rfl rfl rfl (fun _ => rfl) fun _ => rfl
  | linked heff =>
      exact ledger_of_eq (ledger_effects h heff) rfl rfl rfl rfl (fun _ => rfl) fun _ => rfl
  | killed => exact ledger_withoutUser h _
  | quit => exact ledger_withoutUser h _
  | burst => exact ledger_of_eq h rfl rfl rfl rfl (fun _ => rfl) fun _ => rfl
  | user huid => exact ledger_of_eq h rfl rfl rfl rfl (fun _ => rfl) fun _ => rfl
  | nick huser => exact ledger_of_eq h rfl rfl rfl rfl (fun _ => rfl) fun _ => rfl
  | host huser => exact ledger_of_eq h rfl rfl rfl rfl (fun _ => rfl) fun _ => rfl
  | squit => exact ledger_of_eq h rfl rfl rfl rfl (fun _ => rfl) fun _ => rfl
  | stored => exact ledger_of_eq h rfl rfl rfl rfl (fun _ => rfl) fun _ => rfl
  | clock => exact ledger_of_eq h rfl rfl rfl rfl (fun _ => rfl) fun _ => rfl

theorem ledger_initial (cfg : InspConfig) (st : Store) (now : NaiveDateTime) :
    Ledger (initial cfg st now).link where
  uuidOf_contact _ _ h := by cases h
  contact_of_uuid _ _ h := by cases h
  issued_of_contact _ _ h := by cases h
  issued := rfl
  next := le_rfl
  control := rfl

theorem ledger_next {s t : Session} {e : Event} (hs : Ledger s.link) (h : next s e = some t) :
    Ledger t.link := by
  obtain ⟨-, u, hopen, heffects⟩ :=
    happened_of_next (c := True) (r := True) (fun _ => trivial) (fun _ => trivial) h
  exact ledger_effects (ledger_opening hs hopen) heffects

end Ledger

end SmsIrc.LinkLedger
