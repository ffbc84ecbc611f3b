import SmsIrc.ContactDrops
import SmsIrc.NickQueues

/-!
Whether the nicks that the user chose last: the interleavings of contact events, of RENAMEs
and of the commands that the link, or the factory and its contacts, receive.
-/

namespace SmsIrc.NickRuns

open SmsIrc.Comm SmsIrc.ContactCommon SmsIrc.ControlCommands SmsIrc.Database SmsIrc.External
open SmsIrc.HashMaps SmsIrc.Link SmsIrc.LinkAgreement SmsIrc.LinkEffects SmsIrc.LinkEvents
open SmsIrc.LinkGhosts SmsIrc.Models SmsIrc.NickQueues SmsIrc.NickSources SmsIrc.Program
open SmsIrc.SenderCommon SmsIrc.Text SmsIrc.Transition SmsIrc.Util SmsIrc.Whatsapp

section Links

variable [Crates]

/-- The source of the nick that a command brings. -/
def sourceOf : ContactFactoryCommand → Option Int
  | .forwardCommand _ (.changeNick _ src) => some src
  | .forwardCommandByNick _ (.changeNick _ src) => some src
  | _ => none

def linkNext : System InspLink → Event Empty → Option (System InspLink) :=
  next handleCfCommand nofun

/-- The source of the nick that an event has the link store. -/
def linkCause (s : System InspLink) : Event Empty → Option Int
  | .receive => s.queue.head?.bind sourceOf
  | _ => none

/-- No automatic change is waiting that must not replace the nick that is being stored. -/
def LinkInOrder (s : System InspLink) : Event Empty → Prop
  | .receive =>
      match s.queue with
      | c :: rest => ∀ d ∈ rest, ¬ Outdated (storedBy s.side c) d
      | [] => True
  | _ => True

instance (s : System InspLink) : (e : Event Empty) → Decidable (LinkInOrder s e)
  | .receive =>
      match h : s.queue with
      | c :: rest =>
          decidable_of_iff (∀ d ∈ rest, ¬ Outdated (storedBy s.side c) d) (by rw [LinkInOrder, h])
      | [] => .isTrue (by rw [LinkInOrder, h]; trivial)
  | .contact _ => .isTrue trivial
  | .rename _ _ => .isTrue trivial

/-- The nicks are respected, and no automatic change passes for a RENAME. -/
def LinkRespects (s : System InspLink) (e : Event Empty) : Prop :=
  ∀ t, linkNext s e = some t →
    Respected s.side.store t.side.store (linkCause s e) ∧ Genuine t.queue

/-- There is a contact for an address. -/
def Known (l : InspLink) (a : PduAddress) : Prop := (l.contacts.lookup a).isSome

/-- What holds of a link: its rows have a number each, and its contacts addresses that read
back. -/
structure Readable (l : InspLink) : Prop where
  keyed : Keyed l.store
  readsBack : ∀ a, Known l a → ReadsBack a

/-- What holds of a link and the commands that it has not received. -/
structure Ordered (s : System InspLink) : Prop where
  genuine : Genuine s.queue
  readable : s.outcome = none → Readable s.side
  owed : s.outcome = none → ∀ c ∈ s.queue, Owed (Known s.side) s.side.store c

theorem Readable.served {ch : Option (PduAddress × Int)} {l t : InspLink} (h : Readable l)
    (ht : Served ch l t) : Readable t :=
  ⟨ht.store.keyed h.keyed, fun a ha => (ht.readable a ha).elim (h.readsBack a) id⟩

theorem allowed_of_owed {l : InspLink} (h : Readable l) {c : ContactFactoryCommand}
    (hc : Owed (Known l) l.store c) {a : PduAddress} {src : Int}
    (hch : storedBy l c = some (a, src)) {r : Recipient} (hr : r ∈ l.store.recipients.rows)
    (hnum : r.phoneNumber = normalizeAddress a) :
    (Settled r.nicksrc → sourceOf c = some nicksrcUser) ∧
      (r.nicksrc = nicksrcWaContact →
        sourceOf c ≠ some nicksrcWaNotify ∧ sourceOf c ≠ some nicksrcAuto) := by
  have hno : ∀ {src : Int}, none ≠ some src := nofun
  cases hc with
  | @change b nick new hsrc hrow =>
      obtain ⟨rfl, -⟩ := changeOf_address hch
      obtain ⟨hsettled, hcontact⟩ := of_rowWith h.keyed hrow hr hnum
      refine ⟨fun hs => absurd hs hsettled, fun hs => ?_⟩
      obtain ⟨hnotify, hauto⟩ := hcontact hs
      exact ⟨fun heq => hnotify (Option.some.inj heq), fun heq => hauto (Option.some.inj heq)⟩
  | rename =>
      exact ⟨fun _ => rfl, fun _ => ⟨fun heq => absurd (Option.some.inj heq) (by decide),
        fun heq => absurd (Option.some.inj heq) (by decide)⟩⟩
  | @setup b hset =>
      refine ⟨fun hs => ?_, fun _ => ⟨hno, hno⟩⟩
      obtain ⟨rfl, hfree⟩ : a = b ∧ ¬ Known l b := by
        change collisionOf l b = some (a, src) at hch
        unfold collisionOf at hch
        split at hch
        · split at hch
          · rename_i hnone
            cases hch
            refine ⟨rfl, fun hct => ?_⟩
            rw [Known, Option.isNone_iff_eq_none.mp hnone.1] at hct
            cases hct
          · cases hch
        · cases hch
      rcases hset with hct | hrow
      · exact absurd hct hfree
      · exact absurd hs (of_rowWith h.keyed hrow hr hnum)
  | load => cases hch

theorem ordered_received (hkeys : KeysRead) {s : System InspLink} {c : ContactFactoryCommand}
    {rest : List ContactFactoryCommand} (h : Ordered s) (hup : s.outcome = none)
    (hqueue : s.queue = c :: rest) (hin : ∀ d ∈ rest, ¬ Outdated (storedBy s.side c) d) :
    Ordered (perform { s with queue := rest } (handleCfCommand c)) ∧
      Respected s.side.store (exec (handleCfCommand c) s.side).2.store (sourceOf c) := by
  have hreadable := h.readable hup
  have howed := h.owed hup
  rw [hqueue] at howed
  have hc := howed c List.mem_cons_self
  have hserved := served_handleCfCommand hkeys hreadable.readsBack hc
  have hgenuine : Genuine rest := fun a nick hmem =>
    h.genuine a nick (hqueue ▸ List.mem_cons_of_mem c hmem)
  have hrespected : ∀ {t : InspLink}, Served (storedBy s.side c) s.side t →
      Respected s.side.store t.store (sourceOf c) := fun ht =>
    respected_of_kept ht.store fun a src hch r hr hnum =>
      allowed_of_owed hreadable hc hch hr hnum
  unfold wp at hserved
  unfold perform
  dsimp only
  rcases hexec : exec (handleCfCommand c) s.side with ⟨e | _, t⟩
  · rw [hexec] at hserved
    exact ⟨⟨hgenuine, nofun, nofun⟩, hrespected hserved⟩
  · rw [hexec] at hserved
    obtain ⟨ht, hnew⟩ := hserved
    refine ⟨⟨hgenuine, fun _ => hreadable.served ht, fun _ d hd => ?_⟩, hrespected ht⟩
    refine (howed d (List.mem_cons_of_mem c hd)).kept ht.store ht.contacts ?_ ?_
    · rintro a nick src b new rfl hch hnum
      have hcurrent := hin _ hd
      rw [hch] at hcurrent
      exact mayReplace_of_not_outdated hcurrent hnum
    · rintro a b new - hch hnum
      obtain ⟨hb, hback⟩ := hnew b new hch
      rw [← hkeys.eq hback hnum.symm]
      exact hb

theorem ordered_linkNext (hkeys : KeysRead) {s t : System InspLink} {e : Event Empty}
    (h : Ordered s) (hin : LinkInOrder s e) (ht : linkNext s e = some t) :
    Ordered t ∧ Respected s.side.store t.side.store (linkCause s e) ∧ Genuine t.queue := by
  have hup : s.outcome = none := by
    unfold linkNext NickQueues.next at ht
    split at ht
    · assumption
    · cases ht
  rw [linkNext, NickQueues.next, hup] at ht
  suffices hstep : Ordered t ∧ Respected s.side.store t.side.store (linkCause s e) from
    ⟨hstep.1, hstep.2, hstep.1.genuine⟩
  cases e with
  | contact ct =>
      cases ht
      obtain ⟨hkept, cs, hqueue, hasked⟩ := tell_asks hkeys (fun _ _ => rfl) s ct
      refine ⟨⟨?_, fun _ => ?_, fun _ c hc => ?_⟩, respected_of_kept hkept nofun⟩
      · rw [hqueue]
        exact genuine_append h.genuine (genuine_of_asked hasked)
      · exact ⟨hkept.keyed (h.readable hup).keyed, (h.readable hup).readsBack⟩
      · rw [hqueue] at hc
        rcases List.mem_append.mp hc with hc | hc
        · exact (h.owed hup c hc).kept_of_same hkept fun _ ha => ha
        · exact .of_asked (hasked c hc)
  | rename nick new =>
      cases ht
      have hsame : Kept none s.side.store s.side.store := refl _
      refine ⟨⟨?_, h.readable, fun _ c hc => ?_⟩, respected_of_kept hsame nofun⟩
      · refine genuine_append h.genuine fun a nick hmem => ?_
        cases List.mem_singleton.mp hmem
      · rcases List.mem_append.mp hc with hc | hc
        · exact h.owed hup c hc
        · cases List.mem_singleton.mp hc
          exact .rename
  | receive =>
      cases hqueue : s.queue with
      | nil =>
          rw [NickQueues.step, hqueue] at ht
          cases ht
      | cons c rest =>
          rw [NickQueues.step, hqueue] at ht
          rw [LinkInOrder, hqueue] at hin
          rw [linkCause, hqueue]
          cases ht
          exact ordered_received hkeys h hup hqueue hin
  | own k => cases k

theorem known_insert {l : InspLink} {a b : PduAddress} {ct ct' : InspContact}
    (hct : l.contacts.lookup a = some ct) (hb : ((l.contacts.insert a ct').lookup b).isSome) :
    Known l b := by
  rw [lookup_insert] at hb
  split at hb
  · rename_i heq
    rw [heq, Known, hct]
    rfl
  · exact hb

theorem known_withoutUser {l : InspLink} {uuid : Str} {b : PduAddress}
    (hb : Known (withoutUser l uuid) b) : Known l b := by
  obtain ⟨ct, hct⟩ := Option.isSome_iff_exists.mp hb
  rw [Known, (withoutUser_contact hct).1]
  rfl

theorem readable_effect {c r : Prop} {s t : InspLink} (h : Readable s) (heff : Effect c r s t) :
    Readable t := by
  have hkeyed : Keyed t.store := (LinkTwice.met_of_effect h.keyed heff).1
  refine ⟨hkeyed, fun b hb => ?_⟩
  cases heff with
  | apart ha => exact h.readsBack b (by rw [Known, ← ha.contacts]; exact hb)
  | said hm => exact h.readsBack b hb
  | collided ha => exact h.readsBack b hb
  | introduced ha hid hfree hrow =>
      obtain ⟨row, hrow, -⟩ := hrow h.keyed
      change ((s.contacts.insert _ _).lookup b).isSome at hb
      rw [lookup_insert] at hb
      split at hb
      · rename_i heq
        exact heq ▸ hrow.readsBack
      · exact h.readsBack b hb
  | regrouped hct hr hgrps => exact h.readsBack b (known_insert hct hb)
  | moded hct => exact h.readsBack b (known_insert hct hb)
  | marked hct hdown => exact h.readsBack b (known_insert hct hb)
  | renamed hct huser hfree => exact h.readsBack b hb
  | announced hct huser hfree hdown => exact h.readsBack b hb
  | @dropped a =>
      apply h.readsBack b
      change (((quitted s a).contacts.erase a).lookup b).isSome at hb
      rw [lookup_erase] at hb
      split at hb
      · cases hb
      · unfold quitted at hb
        split at hb
        · exact known_withoutUser (l := said s _) hb
        · exact hb

theorem readable_effects {c r : Prop} {s t : InspLink} (h : Readable s) (heff : Effects c r s t) :
    Readable t := heff.invariant (fun _ _ hs he => readable_effect hs he) h

theorem readable_opening (hkeys : KeysRead) {c r : Prop} {e : LinkRuns.Event} {s t : InspLink}
    (h : Readable s) (hopen : Opening c r e s t) : Readable t := by
  have hkeyed : Keyed t.store := (ContactDrops.met_of_opening hkeys h.keyed hopen).1
  refine ⟨hkeyed, fun b hb => ?_⟩
  cases hopen with
  | connected heff | linked heff => exact (readable_effects h heff).readsBack b hb
  | killed | quit => exact h.readsBack b (known_withoutUser hb)
  | nothing | burst | user | nick | host | squit | stored | clock => exact h.readsBack b hb

/-- In every run the contacts of the link have addresses that read back. -/
theorem readable_of_run (hkeys : KeysRead) {cfg : InspConfig} {st : Store} {now : NaiveDateTime}
    {es : List LinkRuns.Event} {s : LinkRuns.Session} (hst : Written st)
    (hrun : run LinkRuns.next (LinkRuns.initial cfg st now) es = some s) : Readable s.link := by
  refine invariant (I := fun s => Readable s.link) (fun s e t hs ht => ?_) ?_ hrun
  · obtain ⟨-, u, hopen, heff⟩ :=
      happened_of_next (c := True) (r := True) (fun _ => trivial) (fun _ => trivial) ht
    exact readable_effects (readable_opening hkeys hs hopen) heff
  · exact ⟨hst.keyed hkeys, nofun⟩

end Links

end SmsIrc.NickRuns
