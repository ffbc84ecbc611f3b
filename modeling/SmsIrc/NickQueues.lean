import SmsIrc.NickSources

/-!
The changes of nicks that are under way between the WhatsApp side and the contacts, and
what has become of the stored nick when they arrive.
-/

namespace SmsIrc.NickQueues

open SmsIrc.Comm SmsIrc.ContactCommon SmsIrc.ControlCommands SmsIrc.Database SmsIrc.External
open SmsIrc.HashMaps SmsIrc.Link SmsIrc.LinkAgreement SmsIrc.LinkEffects SmsIrc.LinkGhosts
open SmsIrc.Models SmsIrc.NickSources SmsIrc.Program SmsIrc.SenderCommon SmsIrc.Text
open SmsIrc.Transition SmsIrc.Util SmsIrc.Whatsapp SmsIrc.WhatsappMsg
open SmsIrc.WhatsappRuns (setStore)

section Systems

variable [Crates]

/-- The WhatsApp side, the side that has the contacts, and the commands that it has not
received yet. The database is the one of the contact side. -/
structure System (σ : Type) where
  wa : WhatsappManager
  side : σ
  queue : List ContactFactoryCommand
  outcome : Option Failure

/-- What happens to it; a `κ` is what the contact side does of its own. -/
inductive Event (κ : Type) where
  | contact (ct : WaContact)
  /-- `GHOST nick RENAME new`. -/
  | rename (nick new : Str)
  | receive
  | own (k : κ)

variable {σ κ : Type} [HasStore σ]

def failureOf {ε α : Type} : Except ε α → Option ε
  | .ok _ => none
  | .error e => some e

/-- WhatsApp handles a contact event. -/
def tell (s : System σ) (ct : WaContact) : System σ :=
  let r := exec (onContactChange ct) (setStore { s.wa with cfTx := [] } (HasStore.getStore s.side))
  { wa := r.2
    side := HasStore.setStore s.side r.2.msgproc.store
    queue := s.queue ++ r.2.cfTx
    outcome := failureOf r.1 }

def perform (s : System σ) (p : Prog Failure σ Unit) : System σ :=
  { s with
    side := (exec p s.side).2
    outcome := failureOf (exec p s.side).1 }

def step (handle : ContactFactoryCommand → Prog Failure σ Unit) (act : κ → Prog Failure σ Unit)
    (s : System σ) : Event κ → Option (System σ)
  | .contact ct => some (tell s ct)
  | .rename nick new =>
      some { s with queue := s.queue ++ [ghostToFactory nick (.changeNick new)] }
  | .receive =>
      match s.queue with
      | [] => none
      | c :: rest => some (perform { s with queue := rest } (handle c))
  | .own k => some (perform s (act k))

def next (handle : ContactFactoryCommand → Prog Failure σ Unit) (act : κ → Prog Failure σ Unit)
    (s : System σ) (e : Event κ) : Option (System σ) :=
  match s.outcome with
  | none => step handle act s e
  | some _ => none

/-- A nick that was the user's choice, or that a collision has led to, is replaced by a
RENAME only; and one of the address book not by an automatic one of lesser rank. Here
`cause` is the source of the change that is being applied. -/
def Respected (st st' : Store) (cause : Option Int) : Prop :=
  ∀ r ∈ st.recipients.rows, ∀ r' ∈ st'.recipients.rows, r'.id = r.id →
    r'.nick ≠ r.nick ∨ r'.nicksrc ≠ r.nicksrc →
      (Settled r.nicksrc → cause = some nicksrcUser) ∧
        (r.nicksrc = nicksrcWaContact → cause ≠ some nicksrcWaNotify ∧ cause ≠ some nicksrcAuto)

theorem respected_of_kept {ch : Option (PduAddress × Int)} {st st' : Store} {cause : Option Int}
    (h : Kept ch st st') (hch : ∀ a src, ch = some (a, src) →
      ∀ r ∈ st.recipients.rows, r.phoneNumber = normalizeAddress a →
        (Settled r.nicksrc → cause = some nicksrcUser) ∧
          (r.nicksrc = nicksrcWaContact →
            cause ≠ some nicksrcWaNotify ∧ cause ≠ some nicksrcAuto)) :
    Respected st st' cause := by
  intro r hr r' hr' hid hchanged
  obtain ⟨r'', hr'', hid', -, hsame | ⟨a, src, heq, hnum, -⟩⟩ := h.rows r hr
  · have hrow : r' = r'' := st'.recipients.eq_of_key_eq hr' hr'' (hid.trans hid'.symm)
    subst hrow
    exact absurd hsame (by tauto)
  · exact hch a src heq r hr hnum

/-- A command that is under way is right for what is stored; `present` are the addresses
that need not be set up any more. -/
inductive Owed (present : PduAddress → Prop) (st : Store) : ContactFactoryCommand → Prop
  | change {a : PduAddress} {nick : Str} {src : Int} (hsrc : src ≠ nicksrcUser)
      (h : RowWith st a fun oldsrc => MayReplace oldsrc src) :
      Owed present st (.forwardCommand a (.changeNick nick src))
  | rename {nick new : Str} :
      Owed present st (.forwardCommandByNick nick (.changeNick new nicksrcUser))
  | setup {a : PduAddress} (h : present a ∨ RowWith st a fun src => ¬ Settled src) :
      Owed present st (.setupContact a)
  | load : Owed present st .loadRecipients

variable {present present' : PduAddress → Prop}

theorem Owed.kept {ch : Option (PduAddress × Int)} {st st' : Store} {c : ContactFactoryCommand}
    (h : Owed present st c) (hkept : Kept ch st st') (hpresent : ∀ a, present a → present' a)
    (hchange : ∀ a nick src b new, c = .forwardCommand a (.changeNick nick src) →
      ch = some (b, new) → normalizeAddress a = normalizeAddress b → MayReplace new src)
    (hsetup : ∀ a b new, c = .setupContact a → ch = some (b, new) →
      normalizeAddress a = normalizeAddress b → present' a) : Owed present' st' c := by
  cases h with
  | change hsrc h => exact .change hsrc (h.kept hkept fun b new => hchange _ _ _ b new rfl)
  | rename => exact .rename
  | load => exact .load
  | @setup a h =>
      rcases h with h | h
      · exact .setup (.inl (hpresent a h))
      · by_cases hno : ∃ b new, ch = some (b, new) ∧ normalizeAddress a = normalizeAddress b
        · obtain ⟨b, new, hch, hnum⟩ := hno
          exact .setup (.inl (hsetup a b new rfl hch hnum))
        · refine .setup (.inr (h.kept hkept fun b new hch hnum => ?_))
          exact absurd ⟨b, new, hch, hnum⟩ hno

theorem Owed.kept_of_same {st st' : Store} {c : ContactFactoryCommand} (h : Owed present st c)
    (hkept : Kept none st st') (hpresent : ∀ a, present a → present' a) :
    Owed present' st' c := by
  refine h.kept hkept hpresent ?_ ?_
  · rintro _ _ _ _ _ - ⟨⟩
  · rintro _ _ _ - ⟨⟩

theorem of_rowWith {st : Store} {a : PduAddress} {P : Int → Prop} (hk : Keyed st)
    (h : RowWith st a P) {r : Recipient} (hr : r ∈ st.recipients.rows)
    (hnum : r.phoneNumber = normalizeAddress a) : P r.nicksrc := by
  obtain ⟨r', hr', hnum', hP⟩ := h
  have heq : r' = r := hk.eq_of_number hr' hr (hnum'.trans hnum.symm)
  rw [← heq]
  exact hP

/-- A change of nick that waits, and must not replace the nick that is being stored. -/
def Outdated (ch : Option (PduAddress × Int)) : ContactFactoryCommand → Prop
  | .forwardCommand b (.changeNick _ new) =>
      match ch with
      | some (a, src) => normalizeAddress b = normalizeAddress a ∧ ¬ MayReplace src new
      | none => False
  | _ => False

instance (ch : Option (PduAddress × Int)) (c : ContactFactoryCommand) :
    Decidable (Outdated ch c) := by
  unfold Outdated
  split
  · split <;> infer_instance
  · infer_instance

theorem mayReplace_of_not_outdated {a b : PduAddress} {src new : Int} {nick : Str}
    (h : ¬ Outdated (some (a, src)) (.forwardCommand b (.changeNick nick new)))
    (hnum : normalizeAddress b = normalizeAddress a) : MayReplace src new := by
  by_contra hno
  exact h ⟨hnum, hno⟩

/-- No automatic change of a nick passes for a RENAME. -/
def Genuine (queue : List ContactFactoryCommand) : Prop :=
  ∀ a nick, .forwardCommand a (.changeNick nick nicksrcUser) ∉ queue

theorem genuine_append {cs ds : List ContactFactoryCommand} (hcs : Genuine cs) (hds : Genuine ds) :
    Genuine (cs ++ ds) := by
  intro a nick hmem
  rcases List.mem_append.mp hmem with hmem | hmem
  · exact hcs a nick hmem
  · exact hds a nick hmem

theorem genuine_of_asked {st : Store} {cs : List ContactFactoryCommand}
    (h : ∀ c ∈ cs, Asked st c) : Genuine cs := by
  intro a nick hmem
  cases h _ hmem with
  | change hsrc => exact hsrc rfl

theorem Owed.of_asked {st : Store} {c : ContactFactoryCommand} (h : Asked st c) :
    Owed present st c := by
  cases h with
  | setup h => exact .setup (.inr h)
  | change hsrc h => exact .change hsrc h

theorem tell_asks (hkeys : KeysRead)
    (hstore : ∀ (s : σ) st, HasStore.getStore (HasStore.setStore s st) = st) (s : System σ)
    (ct : WaContact) :
    Kept none (HasStore.getStore s.side) (HasStore.getStore (tell s ct).side) ∧
      ∃ cs, (tell s ct).queue = s.queue ++ cs ∧
        ∀ c ∈ cs, Asked (HasStore.getStore (tell s ct).side) c := by
  obtain ⟨hkept, cs, hcs, hasked⟩ := (asks_onContactChange hkeys ct).exec
    (setStore { s.wa with cfTx := [] } (HasStore.getStore s.side))
  unfold tell
  dsimp only
  rw [hstore]
  exact ⟨hkept, cs, by rw [hcs]; rfl, hasked⟩

end Systems

section Link

variable [Crates]

/-- The change that a change of nick makes in the database, if any. -/
def changeOf (l : InspLink) (a : PduAddress) (nick : Str) (src : Int) :
    Option (PduAddress × Int) :=
  match (l.contacts.lookup a).bind fun ct => l.users.lookup ct.uuid with
  | some user =>
      if user.nick = nick then none
      else some (a, if nickExists l nick then nicksrcCollision else src)
  | none => none

/-- The change that setting up a contact makes there. -/
def collisionOf (l : InspLink) (a : PduAddress) : Option (PduAddress × Int) :=
  match l.store.recipients.rows.find? fun r => r.phoneNumber = normalizeAddress a with
  | some row =>
      if (l.contacts.lookup a).isNone ∧ nickExists l row.nick then some (a, nicksrcCollision)
      else none
  | none => none

def resolved (l : InspLink) (nick : Str) : Option PduAddress :=
  (userList l).findSome? fun u =>
    if u.2.nick = nick then l.contactsUuidPdua.lookup u.1 else none

/-- The change that a command makes there. -/
def storedBy (l : InspLink) : ContactFactoryCommand → Option (PduAddress × Int)
  | .forwardCommand a (.changeNick nick src) => changeOf l a nick src
  | .forwardCommandByNick nick (.changeNick new src) =>
      (resolved l nick).bind fun a => changeOf l a new src
  | .setupContact a => collisionOf l a
  | _ => none

/-- A step of the link that changes at most one nick. -/
structure Served (ch : Option (PduAddress × Int)) (s t : InspLink) : Prop where
  store : Kept ch s.store t.store
  contacts : ∀ a, (s.contacts.lookup a).isSome → (t.contacts.lookup a).isSome
  readable : ∀ a, (t.contacts.lookup a).isSome → (s.contacts.lookup a).isSome ∨ ReadsBack a

variable {ch : Option (PduAddress × Int)}

theorem served_of_kept {s t : InspLink} (h : Kept ch s.store t.store)
    (hcontacts : t.contacts = s.contacts) : Served ch s t :=
  ⟨h, fun _ ha => hcontacts ▸ ha, fun _ ha => .inl (hcontacts ▸ ha)⟩

theorem Served.then {s t u : InspLink} (hst : Served ch s t) (htu : Served none t u) :
    Served ch s u := by
  refine ⟨hst.store.then htu.store, fun a ha => htu.contacts a (hst.contacts a ha),
    fun a ha => ?_⟩
  rcases htu.readable a ha with ha | ha
  · exact hst.readable a ha
  · exact .inr ha

instance : IsPreorder InspLink (Served none) where
  refl _ := served_of_kept (refl _) rfl
  trans _ _ _ hst htu := hst.then htu

theorem Served.after {s t u : InspLink} (hst : Served none s t) (htu : Served ch t u) :
    Served ch s u := by
  refine ⟨hst.store.trans htu.store, fun a ha => htu.contacts a (hst.contacts a ha),
    fun a ha => ?_⟩
  rcases htu.readable a ha with ha | ha
  · exact hst.readable a ha
  · exact .inr ha

theorem served_modify {f : InspLink → InspLink} (hstore : ∀ l, (f l).store = l.store)
    (hcontacts : ∀ l, (f l).contacts = l.contacts) :
    Moves (Served none) (modify f : LinkM PUnit) :=
  steps_modify fun l => served_of_kept (by rw [hstore]; exact refl _) (hcontacts l)

theorem served_store {α : Type} {p : StoreM α} (h : Moves (Kept ch) p) :
    Moves (Served ch) (store p : LinkM α) := by
  intro l
  rw [wp_store]
  exact wp_mono (h l.store) (fun _ _ ht => served_of_kept ht rfl)
    fun _ _ ht => ⟨served_of_kept ht.1 rfl, trivial⟩

theorem served_changeNick {l : InspLink} {a : PduAddress} {ct : InspContact}
    (hct : l.contacts.lookup a = some ct) (nick : Str) (src : Int) :
    wp (Link.changeNick a ct nick src) (fun _ t => Served (changeOf l a nick src) l t)
      (fun _ t => Served (changeOf l a nick src) l t) l := by
  have hsame : ∀ {ch : Option (PduAddress × Int)}, Served ch l l :=
    served_of_kept (kept_of_eq rfl) rfl
  rw [Link.changeNick, wp_bind, wp_get, wp_bind]
  cases huser : l.users.lookup ct.uuid with
  | none => exact hsame
  | some user =>
      rw [wp_unwrap_some]
      have hchange : changeOf l a nick src = if user.nick = nick then none
          else some (a, if nickExists l nick then nicksrcCollision else src) := by
        rw [changeOf, hct, Option.bind_some, huser]
      split
      · exact hsame
      · rename_i hnick
        rw [if_neg hnick] at hchange
        rw [hchange]
        have hstored : ∀ n nicksrc u, wp (do
            insertUser ct.uuid { user with nick := n }
            push ct.uuid "NICK" [n, u] none
            store (updateRecipientNick a n nicksrc))
            (fun _ t => Served (some (a, nicksrc)) l t)
            (fun _ t => Served (some (a, nicksrc)) l t) l := by
          intro n nicksrc u
          rw [wp_bind, insertUser, wp_modify, wp_bind, push, wp_modify, wp_store]
          refine wp_mono (kept_updateRecipientNick a n nicksrc _) ?_ ?_
          · exact fun _ _ ht => served_of_kept ht rfl
          · exact fun _ _ ht => served_of_kept ht.1 rfl
        unfold checkNickForCollisions
        by_cases hexists : nickExists l nick
        · rw [if_pos hexists, if_pos hexists]
          exact hstored _ _ _
        · rw [if_neg hexists, if_neg hexists]
          exact hstored _ _ _

theorem served_forwardCmd (l : InspLink) (a : PduAddress) (nick : Str) (src : Int) :
    wp (Link.forwardCmd a (.changeNick nick src))
      (fun _ t => Served (changeOf l a nick src) l t)
      (fun _ t => Served (changeOf l a nick src) l t) l := by
  rw [Link.forwardCmd, wp_bind, wp_get]
  split
  · rename_i hct
    obtain ⟨ct, hct⟩ := Option.isSome_iff_exists.mp hct
    rw [hct, wp_bind, wp_unwrap_some]
    exact served_changeNick hct nick src
  · exact served_of_kept (kept_of_eq rfl) rfl

theorem served_processGroupsForRecipient (a : PduAddress) :
    Moves (Served none) (processGroupsForRecipient a) := by
  have hgroups : Moves (Kept none) (getGroupsForRecipient a) := by
    refine Steps.bind (kept_query _) fun row => ?_
    cases row with
    | some row => exact kept_query _
    | none => exact steps_throw trivial
  have hpush : ∀ u cmd args suffix, Moves (Served none) (push u cmd args suffix) :=
    fun _ _ _ _ => served_modify (fun _ => rfl) fun _ => rfl
  refine steps_get_bind fun l => ?_
  rw [wp_bind]
  cases hct : l.contacts.lookup a with
  | none => exact ⟨refl l, trivial⟩
  | some ct =>
      rw [wp_unwrap_some]
      have hinsert : ∀ chans t, Served none l t →
          Served none l { t with
            contacts := t.contacts.insert a { ct with channels := chans } } := by
        intro chans t ht
        refine IsTrans.trans _ _ _ ht ⟨refl _, fun b hb => ?_, fun b hb => ?_⟩
        · change ((t.contacts.insert a _).lookup b).isSome
          rw [lookup_insert]
          split
          · rfl
          · exact hb
        · change ((t.contacts.insert a _).lookup b).isSome at hb
          rw [lookup_insert] at hb
          split at hb
          · rename_i heq
            refine .inl (ht.contacts b ?_)
            rw [heq, hct]
            rfl
          · exact .inl hb
      rw [wp_bind]
      refine wp_mono (served_store hgroups l) (fun grps t ht => ?_) fun _ _ ht => ht
      have hjoin : Moves (Served none) (forM grps fun grp => do
          push ct.uuid "JOIN" [grp.channel] none
          joinChannel grp.channel) :=
        Steps.forM fun grp _ => Steps.bind (hpush _ _ _ _) fun _ =>
          served_modify (fun _ => rfl) fun _ => rfl
      rw [wp_bind]
      refine wp_mono (hjoin.after ht) (fun _ u hu => ?_) fun _ _ hu => hu
      rw [wp_bind]
      refine wp_mono ((Steps.when (hpush _ _ _ _)).after hu) (fun _ v hv => ?_) fun _ _ hv => hv
      rw [wp_bind]
      refine wp_mono ((Steps.forM fun ch _ => Steps.when (hpush _ _ _ _)).after hv)
        (fun _ w hw => ?_) fun _ _ hw => hw
      exact hinsert _ w hw

theorem served_nickFor (l : InspLink) (recip : Recipient) (a : PduAddress) :
    wp (nickFor recip a)
      (fun _ t => Served (if nickExists l recip.nick then some (a, nicksrcCollision) else none) l t)
      (fun _ t => Served (if nickExists l recip.nick then some (a, nicksrcCollision) else none) l t)
      l := by
  rw [nickFor, wp_bind, wp_get]
  unfold checkNickForCollisions
  split
  · rename_i n hn
    split at hn
    · rename_i hexists
      rw [if_pos hexists, wp_bind]
      exact wp_mono (served_store (kept_updateRecipientNick a n nicksrcCollision) l)
        (fun _ _ ht => ht) fun _ _ ht => ht.1
    · cases hn
  · exact served_of_kept (kept_of_eq rfl) rfl

theorem served_newUser (user : InspUsers.InspUser) : Moves (Served none) (newUser user) := by
  refine Steps.bind ?_ fun uuid => Steps.bind (served_modify (fun _ => rfl) fun _ => rfl)
    fun _ => Steps.bind ?_ fun line => Steps.bind (served_modify (fun _ => rfl) fun _ => rfl)
      fun _ => steps_pure _
  · refine steps_get_bind fun l => ?_
    split
    · exact ⟨refl l, trivial⟩
    · exact served_of_kept (refl _) rfl
  · refine Steps.bind steps_get fun l => ?_
    split
    · exact steps_pure _
    · exact steps_throw trivial

theorem served_addContact {l : InspLink} {a : PduAddress} (hread : ReadsBack a)
    (ct : InspContact) :
    Served none l { l with
      contacts := l.contacts.insert a ct
      contactsUuidPdua := l.contactsUuidPdua.insert ct.uuid a } := by
  refine ⟨refl _, fun b hb => ?_, fun b hb => ?_⟩
  · change ((l.contacts.insert a ct).lookup b).isSome
    rw [lookup_insert]
    split
    · rfl
    · exact hb
  · change ((l.contacts.insert a ct).lookup b).isSome at hb
    rw [lookup_insert] at hb
    split at hb
    · rename_i heq
      exact .inr (heq ▸ hread)
    · exact .inl hb

theorem served_setupContactFor {l : InspLink} {recip : Recipient} {a : PduAddress}
    (hread : ReadsBack a) :
    wp (setupContactFor recip a)
      (fun _ t => Served (if nickExists l recip.nick then some (a, nicksrcCollision) else none) l t ∧
        (t.contacts.lookup a).isSome)
      (fun _ t => Served (if nickExists l recip.nick then some (a, nicksrcCollision) else none) l t)
      l := by
  have hnick := served_nickFor l recip a
  generalize (if nickExists l recip.nick then some (a, nicksrcCollision) else none) = ch at hnick ⊢
  rw [setupContactFor, wp_bind]
  refine wp_mono hnick (fun nick t ht => ?_) fun _ _ ht => ht
  rw [wp_bind, wp_get, wp_bind]
  refine wp_mono (served_newUser _ t) (fun uuid u hu => ?_) fun _ _ hu => ht.then hu.1
  have hadded := (ht.then hu).then
    (served_addContact hread { uuid := uuid, channels := [], waMode := recip.whatsapp })
  rw [wp_bind, addContact, wp_modify, wp_when]
  have hpresent : ((u.contacts.insert a
      { uuid := uuid, channels := [], waMode := recip.whatsapp }).lookup a).isSome := by
    rw [lookup_insert, if_pos rfl]
    rfl
  split
  · refine wp_mono (served_processGroupsForRecipient a _) ?_ ?_
    · exact fun _ v hv => ⟨hadded.then hv, hv.contacts a hpresent⟩
    · exact fun _ v hv => hadded.then hv.1
  · exact ⟨hadded, hpresent⟩

theorem served_setupContact (hkeys : KeysRead) (l : InspLink) (a : PduAddress) :
    wp (setupContact a : LinkM Unit)
      (fun _ t => Served (collisionOf l a) l t ∧ ∀ b src, collisionOf l a = some (b, src) →
        (t.contacts.lookup b).isSome ∧ ReadsBack b)
      (fun _ t => Served (collisionOf l a) l t) l := by
  have htick : ∀ {ch : Option (PduAddress × Int)}, Served ch l { l with store := l.store.tick } :=
    served_of_kept (kept_tick _) rfl
  rw [setupContact, wp_bind, wp_store]
  apply wp_query_of htick
  have hrows : l.store.tick.recipients.rows = l.store.recipients.rows := rfl
  rw [hrows]
  cases hrow : l.store.recipients.rows.find? fun r => r.phoneNumber = normalizeAddress a with
  | none =>
      have hno : collisionOf l a = none := by rw [collisionOf, hrow]
      rw [hno]
      exact ⟨htick, by rintro _ _ ⟨⟩⟩
  | some recip =>
      have hch : collisionOf l a =
          if (l.contacts.lookup a).isNone ∧ nickExists l recip.nick then
            some (a, nicksrcCollision)
          else none := by rw [collisionOf, hrow]
      have hnum : recip.phoneNumber = normalizeAddress a := by simpa using List.find?_some hrow
      dsimp only
      rw [setupRecipient, wp_bind, Recipient.getAddr, Models.getAddr]
      cases hread : unNormalizeAddress recip.phoneNumber with
      | none => exact htick
      | some b =>
          have hb : b = a := by
            rw [hnum] at hread
            exact hkeys a b hread
          subst hb
          rw [wp_pure, wp_bind]
          change wp (hasContact b) _ _ _
          rw [hasContact, wp_bind, wp_get, wp_pure, wp_when]
          dsimp only
          cases hct : l.contacts.lookup b with
          | some ct =>
              have hno : collisionOf l b = none := by
                rw [hch, hct, if_neg fun h => Bool.false_ne_true h.1]
              rw [hno]
              exact ⟨htick, by rintro _ _ ⟨⟩⟩
          | none =>
              have hcollides : collisionOf l b =
                  if nickExists l recip.nick then some (b, nicksrcCollision) else none := by
                rw [hch, hct]
                exact if_congr (and_iff_right rfl) rfl rfl
              have hback : ReadsBack b := by rw [ReadsBack, ← hnum, hread]
              rw [hcollides]
              refine wp_mono (served_setupContactFor hback)
                (fun _ t ht => ⟨htick.after ht.1, fun c src hc => ?_⟩)
                fun _ t ht => htick.after ht
              split at hc
              · rw [Option.some.injEq, Prod.mk.injEq] at hc
                exact hc.1 ▸ ⟨ht.2, hback⟩
              · cases hc

theorem changeOf_address {l : InspLink} {a b : PduAddress} {nick : Str} {src new : Int}
    (h : changeOf l a nick src = some (b, new)) : b = a ∧ (l.contacts.lookup a).isSome := by
  unfold changeOf at h
  cases hct : l.contacts.lookup a with
  | none =>
      rw [hct] at h
      cases h
  | some ct =>
      refine ⟨?_, rfl⟩
      split at h
      · split at h
        · cases h
        · rw [Option.some.injEq, Prod.mk.injEq] at h
          exact h.1.symm
      · cases h

theorem served_handleCfCommand (hkeys : KeysRead) {l : InspLink}
    (hreadable : ∀ a, (l.contacts.lookup a).isSome → ReadsBack a) {present : PduAddress → Prop}
    {st : Store} {c : ContactFactoryCommand} (hc : Owed present st c) :
    wp (handleCfCommand c)
      (fun _ t => Served (storedBy l c) l t ∧ ∀ b src, storedBy l c = some (b, src) →
        (t.contacts.lookup b).isSome ∧ ReadsBack b)
      (fun _ t => Served (storedBy l c) l t) l := by
  have hforward : ∀ a nick src, wp (Link.forwardCmd a (.changeNick nick src))
      (fun _ t => Served (changeOf l a nick src) l t ∧ ∀ b new,
        changeOf l a nick src = some (b, new) → (t.contacts.lookup b).isSome ∧ ReadsBack b)
      (fun _ t => Served (changeOf l a nick src) l t) l := by
    intro a nick src
    refine wp_mono (served_forwardCmd l a nick src) (fun _ t ht => ⟨ht, fun b new hch => ?_⟩)
      fun _ _ ht => ht
    obtain ⟨rfl, hct⟩ := changeOf_address hch
    exact ⟨ht.contacts b hct, hreadable b hct⟩
  cases hc with
  | change => exact hforward _ _ _
  | @rename nick new =>
      change wp (forwardCmdByNick nick _) _ _ _
      rw [forwardCmdByNick, wp_bind]
      change wp (resolveNick nick) _ _ _
      rw [resolveNick, wp_bind, wp_get, wp_pure]
      rw [storedBy, resolved]
      split
      · rename_i a ha
        rw [ha]
        exact hforward a new nicksrcUser
      · rename_i hnone
        rw [hnone]
        exact ⟨served_of_kept (kept_of_eq rfl) rfl, by rintro _ _ ⟨⟩⟩
  | setup => exact served_setupContact hkeys l _
  | load => exact ⟨served_of_kept (kept_of_eq rfl) rfl, by rintro _ _ ⟨⟩⟩

end Link

end SmsIrc.NickQueues
