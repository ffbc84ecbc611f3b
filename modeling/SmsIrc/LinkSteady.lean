import SmsIrc.LinkGhosts

/-!
What does not change while stored messages are processed, and the parts of the
link that change nothing else: setting up a contact and switching its mode.
-/

namespace SmsIrc.LinkSteady

open SmsIrc.ContactCommon SmsIrc.Database SmsIrc.External SmsIrc.HashMaps SmsIrc.InspUsers
open SmsIrc.Link SmsIrc.LinkGhosts SmsIrc.Models SmsIrc.Program SmsIrc.SenderCommon
open SmsIrc.SenderRuns SmsIrc.Text SmsIrc.Util

theorem freeNick_taken {taken : Str → Bool} {nick : Str} {fuel idx : Nat}
    (h : taken (freeNick taken nick fuel idx) = true) :
    ∀ j, idx ≤ j → j ≤ idx + fuel → taken (nick ++ decimal j) = true := by
  induction fuel generalizing idx with
  | zero =>
      intro j hle hge
      have hj : j = idx := by omega
      rw [hj]
      exact h
  | succ fuel ih =>
      rw [freeNick] at h
      split at h
      · rename_i htaken
        intro j hle hge
        rcases Nat.eq_or_lt_of_le hle with rfl | hlt
        · exact htaken
        · exact ih h j hlt (by omega)
      · rename_i htaken
        exact absurd h htaken

section Steady

variable [Crates]

/-- A user that has the nick of the admin. -/
def IsAdmin (l : InspLink) (u : Str) : Prop :=
  ∃ user, l.users.lookup u = some user ∧ user.nick = l.cfg.adminNick

/-- The admin is online, with a UUID that the link does not still have to issue. -/
def AdminOnline (l : InspLink) : Prop :=
  ∃ u, IsAdmin l u ∧ ∀ n, l.nextUserId ≤ n → u ≠ uuidOf l.cfg.sid n

/-- A UUID that a ghost has been given in between. -/
def Issues (s t : InspLink) (u : Str) : Prop :=
  ∃ n, s.nextUserId ≤ n ∧ n < t.nextUserId ∧ u = uuidOf s.cfg.sid n

/-- Nothing that the delivery of a message depends on gets lost. -/
structure Steady (s t : InspLink) : Prop where
  cfg : t.cfg = s.cfg
  now : t.now = s.now
  groups : t.store.groups = s.store.groups
  recipients : ∀ a, HasRecipient s.store a → HasRecipient t.store a
  contacts : ∀ a ct, s.contacts.lookup a = some ct →
    ∃ ct', t.contacts.lookup a = some ct' ∧ ct'.uuid = ct.uuid
  admin : ∀ u, IsAdmin t u → IsAdmin s u
  next : s.nextUserId ≤ t.nextUserId
  kept : ∀ u, IsAdmin s u → IsAdmin t u ∨ Issues s t u

/-- Neither does a stored message. -/
structure Aside (s t : InspLink) : Prop extends Steady s t where
  messages : t.store.messages = s.store.messages

/-- Nor is there a call. -/
structure Idle (s t : InspLink) : Prop extends Aside s t where
  calls : t.calls = s.calls

theorem steady_refl (l : InspLink) : Steady l l :=
  ⟨rfl, rfl, rfl, fun _ h => h, fun _ ct h => ⟨ct, h, rfl⟩, fun _ h => h, le_rfl,
    fun _ h => .inl h⟩

theorem Steady.online {s t : InspLink} (hst : Steady s t) (h : AdminOnline s) :
    AdminOnline t := by
  obtain ⟨u, hu, hfresh⟩ := h
  refine ⟨u, ?_, fun n hn => ?_⟩
  · rcases hst.kept u hu with hu | ⟨n, hn, -, rfl⟩
    · exact hu
    · exact absurd rfl (hfresh n hn)
  · rw [hst.cfg]
    exact hfresh n (hst.next.trans hn)

theorem steady_trans {s t u : InspLink} (hst : Steady s t) (htu : Steady t u) : Steady s u where
  cfg := htu.cfg.trans hst.cfg
  now := htu.now.trans hst.now
  groups := htu.groups.trans hst.groups
  recipients a h := htu.recipients a (hst.recipients a h)
  contacts a ct h := by
    obtain ⟨ct', h', huuid⟩ := hst.contacts a ct h
    obtain ⟨ct'', h'', huuid'⟩ := htu.contacts a ct' h'
    exact ⟨ct'', h'', huuid'.trans huuid⟩
  admin u h := hst.admin u (htu.admin u h)
  next := hst.next.trans htu.next
  kept u h := by
    rcases hst.kept u h with h | ⟨n, hn, hlt, rfl⟩
    · rcases htu.kept u h with h | ⟨n, hn, hlt, rfl⟩
      · exact .inl h
      · exact .inr ⟨n, hst.next.trans hn, hlt, by rw [hst.cfg]⟩
    · exact .inr ⟨n, hn, hlt.trans_le htu.next, rfl⟩

instance : IsPreorder InspLink Aside where
  refl l := ⟨steady_refl l, rfl⟩
  trans _ _ _ hst htu := ⟨steady_trans hst.toSteady htu.toSteady, htu.messages.trans hst.messages⟩

instance : IsPreorder InspLink Idle where
  refl l := ⟨⟨steady_refl l, rfl⟩, rfl⟩
  trans _ _ _ hst htu :=
    ⟨⟨steady_trans hst.toSteady htu.toSteady, htu.messages.trans hst.messages⟩,
      htu.calls.trans hst.calls⟩

theorem idle_refl (l : InspLink) : Idle l l := ⟨⟨steady_refl l, rfl⟩, rfl⟩

theorem idle_trans {s t u : InspLink} (hst : Idle s t) (htu : Idle t u) : Idle s u :=
  IsTrans.trans (r := Idle) _ _ _ hst htu

theorem idle_of_eq {s t : InspLink} (hcfg : t.cfg = s.cfg) (hnow : t.now = s.now)
    (hnext : t.nextUserId = s.nextUserId) (hcontacts : t.contacts = s.contacts)
    (husers : t.users = s.users) (hstore : t.store = s.store) (hcalls : t.calls = s.calls) :
    Idle s t := by
  have hadmin : ∀ u, IsAdmin t u ↔ IsAdmin s u := by
    intro u
    rw [IsAdmin, IsAdmin, husers, hcfg]
  refine ⟨⟨⟨hcfg, hnow, by rw [hstore], ?_, ?_, fun u => (hadmin u).mp, hnext.ge,
    fun u hu => .inl ((hadmin u).mpr hu)⟩, by rw [hstore]⟩, hcalls⟩
  · intro a ha
    rwa [hstore]
  · intro a ct hct
    exact ⟨ct, by rwa [hcontacts], rfl⟩

theorem idle_store {l : InspLink} {st : Store} (hgroups : st.groups = l.store.groups)
    (hmessages : st.messages = l.store.messages)
    (hrecs : ∀ a, HasRecipient l.store a → HasRecipient st a) :
    Idle l { l with store := st } :=
  ⟨⟨⟨rfl, rfl, hgroups, hrecs, fun _ ct h => ⟨ct, h, rfl⟩, fun _ h => h, le_rfl,
    fun _ h => .inl h⟩, hmessages⟩, rfl⟩

theorem idle_query {α : Type} {P : Failure → Prop} (hP : P .db) (f : Store → α) :
    Steps Idle P (store (query f) : LinkM α) := by
  intro l
  rw [wp_store]
  exact wp_query_of ⟨idle_store rfl rfl fun _ h => h, hP⟩ (idle_store rfl rfl fun _ h => h)

theorem idle_updateRecipient (addr : PduAddress) (f : Recipient → Recipient)
    (hf : ∀ r, (f r).id = r.id) (hnum : ∀ r, (f r).phoneNumber = r.phoneNumber) :
    Moves Idle (store (updateRecipient addr f hf) : LinkM Unit) := by
  intro l
  rw [wp_store]
  refine wp_execute_of ⟨idle_store rfl rfl fun _ h => h, trivial⟩ (idle_store rfl rfl ?_)
  rintro a ⟨r, hr, ha⟩
  refine ⟨_, List.mem_map_of_mem hr, ?_⟩
  split
  · exact (hnum r).trans ha
  · exact ha

theorem idle_push (prefixStr : Str) (cmd : String) (args : List Str) (suffix : Option Str) :
    Moves Idle (push prefixStr cmd args suffix) :=
  steps_modify fun _ => idle_of_eq rfl rfl rfl rfl rfl rfl rfl

theorem idle_send (m : IrcMessage) : Moves Idle (send m) :=
  steps_modify fun _ => idle_of_eq rfl rfl rfl rfl rfl rfl rfl

theorem idle_contactMessage (uid : Str) (kind : String) (target message : Str) :
    Moves Idle (contactMessage uid kind target message) := by
  refine Steps.bind steps_get fun l => ?_
  split
  · exact steps_throw trivial
  · split
    · exact steps_throw trivial
    · exact idle_push _ _ _ _

theorem idle_insertContact {l : InspLink} {a : PduAddress} {ct ct' : InspContact}
    (hct : l.contacts.lookup a = some ct) (huuid : ct'.uuid = ct.uuid) :
    Idle l { l with contacts := l.contacts.insert a ct' } := by
  refine ⟨⟨⟨rfl, rfl, rfl, fun _ h => h, ?_, fun _ h => h, le_rfl, fun _ h => .inl h⟩, rfl⟩, rfl⟩
  intro b ctb hb
  change ∃ ct'', (l.contacts.insert a ct').lookup b = some ct'' ∧ _
  rw [lookup_insert]
  split
  · rename_i h
    subst h
    rw [hct] at hb
    cases hb
    exact ⟨ct', rfl, huuid⟩
  · exact ⟨ctb, hb, rfl⟩

theorem idle_addContact {l : InspLink} {a : PduAddress} {ct : InspContact}
    (ha : l.contacts.lookup a = none) :
    Idle l { l with
      contacts := l.contacts.insert a ct
      contactsUuidPdua := l.contactsUuidPdua.insert ct.uuid a } := by
  refine ⟨⟨⟨rfl, rfl, rfl, fun _ h => h, ?_, fun _ h => h, le_rfl, fun _ h => .inl h⟩, rfl⟩, rfl⟩
  intro b ctb hb
  change ∃ ct'', (l.contacts.insert a ct).lookup b = some ct'' ∧ _
  rw [lookup_insert]
  split
  · rename_i h
    rw [h, ha] at hb
    cases hb
  · exact ⟨ctb, hb, rfl⟩

theorem idle_updateUser {l : InspLink} {u : Str} {user user' : InspUser}
    (hu : l.users.lookup u = some user) (hnick : user'.nick = user.nick) :
    Idle l { l with users := l.users.insert u user' } := by
  have hadmin : ∀ v, IsAdmin { l with users := l.users.insert u user' } v ↔ IsAdmin l v := by
    intro v
    unfold IsAdmin
    change (∃ w, (l.users.insert u user').lookup v = some w ∧ _) ↔ _
    rw [lookup_insert]
    split
    · rename_i h
      subst h
      simp [hu, hnick]
    · rfl
  exact ⟨⟨⟨rfl, rfl, rfl, fun _ h => h, fun _ ct h => ⟨ct, h, rfl⟩, fun v => (hadmin v).mp,
    le_rfl, fun v hv => .inl ((hadmin v).mpr hv)⟩, rfl⟩, rfl⟩

/-- The state of a link that has introduced a ghost. -/
def withGhost (l : InspLink) (user : InspUser) (outbox : List IrcMessage) : InspLink :=
  { l with
    nextUserId := l.nextUserId + 1
    issued := l.issued ++ [uuidOf l.cfg.sid l.nextUserId]
    users := l.users.insert (uuidOf l.cfg.sid l.nextUserId) user
    outbox := outbox }

theorem idle_withGhost {l : InspLink} {user : InspUser} (outbox : List IrcMessage)
    (hnick : user.nick ≠ l.cfg.adminNick) : Idle l (withGhost l user outbox) := by
  refine ⟨⟨⟨rfl, rfl, rfl, fun _ h => h, fun _ ct h => ⟨ct, h, rfl⟩, ?_, Nat.le_succ _, ?_⟩, rfl⟩,
    rfl⟩
  · rintro v ⟨w, hw, hadmin⟩
    change (l.users.insert _ user).lookup v = some w at hw
    rw [lookup_insert] at hw
    split at hw
    · cases hw
      exact absurd hadmin hnick
    · exact ⟨w, hw, hadmin⟩
  · rintro v ⟨w, hw, hadmin⟩
    by_cases hv : v = uuidOf l.cfg.sid l.nextUserId
    · exact .inr ⟨l.nextUserId, le_rfl, Nat.lt_succ_self _, hv⟩
    · refine .inl ⟨w, ?_, hadmin⟩
      change (l.users.insert _ user).lookup v = some w
      rw [lookup_insert, if_neg hv]
      exact hw

theorem length_userList (l : InspLink) : (userList l).length = l.users.entries.length := by
  rw [userList, (Crates.hashOrder.perm _).length_eq, pairs, List.length_map]

theorem nickExists_freeNick (l : InspLink) (nick : Str) :
    nickExists l (freeNick (nickExists l) nick (l.users.entries.length + 1) 0) = false := by
  by_contra h
  have htaken := freeNick_taken (Bool.eq_true_of_not_eq_false h)
  have hsub : (List.range (l.users.entries.length + 2)).map (fun j => nick ++ decimal j) ⊆
      l.cfg.adminNick :: (userList l).map fun u => u.2.nick := by
    intro n hn
    obtain ⟨j, hj, rfl⟩ := List.mem_map.mp hn
    have hj' := htaken j (Nat.zero_le _) (by have := List.mem_range.mp hj; omega)
    simp only [nickExists, Bool.or_eq_true, List.any_eq_true, decide_eq_true_eq] at hj'
    rcases hj' with ⟨u, hu, hnick⟩ | hadmin
    · exact List.mem_cons_of_mem _ (List.mem_map.mpr ⟨u, hu, hnick⟩)
    · exact hadmin ▸ List.mem_cons_self
  have hnodup : ((List.range (l.users.entries.length + 2)).map
      fun j => nick ++ decimal j).Nodup :=
    List.nodup_range.map fun _ _ he => decimal_injective (List.append_cancel_left he)
  have hle := (List.subperm_of_subset hnodup hsub).length_le
  rw [List.length_map, List.length_range, List.length_cons, List.length_map,
    length_userList] at hle
  omega

theorem wp_nickFor (recip : Recipient) (addr : PduAddress) (l : InspLink) :
    wp (nickFor recip addr)
      (fun nick t => Idle l t ∧ nick ≠ l.cfg.adminNick ∧ t.contacts = l.contacts)
      (fun _ t => Idle l t) l := by
  have hfree : ∀ nick, nickExists l nick = false → nick ≠ l.cfg.adminNick := by
    rintro nick h rfl
    simp [nickExists] at h
  rw [nickFor, wp_bind, wp_get]
  cases hc : checkNickForCollisions l recip.nick with
  | none =>
      refine ⟨idle_refl l, hfree _ ?_, rfl⟩
      unfold checkNickForCollisions at hc
      split at hc
      · cases hc
      · rename_i h
        exact Bool.eq_false_iff.mpr h
  | some n =>
      have hn : n ≠ l.cfg.adminNick := by
        unfold checkNickForCollisions at hc
        split at hc
        · cases hc
          exact hfree _ (nickExists_freeNick l _)
        · cases hc
      dsimp only
      rw [wp_bind]
      have hupdate := idle_updateRecipient addr
        (fun r => { r with nick := n, nicksrc := nicksrcCollision }) (fun _ => rfl)
        (fun _ => rfl)
      have hsame : Moves (fun s t : InspLink => t.contacts = s.contacts)
          (store (updateRecipientNick addr n nicksrcCollision)) := moves_zoom _ fun _ _ => rfl
      exact wp_mono (wp_and (hupdate l) (hsame l)) (fun _ _ ht => ⟨ht.1, hn, ht.2⟩)
        fun _ _ ht => ht.1.1

theorem wp_newUser_idle {l : InspLink} {user : InspUser} (hnick : user.nick ≠ l.cfg.adminNick) :
    wp (newUser user) (fun _ t => Idle l t ∧ t.contacts = l.contacts) (fun _ t => Idle l t) l := by
  rw [newUser, wp_bind, getUuid, wp_bind, wp_get]
  split
  · exact idle_refl l
  · rw [wp_bind, wp_set, wp_pure, wp_bind, insertUser, wp_modify, wp_bind, makeUidLine, wp_bind,
      wp_get]
    have huser : (l.users.insert (uuidOf l.cfg.sid l.nextUserId) user).lookup
        (uuidOf l.cfg.sid l.nextUserId) = some user := AList.lookup_insert _
    dsimp only
    rw [huser]
    exact ⟨idle_withGhost _ hnick, rfl⟩

theorem idle_processGroupsForRecipient (a : PduAddress) :
    Moves Idle (processGroupsForRecipient a) := by
  refine steps_get_bind fun l => ?_
  cases hct : l.contacts.lookup a with
  | none => exact ⟨idle_refl l, trivial⟩
  | some ct =>
      dsimp only
      rw [wp_bind, wp_unwrap_some, wp_bind]
      have hgroups : Moves Idle (store (getGroupsForRecipient a) : LinkM (List Group)) := by
        intro l'
        rw [wp_store, getGroupsForRecipient, wp_bind]
        apply wp_query_of ⟨idle_store rfl rfl fun _ h => h, trivial⟩
        cases l'.store.tick.recipients.rows.find? fun r =>
            r.phoneNumber = normalizeAddress a with
        | some r =>
            exact wp_query_of ⟨idle_store rfl rfl fun _ h => h, trivial⟩
              (idle_store rfl rfl fun _ h => h)
        | none => exact ⟨idle_store rfl rfl fun _ h => h, trivial⟩
      refine wp_mono (hgroups l) ?_ fun _ _ he => he
      intro grps t ht
      have hjoin : ∀ ch, Moves Idle (joinChannel ch) :=
        fun _ => steps_modify fun _ => idle_of_eq rfl rfl rfl rfl rfl rfl rfl
      rw [wp_bind]
      refine wp_mono ((Steps.forM fun grp _ =>
        Steps.bind (idle_push _ _ _ _) fun _ => hjoin _).after ht) ?_ fun _ _ he => he
      intro _ u hu
      rw [wp_bind]
      refine wp_mono ((Steps.when (idle_push _ _ _ _)).after hu) ?_ fun _ _ he => he
      intro _ v hv
      rw [wp_bind]
      refine wp_mono ((Steps.forM fun ch _ => Steps.when (idle_push _ _ _ _)).after hv) ?_
        fun _ _ he => he
      intro _ w hw
      obtain ⟨ct', hct', huuid⟩ := hw.contacts a ct hct
      exact idle_trans hw (idle_insertContact hct' huuid.symm)

theorem idle_setupContactFor {l : InspLink} {recip : Recipient} {a : PduAddress}
    (ha : l.contacts.lookup a = none) :
    wp (setupContactFor recip a) (fun _ t => Idle l t) (fun _ t => Idle l t ∧ True) l := by
  rw [setupContactFor, wp_bind]
  refine wp_mono (wp_nickFor recip a l) ?_ fun _ _ he => ⟨he, trivial⟩
  rintro nick t ⟨ht, hnick, hsame⟩
  rw [wp_bind, wp_get, wp_bind]
  refine wp_mono (wp_newUser_idle ?_) ?_ fun _ _ he => ⟨idle_trans ht he, trivial⟩
  · rwa [ht.cfg]
  rintro uuid u ⟨hu, hcontacts⟩
  rw [wp_bind, addContact, wp_modify]
  have habsent : u.contacts.lookup a = none := by
    rw [hcontacts, hsame]
    exact ha
  exact (Steps.when (idle_processGroupsForRecipient a)).after
    (idle_trans (idle_trans ht hu) (idle_addContact habsent))

theorem idle_setupRecipient (recip : Recipient) :
    Moves Idle (setupRecipient recip : LinkM Unit) := by
  refine Steps.bind ?_ fun a => steps_get_bind fun l => ?_
  · exact steps_getAddr (fun _ => trivial) _
  · rw [wp_when]
    cases ha : l.contacts.lookup a with
    | none => exact idle_setupContactFor ha
    | some ct => exact idle_refl l

theorem idle_setWaState (a : PduAddress) (wa : Bool) : Moves Idle (setWaState a wa) := by
  refine steps_get_bind fun l => ?_
  cases hct : l.contacts.lookup a with
  | none => exact ⟨idle_refl l, trivial⟩
  | some ct =>
      rw [wp_bind, wp_unwrap_some, wp_bind, wp_modify]
      have hmode : Idle l { l with contacts := l.contacts.insert a { ct with waMode := wa } } :=
        idle_insertContact hct rfl
      have hhost : Moves Idle
          (updateUser ct.uuid fun user => { user with displayedHostname := hostForWa l wa }) := by
        refine steps_modify fun l' => ?_
        split
        · rename_i user huser
          exact idle_updateUser huser rfl
        · exact idle_refl l'
      have hrest : Moves Idle (do
          store (updateRecipientWa a wa)
          push ct.uuid "FHOST" [hostForWa l wa] none
          updateUser ct.uuid fun user => { user with displayedHostname := hostForWa l wa }) :=
        Steps.bind (idle_updateRecipient _ _ _ fun _ => rfl) fun _ =>
          Steps.bind (idle_push _ _ _ _) fun _ => hhost
      exact hrest.after hmode

theorem idle_switchMode (a : PduAddress) (auid : Str) (ct : InspContact) (wa : Bool) :
    Moves Idle (switchMode a auid ct wa) :=
  Steps.when (Steps.bind (idle_setWaState a wa) fun _ => idle_contactMessage _ _ _ _)

theorem hasRecipient_iff_find? {st : Store} {a : PduAddress} :
    HasRecipient st a ↔
      ∃ r, st.recipients.rows.find? (fun r => r.phoneNumber = normalizeAddress a) = some r := by
  refine ⟨find?_recipient, ?_⟩
  rintro ⟨r, hr⟩
  exact ⟨r, List.mem_of_find?_eq_some hr, by simpa using List.find?_some hr⟩

/-- A contact is missing only if it has no recipient. -/
theorem wp_contactReady_idle (a : PduAddress) (src : Nat) (l : InspLink) :
    wp (contactReady a src)
      (fun ready t => Idle l t ∧
        (ready = false → l.contacts.lookup a = none ∧ ¬ HasRecipient l.store a))
      (fun _ t => Idle l t) l := by
  rw [contactReady, wp_bind, hasContact, wp_bind, wp_get, wp_pure]
  split
  · exact ⟨idle_refl l, by simp⟩
  · rename_i habsent
    have hnone : l.contacts.lookup a = none := by simpa using habsent
    have htick : Idle l { l with store := l.store.tick } := idle_store rfl rfl fun _ h => h
    rw [requestContact, wp_bind, wp_store]
    apply wp_query_of htick
    rw [Store.tick_recipients]
    cases hr : l.store.recipients.rows.find? fun r => r.phoneNumber = normalizeAddress a with
    | some recip =>
        dsimp only
        rw [wp_bind]
        exact wp_mono ((idle_setupRecipient recip).after htick) (fun _ _ ht => ⟨ht, by simp⟩)
          fun _ _ ht => ht.1
    | none =>
        have hask : Moves Idle (requestCreation a src : LinkM Unit) := by
          unfold requestCreation
          split
          · exact steps_modify fun _ => idle_of_eq rfl rfl rfl rfl rfl rfl rfl
          · split
            · exact steps_modify fun _ => idle_of_eq rfl rfl rfl rfl rfl rfl rfl
            · exact steps_pure _
        dsimp only
        rw [wp_bind]
        refine wp_mono (hask.after htick) (fun _ t ht => ⟨ht, fun _ => ⟨hnone, ?_⟩⟩)
          fun _ _ ht => ht.1
        rw [hasRecipient_iff_find?, hr]
        simp

end Steady

end SmsIrc.LinkSteady
