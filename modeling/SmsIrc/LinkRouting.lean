import SmsIrc.LinkDeeds
import SmsIrc.LinkLedger

/-!
Whose messages a link passes on, and where each of them goes.
-/

namespace SmsIrc.LinkRouting

open SmsIrc.Comm SmsIrc.Database SmsIrc.External SmsIrc.HashMaps SmsIrc.InspUsers
open SmsIrc.Link SmsIrc.LinkDeeds SmsIrc.LinkEffects SmsIrc.LinkEvents SmsIrc.LinkGhosts
open SmsIrc.LinkLedger SmsIrc.LinkRuns SmsIrc.Models SmsIrc.Program SmsIrc.Text
open SmsIrc.Transition SmsIrc.Util

section Routing

variable [Crates]

/-- A UID line gives no UUID of ours to another user, and a NICK line renames none. -/
def NoRename (l : InspLink) : Event → Prop
  | .remote ⟨some source, .raw cmd args suffix⟩ =>
      (cmd = ("UID" : Str) → ∀ uuid user, newFromUidLine args suffix = .ok (uuid, user) →
        IsOurs l uuid → ∃ old, l.users.lookup uuid = some old ∧ old.nick = user.nick) ∧
      (cmd = ("NICK" : Str) → ∀ nick old, args.head? = some nick → IsOurs l source →
        l.users.lookup source = some old → old.nick = nick)
  | _ => True

/-- What a message of the admin to a ghost does. -/
def sentTo (l : InspLink) (a : PduAddress) (ct : InspContact) (text : Str) : InspLink :=
  if ct.waMode then { l with waTx := l.waTx ++ [.sendDirectMessage a text] }
  else { l with mTx := l.mTx ++ [.sendMessage a text] }

def sentToGroup (l : InspLink) (chan text : Str) : InspLink :=
  { l with waTx := l.waTx ++ [.sendGroupMessage chan text] }

/-- The line of a user with a text. -/
def privmsg (source : Option Str) (target text : Str) : IrcMessage :=
  ⟨source, .privmsg target text⟩

/-- Nobody of ours has the nick of the admin, messages of others have no effect, and each
message of the admin to a ghost or a channel is one command. -/
structure Routed (l : InspLink) : Prop where
  nicks : ∀ u user, IsOurs l u → l.users.lookup u = some user → user.nick ≠ l.cfg.adminNick
  others : ∀ source target text,
    (∀ u user, source = some u → l.users.lookup u = some user → user.nick ≠ l.cfg.adminNick) →
      exec (handleRemoteMessage (privmsg source target text)) l = (.ok (), l)
  ghost : ∀ source a ct text, adminUuid l = some source → l.contacts.lookup a = some ct →
    ct.uuid ∉ l.channels →
      exec (handleRemoteMessage (privmsg (some source) ct.uuid text)) l =
        (.ok (), sentTo l a ct text)
  channel : ∀ source chan text, adminUuid l = some source → chan ∈ l.channels →
    chan ≠ l.controlUuid →
      exec (handleRemoteMessage (privmsg (some source) chan text)) l =
        (.ok (), sentToGroup l chan text)

/-- Nobody of ours has the nick of the admin. -/
structure Sole (l : InspLink) : Prop where
  ledger : Ledger l
  control : l.cfg.controlNick ≠ l.cfg.adminNick
  nicks : ∀ u user, IsOurs l u → l.users.lookup u = some user → user.nick ≠ l.cfg.adminNick

theorem exec_privmsg_other {l : InspLink} {source target text : Str}
    (h : adminUuid l ≠ some source) :
    exec (handleRemoteMessage (privmsg (some source) target text)) l = (.ok (), l) := by
  change exec (handlePrivmsg source target text) l = _
  rw [handlePrivmsg, exec_bind, exec_get]
  dsimp only
  rw [if_pos h.symm]
  rfl

theorem Sole.routed {l : InspLink} (h : Sole l) : Routed l where
  nicks := h.nicks
  others source target text hother := by
    cases source with
    | none => rfl
    | some source =>
        refine exec_privmsg_other fun hadmin => ?_
        obtain ⟨user, huser, hnick⟩ := isAdmin_of_adminUuid hadmin
        exact hother source user rfl huser hnick
  ghost source a ct text hadmin hct hchan := by
    change exec (handlePrivmsg source ct.uuid text) l = _
    rw [handlePrivmsg, exec_bind, exec_get]
    dsimp only
    rw [if_neg (by rw [hadmin]; simp), if_neg (h.ledger.contact_ne_control hct),
      if_neg hchan, h.ledger.uuidOf_contact a ct hct]
    dsimp only
    rw [hct]
    dsimp only
    unfold sentTo
    split <;> rfl
  channel source chan text hadmin hmem hne := by
    change exec (handlePrivmsg source chan text) l = _
    rw [handlePrivmsg, exec_bind, exec_get]
    dsimp only
    rw [if_neg (by rw [hadmin]; simp), if_neg hne, if_pos hmem]
    rfl

/-- A step in which users of ours keep their nicks, or get others than the admin's. -/
theorem sole_of_nicks {s t : InspLink} (h : Sole s) (ht : Ledger t) (hcfg : t.cfg = s.cfg)
    (hnicks : ∀ u user, IsOurs t u → t.users.lookup u = some user →
      user.nick ≠ s.cfg.adminNick ∨
        ∃ old, IsOurs s u ∧ s.users.lookup u = some old ∧ old.nick = user.nick) : Sole t := by
  refine ⟨ht, by rw [hcfg]; exact h.control, fun u user hu huser => ?_⟩
  rw [hcfg]
  rcases hnicks u user hu huser with hne | ⟨old, hours, hold, hnick⟩
  · exact hne
  · rw [← hnick]
    exact h.nicks u old hours hold

theorem sole_of_users {s t : InspLink} (h : Sole s) (ht : Ledger t) (hcfg : t.cfg = s.cfg)
    (hcontrol : t.controlUuid = s.controlUuid) (hissued : t.issued = s.issued)
    (husers : ∀ u user, t.users.lookup u = some user → s.users.lookup u = some user) :
    Sole t := by
  refine sole_of_nicks h ht hcfg fun u user hu huser => .inr ⟨user, ?_, husers u user huser, rfl⟩
  rwa [IsOurs, ← hcontrol, ← hissued]

theorem ne_admin_of_free {l : InspLink} {nick : Str} (h : nickExists l nick = false) :
    nick ≠ l.cfg.adminNick := by
  rintro rfl
  simp [nickExists] at h

theorem sole_insertUser {s t : InspLink} (h : Sole s) (ht : Ledger t) (hcfg : t.cfg = s.cfg)
    {u : Str} {user : InspUser} (husers : t.users = s.users.insert u user)
    (hours : ∀ v, v ≠ u → IsOurs t v → IsOurs s v) (hnick : user.nick ≠ s.cfg.adminNick) :
    Sole t := by
  refine sole_of_nicks h ht hcfg fun v user' hv huser' => ?_
  rw [husers, lookup_insert] at huser'
  split at huser'
  · cases huser'
    exact .inl hnick
  · rename_i hne
    exact .inr ⟨user', hours v hne hv, huser', rfl⟩

theorem sole_updateUser {s t : InspLink} (h : Sole s) (ht : Ledger t) (hcfg : t.cfg = s.cfg)
    (hcontrol : t.controlUuid = s.controlUuid) (hissued : t.issued = s.issued)
    {u : Str} {old user : InspUser} (hold : s.users.lookup u = some old)
    (husers : t.users = s.users.insert u user) (hnick : IsOurs s u → old.nick = user.nick) :
    Sole t := by
  refine sole_of_nicks h ht hcfg fun v user' hv huser' => .inr ?_
  have hours : IsOurs s v := by rwa [IsOurs, ← hcontrol, ← hissued]
  rw [husers, lookup_insert] at huser'
  split at huser'
  · rename_i hvu
    cases huser'
    rw [hvu] at hours ⊢
    exact ⟨old, hours, hold, hnick hours⟩
  · exact ⟨user', hours, huser', rfl⟩

omit [Crates] in
theorem lookup_of_erase {m : HashMap Str InspUser} {k u : Str} {user : InspUser}
    (h : (m.erase k).lookup u = some user) : m.lookup u = some user := by
  rw [lookup_erase] at h
  split at h
  · cases h
  · exact h

theorem quitted_users {l : InspLink} {a : PduAddress} {u : Str} {user : InspUser}
    (h : (quitted l a).users.lookup u = some user) : l.users.lookup u = some user := by
  unfold quitted at h
  split at h
  · exact lookup_of_erase h
  · exact h

theorem sole_effect {c r : Prop} {s t : InspLink} (h : Sole s) (heff : Effect c r s t) :
    Sole t := by
  have ht := ledger_effect h.ledger heff
  cases heff with
  | apart ha =>
      refine sole_of_users h ht ha.cfg ha.controlUuid ha.issued fun u user huser => ?_
      rwa [ha.users] at huser
  | said hm => exact sole_of_users h ht rfl rfl rfl fun _ _ hu => hu
  | collided ha => exact sole_of_users h ht rfl rfl rfl fun _ _ hu => hu
  | introduced ha hid hfree hrow =>
      refine sole_insertUser h ht rfl rfl (fun v hne hv => ?_) (ne_admin_of_free hfree)
      rcases hv with hv | hv
      · exact .inl hv
      · rcases List.mem_append.mp hv with hv | hv
        · exact .inr hv
        · exact absurd (List.mem_singleton.mp hv) hne
  | regrouped hct hr hgrps => exact sole_of_users h ht rfl rfl rfl fun _ _ hu => hu
  | @moded a ct wa hct =>
      cases huser : s.users.lookup ct.uuid with
      | none =>
          refine sole_of_users h ht rfl rfl rfl fun u user hu => ?_
          simpa only [moded, huser] using hu
      | some user =>
          have husers : (moded s a ct wa).users = s.users.insert ct.uuid
              { user with displayedHostname := hostForWa s wa } := by simp only [moded, huser]
          exact sole_updateUser h ht rfl rfl rfl huser husers fun _ => rfl
  | marked hct hdown => exact sole_of_users h ht rfl rfl rfl fun _ _ hu => hu
  | renamed hct huser hfree =>
      exact sole_insertUser h ht rfl rfl (fun _ _ hv => hv) (ne_admin_of_free hfree)
  | announced hct huser hfree hdown =>
      exact sole_insertUser h ht rfl rfl (fun _ _ hv => hv) (ne_admin_of_free hfree)
  | @dropped a =>
      obtain ⟨hcfg, hcontrol, hissued⟩ := quitted_eq s a
      exact sole_of_users h ht hcfg hcontrol hissued fun _ _ hu => quitted_users hu

theorem sole_effects {c r : Prop} {s t : InspLink} (h : Sole s) (heff : Effects c r s t) :
    Sole t := heff.invariant (fun _ _ hs he => sole_effect hs he) h

theorem sole_opening {c r : Prop} {e : Event} {s t : InspLink} (h : Sole s)
    (he : NoRename s e) (hopen : Opening c r e s t) : Sole t := by
  have ht := ledger_opening h.ledger hopen
  cases hopen with
  | nothing hno => exact h
  | connected heff =>
      exact sole_of_users (sole_effects h heff) ht rfl rfl rfl fun _ _ hu => hu
  | linked heff =>
      exact sole_of_users (sole_effects h heff) ht rfl rfl rfl fun _ _ hu => hu
  | killed => exact sole_of_users h ht rfl rfl rfl fun _ _ hu => lookup_of_erase hu
  | quit => exact sole_of_users h ht rfl rfl rfl fun _ _ hu => lookup_of_erase hu
  | burst => exact sole_insertUser h ht rfl rfl (fun _ _ hv => hv) h.control
  | @user _ source args suffix uuid user huid =>
      refine sole_of_nicks h ht rfl fun v user' hv huser' => .inr ?_
      rw [lookup_insert] at huser'
      split at huser'
      · rename_i hvu
        cases huser'
        rw [hvu] at hv ⊢
        obtain ⟨old, hold, hnick⟩ := he.1 rfl uuid user huid hv
        exact ⟨old, hv, hold, hnick⟩
      · exact ⟨user', hv, huser', rfl⟩
  | nick huser =>
      exact sole_updateUser h ht rfl rfl rfl huser rfl fun hours => he.2 rfl _ _ rfl hours huser
  | host huser => exact sole_updateUser h ht rfl rfl rfl huser rfl fun _ => rfl
  | squit =>
      exact sole_of_users h ht rfl rfl rfl fun _ _ hu => (lookup_retain_eq_some.mp hu).1
  | stored => exact sole_of_users h ht rfl rfl rfl fun _ _ hu => hu
  | clock => exact sole_of_users h ht rfl rfl rfl fun _ _ hu => hu

theorem sole_next {s t : Session} {e : Event} (he : NoRename s.link e) (h : Sole s.link)
    (ht : next s e = some t) : Sole t.link := by
  obtain ⟨-, u, hopen, heff⟩ :=
    happened_of_next (c := True) (r := True) (fun _ => trivial) (fun _ => trivial) ht
  exact sole_effects (sole_opening h he hopen) heff

/-- In every run in which no UUID of ours is renamed by the other side, only the admin has
the nick of the admin, others' messages have no effect, and a message of the admin to a
ghost whose UUID is not the name of a channel, or to a channel, is exactly one command. -/
theorem routed_of_run {cfg : InspConfig} {st : Store} {now : NaiveDateTime} {es : List Event}
    {t : Session} (hnicks : cfg.controlNick ≠ cfg.adminNick)
    (hes : AllSteps next (fun s e => NoRename s.link e) (initial cfg st now) es)
    (hrun : run next (initial cfg st now) es = some t) : Routed t.link := by
  have hstart : Sole (initial cfg st now).link := by
    refine ⟨ledger_initial cfg st now, hnicks, fun u user _ huser => ?_⟩
    cases huser
  have h := invariant_of_allSteps (I := fun s => Sole s.link)
    (fun _ _ _ he hs ht => sole_next he hs ht) hes hstart hrun
  exact h.routed

end Routing

section Samples

attribute [local instance] Sample.crates

/-- While no ghost has been introduced, the other side introduces the admin. -/
theorem noRename_linking {s : Session}
    (hfree : (run next s (linking.take 2)).map
      (fun t => (decide (t.link.controlUuid = ("00BAAAAAA" : Str)), t.link.issued)) =
        some (false, [])) : AllSteps next (fun s e => NoRename s.link e) s linking := by
  refine allSteps_of_take fun k e t he ht => ?_
  match k, he with
  | 0, he =>
      cases he
      trivial
  | 1, he =>
      cases he
      trivial
  | 3, he =>
      cases he
      exact ⟨fun h => absurd h (by decide), fun h => absurd h (by decide)⟩
  | 2, he =>
      cases he
      refine ⟨fun _ uuid user hline hours => ?_, fun h => absurd h (by decide)⟩
      have huuid : (newFromUidLine [("00BAAAAAA" : Str), ['1'], ("admin" : Str), ['h'], ['h'],
          ['i'], ['0'], ['1'], ("+i" : Str)] (some [])).toOption.map Prod.fst =
            some ("00BAAAAAA" : Str) := by decide
      rw [hline] at huuid
      rw [ht] at hfree
      obtain ⟨hcontrol, hissued⟩ := Prod.mk.inj (Option.some.inj hfree)
      rcases hours with hours | hours
      · rw [← hours, decide_eq_false_iff_not] at hcontrol
        exact absurd (Option.some.inj huuid) hcontrol
      · rw [hissued] at hours
        cases hours

/-- A recipient is in a group that is bridged to a channel. -/
def peopling (chan : Str) : List Event :=
  .storeOp (.recipient Sample.alice ['a']) ::
    .storeOp (.group ⟨['g'], true⟩ chan [1] [] []) :: linking

theorem noRename_peopling {cfg : InspConfig} {chan : Str}
    (hfree : (run next (initial cfg Sample.store 0) ((peopling chan).take 4)).map
      (fun t => (decide (t.link.controlUuid = ("00BAAAAAA" : Str)), t.link.issued)) =
        some (false, [])) :
    AllSteps next (fun s e => NoRename s.link e) (initial cfg Sample.store 0)
      (peopling chan) := by
  refine ⟨trivial, fun t ht => ⟨trivial, fun u hu => noRename_linking ?_⟩⟩
  have hrun : run next u (linking.take 2) =
      run next (initial cfg Sample.store 0) ((peopling chan).take 4) := by
    change _ = run next _ (_ :: _ :: linking.take 2)
    rw [run_cons, ht, Option.bind_some, run_cons, hu, Option.bind_some]
  rw [hrun]
  exact hfree

def peopled : Session := (run next sampleStart (peopling ("#wa" : Str))).get (by decide +kernel)

/-- There are the admin, a ghost and a channel of a group. -/
theorem routed_peopled :
    Routed peopled.link ∧ adminUuid peopled.link = some ("00BAAAAAA" : Str) ∧
      peopled.link.contacts.lookup Sample.alice =
        some ⟨("00AZ00001" : Str), [("#wa" : Str), ("#sms" : Str)], false⟩ ∧
      ("#wa" : Str) ∈ peopled.link.channels := by
  have hnicks : sampleConfig.controlNick ≠ sampleConfig.adminNick := by decide
  refine ⟨?_, by decide +kernel, by decide +kernel, by decide +kernel⟩
  exact routed_of_run hnicks (noRename_peopling (by decide +kernel)) (Option.some_get _).symm

/-- The channel has the UUID of the ghost as its name. -/
def confusing : List Event := peopling ("#00Z00001" : Str)

def confusedConfig : InspConfig := { sampleConfig with sid := "#00" }

def confused : Session :=
  (run next (initial confusedConfig Sample.store 0) confusing).get (by decide +kernel)

theorem ghost_is_channel : ¬ ∀ (cfg : InspConfig) (st : Store) (now : NaiveDateTime)
    (es : List Event) (t : Session), cfg.controlNick ≠ cfg.adminNick →
      AllSteps next (fun s e => NoRename s.link e) (initial cfg st now) es →
        run next (initial cfg st now) es = some t →
          ∀ source a ct text, adminUuid t.link = some source →
            t.link.contacts.lookup a = some ct →
              exec (handleRemoteMessage (privmsg (some source) ct.uuid text)) t.link =
                (.ok (), sentTo t.link a ct text) := by
  intro h
  have hes : AllSteps next (fun s e => NoRename s.link e) (initial confusedConfig Sample.store 0)
      confusing := noRename_peopling (by decide +kernel)
  have hrouted := congrArg (fun p => p.2.waTx.length)
    (h confusedConfig Sample.store 0 confusing confused (by decide) hes (Option.some_get _).symm
      ("00BAAAAAA" : Str) Sample.alice
      ⟨("#00Z00001" : Str), [("#00Z00001" : Str), ("#sms" : Str)], false⟩ ['x']
      (by decide +kernel) (by decide +kernel))
  exact absurd hrouted (by decide +kernel)

end Samples

end SmsIrc.LinkRouting
