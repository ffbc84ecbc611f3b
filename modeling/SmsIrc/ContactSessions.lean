import SmsIrc.Attendance
import SmsIrc.FactoryFrame
import SmsIrc.LinkSettled

/-!
What the network sees of a contact with a connection of its own: where its calls have taken
it, and whether they say that it is away.
-/

namespace SmsIrc.ContactSessions

open SmsIrc.Attendance SmsIrc.Comm SmsIrc.Composition SmsIrc.Contact SmsIrc.ContactFrame
open SmsIrc.Database SmsIrc.External SmsIrc.FactoryKeeping SmsIrc.LinkAgreement
open SmsIrc.LinkEffects SmsIrc.LinkGhosts SmsIrc.LinkSettled SmsIrc.Models SmsIrc.Program
open SmsIrc.SenderCommon SmsIrc.Text SmsIrc.Util

/-- Where a call makes the contact go. -/
def moveOf : ClientCall → Option (Move Str)
  | .join ch => some (.join ch)
  | .part ch => some (.part ch)
  | _ => none

/-- What a call says of its presence. -/
def awayOf : ClientCall → Option (Option Str)
  | .away text => some text
  | _ => none

theorem filterMap_joins (chans : List Str) :
    (chans.map ClientCall.join).filterMap moveOf = chans.map Move.join := by
  apply filterMap_moves
  exact fun _ => rfl

theorem filterMap_parts (chans : List Str) :
    (chans.map ClientCall.part).filterMap moveOf = chans.map Move.part := by
  apply filterMap_moves
  exact fun _ => rfl

section Stores

variable [Crates]

/-- A use of the database by which nobody's groups change, and no recipient goes. -/
structure Keeps (st st' : Store) : Prop where
  members : SameMembers st st'
  ids : IdsKept st st'

instance isPreorder_keeps : IsPreorder Store Keeps where
  refl st := ⟨refl st, refl st⟩
  trans _ _ _ hst htu :=
    ⟨IsTrans.trans _ _ _ hst.members htu.members, IsTrans.trans _ _ _ hst.ids htu.ids⟩

theorem keeps_of_eq {st st' : Store} (hgroups : st'.groups = st.groups)
    (hrec : st'.recipients = st.recipients) : Keeps st st' :=
  ⟨sameMembers_of_eq hgroups, idsKept_of_eq hrec⟩

theorem keeps_tick (st : Store) : Keeps st st.tick := keeps_of_eq rfl rfl

theorem keeps_updateRecipient (a : PduAddress) (f : Recipient → Recipient)
    (hf : ∀ r, (f r).id = r.id) (hnum : ∀ r, (f r).phoneNumber = r.phoneNumber) :
    Moves Keeps (updateRecipient a f hf) :=
  moves_execute keeps_tick fun st => ⟨sameMembers_of_eq rfl, idsKept_rowChanged st a f hf hnum⟩

theorem keeps_deleteMessage (id : Nat) : Moves Keeps (deleteMessage id) :=
  moves_checked keeps_tick fun _ => keeps_of_eq rfl rfl

/-- The channels are those of the groups of the recipient of an address. -/
def Current (st : Store) (a : PduAddress) (chans : List Str) : Prop :=
  ∃ row, RowOf st a row ∧ ∀ ch, ch ∈ chans ↔ Member st row.id ch

theorem Current.kept {st st' : Store} {a : PduAddress} {chans : List Str}
    (h : Current st a chans) (hst : Keeps st st') : Current st' a chans := by
  obtain ⟨row, hrow, hchans⟩ := h
  obtain ⟨row', hrow', hid⟩ := hst.ids a row hrow
  refine ⟨row', hrow', fun ch => ?_⟩
  rw [hchans, hid, hst.members]

theorem wp_getGroupsForRecipient (a : PduAddress) (st : Store) :
    wp (getGroupsForRecipient a)
      (fun grps st' => st' = st.tick.tick ∧ (ReadsBack a → Current st a (grps.map Group.channel)))
      (fun _ _ => True) st := by
  rw [getGroupsForRecipient, wp_bind, getRecipientByAddrOpt]
  refine wp_query_of trivial ?_
  split
  · rename_i row hrow
    refine wp_query_of trivial ⟨rfl, fun ha => ⟨row, ⟨?_, ?_, ha⟩, fun ch => ?_⟩⟩
    · exact (rowOf_of_find hrow).1
    · exact (rowOf_of_find hrow).2
    · simp only [List.mem_map, Crates.scanOrder.mem_run, List.mem_filter, Member, and_assoc]
      rfl
  · exact trivial

end Stores

section Sessions

variable [Crates]

def moves (c : ContactManager) : List (Move Str) := c.sent.filterMap moveOf

def aways (c : ContactManager) : List (Option Str) := c.sent.filterMap awayOf

/-- A contact is where it says that it is, and has told its presence if it is connected; it
has said nothing about either before. -/
structure Faithful (c : ContactManager) : Prop where
  idle : c.connected = false → moves c = [] ∧ aways c = [] ∧ c.channels = []
  channels : ∀ ch, ch ∈ replay [] (moves c) ↔ ch ∈ c.channels
  presence : c.connected = true → (aways c).getLast? = some c.presence

/-- A step in which it says nothing about these. -/
structure Calm (s t : ContactManager) : Prop where
  addr : t.addr = s.addr
  connected : t.connected = s.connected
  presence : t.presence = s.presence
  channels : t.channels = s.channels
  rx : t.rx = s.rx
  moves : moves t = moves s
  aways : aways t = aways s
  store : Keeps s.store t.store

instance isPreorder_calm : IsPreorder ContactManager Calm where
  refl c := ⟨rfl, rfl, rfl, rfl, rfl, rfl, rfl, refl c.store⟩
  trans _ _ _ hst htu :=
    ⟨htu.addr.trans hst.addr, htu.connected.trans hst.connected,
      htu.presence.trans hst.presence, htu.channels.trans hst.channels, htu.rx.trans hst.rx,
      htu.moves.trans hst.moves, htu.aways.trans hst.aways,
      IsTrans.trans _ _ _ hst.store htu.store⟩

theorem calm_store {α : Type} {p : StoreM α} (hp : Moves Keeps p) :
    Moves Calm (store p : ContactM α) :=
  Steps.zoom hp fun _ _ hst => ⟨rfl, rfl, rfl, rfl, rfl, rfl, rfl, hst⟩

theorem moves_append (c : ContactManager) {k : ClientCall} (hk : moveOf k = none) :
    (c.sent ++ [k]).filterMap moveOf = moves c := by
  rw [List.filterMap_append, List.filterMap_cons_none hk]
  simp [moves]

theorem aways_append (c : ContactManager) {k : ClientCall} (hk : awayOf k = none) :
    (c.sent ++ [k]).filterMap awayOf = aways c := by
  rw [List.filterMap_append, List.filterMap_cons_none hk]
  simp [aways]

theorem calm_call {k : ClientCall} (hk : isPlain k = true) : Moves Calm (call k) := by
  refine steps_get_bind fun c => ?_
  rw [wp_bind, wp_set]
  cases c.refuses c.calls with
  | some e => exact ⟨⟨rfl, rfl, rfl, rfl, rfl, rfl, rfl, refl c.store⟩, trivial⟩
  | none =>
      refine ⟨rfl, rfl, rfl, rfl, rfl, moves_append c ?_, aways_append c ?_, refl c.store⟩
      · cases k <;> first | rfl | cases hk
      · cases k <;> first | rfl | cases hk

theorem calm_frame : Frame Calm where
  within s t hst := by
    refine ⟨hst.addr, hst.connected, hst.presence, hst.channels, hst.rx, ?_, ?_, ?_⟩
    · rw [moves, hst.sent, moves]
    · rw [aways, hst.sent, aways]
    · rw [hst.store]
      exact refl _
  call _ hk := calm_call hk
  sighted _ c := ⟨rfl, rfl, rfl, rfl, rfl, rfl, rfl, refl c.store⟩
  query f := calm_store (moves_query keeps_tick f)
  nick a n src := calm_store
    (keeps_updateRecipient a (fun r => { r with nick := n, nicksrc := src }) _ fun _ => rfl)
  mode a wa := calm_store
    (keeps_updateRecipient a (fun r => { r with whatsapp := wa }) _ fun _ => rfl)
  deleteMessage id := calm_store (keeps_deleteMessage id)
  direct _ _ c := ⟨rfl, rfl, rfl, rfl, rfl, rfl, rfl, refl c.store⟩
  sms _ _ c := ⟨rfl, rfl, rfl, rfl, rfl, rfl, rfl, refl c.store⟩

theorem Calm.faithful {s t : ContactManager} (h : Calm s t) (hs : Faithful s) : Faithful t := by
  refine ⟨fun hc => ?_, fun ch => ?_, fun hc => ?_⟩
  · rw [h.moves, h.aways, h.channels]
    exact hs.idle (h.connected ▸ hc)
  · rw [h.moves, h.channels]
    exact hs.channels ch
  · rw [h.aways, h.presence]
    exact hs.presence (h.connected ▸ hc)

theorem wp_calls (ks : List ClientCall) (c : ContactManager) :
    wp (forM ks call)
      (fun _ t => ∃ n, t = { c with calls := n, sent := c.sent ++ ks }) (fun _ _ => True) c := by
  induction ks generalizing c with
  | nil => exact ⟨c.calls, by rw [List.append_nil]⟩
  | cons k ks ih =>
      rw [List.forM_cons, wp_bind, call, wp_bind, wp_get, wp_bind, wp_set]
      cases c.refuses c.calls with
      | some e => trivial
      | none =>
          change wp (forM ks call) _ _ { c with calls := c.calls + 1, sent := c.sent ++ [k] }
          refine wp_mono (ih _) ?_ fun _ _ _ => trivial
          rintro _ t ⟨n, rfl⟩
          exact ⟨n, by rw [List.append_assoc]; rfl⟩

theorem wp_updateAway {c : ContactManager} (hc : c.connected = true) :
    wp updateAway
      (fun _ t => ∃ n, t = { c with calls := n, sent := c.sent ++ [.away c.presence] })
      (fun _ _ => True) c := by
  rw [updateAway, wp_bind, wp_get, wp_when, if_pos hc]
  have hcall := wp_calls [.away c.presence] c
  rw [List.forM_cons, List.forM_nil, wp_bind] at hcall
  exact hcall

/-- Where going to the channels takes the contact. -/
def exchange (c : ContactManager) (chans : List Str) : List ClientCall :=
  chans.map .join ++ (c.channels.filter fun ch => ch ∉ chans).map .part

theorem wp_processGroups {c : ContactManager} (hc : c.connected = true) :
    wp processGroups
      (fun _ t => ∃ n chans, (ReadsBack c.addr → Current t.store c.addr chans) ∧
        t = { c with
          calls := n
          store := c.store.tick.tick
          sent := c.sent ++ exchange c chans
          channels := chans })
      (fun _ _ => True) c := by
  rw [processGroups, wp_bind, wp_get, wp_when, if_pos hc, wp_bind, store, wp_zoom]
  refine wp_mono (wp_getGroupsForRecipient c.addr c.store) ?_ fun _ _ _ => trivial
  rintro grps st ⟨rfl, hcurrent⟩
  have hjoins := wp_calls ((grps.map Group.channel).map .join) { c with store := c.store.tick.tick }
  rw [List.forM_map] at hjoins
  rw [wp_bind]
  refine wp_mono hjoins ?_ fun _ _ _ => trivial
  rintro _ t ⟨n, rfl⟩
  rw [wp_bind, wp_modify, forM_when]
  have hparts := wp_calls ((c.channels.filter fun ch => ch ∉ grps.map Group.channel).map .part)
    { c with
      calls := n
      store := c.store.tick.tick
      sent := c.sent ++ (grps.map Group.channel).map .join
      channels := grps.map Group.channel }
  rw [List.forM_map] at hparts
  refine wp_mono hparts ?_ fun _ _ _ => trivial
  rintro _ u ⟨n', rfl⟩
  refine ⟨n', grps.map Group.channel, ?_, ?_⟩
  · exact fun ha => ((hcurrent ha).kept (keeps_tick _)).kept (keeps_tick _)
  · rw [exchange, List.append_assoc]

theorem aways_exchange (c : ContactManager) (chans : List Str) :
    (exchange c chans).filterMap awayOf = [] := by
  refine List.filterMap_eq_nil_iff.mpr fun k hk => ?_
  rcases List.mem_append.mp hk with hk | hk
  · obtain ⟨ch, -, rfl⟩ := List.mem_map.mp hk
    rfl
  · obtain ⟨ch, -, rfl⟩ := List.mem_map.mp hk
    rfl

theorem mem_replay_exchange_moves {c : ContactManager} (hc : Faithful c) {chans : List Str}
    (ch : Str) : ch ∈ replay [] ((c.sent ++ exchange c chans).filterMap moveOf) ↔ ch ∈ chans := by
  rw [List.filterMap_append, replay_append, exchange, List.filterMap_append, filterMap_joins,
    filterMap_parts, mem_replay_exchange decide_eq_true_iff]
  constructor
  · rintro (hch | ⟨hin, hout⟩)
    · exact hch
    · exact absurd ((hc.channels ch).mp hin) hout
  · exact Or.inl

/-- If it is connected, it is in the channels of its groups. -/
def Settled (c : ContactManager) : Prop :=
  ReadsBack c.addr → c.connected = true → Current c.store c.addr c.channels

/-- What a handler keeps that leaves the presence `text`. -/
structure Tends (text : Option Str) (s t : ContactManager) : Prop where
  addr : t.addr = s.addr
  rx : t.rx = s.rx
  presence : t.presence = text
  store : Keeps s.store t.store
  faithful : Faithful s → Faithful t
  settled : Settled s → Settled t

theorem Tends.trans {text text' : Option Str} {s t u : ContactManager} (hst : Tends text s t)
    (htu : Tends text' t u) : Tends text' s u :=
  ⟨htu.addr.trans hst.addr, htu.rx.trans hst.rx, htu.presence,
    IsTrans.trans _ _ _ hst.store htu.store, fun hs => htu.faithful (hst.faithful hs),
    fun hs => htu.settled (hst.settled hs)⟩

theorem tends_refl (c : ContactManager) : Tends c.presence c c :=
  ⟨rfl, rfl, rfl, refl c.store, id, id⟩

theorem Calm.tends {s t : ContactManager} (h : Calm s t) : Tends s.presence s t := by
  refine ⟨h.addr, h.rx, h.presence, h.store, h.faithful, fun hs ha hc => ?_⟩
  rw [h.addr] at ha ⊢
  rw [h.connected] at hc
  rw [h.channels]
  exact (hs ha hc).kept h.store

theorem leads_calm {p : ContactM Unit} (hp : Moves Calm p) (c : ContactManager) :
    wp p (fun _ t => Tends c.presence c t) (fun _ _ => True) c :=
  wp_mono (hp c) (fun _ _ ht => ht.tends) fun _ _ _ => trivial

theorem tends_processGroups (c : ContactManager) :
    wp processGroups (fun _ t => Tends c.presence c t ∧ Settled t) (fun _ _ => True) c := by
  cases hc : c.connected with
  | false =>
      rw [processGroups, wp_bind, wp_get, wp_when, if_neg (by simp [hc])]
      exact ⟨tends_refl c, fun _ hconn => by rw [hc] at hconn; cases hconn⟩
  | true =>
      refine wp_mono (wp_processGroups hc) ?_ fun _ _ _ => trivial
      rintro _ t ⟨n, chans, hcurrent, rfl⟩
      have hsettled : Settled { c with
          calls := n
          store := c.store.tick.tick
          sent := c.sent ++ exchange c chans
          channels := chans } := fun ha _ => hcurrent ha
      refine ⟨⟨rfl, rfl, rfl, keeps_of_eq rfl rfl, fun hs => ⟨fun hno => ?_, fun ch => ?_,
        fun _ => ?_⟩, fun _ => hsettled⟩, hsettled⟩
      · rw [hc] at hno
        cases hno
      · exact mem_replay_exchange_moves hs ch
      · change ((c.sent ++ exchange c chans).filterMap awayOf).getLast? = some c.presence
        rw [List.filterMap_append, aways_exchange, List.append_nil]
        exact hs.presence hc

theorem tends_updateAway (text : Option Str) (c : ContactManager) :
    wp (handleIntRx (.updateAway text)) (fun _ t => Tends text c t) (fun _ _ => True) c := by
  change wp (do
    modify fun c => { c with presence := text }
    updateAway) _ _ c
  rw [wp_bind, wp_modify]
  rcases Bool.eq_false_or_eq_true c.connected with hc | hc
  · refine wp_mono (wp_updateAway (c := { c with presence := text }) hc) ?_ fun _ _ _ => trivial
    rintro _ t ⟨n, rfl⟩
    refine ⟨rfl, rfl, rfl, refl c.store, fun hs => ⟨fun hno => ?_, fun ch => ?_, fun _ => ?_⟩,
      fun hs => hs⟩
    · change c.connected = false at hno
      rw [hc] at hno
      cases hno
    · change ch ∈ replay [] ((c.sent ++ [ClientCall.away text]).filterMap moveOf) ↔ ch ∈ c.channels
      rw [moves_append c rfl]
      exact hs.channels ch
    · change ((c.sent ++ [ClientCall.away text]).filterMap awayOf).getLast? = some text
      rw [List.filterMap_append]
      exact List.getLast?_concat
  · rw [updateAway, wp_bind, wp_get, wp_when, if_neg (by simp [hc])]
    refine ⟨rfl, rfl, rfl, refl c.store, fun hs => ⟨hs.idle, hs.channels, fun hconn => ?_⟩,
      fun hs => hs⟩
    change c.connected = true at hconn
    rw [hc] at hconn
    cases hconn

/-- The presence after some commands. -/
def awayAfter (cmds : List ContactManagerCommand) (text : Option Str) : Option Str :=
  cmds.foldl (fun text cmd => if let .updateAway text' := cmd then text' else text) text

omit [Crates] in
theorem awayAfter_append (cmds cmds' : List ContactManagerCommand) (text : Option Str) :
    awayAfter (cmds ++ cmds') text = awayAfter cmds' (awayAfter cmds text) := List.foldl_append

omit [Crates] in
theorem awayAfter_of_notMem {cmds : List ContactManagerCommand} {text : Option Str}
    (h : ∀ text, .updateAway text ∉ cmds) : awayAfter cmds text = text := by
  induction cmds with
  | nil => rfl
  | cons cmd cmds ih =>
      have hrest := ih fun text hmem => h text (List.mem_cons_of_mem _ hmem)
      cases cmd with
      | updateAway text => exact absurd List.mem_cons_self (h text)
      | processMessages => exact hrest
      | processGroups => exact hrest
      | changeNick nick src => exact hrest
      | setWhatsapp wam => exact hrest

theorem tends_handleIntRx (cmd : ContactManagerCommand) (c : ContactManager) :
    wp (handleIntRx cmd)
      (fun _ t => Tends (awayAfter [cmd] c.presence) c t ∧ (cmd = .processGroups → Settled t))
      (fun _ _ => True) c := by
  have hother : cmd ≠ .processGroups → (∀ text, cmd ≠ .updateAway text) →
      wp (handleIntRx cmd)
        (fun _ t => Tends c.presence c t ∧ (cmd = .processGroups → Settled t))
        (fun _ _ => True) c := by
    intro hgroups haway
    refine wp_mono (leads_calm (calm_frame.handleIntRx hgroups haway) c) ?_ fun _ _ _ => trivial
    exact fun _ t ht => ⟨ht, fun heq => absurd heq hgroups⟩
  cases cmd with
  | processMessages => exact hother (by simp) (by simp)
  | changeNick nick src => exact hother (by simp) (by simp)
  | setWhatsapp wam => exact hother (by simp) (by simp)
  | processGroups =>
      refine wp_mono (tends_processGroups c) (fun _ t ht => ⟨ht.1, fun _ => ht.2⟩) ?_
      exact fun _ _ _ => trivial
  | updateAway text =>
      refine wp_mono (tends_updateAway text c) (fun _ t ht => ⟨ht, fun heq => ?_⟩) ?_
      · cases heq
      · exact fun _ _ _ => trivial

theorem tends_commands (cmds : List ContactManagerCommand) (c : ContactManager) :
    wp (forM cmds handleIntRx)
      (fun _ t => Tends (awayAfter cmds c.presence) c t ∧ (.processGroups ∈ cmds → Settled t))
      (fun _ _ => True) c := by
  induction cmds generalizing c with
  | nil => exact ⟨tends_refl c, fun h => by cases h⟩
  | cons cmd cmds ih =>
      rw [List.forM_cons, wp_bind]
      refine wp_mono (tends_handleIntRx cmd c) ?_ fun _ _ _ => trivial
      rintro _ t ⟨ht, hsettled⟩
      refine wp_mono (ih t) ?_ fun _ _ _ => trivial
      rintro _ u ⟨hu, hrest⟩
      rw [ht.presence] at hu
      refine ⟨ht.trans hu, fun hmem => ?_⟩
      rcases List.mem_cons.mp hmem with heq | hmem
      · exact hu.settled (hsettled heq.symm)
      · exact hrest hmem

/-- At the end of its welcome a contact is connected: it tells its presence, and goes to the
channels of its groups. -/
theorem tends_endOfMotd (source : Option Str) (c : ContactManager) :
    wp (handleIrcMessage ⟨source, .endOfMotd⟩) (fun _ t => Tends c.presence c t)
      (fun _ _ => True) c := by
  have hquiet : Moves Calm (do
      processMessages
      initializeWatch) := Steps.bind calm_frame.processMessages fun _ => calm_frame.initializeWatch
  have heq : handleIrcMessage ⟨source, .endOfMotd⟩ = (do
      modify fun c : ContactManager => { c with connected := true }
      (do
        processMessages
        initializeWatch)
      updateAway
      processGroups) := by
    simp only [handleIrcMessage, bind_assoc]
  rw [heq, wp_bind, wp_modify, wp_bind]
  refine wp_mono (hquiet { c with connected := true }) (fun _ t ht => ?_) fun _ _ _ => trivial
  rw [wp_bind]
  refine wp_mono (wp_updateAway ht.connected) ?_ fun _ _ _ => trivial
  rintro _ u ⟨n, rfl⟩
  refine wp_mono (tends_processGroups _) ?_ fun _ _ _ => trivial
  rintro _ v ⟨hv, hsettled⟩
  refine ⟨hv.addr.trans ht.addr, hv.rx.trans ht.rx, hv.presence.trans ht.presence,
    IsTrans.trans _ _ _ ht.store hv.store, fun hs => hv.faithful ⟨fun hno => ?_, fun ch => ?_,
      fun _ => ?_⟩, fun _ => hsettled⟩
  · change t.connected = false at hno
    rw [ht.connected] at hno
    cases hno
  · change ch ∈ replay [] ((t.sent ++ [ClientCall.away t.presence]).filterMap moveOf) ↔
      ch ∈ t.channels
    rw [moves_append t rfl, ht.moves, ht.channels]
    exact hs.channels ch
  · change ((t.sent ++ [ClientCall.away t.presence]).filterMap awayOf).getLast? = some t.presence
    rw [List.filterMap_append]
    exact List.getLast?_concat

theorem tends_readItem (i : StreamItem) (c : ContactManager) :
    wp (readItem i) (fun _ t => Tends c.presence c t) (fun _ _ => True) c := by
  cases i with
  | message m =>
      obtain ⟨source, command⟩ := m
      by_cases hm : command = .endOfMotd
      · subst hm
        exact tends_endOfMotd source c
      · exact leads_calm (calm_frame.handleIrcMessage hm) c
  | stopped => trivial
  | failed e => trivial

/-- What a contact is after a poll that has not failed. -/
structure Polled (s t : ContactManager) : Prop where
  addr : t.addr = s.addr
  rx : t.rx = []
  presence : t.presence = awayAfter s.rx s.presence
  store : Keeps s.store t.store
  faithful : Faithful s → Faithful t
  settled : Settled s ∨ .processGroups ∈ s.rx → Settled t

theorem polled_poll (i : Activity) (c : ContactManager) :
    wp (Contact.poll i) (fun _ t => Polled c t) (fun _ _ => True) c := by
  have hdrive : ∀ (r : Except Str Unit) (c : ContactManager),
      wp (drive r) (fun _ t => Tends c.presence c t) (fun _ _ => True) c :=
    fun r => leads_calm (moves_drive r)
  have hthen : ∀ {α : Type} {p : ContactM Unit} {q : Unit → ContactM α} {s : ContactManager}
      {P : ContactManager → Prop}, Tends c.presence c s →
        wp p (fun _ t => Tends s.presence s t) (fun _ _ => True) s →
          (∀ t, Tends c.presence c t → wp (q ()) (fun _ u => P u) (fun _ _ => True) t) →
            wp (p >>= q) (fun _ u => P u) (fun _ _ => True) s := by
    intro α p q s P hs hp hq
    rw [wp_bind]
    refine wp_mono hp (fun _ t ht => hq t ?_) fun _ _ _ => trivial
    rw [hs.presence] at ht
    exact hs.trans ht
  refine hthen (tends_refl c) (leads_calm calm_frame.identify c) fun t ht => ?_
  refine hthen ht (hdrive _ _) fun u hu => ?_
  refine hthen hu ?_ fun v hv => ?_
  · refine wp_forM (I := fun v => Tends u.presence u v) (fun i _ v hv => ?_) (tends_refl u)
    refine wp_mono (tends_readItem i v) (fun _ w hw => ?_) fun _ _ _ => trivial
    rw [hv.presence] at hw
    exact hv.trans hw
  rw [receive, bind_assoc, wp_bind, wp_get, bind_assoc, wp_bind, wp_set, wp_bind]
  refine wp_mono (tends_commands v.rx { v with rx := [] }) ?_ fun _ _ _ => trivial
  rintro _ w ⟨hw, hgroups⟩
  refine wp_mono (hdrive _ w) (fun _ x hx => ?_) fun _ _ _ => trivial
  have hall := hw.trans hx
  have hpresence : x.presence = awayAfter c.rx c.presence := by
    rw [hx.presence, hw.presence, hv.rx, hv.presence]
  refine ⟨hall.addr.trans hv.addr, hall.rx, hpresence, ?_, fun hs => ?_, fun hs => ?_⟩
  · exact IsTrans.trans _ _ _ hv.store hall.store
  · have hvs := hv.faithful hs
    exact hall.faithful ⟨hvs.idle, hvs.channels, hvs.presence⟩
  · rcases hs with hs | hmem
    · exact hall.settled (hv.settled hs)
    · exact hx.settled (hgroups (hv.rx ▸ hmem))

end Sessions

end SmsIrc.ContactSessions
