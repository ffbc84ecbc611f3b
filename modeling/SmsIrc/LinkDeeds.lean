import SmsIrc.LinkSteady
import SmsIrc.MessageTexts

/-!
What a link does about the stored messages: one deed for a row, and the deeds of
a run of `process_messages` in order.
-/

namespace SmsIrc.LinkDeeds

open SmsIrc.ContactCommon SmsIrc.Database SmsIrc.External SmsIrc.Fragments SmsIrc.HashMaps
open SmsIrc.Link SmsIrc.LinkGhosts SmsIrc.LinkSteady SmsIrc.MessageTexts SmsIrc.Models
open SmsIrc.Program SmsIrc.SenderCommon SmsIrc.SenderRuns SmsIrc.Text SmsIrc.Util

section Deeds

/-- A text is cut into its lines, and these into pieces that are short enough. -/
def pieces (text : Str) : List Str := (lines text).flatMap (cut [])

/-- The calls for a text that is handed on. -/
def sendCalls (nick text : Str) (target : Option Nat) (dest : Str) : List SenderCall :=
  .sendRawMessage nick text target :: (pieces text).map (.sendIrcMessage nick dest)

def deletions (rows : List Message) : List SenderCall := rows.map fun m => .deleteMessage m.id

/-- What is done about a row: its text is sent, or that of the message it is a
part of, or it is reported to be indecipherable. -/
inductive Deed where
  | alone (nick text dest : Str) (row : Message)
  | joined (nick text dest : Str) (target : Option Nat) (parts : List Message)
  | reported (nick err : Str)

def Deed.nick : Deed → Str
  | alone nick _ _ _ => nick
  | joined nick _ _ _ _ => nick
  | reported nick _ => nick

/-- The rows whose text is sent, all of which are deleted. -/
def Deed.rows : Deed → List Message
  | alone _ _ _ row => [row]
  | joined _ _ _ _ parts => parts
  | reported _ _ => []

def Deed.calls : Deed → List SenderCall
  | alone nick text dest row => sendCalls nick text row.groupTarget dest ++ deletions [row]
  | joined nick text dest target parts => sendCalls nick text target dest ++ deletions parts
  | reported nick err => [.reportError nick err]

variable [Crates]

/-- The deed is the one for a row, in a state. -/
def Meant (l : InspLink) (msg : Message) : Deed → Prop
  | .alone _ text _ row => row = msg ∧ OwnText l.now msg text
  | .joined _ text _ target parts => target = msg.groupTarget ∧
      ∃ d cd, decodePart msg = .ok d ∧ concatenation d = some cd ∧
        parts.Perm (concatenatedRows l.store msg.phoneNumber cd.reference.toNat) ∧
        parts.length = cd.parts.toNat ∧ joinParts parts = .ok text
  | .reported _ _ => ∃ e, decodePart msg = .error e

/-- The nick is the UUID of the ghost of a row's address. -/
def FromGhost (l : InspLink) (msg : Message) (nick : Str) : Prop :=
  ∃ a ct, unNormalizeAddress msg.phoneNumber = some a ∧ l.contacts.lookup a = some ct ∧
    ct.uuid = nick

/-- The channel of the group that is the target, or else the admin, or the log channel if
there is none. -/
def GoesTo (l : InspLink) : Option Nat → Str → Prop
  | some g, dest => ∃ grp ∈ l.store.groups.rows, grp.id = g ∧ grp.channel = dest
  | none, dest => IsAdmin l dest ∨ dest = l.cfg.logChan ∧ ∀ u, ¬ IsAdmin l u

def Deed.To (l : InspLink) : Deed → Prop
  | alone _ _ dest row => GoesTo l row.groupTarget dest
  | joined _ _ dest target _ => GoesTo l target dest
  | reported _ _ => True

/-- Where a deed goes is settled while a step is under way. -/
def SentIn (s t : InspLink) (d : Deed) : Prop := ∃ w, Steady s w ∧ Steady w t ∧ d.To w

/-- Nothing is done about a row: it has neither a contact nor a recipient, or not
all parts of its message are there. -/
def Skipped (l : InspLink) (msg : Message) : Prop :=
  (∃ a, unNormalizeAddress msg.phoneNumber = some a ∧ l.contacts.lookup a = none ∧
    ¬ HasRecipient l.store a) ∨
  ∃ d cd, decodePart msg = .ok d ∧ concatenation d = some cd ∧
    (concatenatedRows l.store msg.phoneNumber cd.reference.toNat).length ≠ cd.parts.toNat

/-- Exactly some of the stored rows are deleted. -/
structure Taken (rows : List Message) (s t : InspLink) : Prop where
  steady : Steady s t
  left : t.store.messages.rows = s.store.messages.rows.filter fun m => m ∉ rows
  nodup : rows.Nodup
  stored : ∀ m ∈ rows, m ∈ s.store.messages.rows

/-- The step consists of some deeds. -/
structure Did (ds : List Deed) (s t : InspLink) : Prop
    extends Taken (ds.flatMap Deed.rows) s t where
  calls : t.calls = s.calls ++ ds.flatMap Deed.calls

/-- The step was interrupted while it did the last of some deeds. -/
def Stopped (ds : List Deed) (s t : InspLink) : Prop :=
  ∃ made, made <+: ds.flatMap Deed.calls ∧ t.calls = s.calls ++ made

theorem Taken.append {xs ys : List Message} {s t u : InspLink} (hx : Taken xs s t)
    (hy : Taken ys t u) : Taken (xs ++ ys) s u where
  steady := steady_trans hx.steady hy.steady
  left := by
    rw [hy.left, hx.left, List.filter_filter]
    refine List.filter_congr fun m _ => ?_
    simp only [List.mem_append, not_or, Bool.decide_and, Bool.and_comm]
  nodup := by
    refine List.nodup_append.mpr ⟨hx.nodup, hy.nodup, ?_⟩
    rintro m hm _ hm' rfl
    have hleft := hy.stored m hm'
    rw [hx.left] at hleft
    simpa [hm] using (List.mem_filter.mp hleft).2
  stored m hm := by
    rcases List.mem_append.mp hm with hm | hm
    · exact hx.stored m hm
    · have hleft := hy.stored m hm
      rw [hx.left] at hleft
      exact List.mem_of_mem_filter hleft

theorem taken_of_aside {s t : InspLink} (h : Aside s t) : Taken [] s t :=
  ⟨h.toSteady, by simp [h.messages], List.nodup_nil, by simp⟩

theorem did_of_idle {s t : InspLink} (h : Idle s t) : Did [] s t :=
  ⟨taken_of_aside h.toAside, by simp [h.calls]⟩

theorem Did.append {ds es : List Deed} {s t u : InspLink} (hd : Did ds s t)
    (he : Did es t u) : Did (ds ++ es) s u where
  toTaken := by
    rw [List.flatMap_append]
    exact hd.toTaken.append he.toTaken
  calls := by rw [he.calls, hd.calls, List.flatMap_append, List.append_assoc]

theorem Did.stopped {ds es : List Deed} {s t u : InspLink} (hd : Did ds s t)
    (he : Stopped es t u) : Stopped (ds ++ es) s u := by
  obtain ⟨made, hmade, hcalls⟩ := he
  refine ⟨ds.flatMap Deed.calls ++ made, ?_, ?_⟩
  · rw [List.flatMap_append]
    exact (List.prefix_append_right_inj _).mpr hmade
  · rw [hcalls, hd.calls, List.append_assoc]

instance : HasCalls InspLink := ⟨InspLink.calls⟩

theorem sameCalls_of_idle {α : Type} {p : LinkM α} (h : Moves Idle p) :
    Moves (SameCalls (σ := InspLink)) p := h.mono fun _ _ hst => hst.calls

theorem idle_privateTarget : Moves Idle (Sender.privateTarget : LinkM Str) :=
  Steps.bind steps_get fun _ => steps_pure _

theorem idle_ensureJoined (ch : Str) : Moves Idle (Sender.ensureJoined ch : LinkM Unit) := by
  refine Steps.bind steps_get fun l => ?_
  split
  · cases adminUuid l with
    | some admu => exact Steps.bind steps_get fun _ => idle_push _ _ _ _
    | none => exact steps_pure _
  · exact steps_pure _

instance : Observed InspLink where
  setStore_calls _ _ := rfl
  record_calls _ _ := ⟨_, rfl, rfl⟩
  reportError_calls _ _ :=
    sameCalls_of_idle (Steps.bind steps_get fun _ => idle_contactMessage _ _ _ _)
  privateTarget_calls := sameCalls_of_idle idle_privateTarget
  sendIrcMessage_calls _ _ _ := sameCalls_of_idle (idle_contactMessage _ _ _ _)
  ensureJoined_calls ch := sameCalls_of_idle (idle_ensureJoined ch)
  utcNow_calls := sameCalls_of_idle (Steps.bind steps_get fun _ => steps_pure _)

theorem aside_record (c : SenderCall) : Moves Aside (Sender.record c : LinkM Unit) :=
  steps_modify fun _ =>
    ⟨⟨rfl, rfl, rfl, fun _ h => h, fun _ ct h => ⟨ct, h, rfl⟩, fun _ h => h, le_rfl,
      fun _ h => .inl h⟩, rfl⟩

theorem sendSteps_aside : SendSteps InspLink Aside fun _ => True where
  record := aside_record
  getGroupById g := by
    intro l
    have htick : Idle l { l with store := l.store.tick } := idle_store rfl rfl fun _ h => h
    rw [wp_store, getGroupById, wp_bind]
    apply wp_query_of ⟨htick.toAside, trivial⟩
    cases l.store.tick.groups.rows.find? fun grp => grp.id = g with
    | some grp => exact htick.toAside
    | none => exact ⟨htick.toAside, trivial⟩
  privateTarget := idle_privateTarget.mono fun _ _ h => h.toAside
  sendIrcMessage _ _ _ := (idle_contactMessage _ _ _ _).mono fun _ _ h => h.toAside
  ensureJoined ch := (idle_ensureJoined ch).mono fun _ _ h => h.toAside

theorem isAdmin_of_adminUuid {l : InspLink} {u : Str} (h : adminUuid l = some u) :
    IsAdmin l u := by
  obtain ⟨⟨u', user⟩, hfind, rfl⟩ := Option.map_eq_some_iff.mp h
  refine ⟨user, mem_pairs.mp ?_, by simpa using List.find?_some hfind⟩
  exact Crates.hashOrder.mem_run.mp (List.mem_of_find?_eq_some hfind)

theorem adminUuid_of_isAdmin {l : InspLink} {u : Str} (h : IsAdmin l u) :
    ∃ v, adminUuid l = some v := by
  obtain ⟨user, huser, hnick⟩ := h
  have hmem : (u, user) ∈ userList l := Crates.hashOrder.mem_run.mpr (mem_pairs.mpr huser)
  have hfind : ((userList l).find? fun u => u.2.nick = l.cfg.adminNick).isSome :=
    List.find?_isSome.mpr ⟨_, hmem, by simpa using hnick⟩
  obtain ⟨found, hfound⟩ := Option.isSome_iff_exists.mp hfind
  exact ⟨found.1, by rw [adminUuid, hfound, Option.map_some]⟩

theorem wp_destination (gt : Option Nat) (l : InspLink) :
    wp (destination gt) (fun dest _ => GoesTo l gt dest) (fun _ _ => True) l := by
  cases gt with
  | none =>
      change GoesTo l none ((adminUuid l).getD l.cfg.logChan)
      cases hu : adminUuid l with
      | some u => exact .inl (isAdmin_of_adminUuid hu)
      | none =>
          refine .inr ⟨rfl, fun u hadmin => ?_⟩
          obtain ⟨v, hv⟩ := adminUuid_of_isAdmin hadmin
          rw [hu] at hv
          cases hv
  | some g =>
      rw [destination, wp_bind, wp_store, getGroupById, wp_bind]
      apply wp_query_of trivial
      cases hg : l.store.tick.groups.rows.find? fun grp => grp.id = g with
      | none => trivial
      | some grp =>
          rw [wp_pure, wp_bind]
          refine wp_mono (idle_ensureJoined grp.channel _) ?_ fun _ _ _ => trivial
          intro _ t _
          exact ⟨grp, List.mem_of_find?_eq_some hg, by simpa using List.find?_some hg, rfl⟩

omit [Crates] in
theorem pieces_eq (text : Str) : pieces text = (lines text).flatMap chunks :=
  List.flatMap_congr fun line _ => (chunks_eq_cut line).symm

theorem wp_sendText (nick text : Str) (gt : Option Nat) (l : InspLink) :
    wp (sendRawMessage nick text gt)
      (fun _ t => Aside l t ∧ ∃ dest, GoesTo l gt dest ∧
        t.calls = l.calls ++ sendCalls nick text gt dest)
      (fun _ t => ∃ dest made, made <+: sendCalls nick text gt dest ∧
        t.calls = l.calls ++ made) l := by
  have hcalls := wp_sendRawMessage_to nick text
    (wp_destination gt { l with calls := l.calls ++ [.sendRawMessage nick text gt] })
  refine wp_mono (wp_and (sendSteps_aside.sendRawMessage nick text gt l) hcalls) ?_ ?_
  · rintro _ t ⟨ht, dest, hdest, hmade⟩
    refine ⟨ht, dest, ?_, ?_⟩
    · cases gt <;> exact hdest
    · rw [sendCalls, pieces_eq]
      exact hmade
  · rintro _ t ⟨_, dest, sent, hsent, hmade⟩
    rw [← pieces_eq] at hsent
    exact ⟨dest, _, List.prefix_cons_inj _ |>.mpr (hsent.map _), hmade⟩

theorem wp_removeMessage {m : Message} {l : InspLink}
    (hm : ∀ r ∈ l.store.messages.rows, r.id = m.id → r = m) :
    wp (removeMessage m.id)
      (fun _ t => Taken [m] l t ∧ t.calls = l.calls ++ deletions [m])
      (fun _ t => t.calls = l.calls ++ deletions [m]) l := by
  rw [removeMessage, wp_bind]
  change wp (store (deleteMessage m.id) : LinkM Unit) _ _
    { l with calls := l.calls ++ [.deleteMessage m.id] }
  rw [wp_store, deleteMessage, wp_bind]
  apply wp_query_of rfl
  split
  · rename_i hpresent
    obtain ⟨r, hr, hid⟩ := List.any_eq_true.mp hpresent
    have hrm := hm r hr (by simpa using hid)
    refine ⟨⟨?_, ?_, List.nodup_singleton m, ?_⟩, rfl⟩
    · exact ⟨rfl, rfl, rfl, fun _ h => h, fun _ ct h => ⟨ct, h, rfl⟩, fun _ h => h, le_rfl,
        fun _ h => .inl h⟩
    · refine List.filter_congr fun q hq => ?_
      rw [decide_eq_decide, List.mem_singleton]
      exact not_congr ⟨hm q hq, fun h => h ▸ rfl⟩
    · intro q hq
      rw [List.mem_singleton.mp hq, ← hrm]
      exact hr
  · rfl

theorem wp_removeMessages {rows : List Message} {l : InspLink}
    (hrows : ∀ m ∈ rows, ∀ r ∈ l.store.messages.rows, r.id = m.id → r = m) :
    wp (forM rows fun m => removeMessage m.id)
      (fun _ t => Taken rows l t ∧ t.calls = l.calls ++ deletions rows)
      (fun _ t => ∃ made, made <+: deletions rows ∧ t.calls = l.calls ++ made) l := by
  induction rows generalizing l with
  | nil => exact ⟨taken_of_aside (idle_refl l).toAside, by simp [deletions]⟩
  | cons m rows ih =>
      rw [List.forM_cons, wp_bind]
      refine wp_mono (wp_removeMessage (hrows m (by simp))) ?_ ?_
      · rintro _ t ⟨htaken, hcalls⟩
        refine wp_mono (ih fun q hq r hr => ?_) ?_ ?_
        · rw [htaken.left] at hr
          exact hrows q (by simp [hq]) r (List.mem_of_mem_filter hr)
        · rintro _ u ⟨hu, hcalls'⟩
          exact ⟨htaken.append hu, by rw [hcalls', hcalls]; simp [deletions]⟩
        · rintro _ u ⟨made, hmade, hcalls'⟩
          refine ⟨deletions [m] ++ made, ?_, by rw [hcalls', hcalls, List.append_assoc]⟩
          exact (List.prefix_cons_inj (.deleteMessage m.id)).mpr hmade
      · intro _ t ht
        exact ⟨deletions [m], List.prefix_cons_inj _ |>.mpr List.nil_prefix, ht⟩

theorem sentIn_start {s t : InspLink} (hst : Steady s t) {d : Deed} (h : d.To s) :
    SentIn s t d := ⟨s, steady_refl s, hst, h⟩

/-- A text is handed on, and then the rows that it was made of are deleted. -/
theorem wp_send_then {nick text : Str} {gt : Option Nat} (rows : List Message)
    {rest : LinkM Unit} {l : InspLink}
    (hrest : ∀ t, Aside l t → wp rest
      (fun _ u => Taken rows t u ∧ u.calls = t.calls ++ deletions rows)
      (fun _ u => ∃ made, made <+: deletions rows ∧ u.calls = t.calls ++ made) t) :
    wp (do
        sendRawMessage nick text gt
        rest)
      (fun _ t => ∃ dest, GoesTo l gt dest ∧ Taken rows l t ∧
        t.calls = l.calls ++ (sendCalls nick text gt dest ++ deletions rows))
      (fun _ t => ∃ dest made, made <+: sendCalls nick text gt dest ++ deletions rows ∧
        t.calls = l.calls ++ made) l := by
  rw [wp_bind]
  refine wp_mono (wp_sendText nick text gt l) ?_ ?_
  · rintro _ t ⟨ht, dest, hdest, hcalls⟩
    refine wp_mono (hrest t ht) ?_ ?_
    · rintro _ u ⟨hu, hcalls'⟩
      refine ⟨dest, hdest, ?_, by rw [hcalls', hcalls, List.append_assoc]⟩
      have := (taken_of_aside ht).append hu
      rwa [List.nil_append] at this
    · rintro _ u ⟨made, hmade, hcalls'⟩
      refine ⟨dest, _, (List.prefix_append_right_inj _).mpr hmade, ?_⟩
      rw [hcalls', hcalls, List.append_assoc]
  · rintro _ t ⟨dest, made, hmade, hcalls⟩
    exact ⟨dest, made, hmade.trans (List.prefix_append _ _), hcalls⟩

/-- A row has been dealt with. -/
def Handled (msg : Message) (s t : InspLink) (ds : List Deed) : Prop :=
  Did ds s t ∧
    ((∃ d, ds = [d] ∧ Meant s msg d ∧ FromGhost t msg d.nick ∧ SentIn s t d) ∨
      ds = [] ∧ Skipped s msg)

/-- Dealing with a row has been interrupted. -/
def Interrupted (msg : Message) (s t : InspLink) : Prop :=
  ∃ ds, ds.length ≤ 1 ∧ (∀ d ∈ ds, Meant s msg d) ∧ Stopped ds s t

theorem interrupted_of_idle {msg : Message} {s t : InspLink} (h : Idle s t) :
    Interrupted msg s t :=
  ⟨[], by simp, by simp, [], List.nil_prefix, by simp [h.calls]⟩

theorem wp_sendAlone {l : InspLink} {msg : Message} {nick text : Str}
    (htext : OwnText l.now msg text)
    (hmsg : ∀ r ∈ l.store.messages.rows, r.id = msg.id → r = msg) :
    wp (do
        sendRawMessage nick text msg.groupTarget
        removeMessage msg.id)
      (fun _ t => ∃ d : Deed, Did [d] l t ∧ Meant l msg d ∧ d.nick = nick ∧ SentIn l t d)
      (fun _ t => Interrupted msg l t) l := by
  refine wp_mono (wp_send_then [msg] fun t ht => ?_) ?_ ?_
  · refine wp_mono (wp_removeMessage fun r hr => ?_) (fun _ _ h => h)
      fun _ _ h => ⟨_, List.prefix_rfl, h⟩
    rw [ht.messages] at hr
    exact hmsg r hr
  · rintro _ t ⟨dest, hdest, htaken, hcalls⟩
    refine ⟨.alone nick text dest msg, ⟨?_, ?_⟩, ⟨rfl, htext⟩, rfl,
      sentIn_start htaken.steady hdest⟩
    · simpa [Deed.rows] using htaken
    · simpa [Deed.calls] using hcalls
  · rintro _ t ⟨dest, made, hmade, hcalls⟩
    refine ⟨[.alone nick text dest msg], le_rfl, ?_, made, ?_, hcalls⟩
    · intro d hd
      rw [List.mem_singleton.mp hd]
      exact ⟨rfl, htext⟩
    · simpa [Deed.calls] using hmade

theorem wp_processMsgPlain {l : InspLink} {msg : Message} {nick : Str}
    (hpdu : msg.pdu = none) (hmsg : ∀ r ∈ l.store.messages.rows, r.id = msg.id → r = msg) :
    wp (processMsgPlain nick msg)
      (fun _ t => ∃ d : Deed, Did [d] l t ∧ Meant l msg d ∧ d.nick = nick ∧ SentIn l t d)
      (fun _ t => Interrupted msg l t) l := by
  rw [processMsgPlain, wp_bind]
  cases htext : msg.text with
  | none => exact interrupted_of_idle (idle_refl l)
  | some body =>
      rw [wp_unwrap_some, wp_bind]
      exact wp_sendAlone (.plain hpdu htext (shown_renderPlain _ _ _)) hmsg

theorem concatenatedRows_id {st : Store} {num : Str} {rf : Nat} {m r : Message}
    (hm : m ∈ concatenatedRows st num rf) (hr : r ∈ st.messages.rows) (hid : r.id = m.id) :
    r = m :=
  st.messages.eq_of_key_eq hr (List.mem_of_mem_filter hm) hid

theorem wp_sendJoined {l : InspLink} {msg : Message} {nick text : Str} {parts : List Message}
    (hmeant : ∀ dest, Meant l msg (.joined nick text dest msg.groupTarget parts))
    (hparts : ∀ m ∈ parts, ∀ r ∈ l.store.messages.rows, r.id = m.id → r = m) :
    wp (do
        sendRawMessage nick text msg.groupTarget
        forM parts fun m => removeMessage m.id)
      (fun _ t => ∃ d : Deed, Did [d] l t ∧ Meant l msg d ∧ d.nick = nick ∧ SentIn l t d)
      (fun _ t => Interrupted msg l t) l := by
  refine wp_mono (wp_send_then parts fun t ht => ?_) ?_ ?_
  · refine wp_removeMessages fun m hm r hr hid => ?_
    rw [ht.messages] at hr
    exact hparts m hm r hr hid
  · rintro _ t ⟨dest, hdest, htaken, hcalls⟩
    refine ⟨.joined nick text dest msg.groupTarget parts, ⟨?_, ?_⟩, hmeant dest, rfl,
      sentIn_start htaken.steady hdest⟩
    · simpa [Deed.rows] using htaken
    · simpa [Deed.calls] using hcalls
  · rintro _ t ⟨dest, made, hmade, hcalls⟩
    refine ⟨[.joined nick text dest msg.groupTarget parts], le_rfl, ?_, made, ?_, hcalls⟩
    · intro d hd
      rw [List.mem_singleton.mp hd]
      exact hmeant dest
    · simpa [Deed.calls] using hmade

theorem SentIn.mono {s s' t t' : InspLink} {d : Deed} (hs : Steady s' s) (ht : Steady t t')
    (h : SentIn s t d) : SentIn s' t' d := by
  obtain ⟨w, hsw, hwt, hto⟩ := h
  exact ⟨w, steady_trans hs hsw, steady_trans hwt ht, hto⟩

theorem did_of_did_idle {d : Deed} {s t u : InspLink} (hst : Idle s t) (hd : Did [d] t u) :
    Did [d] s u := (did_of_idle hst).append hd

theorem wp_reportUndecodable {l : InspLink} {msg : Message} {nick e : Str} (err : Str)
    (herr : decodePart msg = .error (.error e)) :
    wp (do
        Sender.record (.reportError nick err)
        Sender.reportError nick err : LinkM Unit)
      (fun _ t => ∃ d : Deed, Did [d] l t ∧ Meant l msg d ∧ d.nick = nick ∧ SentIn l t d)
      (fun _ t => Interrupted msg l t) l := by
  have hmeant : Meant l msg (.reported nick err) := ⟨_, herr⟩
  have hreport : Moves Idle (Sender.reportError nick err : LinkM Unit) :=
    Steps.bind steps_get fun _ => idle_contactMessage _ _ _ _
  rw [wp_bind]
  change wp _ _ _ { l with calls := l.calls ++ [SenderCall.reportError nick err] }
  refine wp_mono (hreport { l with calls := l.calls ++ [.reportError nick err] }) ?_ ?_
  · intro _ t ht
    have hsteady : Steady l t := steady_trans (aside_record _ l).toSteady ht.toSteady
    exact ⟨.reported nick err, ⟨taken_of_aside ⟨hsteady, ht.messages⟩, ht.calls⟩, hmeant, rfl,
      t, hsteady, steady_refl t, trivial⟩
  · rintro _ t ⟨ht, _⟩
    exact ⟨[.reported nick err], le_rfl, by simp [hmeant], _, List.prefix_rfl, ht.calls⟩

theorem wp_processPart {l : InspLink} {msg : Message} {nick : Str} {d : DecodedMessage}
    {cd : ConcatenatedSmsData} (hok : decodePart msg = .ok d) (hcd : concatenation d = some cd) :
    wp (do
        let msgs ← store (getAllConcatenated msg.phoneNumber cd.reference.toNat)
        if msgs.length ≠ cd.parts.toNat then pure ()
        else do
          let concatenated ← liftResult (joinParts msgs)
          sendRawMessage nick concatenated msg.groupTarget
          forM msgs fun m => removeMessage m.id : LinkM Unit)
      (fun _ t => (∃ d : Deed, Did [d] l t ∧ Meant l msg d ∧ d.nick = nick ∧ SentIn l t d) ∨
        Idle l t ∧ Skipped l msg)
      (fun _ t => Interrupted msg l t) l := by
  have htick : Idle l { l with store := l.store.tick } := idle_store rfl rfl fun _ h => h
  rw [wp_bind, wp_store]
  apply wp_query_of (interrupted_of_idle htick)
  generalize hparts : Crates.scanOrder.run
    (concatenatedRows l.store.tick msg.phoneNumber cd.reference.toNat) = parts
  have hperm : parts.Perm (concatenatedRows l.store msg.phoneNumber cd.reference.toNat) :=
    hparts ▸ Crates.scanOrder.perm _
  split
  · rename_i hne
    refine .inr ⟨htick, .inr ⟨d, cd, hok, hcd, ?_⟩⟩
    rwa [← hperm.length_eq]
  · rename_i hlen
    rw [not_not] at hlen
    cases hjoin : joinParts parts with
    | error e => exact interrupted_of_idle htick
    | ok text =>
        rw [wp_bind, liftResult, wp_pure]
        refine wp_mono (wp_sendJoined (l := { l with store := l.store.tick })
          (fun _ => ⟨rfl, d, cd, hok, hcd, hperm, hlen, hjoin⟩)
          fun m hm r hr hid => concatenatedRows_id (hperm.subset hm) hr hid) ?_ ?_
        · rintro _ t ⟨d, hd, hmeant, hnick, hto⟩
          refine .inl ⟨d, did_of_did_idle htick hd, ?_, hnick,
            hto.mono htick.toSteady (steady_refl t)⟩
          cases d <;> exact hmeant
        · rintro _ t ⟨ds, hlen, hds, hstop⟩
          refine ⟨ds, hlen, fun d hd => ?_, (did_of_idle htick).stopped hstop⟩
          cases d <;> exact hds _ hd

theorem wp_processMsgPdu {l : InspLink} {msg : Message} {nick : Str} {raw : List UInt8}
    {pdu : DeliverPdu} (hraw : msg.pdu = some raw) (hpdu : Crates.deliverPduTryFrom raw = .ok pdu)
    (hmsg : ∀ r ∈ l.store.messages.rows, r.id = msg.id → r = msg) :
    wp (processMsgPdu nick msg pdu)
      (fun _ t => (∃ d : Deed, Did [d] l t ∧ Meant l msg d ∧ d.nick = nick ∧ SentIn l t d) ∨
        Idle l t ∧ Skipped l msg)
      (fun _ t => Interrupted msg l t) l := by
  unfold processMsgPdu
  cases hdec : pdu.decodeMessage with
  | error e =>
      have herr : decodePart msg = .error (.error e) := by
        unfold decodePart
        simp only [hraw, hpdu, hdec]
      exact wp_mono (wp_reportUndecodable _ herr) (fun _ _ h => .inl h) fun _ _ h => h
  | ok d =>
      have hok : decodePart msg = .ok d := by
        unfold decodePart
        simp only [hraw, hpdu, hdec]
      dsimp only
      cases hcd : concatenation d with
      | none =>
          have htext : OwnText l.now msg d.text := by
            refine .sms ⟨raw, hraw, pdu, hpdu, hdec⟩ fun cd hnumbered => ?_
            rw [numbered_iff, hcd] at hnumbered
            cases hnumbered
          exact wp_mono (wp_sendAlone htext hmsg) (fun _ _ h => .inl h) fun _ _ h => h
      | some cd => exact wp_processPart hok hcd

theorem meant_of_idle {msg : Message} {s t : InspLink} (hst : Idle s t) {d : Deed}
    (h : Meant t msg d) : Meant s msg d := by
  cases d with
  | alone nick text dest row =>
      refine ⟨h.1, ?_⟩
      rw [← hst.now]
      exact h.2
  | joined nick text dest target parts =>
      obtain ⟨htarget, d, cd, hok, hcd, hperm, hrest⟩ := h
      refine ⟨htarget, d, cd, hok, hcd, ?_, hrest⟩
      rw [concatenatedRows, ← hst.messages]
      exact hperm
  | reported nick err => exact h

theorem fromGhost_of_steady {s t : InspLink} (hst : Steady s t) {msg : Message} {nick : Str}
    (h : FromGhost s msg nick) : FromGhost t msg nick := by
  obtain ⟨a, ct, ha, hct, hnick⟩ := h
  obtain ⟨ct', hct', huuid⟩ := hst.contacts a ct hct
  exact ⟨a, ct', ha, hct', huuid.trans hnick⟩

theorem handled_of_idle {msg : Message} {s t u : InspLink} {ct : InspContact} {a : PduAddress}
    (ha : unNormalizeAddress msg.phoneNumber = some a) (hct : t.contacts.lookup a = some ct)
    (hst : Idle s t) {d : Deed} (hd : Did [d] t u) (hmeant : Meant t msg d)
    (hnick : d.nick = ct.uuid) (hto : SentIn t u d) : Handled msg s u [d] := by
  refine ⟨did_of_did_idle hst hd, .inl ⟨d, rfl, meant_of_idle hst hmeant, ?_, ?_⟩⟩
  · exact fromGhost_of_steady hd.steady ⟨a, ct, ha, hct, hnick.symm⟩
  · exact hto.mono hst.toSteady (steady_refl u)

theorem interrupted_after {msg : Message} {s t u : InspLink} (hst : Idle s t)
    (h : Interrupted msg t u) : Interrupted msg s u := by
  obtain ⟨ds, hlen, hds, hstop⟩ := h
  exact ⟨ds, hlen, fun d hd => meant_of_idle hst (hds d hd), (did_of_idle hst).stopped hstop⟩

theorem skipped_of_idle {msg : Message} {s t : InspLink} (hst : Idle s t) {a : PduAddress}
    (hsome : unNormalizeAddress msg.phoneNumber = some a) {ct : InspContact}
    (hct : t.contacts.lookup a = some ct) (h : Skipped t msg) : Skipped s msg := by
  rcases h with ⟨b, hb, habsent, _⟩ | ⟨d, cd, hok, hcd, hlen⟩
  · rw [hsome] at hb
    cases hb
    rw [hct] at habsent
    cases habsent
  · refine .inr ⟨d, cd, hok, hcd, ?_⟩
    rw [concatenatedRows, ← hst.messages]
    exact hlen

theorem wp_processMessage_deed {l : InspLink} {auid : Str} {msg : Message}
    (hmsg : ∀ r ∈ l.store.messages.rows, r.id = msg.id → r = msg) :
    wp (processMessage auid msg) (fun _ t => ∃ ds, Handled msg l t ds)
      (fun _ t => Interrupted msg l t) l := by
  rw [processMessage, Message.getAddr, Models.getAddr, wp_bind]
  cases ha : unNormalizeAddress msg.phoneNumber with
  | none => exact interrupted_of_idle (idle_refl l)
  | some a =>
      rw [wp_pure, wp_bind]
      refine wp_mono (wp_contactReady_idle a msg.source l) ?_ fun _ _ h => interrupted_of_idle h
      rintro ready t ⟨ht, hready⟩
      rw [wp_when]
      split
      swap
      · rename_i hr
        exact ⟨[], did_of_idle ht, .inr ⟨rfl, .inl ⟨a, ha, hready (by simpa using hr)⟩⟩⟩
      rw [wp_bind, wp_get, wp_bind]
      cases hct : t.contacts.lookup a with
      | none => exact interrupted_of_idle ht
      | some ct =>
          rw [wp_unwrap_some]
          have hrows : ∀ u, Idle t u → ∀ r ∈ u.store.messages.rows, r.id = msg.id → r = msg := by
            intro u hu r hr
            rw [(idle_trans ht hu).messages] at hr
            exact hmsg r hr
          have hdone : ∀ u v, Idle t u →
              (∃ d : Deed, Did [d] u v ∧ Meant u msg d ∧ d.nick = ct.uuid ∧ SentIn u v d) →
              ∃ ds, Handled msg l v ds := by
            rintro u v hu ⟨d, hd, hmeant, hnick, hto⟩
            obtain ⟨ct', hct', huuid⟩ := hu.contacts a ct hct
            exact ⟨[d], handled_of_idle ha hct' (idle_trans ht hu) hd hmeant
              (hnick.trans huuid.symm) hto⟩
          cases hraw : msg.pdu with
          | none =>
              dsimp only
              rw [wp_bind]
              refine wp_mono (idle_switchMode a auid ct true t) ?_
                fun _ _ h => interrupted_of_idle (idle_trans ht h.1)
              intro _ u hu
              exact wp_mono (wp_processMsgPlain hraw (hrows u hu)) (fun _ v h => hdone u v hu h)
                fun _ _ h => interrupted_after (idle_trans ht hu) h
          | some raw =>
              dsimp only
              cases hpdu : Crates.deliverPduTryFrom raw with
              | error e => exact interrupted_of_idle ht
              | ok pdu =>
                  dsimp only
                  rw [wp_bind]
                  refine wp_mono (idle_switchMode a auid ct false t) ?_
                    fun _ _ h => interrupted_of_idle (idle_trans ht h.1)
                  intro _ u hu
                  refine wp_mono (wp_processMsgPdu hraw hpdu (hrows u hu)) ?_
                    fun _ _ h => interrupted_after (idle_trans ht hu) h
                  rintro _ v (h | ⟨hv, hskip⟩)
                  · exact hdone u v hu h
                  · obtain ⟨ct', hct', _⟩ := hu.contacts a ct hct
                    exact ⟨[], did_of_idle (idle_trans (idle_trans ht hu) hv),
                      .inr ⟨rfl, skipped_of_idle (idle_trans ht hu) ha hct' hskip⟩⟩

/-- The rows of a list are dealt with one after the other. -/
inductive Processed : List Message → InspLink → InspLink → List Deed → Prop where
  | nil (l : InspLink) : Processed [] l l []
  | cons {msg : Message} {msgs : List Message} {s t u : InspLink} {ds es : List Deed}
      (hrow : Handled msg s t ds) (hrest : Processed msgs t u es) :
      Processed (msg :: msgs) s u (ds ++ es)

theorem Processed.did {msgs : List Message} {s t : InspLink} {ds : List Deed}
    (h : Processed msgs s t ds) : Did ds s t := by
  induction h with
  | nil l => exact did_of_idle (idle_refl l)
  | cons hrow _ ih => exact hrow.1.append ih

/-- Dealing with the rows of a list has been interrupted. -/
def InterruptedIn (msgs : List Message) (s t : InspLink) : Prop :=
  ∃ done msg rest, msgs = done ++ msg :: rest ∧
    ∃ u ds, Processed done s u ds ∧ Interrupted msg u t

theorem wp_processRows {auid : Str} {msgs : List Message} {l : InspLink}
    (hmsgs : ∀ m ∈ msgs, ∀ r ∈ l.store.messages.rows, r.id = m.id → r = m) :
    wp (forM msgs (processMessage auid)) (fun _ t => ∃ ds, Processed msgs l t ds)
      (fun _ t => InterruptedIn msgs l t) l := by
  induction msgs generalizing l with
  | nil => exact ⟨[], .nil l⟩
  | cons msg msgs ih =>
      rw [List.forM_cons, wp_bind]
      refine wp_mono (wp_processMessage_deed (hmsgs msg (by simp))) ?_ ?_
      · rintro _ t ⟨ds, hrow⟩
        refine wp_mono (ih fun m hm r hr => ?_) ?_ ?_
        · rw [hrow.1.left] at hr
          exact hmsgs m (by simp [hm]) r (List.mem_of_mem_filter hr)
        · rintro _ u ⟨es, hrest⟩
          exact ⟨ds ++ es, .cons hrow hrest⟩
        · rintro _ u ⟨done, m, rest, hsplit, v, es, hdone, hm⟩
          exact ⟨msg :: done, m, rest, by rw [hsplit, List.cons_append], v, ds ++ es,
            .cons hrow hdone, hm⟩
      · intro _ t ht
        exact ⟨[], msg, msgs, rfl, l, [], .nil l, ht⟩

/-- The rows in the order in which they are processed. -/
def snapshot (l : InspLink) : List Message := l.store.messages.rows.insertionSort sentBefore

theorem mem_snapshot {l : InspLink} {m : Message} :
    m ∈ snapshot l ↔ m ∈ l.store.messages.rows :=
  (List.perm_insertionSort sentBefore _).mem_iff

/-- A run of `process_messages`: nothing, while the admin is offline, or else a
pass over the stored rows. -/
theorem wp_processMessages_deeds (l : InspLink) :
    wp processMessages
      (fun _ t => adminUuid l = none ∧ t = l ∨
        (adminUuid l).isSome ∧ ∃ ds, Processed (snapshot l) { l with store := l.store.tick } t ds)
      (fun _ t => InterruptedIn (snapshot l) { l with store := l.store.tick } t ∨
        Idle l t) l := by
  rw [processMessages, wp_bind, wp_get]
  cases adminUuid l with
  | none => exact .inl ⟨rfl, rfl⟩
  | some auid =>
      dsimp only
      rw [wp_bind, wp_store]
      apply wp_query_of (.inr (idle_store rfl rfl fun _ h => h))
      refine wp_mono (wp_processRows fun m hm r hr hid => ?_) (fun _ _ h => .inr ⟨rfl, h⟩)
        fun _ _ h => .inl h
      exact l.store.messages.eq_of_key_eq hr (mem_snapshot.mp hm) hid

end Deeds

end SmsIrc.LinkDeeds
