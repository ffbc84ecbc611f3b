import SmsIrc.WhatsappIncoming

/-!
An incoming message is bridged at most once, if it is not delivered again while
its media are being downloaded: each of its lines is stored in at most one row.
-/

namespace SmsIrc.WhatsappOnce

open SmsIrc.Comm SmsIrc.Database SmsIrc.External SmsIrc.HashMaps SmsIrc.Models SmsIrc.Program
open SmsIrc.SenderCommon SmsIrc.SerialTable SmsIrc.Text SmsIrc.Transition SmsIrc.Util
open SmsIrc.WaAck SmsIrc.WaConn SmsIrc.Whatsapp SmsIrc.WhatsappFrame SmsIrc.WhatsappIncoming
open SmsIrc.WhatsappMsg SmsIrc.WhatsappRuns SmsIrc.WhatsappSays

/-- What of a message is stored: its lines of text, or the line for its media. -/
inductive Part where
  | lines
  | result
deriving DecidableEq

/-- What a step is about: a message, or media that have been downloaded. -/
inductive Source where
  | message (msg : WaMessage)
  | media (r : MediaResult)

def Source.key : Source → Str × Part
  | .message msg => (msg.id, .lines)
  | .media r => (r.mi, .result)

section Once

variable [Crates]

/-- A step that has inserted rows, with the database before and after it. -/
structure Entry where
  source : Source
  before : Store
  after : Store

def Entry.key (b : Entry) : Str × Part := b.source.key

def Entry.rows (b : Entry) : List Message := b.after.messages.rows.drop b.before.messages.rows.length

/-- The rows hold lines of the message or the one line for its media, each of them in at most
one row. -/
def Entry.Single (b : Entry) : Prop :=
  match b.source with
  | .message msg => ∃ group texts, Lines b.before b.after msg.content group msg.quoted texts ∧
      b.rows.map Message.text <+: texts.map some
  | .media r => ∃ text, Fetched r.result text ∧ b.rows.map Message.text <+: [some text]

def inserted (s t : WhatsappManager) : List Message :=
  t.msgproc.store.messages.rows.drop s.msgproc.store.messages.rows.length

def entry (source : Source) (s t : WhatsappManager) : List Entry :=
  if inserted s t = [] then [] else [⟨source, s.msgproc.store, t.msgproc.store⟩]

/-- What an event inserts for the message that it is about. -/
def bridges (s : Session) (t : Session) : Event → List Entry
  | .poll answers =>
      match (s.manager.conn.poll answers).1 with
      | .item (.ok (.message _ msg)) => entry (.message msg) s.manager t.manager
      | _ => []
  | .handle =>
      match s.manager.rx with
      | .mediaFinished r :: _ => entry (.media r) s.manager t.manager
      | _ => []
  | _ => []

/-- What a sequence of events inserts. -/
def bridged : Session → List Event → List Entry
  | _, [] => []
  | s, e :: es =>
      match next s e with
      | some t => bridges s t e ++ bridged t es
      | none => []

/-- The message of a command that a download has sent. -/
def finishedId : WhatsappCommand → Option Str
  | .mediaFinished r => some r.mi
  | _ => none

/-- The messages whose media are being downloaded, or whose download has ended
without that having been dealt with. -/
def outstanding (m : WhatsappManager) : List Str :=
  m.msgproc.downloads.map MediaInfo.mi ++ m.rx.filterMap finishedId

/-- A message is not to be bridged, or it is not delivered while its download is
outstanding. -/
def undisturbed (s : Session) : Event → Bool
  | .poll answers =>
      match (s.manager.conn.poll answers).1 with
      | .item (.ok (.message isNew msg)) =>
          skips s.manager msg isNew || decide (msg.id ∉ outstanding s.manager)
      | _ => true
  | _ => true

def Undisturbed (s : Session) (e : Event) : Prop := undisturbed s e = true

instance (s : Session) (e : Event) : Decidable (Undisturbed s e) :=
  inferInstanceAs (Decidable (_ = _))

/-- Ids are only ever added. -/
def KeepsIds (st st' : Store) : Prop := ∀ id ∈ st.waMsgids, id ∈ st'.waMsgids

instance : IsPreorder Store KeepsIds where
  refl _ _ h := h
  trans _ _ _ h h' id hid := h' id (h id hid)

theorem keepsIds_of_eq {st st' : Store} (h : st'.waMsgids = st.waMsgids) : KeepsIds st st' :=
  fun _ hid => h ▸ hid

theorem keepsIds_query {α : Type} (f : Store → α) : Moves KeepsIds (query f) :=
  fun _ => wp_query_of ⟨keepsIds_of_eq rfl, trivial⟩ (keepsIds_of_eq rfl)

theorem keepsIds_execute {f : Store → Store} (hf : ∀ st, KeepsIds st (f st)) :
    Moves KeepsIds (execute f) :=
  Steps.bind (keepsIds_query _) fun _ => steps_modify hf

theorem SameSeen.keepsIds {α : Type} {p : StoreM α} (h : Moves SameSeen p) : Moves KeepsIds p :=
  h.mono fun _ _ hst => keepsIds_of_eq hst.msgids

/-- The downloads stay as they are. -/
structure Quiet (s t : WhatsappManager) : Prop where
  markRead : t.markRead = s.markRead
  downloads : t.msgproc.downloads = s.msgproc.downloads
  rx : t.rx = s.rx
  msgids : KeepsIds s.msgproc.store t.msgproc.store

instance : IsPreorder WhatsappManager Quiet where
  refl _ := ⟨rfl, rfl, rfl, fun _ h => h⟩
  trans _ _ _ h h' := ⟨h'.markRead.trans h.markRead, h'.downloads.trans h.downloads,
    h'.rx.trans h.rx, fun id hid => h'.msgids id (h.msgids id hid)⟩

theorem quiet_of_eq {s t : WhatsappManager} (hread : t.markRead = s.markRead)
    (hmsgproc : t.msgproc = s.msgproc) (hrx : t.rx = s.rx) : Quiet s t :=
  ⟨hread, by rw [hmsgproc], hrx, keepsIds_of_eq (by rw [hmsgproc])⟩

theorem quiet_store {α : Type} {p : StoreM α} (hp : Moves KeepsIds p) :
    Moves Quiet (store p : WaM α) := moves_store hp fun _ _ h => ⟨rfl, rfl, rfl, h⟩

theorem quiet_modify {f : WhatsappManager → WhatsappManager}
    (hread : ∀ m, (f m).markRead = m.markRead) (hmsgproc : ∀ m, (f m).msgproc = m.msgproc)
    (hrx : ∀ m, (f m).rx = m.rx) : Moves Quiet (modify f : WaM PUnit) :=
  steps_modify fun m => quiet_of_eq (hread m) (hmsgproc m) (hrx m)

theorem keepsIds_storeWaMessage (addr : PduAddress) (text : Str) (group : Option Nat)
    (ts : NaiveDateTime) : Moves KeepsIds (storeWaMessage addr text group ts) := by
  refine Steps.bind (keepsIds_query _) fun valid => ?_
  split
  · exact steps_modify fun _ => keepsIds_of_eq rfl
  · exact steps_throw trivial

theorem keepsIds_updateGroup (jid : Jid) (parts adms : List Nat) (topic : Str) :
    Moves KeepsIds (updateGroup jid parts adms topic) := by
  refine Steps.bind (keepsIds_execute fun _ => keepsIds_of_eq rfl) fun _ => ?_
  refine Steps.bind steps_get fun st => ?_
  split
  · exact steps_pure _
  · exact steps_throw trivial

theorem keepsIds_deleteGroup (id : Nat) : Moves KeepsIds (deleteGroupWithId id) := by
  refine Steps.bind (keepsIds_query _) fun present => ?_
  split
  · exact steps_modify fun _ => keepsIds_of_eq rfl
  · exact steps_throw trivial

theorem keepsIds_storeWaMsgid (id : Str) : Moves KeepsIds (storeWaMsgid id) :=
  keepsIds_execute fun _ _ h => mem_recordId.mpr (.inl h)

theorem bridging_quiet : Bridging Quiet where
  query f := quiet_store (keepsIds_query f)
  newRecipient _ _ _ _ _ := quiet_store (SameSeen.keepsIds (sameSeen_insertRecipient _ _ _))
  cf _ _ := quiet_modify (fun _ => rfl) (fun _ => rfl) fun _ => rfl
  newGroup _ _ _ := quiet_store (SameSeen.keepsIds (sameSeen_storeGroup _ _ _))
  cb _ _ := quiet_of_eq rfl rfl rfl
  metadata _ := quiet_modify (fun _ => rfl) (fun _ => rfl) fun _ => rfl

theorem naming_quiet : Naming Quiet where
  toBridging := bridging_quiet
  insert _ _ _ _ := quiet_store (keepsIds_storeWaMessage _ _ _ _)
  updated grp := bridging_quiet.updateFromMetadata grp fun _ _ _ _ =>
    quiet_store (keepsIds_updateGroup _ _ _ _)
  subscribe _ := quiet_modify (fun _ => rfl) (fun _ => rfl) fun _ => rfl
  conn _ _ := quiet_of_eq rfl rfl rfl
  session _ _ _ := quiet_of_eq rfl rfl rfl
  chats _ _ := quiet_of_eq rfl rfl rfl
  generate _ := quiet_of_eq rfl rfl rfl
  ackp _ _ := quiet_of_eq rfl rfl rfl
  accept _ _ := quiet_of_eq rfl rfl rfl
  expire _ _ := quiet_of_eq rfl rfl rfl
  presence _ _ := quiet_of_eq rfl rfl rfl
  send _ := quiet_modify (fun _ => rfl) (fun _ => rfl) fun _ => rfl
  msgid _ := quiet_store (keepsIds_storeWaMsgid _)
  persistence _ := quiet_store (keepsIds_execute fun _ => keepsIds_of_eq rfl)
  established _ _ := quiet_of_eq rfl rfl rfl
  contacts _ _ := quiet_of_eq rfl rfl rfl
  ntf _ _ := quiet_store (keepsIds_execute fun _ => keepsIds_of_eq rfl)
  rename _ _ _ _ := quiet_modify (fun _ => rfl) (fun _ => rfl) fun _ => rfl

theorem keepsIds_otherOp (op : OtherOp) : Moves KeepsIds op.run := by
  have hinsert : ∀ addr row hrow, Moves KeepsIds (insertRecipient addr row hrow) :=
    fun addr row hrow => SameSeen.keepsIds (sameSeen_insertRecipient addr row hrow)
  cases op with
  | smsMessage addr pdu csmsData => exact keepsIds_execute fun _ => keepsIds_of_eq rfl
  | recipient addr nick => exact Steps.bind (hinsert _ _ _) fun _ => steps_pure _
  | recipientNick addr nick src => exact keepsIds_execute fun _ => keepsIds_of_eq rfl
  | recipientWa addr wa => exact keepsIds_execute fun _ => keepsIds_of_eq rfl
  | dropRecipient addr =>
      refine Steps.bind (keepsIds_query _) fun present => ?_
      split
      · exact steps_modify fun _ => keepsIds_of_eq rfl
      · exact steps_throw trivial
  | deleteMessage id =>
      refine Steps.bind (keepsIds_query _) fun present => ?_
      split
      · exact steps_modify fun _ => keepsIds_of_eq rfl
      · exact steps_throw trivial

/-- Nothing has been bridged twice so far, nor will it be. -/
structure Once (m : WhatsappManager) (done : List (Str × Part)) : Prop where
  markRead : m.markRead = false
  distinct : (outstanding m).Nodup
  lines : ∀ id, (id, .lines) ∈ done → id ∈ m.msgproc.store.waMsgids ∨ id ∈ outstanding m
  result : ∀ id, (id, .result) ∈ done → id ∈ m.msgproc.store.waMsgids ∧ id ∉ outstanding m
  nodup : done.Nodup

theorem Once.of_same {s t : WhatsappManager} {done : List (Str × Part)} (hs : Once s done)
    (hread : t.markRead = s.markRead) (hout : (outstanding t).Perm (outstanding s))
    (hids : KeepsIds s.msgproc.store t.msgproc.store) : Once t done where
  markRead := hread.trans hs.markRead
  distinct := hout.nodup_iff.mpr hs.distinct
  lines id hid := (hs.lines id hid).imp (hids id) fun h => hout.mem_iff.mpr h
  result id hid :=
    ⟨hids id (hs.result id hid).1, fun h => (hs.result id hid).2 (hout.mem_iff.mp h)⟩
  nodup := hs.nodup

theorem Once.of_quiet {s t : WhatsappManager} {done : List (Str × Part)} (hs : Once s done)
    (h : Quiet s t) : Once t done :=
  hs.of_same h.markRead (by rw [outstanding, h.downloads, h.rx, ← outstanding]) h.msgids

theorem keys_entry (source : Source) (s t : WhatsappManager) :
    (entry source s t).map Entry.key = if inserted s t = [] then [] else [source.key] := by
  unfold entry
  split <;> rfl

theorem inserted_of_append {s t : WhatsappManager} {new : List Message}
    (h : t.msgproc.store.messages.rows = s.msgproc.store.messages.rows ++ new) :
    inserted s t = new := by
  rw [inserted, h, List.drop_left]

/-- What a step contributes is new, and what it leaves goes on. -/
def Goes (done new : List (Str × Part)) (t : Session) : Prop :=
  (done ++ new).Nodup ∧ (t.outcome = none → Once t.manager (done ++ new))

theorem goes_nil {t : Session} {done : List (Str × Part)} (hnodup : done.Nodup)
    (h : t.outcome = none → Once t.manager done) : Goes done [] t := by
  rw [Goes, List.append_nil]
  exact ⟨hnodup, h⟩

omit [Crates] in
theorem nodup_append_key {done : List (Str × Part)} {k : Str × Part} (hdone : done.Nodup)
    (hk : k ∉ done) : (done ++ [k]).Nodup := by
  rw [List.nodup_append]
  refine ⟨hdone, List.nodup_singleton k, ?_⟩
  rintro a ha b hb rfl
  exact hk (List.mem_singleton.mp hb ▸ ha)

theorem Once.of_goes {s : WhatsappManager} {t : Session} {done : List (Str × Part)}
    (hs : Once s done) (h : Quiet s t.manager) : Goes done [] t :=
  goes_nil hs.nodup fun _ => hs.of_quiet h

theorem goes_of_quiet {s : Session} {p : WaM Unit} {done : List (Str × Part)}
    (hs : Once s.manager done) (hp : Moves Quiet p) : Goes done [] (perform s p) :=
  hs.of_goes (hp.exec s.manager)

theorem quiet_onWaEvent {e : WaEvent} (he : ∀ isNew msg, e ≠ .message isNew msg) :
    Moves Quiet (onWaEvent e) :=
  naming_quiet.onWaEvent e naming_quiet.onContactChange
    fun msg isNew h => absurd h (he isNew msg)

theorem nodup_append_keys {done : List (Str × Part)} {source : Source}
    {s t : WhatsappManager} (hdone : done.Nodup)
    (hnew : inserted s t ≠ [] → source.key ∉ done) :
    (done ++ (entry source s t).map Entry.key).Nodup := by
  rw [keys_entry]
  split
  · rwa [List.append_nil]
  · rename_i h
    exact nodup_append_key hdone (hnew h)

theorem mem_append_keys {done : List (Str × Part)} {source : Source} {id : Str} {part : Part}
    {s t : WhatsappManager} (h : (id, part) ∈ done ++ (entry source s t).map Entry.key) :
    (id, part) ∈ done ∨ id = source.key.1 ∧ part = source.key.2 ∧ inserted s t ≠ [] := by
  rw [keys_entry] at h
  split at h
  · exact .inl (by simpa using h)
  · rename_i hne
    rcases List.mem_append.mp h with h | h
    · exact .inl h
    · exact .inr ⟨congrArg Prod.fst (List.mem_singleton.mp h),
        congrArg Prod.snd (List.mem_singleton.mp h), hne⟩

theorem outstanding_of_started (inc : IncomingMessage) {s t : WhatsappManager}
    (hdl : t.msgproc.downloads = s.msgproc.downloads ++ started inc) (hrx : t.rx = s.rx) :
    (outstanding t).Perm (outstanding s ++ (started inc).map MediaInfo.mi) := by
  rw [outstanding, outstanding, hdl, hrx, List.map_append, List.append_assoc, List.append_assoc]
  exact List.Perm.append_left _ List.perm_append_comm

omit [Crates] in
theorem ids_of_started (inc : IncomingMessage) :
    (started inc).map MediaInfo.mi = if isMedia inc.content then [inc.id] else [] := by
  unfold started
  split <;> rfl

theorem Once.of_bridged {s t u : WhatsappManager} {done : List (Str × Part)} {msg : WaMessage}
    {sender : Sender} {group : Option Nat} {lines : List ProcessedIncomingMessage}
    {new : List Message} (hs : Once s done) (hid : msg.id ∉ outstanding s)
    (hseen : msg.id ∉ s.msgproc.store.waMsgids) (hu : Calm s u)
    (ht : BridgedAs msg sender group lines new u t) :
    Once t (done ++ (entry (.message msg) s t).map Entry.key) := by
  have hrows : inserted s t = new := by
    apply inserted_of_append
    rw [ht.rows, hu.rows, List.append_nil]
  have hout : (outstanding t).Perm (outstanding s ++
      if isMedia msg.content then [msg.id] else []) := by
    have h := outstanding_of_started (incoming msg sender group) (s := s) (t := t)
      (by rw [ht.downloads, hu.downloads]) (by rw [ht.rx, hu.rx])
    rwa [ids_of_started] at h
  have hmem : ∀ id, id ∈ outstanding t ↔
      id ∈ outstanding s ∨ isMedia msg.content = true ∧ id = msg.id := by
    intro id
    rw [hout.mem_iff, List.mem_append]
    split <;> simp [*]
  have hkeeps : ∀ id, id ∈ s.msgproc.store.waMsgids → id ∈ t.msgproc.store.waMsgids := by
    intro id h
    rw [ht.msgids, hu.msgids]
    split
    · exact mem_recordId.mpr (.inl h)
    · exact h
  refine ⟨?_, ?_, fun id h => ?_, fun id h => ?_, ?_⟩
  · rw [ht.markRead, hu.markRead, hs.markRead]
  · rw [hout.nodup_iff]
    split
    · refine List.nodup_append.mpr ⟨hs.distinct, List.nodup_singleton _, ?_⟩
      rintro a ha b hb rfl
      exact hid (List.mem_singleton.mp hb ▸ ha)
    · rw [List.append_nil]
      exact hs.distinct
  · rcases mem_append_keys h with h | ⟨rfl, -, hne⟩
    · exact (hs.lines id h).imp (hkeeps id) fun h => (hmem id).mpr (.inl h)
    · -- the lines of a message that has no media are recorded at once
      by_cases hmedia : isMedia msg.content = true
      · exact .inr ((hmem _).mpr (.inr ⟨hmedia, rfl⟩))
      · refine .inl ?_
        have hlines : lines ≠ [] := by
          rintro rfl
          have hnone := ht.stored.prefixed
          rw [List.map_nil, List.map_nil, List.prefix_nil, List.map_eq_nil_iff] at hnone
          exact hne (hrows.trans hnone)
        rw [ht.msgids, if_pos ⟨hlines, hmedia⟩]
        exact mem_recordId.mpr (.inr rfl)
  · rcases mem_append_keys h with h | ⟨-, hpart, -⟩
    · obtain ⟨hstored, hno⟩ := hs.result id h
      refine ⟨hkeeps id hstored, fun h => ?_⟩
      rcases (hmem id).mp h with h | ⟨-, rfl⟩
      · exact hno h
      · exact hseen hstored
    · cases hpart
  · refine nodup_append_keys hs.nodup fun _ h => ?_
    rcases hs.lines msg.id h with h | h
    · exact hseen h
    · exact hid h

theorem inserted_nil {s t : WhatsappManager}
    (h : t.msgproc.store.messages.rows = s.msgproc.store.messages.rows) : inserted s t = [] :=
  inserted_of_append (by rw [h, List.append_nil])

theorem Once.of_ignored {s t : WhatsappManager} {done : List (Str × Part)} {msg : WaMessage}
    (hs : Once s done) (ht : Ignored msg s t) :
    Once t (done ++ (entry (.message msg) s t).map Entry.key) := by
  rw [keys_entry, if_pos (inserted_nil ht.messages), List.append_nil]
  refine hs.of_same ht.markRead ?_ fun id h => ?_
  · rw [outstanding, ht.downloads, ht.rx]
    rfl
  · rcases ht.msgids with heq | ⟨-, heq⟩
    · rwa [heq]
    · rw [heq]
      exact mem_recordId.mpr (.inl h)

theorem goes_skipped {s : Session} {msg : WaMessage} {isNew : Bool} {done : List (Str × Part)}
    (hs : Once s.manager done) (hskips : skips s.manager msg isNew = true) :
    Goes done ((entry (.message msg) s.manager
      (perform s (onMessage msg isNew)).manager).map Entry.key)
      (perform s (onMessage msg isNew)) := by
  have hwp := wp_onMessage_skipped hskips
  unfold perform
  unfold wp at hwp
  rcases hp : exec (onMessage msg isNew) s.manager with ⟨e | _, t⟩
  · rw [hp] at hwp
    refine ⟨nodup_append_keys hs.nodup fun hne _ => hne (inserted_nil ?_), nofun⟩
    simpa using hwp.rows
  · rw [hp] at hwp
    exact ⟨(hs.of_ignored hwp).nodup, fun _ => hs.of_ignored hwp⟩

theorem goes_message {s : Session} {msg : WaMessage} {isNew : Bool} {done : List (Str × Part)}
    (hs : Once s.manager done) (hid : msg.id ∉ outstanding s.manager) :
    Goes done ((entry (.message msg) s.manager
      (perform s (onMessage msg isNew)).manager).map Entry.key)
      (perform s (onMessage msg isNew)) := by
  have hwp := wp_onMessage msg isNew s.manager
  unfold perform
  unfold wp at hwp
  rcases hp : exec (onMessage msg isNew) s.manager with ⟨e | _, t⟩
  · rw [hp] at hwp
    obtain ⟨-, hrows⟩ := hwp
    refine ⟨nodup_append_keys hs.nodup fun hne h => ?_, nofun⟩
    rcases hrows with hrows | hseen
    · exact hne (inserted_nil hrows)
    · rcases hs.lines msg.id h with h | h
      · exact hseen (.inl hs.markRead) h
      · exact hid h
  · rw [hp] at hwp
    suffices h : Once t (done ++ (entry (.message msg) s.manager t).map Entry.key) from
      ⟨h.nodup, fun _ => h⟩
    rcases hwp with hignored | ⟨u, sender, group, lines, new, hu, -, -, hseen, ht⟩
    · exact hs.of_ignored hignored
    · exact hs.of_bridged hid (hseen (.inl hs.markRead)) hu ht

theorem goes_mediaFinished {s : Session} {r : MediaResult} {rest : List WhatsappCommand}
    {done : List (Str × Part)} (hs : Once s.manager done)
    (hrx : s.manager.rx = .mediaFinished r :: rest) :
    Goes done ((entry (.media r) s.manager
      (perform { s with manager := { s.manager with rx := rest } }
        (mediaFinished r)).manager).map Entry.key)
      (perform { s with manager := { s.manager with rx := rest } } (mediaFinished r)) := by
  have hout : (outstanding s.manager).Perm
      (r.mi :: outstanding { s.manager with rx := rest }) := by
    rw [outstanding, outstanding, hrx]
    exact List.perm_middle
  have hmem : ∀ id, id ∈ outstanding s.manager ↔
      id = r.mi ∨ id ∈ outstanding { s.manager with rx := rest } := by
    intro id
    rw [hout.mem_iff, List.mem_cons]
  have hdistinct := hout.nodup_iff.mp hs.distinct
  rw [List.nodup_cons] at hdistinct
  have hfresh : (r.mi, .result) ∉ done :=
    fun h => (hs.result r.mi h).2 ((hmem _).mpr (.inl rfl))
  have hwp := wp_mediaFinished r { s.manager with rx := rest }
  unfold perform
  unfold wp at hwp
  rcases hp : exec (mediaFinished r) { s.manager with rx := rest } with ⟨e | _, t⟩
  · exact ⟨nodup_append_keys hs.nodup fun _ => hfresh, nofun⟩
  · rw [hp] at hwp
    obtain ⟨new, ht⟩ := hwp
    have hsame : outstanding t = outstanding { s.manager with rx := rest } := by
      rw [outstanding, ht.downloads, ht.rx, ← outstanding]
    have hids : ∀ id, id ∈ s.manager.msgproc.store.waMsgids ∨ id = r.mi →
        id ∈ t.msgproc.store.waMsgids := by
      intro id h
      rw [ht.msgids]
      exact mem_recordId.mpr h
    suffices h : Once t (done ++ (entry (.media r) s.manager t).map Entry.key) from
      ⟨h.nodup, fun _ => h⟩
    refine ⟨ht.markRead.trans hs.markRead, hsame ▸ hdistinct.2, fun id h => ?_, fun id h => ?_,
      nodup_append_keys hs.nodup fun _ => hfresh⟩
    · rcases mem_append_keys h with h | ⟨-, hpart, -⟩
      · rcases hs.lines id h with h | h
        · exact .inl (hids id (.inl h))
        · rcases (hmem id).mp h with rfl | h
          · exact .inl (hids _ (.inr rfl))
          · exact .inr (hsame ▸ h)
      · cases hpart
    · rw [hsame]
      rcases mem_append_keys h with h | ⟨rfl, -, -⟩
      · exact ⟨hids id (.inl (hs.result id h).1),
          fun hmem' => (hs.result id h).2 ((hmem id).mpr (.inr hmem'))⟩
      · exact ⟨hids _ (.inr rfl), hdistinct.1⟩

/-- What is inserted when the connection has yielded something. -/
def polledEntries (m : WhatsappManager) (t : Session) : Polled → List Entry
  | .item (.ok (.message _ msg)) => entry (.message msg) m t.manager
  | _ => []

theorem goes_polled {s : Session} {p : Polled} {done : List (Str × Part)}
    (hs : Once s.manager done)
    (hcalm : ∀ isNew msg, p = .item (.ok (.message isNew msg)) →
      skips s.manager msg isNew = true ∨ msg.id ∉ outstanding s.manager) :
    Goes done ((polledEntries s.manager (perform s (handlePolled p)) p).map Entry.key)
      (perform s (handlePolled p)) := by
  have hquiet : Moves Quiet (handlePolled p) →
      Goes done [] (perform s (handlePolled p)) := goes_of_quiet hs
  cases p with
  | notReady => exact hquiet (steps_pure _)
  | failed => exact hquiet (Steps.bind steps_get fun _ => steps_throw trivial)
  | item r =>
      cases r with
      | error e => exact hquiet (naming_quiet.onWaError e)
      | ok e =>
          have hother : ∀ e, (∀ isNew msg, e ≠ .message isNew msg) →
              Moves Quiet (handlePolled (.item (.ok e))) := fun e he => quiet_onWaEvent he
          cases e
          case message isNew msg =>
            rcases hcalm isNew msg rfl with h | h
            · exact goes_skipped hs h
            · exact goes_message hs h
          all_goals exact hquiet (hother _ (by simp))

theorem bridges_poll (s t : Session) (answers : List Answer) :
    bridges s t (.poll answers) =
      polledEntries s.manager t (s.manager.conn.poll answers).1 := rfl

theorem goes_poll {s : Session} {answers : List Answer} {done : List (Str × Part)}
    (hs : Once s.manager done) (hcalm : Undisturbed s (.poll answers)) :
    Goes done ((bridges s (perform s (pollConn answers)) (.poll answers)).map Entry.key)
      (perform s (pollConn answers)) := by
  have hconn : Once { s.manager with conn := (s.manager.conn.poll answers).2 } done :=
    hs.of_quiet (quiet_of_eq rfl rfl rfl)
  rw [bridges_poll, perform_pollConn]
  refine goes_polled (s := ⟨_, s.outcome⟩) hconn fun isNew msg hmsg => ?_
  have h : skips s.manager msg isNew = true ∨ msg.id ∉ outstanding s.manager := by
    simpa [Undisturbed, undisturbed, hmsg] using hcalm
  exact h

theorem goes_handle {s : Session} {done : List (Str × Part)} (hs : Once s.manager done) :
    Goes done ((bridges s (perform s handleNext) .handle).map Entry.key)
      (perform s handleNext) := by
  cases hrx : s.manager.rx with
  | nil =>
      simp only [bridges, hrx]
      have hperform : perform s handleNext = perform s (pure ()) := by
        unfold perform handleNext
        simp [exec_bind, hrx]
      rw [hperform]
      exact goes_of_quiet hs (steps_pure _)
  | cons c rest =>
      have hperform : perform s handleNext =
          perform { s with manager := { s.manager with rx := rest } } (handleIntRx c) := by
        unfold perform handleNext
        simp [exec_bind, hrx]
      rw [hperform]
      have hother : (∀ r, c ≠ .mediaFinished r) → Goes done []
          (perform { s with manager := { s.manager with rx := rest } } (handleIntRx c)) := by
        intro hc
        refine goes_of_quiet (hs.of_same rfl ?_ fun _ h => h)
          (naming_quiet.handleIntRx c (fun r h => absurd h (hc r))
            fun chan _ => bridging_quiet.groupRemove chan fun _ =>
              quiet_store (keepsIds_deleteGroup _))
        have hid : finishedId c = none := by
          cases c with
          | mediaFinished r => exact absurd rfl (hc r)
          | _ => rfl
        rw [outstanding, outstanding, hrx, List.filterMap_cons_none hid]
      cases c
      case mediaFinished r =>
        simp only [bridges, hrx]
        exact goes_mediaFinished hs hrx
      all_goals
        simp only [bridges, hrx]
        exact hother nofun

theorem outstanding_finish {m : WhatsappManager} {i : Nat} {mi : MediaInfo}
    (result : Except Str Str) (h : m.msgproc.downloads[i]? = some mi) :
    (outstanding (finish m i mi result)).Perm (outstanding m) := by
  have hi : i < m.msgproc.downloads.length := (List.getElem?_eq_some_iff.mp h).1
  have hmi : m.msgproc.downloads[i] = mi := (List.getElem?_eq_some_iff.mp h).2
  have hperm := (List.getElem_cons_eraseIdx_perm hi).map MediaInfo.mi
  rw [hmi, List.map_cons] at hperm
  unfold outstanding finish
  rw [List.filterMap_append]
  calc ((m.msgproc.downloads.eraseIdx i).map MediaInfo.mi ++ (m.rx.filterMap finishedId ++
        [mi.mi])).Perm (mi.mi :: ((m.msgproc.downloads.eraseIdx i).map MediaInfo.mi ++
          m.rx.filterMap finishedId)) := by
          rw [← List.append_assoc]
          exact List.perm_append_singleton _ _
    List.Perm _ _ := by
          rw [← List.cons_append]
          exact hperm.append_right _

theorem goes_next {s t : Session} {e : Event} {done : List (Str × Part)}
    (hs : Once s.manager done) (hcalm : Undisturbed s e) (ht : next s e = some t) :
    Goes done ((bridges s t e).map Entry.key) t := by
  obtain ⟨-, hstep⟩ := next_eq_some ht
  cases e with
  | poll answers =>
      cases hstep
      exact goes_poll hs hcalm
  | handle =>
      cases hstep
      exact goes_handle hs
  | request c =>
      simp only [step] at hstep
      split at hstep
      · rename_i hc
        cases hstep
        refine goes_nil hs.nodup fun _ => hs.of_same rfl ?_ fun _ h => h
        have hid : finishedId c = none := by
          cases c with
          | mediaFinished r => cases hc
          | _ => rfl
        simp [outstanding, hid]
      · cases hstep
  | finished i result =>
      obtain ⟨mi, hmi, rfl⟩ := Option.map_eq_some_iff.mp hstep
      refine goes_nil hs.nodup fun _ => hs.of_same rfl ?_ fun _ h => h
      exact outstanding_finish result hmi
  | drain answers =>
      cases hstep
      exact goes_of_quiet hs (naming_quiet.drainOutbox
        (fun _ _ _ => quiet_of_eq rfl rfl rfl) answers)
  | complete done' =>
      cases hstep
      exact goes_of_quiet hs (Frame.pollComplete done')
  | check =>
      cases hstep
      exact goes_of_quiet hs naming_quiet.checkAcks
  | otherOp op =>
      cases hstep
      exact hs.of_goes ⟨rfl, rfl, rfl, (keepsIds_otherOp op).exec _⟩
  | clock now dbNow instant =>
      cases hstep
      exact hs.of_goes ⟨rfl, rfl, rfl, fun _ h => h⟩

theorem bridged_of_stopped {s : Session} (h : s.outcome ≠ none) (es : List Event) :
    bridged s es = [] := by
  cases es with
  | nil => rfl
  | cons e es =>
      unfold bridged next
      cases ho : s.outcome with
      | none => exact absurd ho h
      | some _ => rfl

theorem bridged_once_of_once {s : Session} {done : List (Str × Part)} (hs : Once s.manager done)
    (es : List Event) (hcalm : AllSteps next Undisturbed s es) :
    (done ++ (bridged s es).map Entry.key).Nodup := by
  induction es generalizing s done with
  | nil => simpa [bridged] using hs.nodup
  | cons e es ih =>
      unfold bridged
      cases ht : next s e with
      | none => simpa using hs.nodup
      | some t =>
          obtain ⟨hnodup, honce⟩ := goes_next hs hcalm.1 ht
          dsimp only
          rw [List.map_append, ← List.append_assoc]
          by_cases hout : t.outcome = none
          · exact ih (honce hout) (hcalm.2 t ht)
          · rw [bridged_of_stopped hout]
            simpa using hnodup

theorem single_of_entry {source : Source} {s t : WhatsappManager} {new : List Message}
    (hrows : t.msgproc.store.messages.rows = s.msgproc.store.messages.rows ++ new)
    (hsingle : ∀ b : Entry, b.source = source → b.before = s.msgproc.store →
      b.after = t.msgproc.store → b.rows = new → new ≠ [] → b.Single) :
    ∀ b ∈ entry source s t, b.Single := by
  have hnew : inserted s t = new := inserted_of_append hrows
  intro b hb
  unfold entry at hb
  split at hb
  · cases hb
  · rename_i hne
    cases List.mem_singleton.mp hb
    exact hsingle _ rfl rfl rfl hnew (hnew ▸ hne)

theorem single_of_onceEach {msg : WaMessage} {s t : WhatsappManager} (new : List Message)
    (hrows : t.msgproc.store.messages.rows = s.msgproc.store.messages.rows ++ new)
    (honce : OnceEach msg s.msgproc.store t.msgproc.store new) :
    ∀ b ∈ entry (.message msg) s t, b.Single := by
  refine single_of_entry hrows fun b hsource hbefore hafter hb hne => ?_
  obtain hnil | ⟨group, texts, hlines, hnew⟩ := honce
  · exact absurd hnil hne
  · rw [Entry.Single, hsource]
    refine ⟨group, texts, ?_, hb ▸ hnew⟩
    rwa [hbefore, hafter]

theorem single_onMessage (msg : WaMessage) (isNew : Bool) (s : Session) :
    ∀ b ∈ entry (.message msg) s.manager (perform s (onMessage msg isNew)).manager, b.Single := by
  have hwp := wp_onMessage msg isNew s.manager
  unfold perform
  rcases hp : exec (onMessage msg isNew) s.manager with ⟨e | _, t⟩
  · obtain ⟨-, new, hrows, honce⟩ := (wp_of_error hp hwp).1
    exact single_of_onceEach new hrows honce
  · rcases wp_of_ok hp hwp with h | ⟨u, sender, group, lines, new, hu, -, -, -, ht⟩
    · exact single_of_onceEach [] (by rw [h.messages, List.append_nil]) (.inl rfl)
    · refine single_of_onceEach new ?_ ?_
      · rw [ht.rows, hu.rows, List.append_nil]
      · exact ht.onceEach.mono hu.adds (Std.Refl.refl (r := Adds) t.msgproc.store)

theorem single_mediaFinished (r : MediaResult) (s : Session) :
    ∀ b ∈ entry (.media r) s.manager (perform s (mediaFinished r)).manager, b.Single := by
  have hsingle : ∀ {new : List Message} {t : WhatsappManager},
      t.msgproc.store.messages.rows = s.manager.msgproc.store.messages.rows ++ new →
      new.map Message.text <+: [some (resultText r.result)] →
      ∀ b ∈ entry (.media r) s.manager t, b.Single := by
    intro new t hrows hnew
    refine single_of_entry hrows fun b hsource _ _ hb _ => ?_
    rw [Entry.Single, hsource]
    exact ⟨_, fetched_resultText r.result, hb ▸ hnew⟩
  have hwp := wp_mediaFinished r s.manager
  unfold perform
  rcases hp : exec (mediaFinished r) s.manager with ⟨e | _, t⟩
  · obtain ⟨-, new, hnew, htexts⟩ := wp_of_error hp hwp
    exact hsingle hnew.rows htexts
  · obtain ⟨new, ht⟩ := wp_of_ok hp hwp
    exact hsingle ht.rows ht.stored.prefixed

theorem single_of_next {s t : Session} {e : Event} (ht : next s e = some t) :
    ∀ b ∈ bridges s t e, b.Single := by
  obtain ⟨-, hstep⟩ := next_eq_some ht
  cases e with
  | poll answers =>
      cases hstep
      rw [bridges_poll, perform_pollConn]
      generalize (s.manager.conn.poll answers).1 = polled
      intro b hb
      unfold polledEntries at hb
      split at hb
      · rename_i isNew msg
        exact single_onMessage msg isNew
          ⟨{ s.manager with conn := (s.manager.conn.poll answers).2 }, s.outcome⟩ b hb
      · cases hb
  | handle =>
      cases hstep
      intro b hb
      cases hrx : s.manager.rx with
      | nil => simp [bridges, hrx] at hb
      | cons c rest =>
        cases c
        case mediaFinished r =>
          have hperform : perform s handleNext =
              perform { s with manager := { s.manager with rx := rest } } (mediaFinished r) := by
            unfold perform handleNext
            simp [exec_bind, hrx, handleIntRx]
          simp only [bridges, hrx, hperform] at hb
          exact single_mediaFinished r { s with manager := { s.manager with rx := rest } } b hb
        all_goals simp [bridges, hrx] at hb
  | _ =>
      intro b hb
      cases hb

theorem single_of_bridged {s : Session} (es : List Event) : ∀ b ∈ bridged s es, b.Single := by
  induction es generalizing s with
  | nil =>
      intro b hb
      cases hb
  | cons e es ih =>
      unfold bridged
      cases ht : next s e with
      | none =>
          intro b hb
          cases hb
      | some t =>
          intro b hb
          rcases List.mem_append.mp hb with hb | hb
          · exact single_of_next ht b hb
          · exact ih b hb

/-- In a run that starts without downloads and in which no message that is to be
bridged is delivered again while its download is outstanding, every part of every
message is stored at most once, each of its lines in at most one row. -/
theorem bridged_once {m : WhatsappManager} (hread : m.markRead = false)
    (hidle : outstanding m = []) (es : List Event)
    (hcalm : AllSteps next Undisturbed ⟨m, none⟩ es) :
    ((bridged ⟨m, none⟩ es).map Entry.key).Nodup ∧
      ∀ b ∈ bridged ⟨m, none⟩ es, b.Single := by
  have h : Once m [] := ⟨hread, hidle ▸ List.nodup_nil, by simp, by simp, List.nodup_nil⟩
  refine ⟨?_, single_of_bridged es⟩
  simpa using bridged_once_of_once (s := ⟨m, none⟩) h es hcalm

end Once

section Samples

attribute [local instance] Sample.crates

/-- An image with a caption, from `Sample.alice`. -/
def photo : WaMessage :=
  ⟨.receiving (.individual ⟨("44123" : Str), false⟩), 0, ("m" : Str), .image (some ("hi" : Str)),
    none⟩

def delivered (msg : WaMessage) : Event := .poll [.event (.message true msg)]

def photoRun : List Event :=
  connecting ++ [delivered photo, .finished 0 (.ok ("link" : Str)), .handle, delivered photo]

/-- The image is delivered again when its download has ended. Its caption and the link to it
are in one row each. -/
theorem bridged_once_photo :
    (((bridged ⟨sampleManager, none⟩ photoRun).map Entry.key).Nodup ∧
      ∀ b ∈ bridged ⟨sampleManager, none⟩ photoRun, b.Single) ∧
    (bridged ⟨sampleManager, none⟩ photoRun).map (fun b => b.rows.map Message.text) =
      [[some ("hi" : Str)], [some ("link" : Str)]] :=
  ⟨bridged_once rfl rfl photoRun (by decide +kernel), by decide +kernel⟩

/-- It is delivered again before that. -/
theorem photo_bridged_twice :
    ¬ ∀ es : List Event, ((bridged ⟨sampleManager, none⟩ es).map Entry.key).Nodup := by
  intro h
  have htwice : (bridged ⟨sampleManager, none⟩
      (connecting ++ [delivered photo, delivered photo])).map Entry.key =
        [(("m" : Str), .lines), (("m" : Str), .lines)] := by decide +kernel
  have hnodup := h (connecting ++ [delivered photo, delivered photo])
  rw [htwice] at hnodup
  simp at hnodup

end Samples

end SmsIrc.WhatsappOnce
