import SmsIrc.LinkDeeds

/-!
What an event does to the stored messages and to the calls: nothing, or what a
run of `process_messages` does at its end.
-/

namespace SmsIrc.LinkHistory

open SmsIrc.Admin SmsIrc.Comm SmsIrc.ContactCommon SmsIrc.ControlCommands SmsIrc.Database
open SmsIrc.External SmsIrc.HashMaps SmsIrc.InspUsers SmsIrc.Link SmsIrc.LinkDeeds
open SmsIrc.LinkGhosts SmsIrc.LinkRuns SmsIrc.LinkSteady SmsIrc.Models SmsIrc.Program
open SmsIrc.SenderCommon SmsIrc.Text SmsIrc.Transition SmsIrc.Util

section History

variable [Crates]

/-- Neither the stored messages nor the calls change. -/
structure SameRows (s t : InspLink) : Prop where
  calls : t.calls = s.calls
  messages : t.store.messages = s.store.messages
  cfg : t.cfg = s.cfg
  next : s.nextUserId ≤ t.nextUserId

instance : IsPreorder InspLink SameRows where
  refl _ := ⟨rfl, rfl, rfl, le_rfl⟩
  trans _ _ _ hst htu := ⟨htu.calls.trans hst.calls, htu.messages.trans hst.messages,
    htu.cfg.trans hst.cfg, hst.next.trans htu.next⟩

theorem sameRows_refl (l : InspLink) : SameRows l l := ⟨rfl, rfl, rfl, le_rfl⟩

theorem sameRows_trans {s t u : InspLink} (hst : SameRows s t) (htu : SameRows t u) :
    SameRows s u := IsTrans.trans (r := SameRows) _ _ _ hst htu

theorem sameRows_of_idle {α : Type} {p : LinkM α} (h : Moves Idle p) : Moves SameRows p :=
  h.mono fun _ _ hst => ⟨hst.calls, hst.messages, hst.cfg, hst.next⟩

theorem sameRows_modify {f : InspLink → InspLink} (hf : ∀ l, SameRows l (f l)) :
    Moves SameRows (modify f : LinkM PUnit) := steps_modify hf

theorem sameRows_query {α : Type} (f : Store → α) : Moves SameRows (store (query f) : LinkM α) :=
  sameRows_of_idle (idle_query trivial f)

theorem sameRows_push (prefixStr : Str) (cmd : String) (args : List Str)
    (suffix : Option Str) : Moves SameRows (push prefixStr cmd args suffix) :=
  sameRows_of_idle (idle_push _ _ _ _)

theorem sameRows_sendSidLine (cmd : String) (args : List Str) (suffix : Option Str) :
    Moves SameRows (sendSidLine cmd args suffix) :=
  Steps.bind steps_get fun _ => sameRows_push _ _ _ _

theorem sameRows_insertUser (u : Str) (user : InspUser) : Moves SameRows (insertUser u user) :=
  sameRows_modify fun _ => ⟨rfl, rfl, rfl, le_rfl⟩

theorem sameRows_updateUser (u : Str) (f : InspUser → InspUser) :
    Moves SameRows (updateUser u f) := by
  refine sameRows_modify fun l => ?_
  split
  · exact ⟨rfl, rfl, rfl, le_rfl⟩
  · exact sameRows_refl l

theorem sameRows_waSend (c : Comm.WhatsappCommand) : Moves SameRows (waSend c) :=
  sameRows_modify fun _ => ⟨rfl, rfl, rfl, le_rfl⟩

theorem sameRows_mSend (c : Comm.ModemCommand) : Moves SameRows (mSend c) :=
  sameRows_modify fun _ => ⟨rfl, rfl, rfl, le_rfl⟩

theorem sameRows_cfSend (c : ContactFactoryCommand) : Moves SameRows (cfSend c) :=
  sameRows_modify fun _ => ⟨rfl, rfl, rfl, le_rfl⟩

theorem sameRows_cbSend (c : ControlBotCommand) : Moves SameRows (cbSend c) :=
  sameRows_modify fun _ => ⟨rfl, rfl, rfl, le_rfl⟩

theorem sameRows_controlResponse (msg : Str) : Moves SameRows (controlResponse msg) := by
  refine Steps.bind steps_get fun l => ?_
  cases adminUuid l with
  | some admu => exact sameRows_push _ _ _ _
  | none => exact steps_pure _

theorem sameRows_updateRecipient (addr : PduAddress) (f : Recipient → Recipient)
    (hf : ∀ r, (f r).id = r.id) : Moves SameRows (store (updateRecipient addr f hf)) := by
  intro l
  rw [wp_store]
  exact wp_execute_of ⟨⟨rfl, rfl, rfl, le_rfl⟩, trivial⟩ ⟨rfl, rfl, rfl, le_rfl⟩

theorem sameRows_setupContact (a : PduAddress) :
    Moves SameRows (setupContact a : LinkM Unit) := by
  refine Steps.bind (sameRows_query _) fun r => ?_
  cases r with
  | some recip => exact sameRows_of_idle (idle_setupRecipient recip)
  | none => exact steps_pure _

theorem sameRows_requestContact (a : PduAddress) (src : Nat) :
    Moves SameRows (requestContact a src : LinkM Bool) := by
  refine Steps.bind (sameRows_query _) fun r => ?_
  cases r with
  | some recip =>
      exact Steps.bind (sameRows_of_idle (idle_setupRecipient recip)) fun _ => steps_pure _
  | none =>
      refine Steps.bind ?_ fun _ => steps_pure _
      unfold requestCreation
      split
      · exact sameRows_mSend _
      · split
        · exact sameRows_waSend _
        · exact steps_pure _

theorem sameRows_queryContact (a : PduAddress) (src : Nat) :
    Moves SameRows (queryContact a src : LinkM Unit) := by
  refine Steps.bind (sameRows_query _) fun r => ?_
  cases r with
  | some recip =>
      exact Steps.bind (sameRows_cbSend _) fun _ => sameRows_of_idle (idle_setupRecipient recip)
  | none =>
      refine Steps.bind (sameRows_cbSend _) fun _ => ?_
      exact Steps.bind (sameRows_requestContact a src) fun _ => steps_pure _

theorem sameRows_removeUser (uuid : Str) (recreate : Bool) :
    Moves SameRows (removeUser uuid recreate) := by
  refine steps_get_bind fun l => ?_
  rw [wp_bind, wp_set]
  split
  · exact (Steps.when (sameRows_setupContact _)).after ⟨rfl, rfl, rfl, le_rfl⟩
  · exact ⟨rfl, rfl, rfl, le_rfl⟩

theorem sameRows_removeContactFor (a : PduAddress) : Moves SameRows (removeContactFor a) := by
  refine Steps.bind steps_get fun l => ?_
  refine Steps.bind ?_ fun _ => sameRows_modify fun _ => ⟨rfl, rfl, rfl, le_rfl⟩
  cases l.contacts.lookup a with
  | some ct => exact Steps.bind (sameRows_push _ _ _ _) fun _ => sameRows_removeUser _ _
  | none => exact steps_pure _

theorem sameRows_dropContact (a : PduAddress) :
    Moves SameRows (dropContact a : LinkM Unit) := by
  refine Steps.bind (fun l => ?_) fun _ => sameRows_removeContactFor a
  rw [wp_store, deleteRecipientWithAddr, wp_bind]
  apply wp_query_of ⟨⟨rfl, rfl, rfl, le_rfl⟩, trivial⟩
  split
  · exact ⟨rfl, rfl, rfl, le_rfl⟩
  · exact ⟨⟨rfl, rfl, rfl, le_rfl⟩, trivial⟩

theorem sameRows_changeNick (a : PduAddress) (ct : InspContact) (st : Str) (src : Int) :
    Moves SameRows (changeNick a ct st src) := by
  have hrest : ∀ u args nick src, Moves SameRows (do
      insertUser ct.uuid u
      push ct.uuid "NICK" args none
      store (updateRecipientNick a nick src)) := by
    intro u args nick src
    refine Steps.bind (sameRows_insertUser _ _) fun _ => ?_
    exact Steps.bind (sameRows_push _ _ _ _) fun _ => sameRows_updateRecipient _ _ _
  refine Steps.bind steps_get fun l => Steps.bind (moves_unwrap _ _) fun u => ?_
  split
  · exact steps_pure _
  · exact hrest _ _ _ _

theorem sameRows_forwardCmd (a : PduAddress) (cmd : ContactManagerCommand) :
    Moves SameRows (forwardCmd a cmd) := by
  refine Steps.bind steps_get fun l => ?_
  split
  · cases cmd with
    | processMessages => exact steps_pure _
    | processGroups => exact steps_pure _
    | updateAway text =>
        exact Steps.bind (moves_unwrap _ _) fun ct => sameRows_push _ _ _ _
    | changeNick st osrc =>
        exact Steps.bind (moves_unwrap _ _) fun ct => sameRows_changeNick a ct st osrc
    | setWhatsapp wam =>
        refine Steps.bind (moves_unwrap _ _) fun ct => ?_
        exact Steps.bind (sameRows_modify fun _ => ⟨rfl, rfl, rfl, le_rfl⟩)
          fun _ => sameRows_of_idle (idle_setWaState a wam)
  · exact steps_pure _

theorem sameRows_byNick {f : PduAddress → LinkM Unit} (nick : Str)
    (hf : ∀ a, Moves SameRows (f a)) : Moves SameRows (do
      match ← resolveNick nick with
      | some a => f a
      | none => pure ()) := by
  refine Steps.bind (Steps.bind steps_get fun _ => steps_pure _) fun a => ?_
  cases a with
  | some a => exact hf a
  | none => exact steps_pure _

theorem sameRows_processGroup (grp : Group) : Moves SameRows (processGroup grp) := by
  refine Steps.bind (Steps.forM fun part _ => ?_) fun _ => ?_
  · refine Steps.bind (sameRows_query _) fun r => ?_
    cases r with
    | none => exact steps_pure _
    | some recip =>
        refine Steps.bind ?_ fun num => Steps.bind steps_get fun l => ?_
        · exact steps_getAddr (fun _ => trivial) _
        · cases l.contacts.lookup num with
          | none => exact steps_pure _
          | some ct => exact sameRows_push _ _ _ _
  · refine Steps.bind steps_get fun l => Steps.when (Steps.bind steps_get fun l' => ?_)
    dsimp only
    split
    · exact Steps.bind (sameRows_push _ _ _ _)
        fun _ => sameRows_modify fun _ => ⟨rfl, rfl, rfl, le_rfl⟩
    · exact sameRows_modify fun _ => ⟨rfl, rfl, rfl, le_rfl⟩

theorem sameRows_processGroups : Moves SameRows processGroups := by
  refine Steps.bind (sameRows_modify fun _ => ⟨rfl, rfl, rfl, le_rfl⟩) fun _ => ?_
  refine Steps.bind steps_get fun l => ?_
  refine Steps.bind (Steps.forM fun a _ =>
    sameRows_of_idle (idle_processGroupsForRecipient a)) fun _ => ?_
  exact Steps.bind (sameRows_query _) fun grps => Steps.forM fun grp _ => sameRows_processGroup grp

theorem sameRows_doCapabAndServer : Moves SameRows doCapabAndServer := by
  refine Steps.bind (sameRows_sendSidLine _ _ _) fun _ => ?_
  refine Steps.bind (Steps.forM fun _ _ => sameRows_sendSidLine _ _ _) fun _ => ?_
  refine Steps.bind (sameRows_sendSidLine _ _ _) fun _ => ?_
  exact Steps.bind steps_get fun _ => sameRows_push _ _ _ _

theorem sameRows_doBurst : Moves SameRows doBurst := by
  refine Steps.bind steps_get fun l => ?_
  refine Steps.bind (sameRows_sendSidLine _ _ _) fun _ => ?_
  refine Steps.bind (sameRows_insertUser _ _) fun _ => ?_
  refine Steps.bind (Steps.bind steps_get fun l' => ?_) fun _ =>
    Steps.bind (sameRows_of_idle (idle_send _)) fun _ => sameRows_sendSidLine _ _ _
  cases l'.users.lookup l.controlUuid with
  | some user => exact steps_pure _
  | none => exact steps_throw trivial

theorem sameRows_handleServer (args : List Str) (suffix : Option Str) :
    Moves SameRows (handleServer args suffix) := by
  refine Steps.bind steps_get fun l => ?_
  split
  · split
    · exact steps_throw trivial
    · split
      · exact steps_throw trivial
      · refine Steps.bind (steps_logVerified trivial _) fun _ => ?_
        refine Steps.bind (sameRows_modify fun _ => ⟨rfl, rfl, rfl, le_rfl⟩) fun _ => ?_
        exact Steps.bind sameRows_doBurst fun _ => sameRows_modify fun _ => ⟨rfl, rfl, rfl, le_rfl⟩
  · exact steps_throw trivial

theorem sameRows_processInsp (ic : InspCommand) : Moves SameRows (processInsp ic) := by
  cases ic with
  | raw line =>
      refine Steps.bind ?_ fun _ => steps_pure _
      unfold sendRaw
      split
      · exact sameRows_of_idle (idle_send _)
      · exact sameRows_controlResponse _
  | queryUuid uu =>
      refine Steps.bind steps_get fun l => ?_
      exact Steps.bind (Steps.forM fun _ _ => sameRows_controlResponse _) fun _ => steps_pure _
  | queryNickUuid qnu =>
      exact Steps.bind steps_get fun l =>
        Steps.bind (sameRows_controlResponse _) fun _ => steps_pure _

theorem sameRows_executeAdminCommand (ac : AdminCommand) :
    Moves SameRows (executeAdminCommand ac : LinkM Unit) := by
  cases ac with
  | ghost nick gc => exact Steps.bind (sameRows_cfSend _) fun _ => sameRows_controlResponse _
  | contact cc => exact sameRows_cfSend _
  | whatsapp wac => exact sameRows_waSend _
  | modem mc => exact sameRows_mSend _
  | group gc => exact sameRows_waSend _
  | insp ic =>
      exact Steps.bind (sameRows_processInsp ic)
        fun _ => Steps.when (sameRows_controlResponse _)
  | help qry =>
      rw [executeAdminCommand]
      cases helpPage qry with
      | some hp => exact Steps.forM fun _ _ => sameRows_controlResponse _
      | none => exact sameRows_controlResponse _

theorem sameRows_processAdminCommand (msg : Str) :
    Moves SameRows (processAdminCommand msg : LinkM Unit) := by
  unfold processAdminCommand
  split
  · exact steps_pure _
  · split
    · exact steps_throw trivial
    · exact sameRows_controlResponse _
    · exact sameRows_executeAdminCommand _

theorem sameRows_handlePrivmsg (source target msg : Str) :
    Moves SameRows (handlePrivmsg source target msg) := by
  refine Steps.bind steps_get fun l => ?_
  split
  · exact steps_pure _
  · split
    · exact sameRows_processAdminCommand _
    · split
      · exact sameRows_waSend _
      · split
        · exact steps_pure _
        · split
          · exact steps_pure _
          · split
            · exact sameRows_waSend _
            · exact sameRows_mSend _

theorem sameRows_doQuasiburst : Moves SameRows doQuasiburst :=
  Steps.bind (sameRows_query _) fun _ =>
    Steps.forM fun recip _ => sameRows_of_idle (idle_setupRecipient recip)

/-- The result of a handler: nothing has happened to the stored messages, or a
run of `process_messages` that ended the same way. -/
def Via (s : InspLink) (r : Except Failure Unit) (t : InspLink) : Prop :=
  SameRows s t ∨ ∃ u, SameRows s u ∧ exec processMessages u = (r, t)

/-- A handler that does nothing to the stored messages but to process them. -/
def OnlyProcesses (p : LinkM Unit) : Prop :=
  ∀ s, wp p (fun _ t => Via s (.ok ()) t) (fun e t => Via s (.error e) t) s

theorem onlyProcesses_of_sameRows {p : LinkM Unit} (h : Moves SameRows p) : OnlyProcesses p :=
  fun s => wp_mono (h s) (fun _ _ ht => .inl ht) fun _ _ ht => .inl ht.1

theorem onlyProcesses_processMessages : OnlyProcesses processMessages := by
  intro s
  unfold wp
  rcases h : exec processMessages s with ⟨e | _, t⟩
  · exact .inr ⟨s, sameRows_refl s, h⟩
  · exact .inr ⟨s, sameRows_refl s, h⟩

theorem OnlyProcesses.after {α : Type} {p : LinkM α} {f : α → LinkM Unit}
    (hp : Moves SameRows p) (hf : ∀ a, OnlyProcesses (f a)) : OnlyProcesses (p >>= f) := by
  intro s
  rw [wp_bind]
  refine wp_mono (hp s) (fun a t ht => ?_) fun _ _ ht => .inl ht.1
  have hvia : ∀ r u, Via t r u → Via s r u := by
    rintro r u (h | ⟨v, hv, hrun⟩)
    · exact .inl (sameRows_trans ht h)
    · exact .inr ⟨v, sameRows_trans ht hv, hrun⟩
  exact wp_mono (hf a t) (fun _ u hu => hvia _ u hu) fun _ u hu => hvia _ u hu

theorem OnlyProcesses.when {c : Prop} [Decidable c] {p : LinkM Unit} (h : OnlyProcesses p) :
    OnlyProcesses (when c p) := by
  unfold Program.when
  split
  · exact h
  · exact onlyProcesses_of_sameRows (steps_pure _)

theorem onlyProcesses_handleRaw (source cmd : Str) (args : List Str) (suffix : Option Str) :
    OnlyProcesses (handleRaw source cmd args suffix) := by
  have hupdate : ∀ f, OnlyProcesses (updateUser source f) :=
    fun f => onlyProcesses_of_sameRows (sameRows_updateUser source f)
  have hnone : OnlyProcesses (pure ()) := onlyProcesses_of_sameRows (steps_pure _)
  unfold handleRaw
  split
  · unfold handleUid
    split
    · exact onlyProcesses_of_sameRows (steps_throw trivial)
    · exact .after (sameRows_insertUser _ _) fun _ =>
        .after steps_get fun _ => .when onlyProcesses_processMessages
  · split
    · split
      · exact hnone
      · exact hupdate _
    · split
      · split
        · exact onlyProcesses_of_sameRows (sameRows_modify fun _ => ⟨rfl, rfl, rfl, le_rfl⟩)
        · exact hnone
      · split
        · split
          · exact hnone
          · exact hupdate _
        · split
          · refine .after steps_get fun l => .when ?_
            refine .after sameRows_doQuasiburst fun _ => ?_
            refine .after (sameRows_modify fun _ => ⟨rfl, rfl, rfl, le_rfl⟩) fun _ => ?_
            refine .after steps_get fun _ => .after (sameRows_push _ _ _ _) fun _ => ?_
            exact .after sameRows_processGroups fun _ => onlyProcesses_processMessages
          · exact hnone

theorem onlyProcesses_handleRemoteMessage (m : IrcMessage) :
    OnlyProcesses (handleRemoteMessage m) := by
  obtain ⟨prefixStr, command⟩ := m
  have hnone : OnlyProcesses (pure ()) := onlyProcesses_of_sameRows (steps_pure _)
  cases prefixStr with
  | none =>
      cases command with
      | error details => exact onlyProcesses_of_sameRows (steps_throw trivial)
      | raw cmd args suffix =>
          exact onlyProcesses_of_sameRows (Steps.when (sameRows_handleServer args suffix))
      | _ => exact hnone
  | some source =>
      cases command with
      | privmsg target msg =>
          exact onlyProcesses_of_sameRows (sameRows_handlePrivmsg source target msg)
      | error details => exact onlyProcesses_of_sameRows (steps_throw trivial)
      | kill uuid reason => exact onlyProcesses_of_sameRows (sameRows_removeUser uuid true)
      | quit reason => exact onlyProcesses_of_sameRows (sameRows_removeUser source true)
      | ping data dest =>
          cases dest with
          | none => exact onlyProcesses_of_sameRows (sameRows_sendSidLine _ _ _)
          | some dest => exact onlyProcesses_of_sameRows (sameRows_sendSidLine _ _ _)
      | squit server reason =>
          exact onlyProcesses_of_sameRows (sameRows_modify fun _ => ⟨rfl, rfl, rfl, le_rfl⟩)
      | raw cmd args suffix => exact onlyProcesses_handleRaw source cmd args suffix
      | other params => exact hnone

theorem onlyProcesses_handleCfCommand (c : ContactFactoryCommand) :
    OnlyProcesses (handleCfCommand c) := by
  cases c with
  | processMessages => exact onlyProcesses_processMessages
  | processGroups => exact onlyProcesses_of_sameRows sameRows_processGroups
  | processAvatars => exact onlyProcesses_of_sameRows (steps_pure _)
  | setupContact a => exact onlyProcesses_of_sameRows (sameRows_setupContact a)
  | dropContact a => exact onlyProcesses_of_sameRows (sameRows_dropContact a)
  | queryContact a src => exact onlyProcesses_of_sameRows (sameRows_queryContact a src)
  | dropContactByNick nick =>
      exact onlyProcesses_of_sameRows (sameRows_byNick nick sameRows_dropContact)
  | loadRecipients => exact onlyProcesses_of_sameRows (steps_pure _)
  | forwardCommand a cmd => exact onlyProcesses_of_sameRows (sameRows_forwardCmd a cmd)
  | forwardCommandByNick nick cmd =>
      exact onlyProcesses_of_sameRows (sameRows_byNick nick fun a => sameRows_forwardCmd a cmd)
  | subscribePresenceByNick nick =>
      exact onlyProcesses_of_sameRows (sameRows_byNick nick fun a => sameRows_waSend _)

theorem onlyProcesses_handleCbCommand (c : ControlBotCommand) :
    OnlyProcesses (handleCbCommand c) := by
  apply onlyProcesses_of_sameRows
  cases c with
  | log line => exact Steps.bind steps_get fun _ => sameRows_push _ _ _ _
  | reportFailure fail =>
      refine Steps.bind steps_get fun l => ?_
      cases adminUuid l with
      | some admu => exact sameRows_push _ _ _ _
      | none => exact steps_pure _
  | commandResponse resp => exact sameRows_controlResponse resp
  | processGroups => exact sameRows_processGroups

theorem onlyProcesses_connect : OnlyProcesses connect :=
  onlyProcesses_of_sameRows (Steps.bind sameRows_doCapabAndServer
    fun _ => sameRows_modify fun _ => ⟨rfl, rfl, rfl, le_rfl⟩)

/-- What an event that is not a use of the database by another part of the
program does. -/
theorem via_of_next {s t : Session} {e : Event} (he : ∀ op, e ≠ .storeOp op)
    (hnext : next s e = some t) :
    Via s.link (match t.outcome with
      | none => .ok ()
      | some e => .error e) t.link := by
  have hvia : ∀ p : LinkM Unit, OnlyProcesses p → Via s.link (match (perform s p).outcome with
      | none => .ok ()
      | some e => .error e) (perform s p).link := by
    intro p hp
    have h := hp s.link
    unfold wp at h
    unfold perform
    rcases hrun : exec p s.link with ⟨e | _, l⟩
    · rw [hrun] at h
      exact h
    · rw [hrun] at h
      exact h
  unfold next at hnext
  split at hnext
  swap
  · cases hnext
  cases e with
  | connect =>
      simp only [step] at hnext
      split at hnext
      · cases hnext
        exact hvia _ onlyProcesses_connect
      · cases hnext
  | remote m =>
      simp only [step] at hnext
      split at hnext
      · cases hnext
      · cases hnext
        exact hvia _ (onlyProcesses_handleRemoteMessage m)
  | cb c =>
      simp only [step] at hnext
      split at hnext
      · cases hnext
        exact hvia _ (onlyProcesses_handleCbCommand c)
      · cases hnext
  | cf c =>
      simp only [step] at hnext
      split at hnext
      · cases hnext
        exact hvia _ (onlyProcesses_handleCfCommand c)
      · cases hnext
  | storeOp op => exact absurd rfl (he op)
  | clock now dbNow =>
      cases hnext
      exact .inl ⟨rfl, rfl, rfl, le_rfl⟩

/-- The deeds of a run of `process_messages`: all of `ds` were done, up to the
state `w`; then one of `es` may have been interrupted. -/
structure PassTo (u w v : InspLink) (ds es : List Deed) : Prop where
  pass : ∃ msgs, (∀ m ∈ msgs, m ∈ u.store.messages.rows) ∧
    ∃ u', Idle u u' ∧ Processed msgs u' w ds
  last : es.length ≤ 1 ∧ ∀ d ∈ es, ∃ msg ∈ u.store.messages.rows, Meant w msg d
  stopped : Stopped es w v

theorem passTo_of_run {u v : InspLink} {r : Except Failure Unit}
    (hrun : exec processMessages u = (r, v)) :
    ∃ w ds es, PassTo u w v ds es ∧ (r = .ok () → w = v ∧ es = []) := by
  have htick : Idle u { u with store := u.store.tick } := idle_store rfl rfl fun _ h => h
  have hidle : ∀ w, Idle u w → PassTo u w w [] [] :=
    fun w hw => ⟨⟨[], by simp, w, hw, .nil w⟩, by simp, [], List.nil_prefix, by simp⟩
  have h := wp_processMessages_deeds u
  unfold wp at h
  rw [hrun] at h
  rcases r with e | _
  · rcases h with ⟨done, msg, rest, hsplit, w, ds, hdone, es, hlen, hes, hstop⟩ | h
    · have hmem : ∀ m, m ∈ done ++ msg :: rest → m ∈ u.store.messages.rows := by
        rw [← hsplit]
        exact fun m hm => mem_snapshot.mp hm
      refine ⟨w, ds, es, ⟨⟨done, fun m hm => hmem m (by simp [hm]), _, htick, hdone⟩,
        ⟨hlen, fun d hd => ⟨msg, hmem msg (by simp), hes d hd⟩⟩, hstop⟩, by simp⟩
    · exact ⟨v, [], [], hidle v h, by simp⟩
  · rcases h with ⟨_, rfl⟩ | ⟨_, ds, hds⟩
    · exact ⟨v, [], [], hidle v (idle_refl v), by simp⟩
    · exact ⟨v, ds, [], ⟨⟨_, fun m hm => mem_snapshot.mp hm, _, htick, hds⟩, by simp, [],
        List.nil_prefix, by simp⟩, by simp⟩

theorem PassTo.did {u w v : InspLink} {ds es : List Deed} (h : PassTo u w v ds es) :
    Did ds u w := by
  obtain ⟨_, _, _, hidle, hds⟩ := h.pass
  exact (did_of_idle hidle).append hds.did

/-- The calls of an event are those of some deeds with rows that were stored; the
last of them may have been interrupted, if the event has ended the link. -/
structure Happened (s t : Session) (ds : List Deed) : Prop where
  calls : t.outcome = none → t.link.calls = s.link.calls ++ ds.flatMap Deed.calls
  stopped : Stopped ds s.link t.link
  stored : ∀ d ∈ ds, ∀ m ∈ d.rows, m ∈ s.link.store.messages.rows

/-- The deeds of a run, event by event. -/
inductive Trace : Session → List Event → Session → List Deed → Prop where
  | nil (s : Session) : Trace s [] s []
  | cons {s t u : Session} {e : Event} {es : List Event} {ds ds' : List Deed}
      (hnext : next s e = some t) (hhap : Happened s t ds) (hrest : Trace t es u ds') :
      Trace s (e :: es) u (ds ++ ds')

/-- A deed was meant for a row that is stored, and in a state without rows that
are not stored. -/
def MeantFrom (l : InspLink) (d : Deed) : Prop :=
  ∃ msg ∈ l.store.messages.rows, ∃ u : InspLink,
    (∀ m ∈ u.store.messages.rows, m ∈ l.store.messages.rows) ∧ Meant u msg d

theorem stored_of_meantFrom {l : InspLink} {d : Deed} (h : MeantFrom l d) :
    ∀ m ∈ d.rows, m ∈ l.store.messages.rows := by
  obtain ⟨msg, hmsg, u, hu, hmeant⟩ := h
  intro m hm
  cases d with
  | alone nick text dest row =>
      rw [List.mem_singleton.mp hm, hmeant.1]
      exact hmsg
  | joined nick text dest target parts =>
      obtain ⟨_, _, _, _, _, hperm, _⟩ := hmeant
      exact hu m (List.mem_of_mem_filter (hperm.subset hm))
  | reported nick err => simp [Deed.rows] at hm

theorem meantFrom_of_processed {msgs : List Message} {s t : InspLink} {ds : List Deed}
    (h : Processed msgs s t ds) (hmsgs : ∀ m ∈ msgs, m ∈ s.store.messages.rows) :
    ∀ d ∈ ds, MeantFrom s d := by
  suffices hgen : ∀ rows : List Message, (∀ m ∈ msgs, m ∈ rows) →
      (∀ m ∈ s.store.messages.rows, m ∈ rows) → ∀ d ∈ ds, ∃ msg ∈ rows, ∃ u : InspLink,
        (∀ m ∈ u.store.messages.rows, m ∈ rows) ∧ Meant u msg d from
    hgen _ hmsgs fun _ h => h
  clear hmsgs
  induction h with
  | nil l => simp
  | @cons msg msgs s t u ds es hrow hrest ih =>
      intro rows hmsgs hs d hd
      rcases List.mem_append.mp hd with hd | hd
      · rcases hrow.2 with ⟨d', rfl, hmeant, _⟩ | ⟨rfl, _⟩
        · rw [List.mem_singleton.mp hd]
          exact ⟨msg, hmsgs msg (by simp), s, hs, hmeant⟩
        · simp at hd
      · refine ih rows (fun m hm => hmsgs m (by simp [hm])) (fun m hm => hs m ?_) d hd
        rw [hrow.1.left] at hm
        exact List.mem_of_mem_filter hm

theorem PassTo.meantFrom {u w v : InspLink} {ds es : List Deed} (h : PassTo u w v ds es) :
    ∀ d ∈ ds ++ es, MeantFrom u d := by
  obtain ⟨msgs, hmsgs, u', hidle, hds⟩ := h.pass
  intro d hd
  rcases List.mem_append.mp hd with hd | hd
  · have hfrom := meantFrom_of_processed hds (by rw [hidle.messages]; exact hmsgs) d hd
    rw [MeantFrom, hidle.messages] at hfrom
    exact hfrom
  · obtain ⟨msg, hmsg, hmeant⟩ := h.last.2 d hd
    refine ⟨msg, hmsg, w, fun m hm => ?_, hmeant⟩
    rw [h.did.left] at hm
    exact List.mem_of_mem_filter hm

theorem SameRows.stopped {s t : InspLink} (h : SameRows s t) : Stopped [] s t :=
  ⟨[], List.nil_prefix, by simp [h.calls]⟩

theorem storeOp_calls {s t : Session} {op : StoreOp} (hnext : next s (.storeOp op) = some t) :
    t = { s with link := { s.link with store := (exec op.run s.link.store).2 } } := by
  unfold next at hnext
  split at hnext
  · exact (Option.some.inj hnext).symm
  · cases hnext

/-- The rows that a use of the database may insert. -/
def StoredBy : StoreOp → Message → Prop
  | .smsMessage addr raw csms, m => m.phoneNumber = normalizeAddress addr ∧
      m.pdu = some raw ∧ m.csmsData = csms ∧ m.groupTarget = none
  | .waMessage _ _ _ _, m => m.pdu = none ∧ m.csmsData = none
  | _, _ => False

/-- What a use of the database by another part of the program may do to the
stored messages: it inserts one, or drops those of a group. -/
def RowsChange (op : StoreOp) (st st' : Store) : Prop :=
  ∃ keep : Message → Bool, ∃ new, (∀ m, m.groupTarget = none → keep m = true) ∧
    new.length ≤ 1 ∧ (∀ m ∈ new, StoredBy op m) ∧
    st'.messages.rows = st.messages.rows.filter keep ++ new

theorem rowsChange_of_eq {op : StoreOp} {st st' : Store} (h : st'.messages = st.messages) :
    RowsChange op st st' :=
  ⟨fun _ => true, [], fun _ _ => rfl, by simp, by simp, by simp [h]⟩

theorem rowsChange_insert {op : StoreOp} {st st' : Store} {m : Message}
    (h : st'.messages.rows = st.messages.rows ++ [m]) (hm : StoredBy op m) :
    RowsChange op st st' := by
  refine ⟨fun _ => true, [m], fun _ _ => rfl, le_rfl, fun q hq => ?_, by simpa using h⟩
  rw [List.mem_singleton.mp hq]
  exact hm

/-- The stored messages do not change. -/
def SameMessages (st st' : Store) : Prop := st'.messages = st.messages

instance : IsPreorder Store SameMessages where
  refl _ := rfl
  trans _ _ _ hst htu := Eq.trans htu hst

theorem sameMessages_query {α : Type} (f : Store → α) : Moves SameMessages (query f) :=
  fun _ => wp_query_of ⟨rfl, trivial⟩ rfl

theorem sameMessages_insertRecipient (addr : PduAddress) (row : Nat → Recipient)
    (hrow : ∀ n, (row n).id = n) : Moves SameMessages (insertRecipient addr row hrow) := by
  refine Steps.bind (sameMessages_query _) fun taken => ?_
  split
  · exact steps_throw trivial
  · exact steps_get_bind fun _ => rfl

theorem rowsChange_storeOp (op : StoreOp) : Moves (RowsChange op) op.run := by
  have hquiet : Moves SameMessages op.run → Moves (RowsChange op) op.run :=
    fun h => h.mono fun _ _ hst => rowsChange_of_eq hst
  cases op with
  | smsMessage addr raw csms =>
      exact fun st => wp_execute_of ⟨rowsChange_of_eq rfl, trivial⟩
        (rowsChange_insert rfl ⟨rfl, rfl, rfl, rfl⟩)
  | waMessage addr text gt ts =>
      intro st
      rw [StoreOp.run, storeWaMessage, wp_bind]
      apply wp_query_of ⟨rowsChange_of_eq rfl, trivial⟩
      split
      · exact rowsChange_insert rfl ⟨rfl, rfl⟩
      · exact ⟨rowsChange_of_eq rfl, trivial⟩
  | recipient addr nick =>
      exact hquiet (Steps.bind (sameMessages_insertRecipient _ _ _) fun _ => steps_pure _)
  | waRecipient addr nick ntf nicksrc =>
      exact hquiet (Steps.bind (sameMessages_insertRecipient _ _ _) fun _ => steps_pure _)
  | notify addr n => exact hquiet fun _ => wp_execute_of ⟨rfl, trivial⟩ rfl
  | group jid chan parts adms topic =>
      refine hquiet (Steps.bind (Steps.bind (sameMessages_query _) fun taken => ?_)
        fun _ => steps_pure _)
      split
      · exact steps_throw trivial
      · exact steps_get_bind fun _ => rfl
  | updateGroup jid parts adms topic =>
      refine hquiet (Steps.bind (Steps.bind (fun _ => wp_execute_of ⟨rfl, trivial⟩ rfl)
        fun _ => Steps.bind steps_get fun st => ?_) fun _ => steps_pure _)
      split
      · exact steps_pure _
      · exact steps_throw trivial
  | deleteGroup id =>
      intro st
      rw [StoreOp.run, deleteGroupWithId, wp_bind]
      apply wp_query_of ⟨rowsChange_of_eq rfl, trivial⟩
      split
      · exact ⟨fun m => m.groupTarget ≠ some id, [], fun m hm => by simp [hm], by simp, by simp,
          by simp⟩
      · exact ⟨rowsChange_of_eq rfl, trivial⟩
  | waMsgid id => exact hquiet fun _ => wp_execute_of ⟨rfl, trivial⟩ rfl
  | waPersistence p => exact hquiet fun _ => wp_execute_of ⟨rfl, trivial⟩ rfl

/-- What an event that is not a use of the database does: its deeds, those that
it has completed and at most one that it has not. -/
theorem happened_of_next {s t : Session} {e : Event} (he : ∀ op, e ≠ .storeOp op)
    (hnext : next s e = some t) :
    (SameRows s.link t.link ∧ Happened s t []) ∨ ∃ u w ds es, SameRows s.link u ∧
      PassTo u w t.link ds es ∧ (t.outcome = none → w = t.link ∧ es = []) ∧
      Happened s t (ds ++ es) := by
  rcases via_of_next he hnext with h | ⟨u, hu, hrun⟩
  · exact .inl ⟨h, fun _ => by simp [h.calls], h.stopped, by simp⟩
  · obtain ⟨w, ds, es, hpass, hok⟩ := passTo_of_run hrun
    have hend : t.outcome = none → w = t.link ∧ es = [] := by
      intro hout
      exact hok (by rw [hout])
    refine .inr ⟨u, w, ds, es, hu, hpass, hend, ?_, ?_, ?_⟩
    · intro hout
      obtain ⟨rfl, rfl⟩ := hend hout
      rw [hpass.did.calls, hu.calls, List.append_nil]
    · obtain ⟨made, hmade, hcalls⟩ := hpass.did.stopped hpass.stopped
      exact ⟨made, hmade, by rw [hcalls, hu.calls]⟩
    · intro d hd m hm
      rw [← hu.messages]
      exact stored_of_meantFrom (hpass.meantFrom d hd) m hm

end History

end SmsIrc.LinkHistory
