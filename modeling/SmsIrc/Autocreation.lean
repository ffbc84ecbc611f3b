import SmsIrc.Traces
import SmsIrc.WhatsappMetadata

/-!
`on_got_group_metadata` and `group_autocreate` call each other: the row that is written in
between ends it.
-/

namespace SmsIrc.Autocreation

open SmsIrc.Comm SmsIrc.Database SmsIrc.External SmsIrc.Logging SmsIrc.Models SmsIrc.Program
open SmsIrc.SenderCommon SmsIrc.SerialTable SmsIrc.Text SmsIrc.Traces SmsIrc.Util
open SmsIrc.Whatsapp SmsIrc.WhatsappMetadata
open SmsIrc.WhatsappFrame (wp_store)
open SmsIrc.WhatsappRuns (setStore)

/-- An error that is not that of a recursion too deep. -/
def Ends (e : Failure) : Prop := e ≠ .panic .stackOverflow

theorem ends_db : Ends .db := nofun

theorem ends_error (msg : Str) : Ends (.error msg) := nofun

section Autocreation

variable [Crates]

/-- The calls that are noted; that of `store_group` with the groups that there are. -/
inductive Call where
  | gotMetadata (grp : GroupMetadata)
  | autocreate (metadata : GroupMetadata)
  | storeGroup (jid : Jid) (chan : Str) (groups : List Group)

abbrev TraceM := Traced Failure WhatsappManager Call

/-- The end of `group_associate`, from its call of `store_group` on. -/
def storeAssociation (jid : Jid) (chan : Str) (requestUpdate : Bool) : WaM Nat := do
  let grp ← store (storeGroup jid chan [] []
    ("*** Group setup in progress, please wait... ***" : Str))
  when requestUpdate (requestUpdateGroup jid)
  onGroupsChanged
  pure grp.id

/-- `group_associate`, with its notes. -/
def tracedAssociate (jid : Jid) (chan : Str) (requestUpdate : Bool) : TraceM Nat := do
  lift (checkUnbridged jid)
  lift (checkUnused chan)
  lift (checkOnline jid)
  note fun m => .storeGroup jid chan m.msgproc.store.groups.rows
  lift (storeAssociation jid chan requestUpdate)

/-- `group_autocreate`, with its notes. -/
def tracedAutocreate (gotMetadata : GroupMetadata → TraceM Unit) (metadata : GroupMetadata) :
    TraceM (Nat × Str) := do
  note fun _ => .autocreate metadata
  let chan ← lift (autocreateChan metadata.subject)
  let id ← tracedAssociate metadata.id chan false
  gotMetadata metadata
  pure (id, chan)

/-- The start of `on_got_group_metadata`, with its notes. -/
def tracedBridge (gotMetadata : GroupMetadata → TraceM Unit) (grp : GroupMetadata) :
    TraceM Unit := do
  match ← lift (store (getGroupByJidOpt grp.id)) with
  | some g =>
      lift (logRecord .info (("Got metadata for group '" : Str) ++ grp.subject ++
        ("' (jid " : Str) ++ Crates.displayJid grp.id ++ (", id " : Str) ++ decimal g.id ++ [')']))
  | none => do
      lift (logRecord .warn (("Got metadata for unbridged group '" : Str) ++ grp.subject ++
        ("' (jid " : Str) ++ Crates.displayJid grp.id ++ [')']))
      let m ← lift get
      when m.autocreate.isSome do
        let r ← attempt (tracedAutocreate gotMetadata grp)
        lift (reportAutocreation grp r)

/-- `on_got_group_metadata`, with its notes. -/
def tracedMetadata : Nat → GroupMetadata → TraceM Unit
  | 0, _ => throw (.panic .stackOverflow)
  | depth + 1, grp => do
      note fun _ => .gotMetadata grp
      tracedBridge (tracedMetadata depth) grp
      lift (updateFromMetadata grp)

theorem erases_attempt {α : Type} {q : TraceM α} {p : WaM α} (h : Erases q p) :
    Erases (attempt q) (attempt p) := by
  intro s
  rw [exec_attempt, exec_attempt, h s]

theorem erases_associate (jid : Jid) (chan : Str) (requestUpdate : Bool) :
    Erases (tracedAssociate jid chan requestUpdate) (groupAssociate jid chan requestUpdate) :=
  (erases_lift _).bind fun _ => (erases_lift _).bind fun _ => (erases_lift _).bind fun _ =>
    (erases_lift (storeAssociation jid chan requestUpdate)).note _

theorem erases_autocreate {traced : GroupMetadata → TraceM Unit}
    {gotMetadata : GroupMetadata → WaM Unit} (metadata : GroupMetadata)
    (h : Erases (traced metadata) (gotMetadata metadata)) :
    Erases (tracedAutocreate traced metadata) (groupAutocreate gotMetadata metadata) := by
  apply Erases.note
  apply (erases_lift _).bind
  intro chan
  apply (erases_associate metadata.id chan false).bind
  intro id
  exact h.bind fun _ => erases_pure _

theorem erases_bridge {traced : GroupMetadata → TraceM Unit}
    {gotMetadata : GroupMetadata → WaM Unit} (grp : GroupMetadata)
    (h : Erases (traced grp) (gotMetadata grp)) :
    Erases (tracedBridge traced grp) (bridgeFromMetadata gotMetadata grp) := by
  apply (erases_lift _).bind
  intro g
  cases g with
  | some g => exact erases_lift _
  | none =>
      apply (erases_lift _).bind
      intro _
      apply (erases_lift _).bind
      intro m
      apply Erases.when
      exact (erases_attempt (erases_autocreate grp h)).bind fun _ => erases_lift _

theorem erases_metadata (depth : Nat) (grp : GroupMetadata) :
    Erases (tracedMetadata depth grp) (onGotGroupMetadata depth grp) := by
  induction depth with
  | zero => exact erases_throw _
  | succ depth ih =>
      apply Erases.note
      exact (erases_bridge grp ih).bind fun _ => erases_lift _

/-- Which groups there are, and what they are called. -/
def keys (st : Store) : List (Nat × Str × Str) :=
  st.groups.rows.map fun g => (g.id, g.jid, g.channel)

def SameKeys (st st' : Store) : Prop := keys st' = keys st

instance : IsPreorder Store SameKeys where
  refl _ := rfl
  trans _ _ _ h h' := h'.trans h

/-- The same of the database of a manager. -/
def SameGroupKeys (m t : WhatsappManager) : Prop := SameKeys m.msgproc.store t.msgproc.store

instance : IsPreorder WhatsappManager SameGroupKeys where
  refl m := refl (r := SameKeys) m.msgproc.store
  trans _ _ _ h h' := IsTrans.trans (r := SameKeys) _ _ _ h h'

/-- No group is stored, and the computation ends. -/
abbrev Calm {α : Type} (p : WaM α) : Prop := Steps SameGroupKeys Ends p

theorem calm_store {α : Type} {p : StoreM α} (h : Steps SameKeys Ends p) :
    Calm (store p : WaM α) := Steps.zoom h fun _ _ ht => ht

theorem calm_modify {f : WhatsappManager → WhatsappManager}
    (h : ∀ m, (f m).msgproc = m.msgproc) : Calm (modify f) := by
  apply steps_modify
  intro m
  show keys (f m).msgproc.store = keys m.msgproc.store
  rw [h]

theorem calm_cfSend (c : ContactFactoryCommand) : Calm (cfSend c) := calm_modify fun _ => rfl

theorem calm_logRecord (level : Level) (args : Str) : Calm (logRecord level args) :=
  calm_modify fun _ => rfl

theorem calm_onGroupsChanged : Calm onGroupsChanged :=
  (calm_cfSend _).bind fun _ => calm_modify fun _ => rfl

theorem sameKeys_query {α : Type} (f : Store → α) : Steps SameKeys Ends (query f) :=
  fun _ => wp_query_of ⟨rfl, ends_db⟩ rfl

theorem calm_query {α : Type} (f : Store → α) : Calm (store (query f) : WaM α) :=
  calm_store (sameKeys_query f)

theorem sameKeys_insertRecipient (addr : PduAddress) {row : Nat → Recipient}
    (hrow : ∀ n, (row n).id = n) : Steps SameKeys Ends (insertRecipient addr row hrow) := by
  apply Steps.bind (sameKeys_query _)
  intro taken
  split
  · exact steps_throw ends_db
  · exact steps_get_bind fun _ => rfl

theorem sameKeys_updateGroup (jid : Jid) (parts adms : List Nat) (topic : Str) :
    Steps SameKeys Ends (updateGroup jid parts adms topic) := by
  apply Steps.bind
  · apply Steps.bind (sameKeys_query _)
    intro _
    apply steps_modify
    intro st
    show List.map _ (List.map _ _) = List.map _ _
    rw [List.map_map]
    apply List.map_congr_left
    intro g _
    show (fun g : Group => (g.id, g.jid, g.channel)) (if _ then _ else g) = _
    split <;> rfl
  · intro _
    apply Steps.bind steps_get
    intro st
    split
    · exact steps_pure _
    · exact steps_throw ends_db

theorem calm_jidToAddress (jid : Jid) : Calm (jidToAddress jid : WaM (Option PduAddress)) := by
  unfold jidToAddress
  split
  · rename_i pn _
    cases Crates.parseAddress pn with
    | none => exact steps_throw (P := Ends) nofun
    | some addr => exact steps_pure _
  · exact steps_pure _

theorem calm_getNickForJid (jid : Jid) : Calm (getNickForJid jid) := by
  apply Steps.bind steps_get
  intro m
  dsimp only
  split
  · exact steps_pure _
  · exact steps_pure _
  · apply Steps.bind (calm_jidToAddress jid)
    intro addr
    split
    · exact steps_pure _
    · exact steps_throw (ends_error _)

theorem calm_getWaRecipient (jid : Jid) : Calm (getWaRecipient jid) := by
  apply Steps.bind (calm_jidToAddress jid)
  intro addr
  cases addr with
  | none => exact steps_throw (ends_error _)
  | some addr =>
      apply Steps.bind (calm_query _)
      intro recip
      cases recip with
      | some recip => exact steps_pure _
      | none =>
          apply Steps.bind (calm_getNickForJid jid)
          intro nick
          apply Steps.bind steps_get
          intro m
          apply Steps.bind (calm_store (sameKeys_insertRecipient addr _))
          intro recip
          exact (calm_cfSend _).bind fun _ => steps_pure _

theorem calm_updateFromMetadata (grp : GroupMetadata) : Calm (updateFromMetadata grp) := by
  apply Steps.bind
  · apply Steps.mapM
    intro p
    exact Steps.bind (calm_getWaRecipient p.1) fun _ => steps_pure _
  · intro recips
    apply Steps.bind (calm_store (sameKeys_updateGroup _ _ _ _))
    intro _
    exact calm_onGroupsChanged

theorem calm_autocreateChan (subject : Str) : Calm (autocreateChan subject) := by
  apply Steps.bind steps_get
  intro m
  cases m.autocreate with
  | none => exact steps_throw (P := Ends) nofun
  | some pre => exact steps_pure _

theorem calm_reportAutocreation (grp : GroupMetadata) (r : Except Failure (Nat × Str)) :
    Calm (reportAutocreation grp r) := by
  unfold reportAutocreation
  split <;> exact calm_modify fun _ => rfl

/-- Nothing is noted besides. -/
def Silent (s t : WhatsappManager × List Call) : Prop := SameGroupKeys s.1 t.1 ∧ t.2 = s.2

instance : IsPreorder (WhatsappManager × List Call) Silent where
  refl s := ⟨refl (r := SameGroupKeys) s.1, rfl⟩
  trans _ _ _ h h' := ⟨IsTrans.trans (r := SameGroupKeys) _ _ _ h.1 h'.1, h'.2.trans h.2⟩

theorem silent_lift {α : Type} {p : WaM α} (h : Calm p) :
    Steps Silent Ends (lift p : TraceM α) := Steps.zoom h fun _ _ ht => ⟨ht, rfl⟩

/-- Neither the group has a row, nor the channel. -/
def Absent (groups : List Group) (jid : Jid) (chan : Str) : Prop :=
  ∀ g ∈ groups, g.jid ≠ Crates.displayJid jid ∧ g.channel ≠ chan

theorem hasRow_iff_keys {st : Store} {jid : Jid} :
    HasRow st jid ↔ ∃ id chan, (id, Crates.displayJid jid, chan) ∈ keys st := by
  constructor
  · rintro ⟨g, hg, hjid⟩
    exact ⟨g.id, g.channel, List.mem_map.mpr ⟨g, hg, by rw [hjid]⟩⟩
  · rintro ⟨id, chan, hmem⟩
    obtain ⟨g, hg, heq⟩ := List.mem_map.mp hmem
    exact ⟨g, hg, congrArg (fun k => k.2.1) heq⟩

/-- What has passed a check, the groups being the same after it. -/
def Passed (m : WhatsappManager) (P : Group → Prop) (t : WhatsappManager) : Prop :=
  t.msgproc.store.groups = m.msgproc.store.groups ∧ ∀ g ∈ m.msgproc.store.groups.rows, P g

theorem Passed.same {m t : WhatsappManager} {P : Group → Prop} (h : Passed m P t) :
    SameGroupKeys m t := by
  show keys t.msgproc.store = keys m.msgproc.store
  unfold keys
  rw [h.1]

theorem wp_checkUnbridged (jid : Jid) (m : WhatsappManager) :
    wp (checkUnbridged jid) (fun _ t => Passed m (fun g => g.jid ≠ Crates.displayJid jid) t)
      (fun e t => SameGroupKeys m t ∧ Ends e) m := by
  rw [checkUnbridged, wp_bind, wp_store, getGroupByJidOpt]
  apply wp_query_of ⟨rfl, ends_db⟩
  split
  · exact ⟨rfl, ends_error _⟩
  · rename_i hnone
    refine ⟨rfl, fun g hg => ?_⟩
    have hno := List.find?_eq_none.mp hnone g hg
    rwa [decide_eq_true_eq] at hno

theorem wp_checkUnused (chan : Str) (m : WhatsappManager) :
    wp (checkUnused chan) (fun _ t => Passed m (fun g => g.channel ≠ chan) t)
      (fun e t => SameGroupKeys m t ∧ Ends e) m := by
  rw [checkUnused, wp_bind, wp_store, getGroupByChanOpt]
  apply wp_query_of ⟨rfl, ends_db⟩
  split
  · exact ⟨rfl, ends_error _⟩
  · rename_i hnone
    refine ⟨rfl, fun g hg => ?_⟩
    have hno := List.find?_eq_none.mp hnone g hg
    rwa [decide_eq_true_eq] at hno

theorem wp_checkOnline (jid : Jid) (m : WhatsappManager) :
    wp (checkOnline jid) (fun _ t => m = t) (fun e t => m = t ∧ Ends e) m := by
  rw [checkOnline, wp_bind, wp_get]
  split
  · exact ⟨rfl, ends_error _⟩
  · split
    · exact ⟨rfl, ends_error _⟩
    · rfl

theorem wp_storeGroup (jid : Jid) (chan topic : Str) (st : Store) :
    wp (storeGroup jid chan [] [] topic)
      (fun _ t => ∃ id, keys t = keys st ++ [(id, Crates.displayJid jid, chan)])
      (fun e t => SameKeys st t ∧ Ends e) st := by
  unfold storeGroup
  dsimp only
  rw [wp_bind]
  apply wp_query_of ⟨rfl, ends_db⟩
  split
  · exact ⟨rfl, ends_db⟩
  · rw [wp_bind, wp_get, wp_bind, wp_set, wp_pure]
    exact ⟨st.groups.next, List.map_append⟩

theorem wp_storeAssociation (jid : Jid) (chan : Str) (requestUpdate : Bool)
    (m : WhatsappManager) :
    wp (storeAssociation jid chan requestUpdate)
      (fun _ t => ∃ id, keys t.msgproc.store =
        keys m.msgproc.store ++ [(id, Crates.displayJid jid, chan)])
      (fun e t => SameGroupKeys m t ∧ Ends e) m := by
  rw [storeAssociation, wp_bind, wp_store]
  refine wp_mono (wp_storeGroup jid chan _ m.msgproc.store) ?_ fun _ _ he => he
  rintro grp st ⟨id, hkeys⟩
  -- The rest is sure to succeed.
  rw [wp_bind, wp_when]
  split
  · exact ⟨id, hkeys⟩
  · exact ⟨id, hkeys⟩

/-- What an attempt to bridge a group comes to: which groups there are after it, and which
calls it makes. -/
inductive Attempted (metadata : GroupMetadata) (ks : List (Nat × Str × Str)) :
    List (Nat × Str × Str) → List Call → Prop
  | early : Attempted metadata ks ks [.autocreate metadata]
  | refused {chan : Str} {groups : List Group} (h : Absent groups metadata.id chan) :
      Attempted metadata ks ks [.autocreate metadata, .storeGroup metadata.id chan groups]
  | stored {id : Nat} {chan : Str} {groups : List Group} (h : Absent groups metadata.id chan) :
      Attempted metadata ks (ks ++ [(id, Crates.displayJid metadata.id, chan)])
        [.autocreate metadata, .storeGroup metadata.id chan groups, .gotMetadata metadata]

/-- The same for metadata that have been got. -/
inductive Handled (grp : GroupMetadata) (ks : List (Nat × Str × Str)) :
    List (Nat × Str × Str) → List Call → Prop
  | known : Handled grp ks ks [.gotMetadata grp]
  | attempted {ks' : List (Nat × Str × Str)} {calls : List Call}
      (h : Attempted grp ks ks' calls) : Handled grp ks ks' (.gotMetadata grp :: calls)

/-- What has been noted since, and what the groups have become. -/
def Since (P : List (Nat × Str × Str) → List (Nat × Str × Str) → List Call → Prop)
    (s t : WhatsappManager × List Call) : Prop :=
  ∃ calls, t.2 = s.2 ++ calls ∧ P (keys s.1.msgproc.store) (keys t.1.msgproc.store) calls

theorem since_of {P : List (Nat × Str × Str) → List (Nat × Str × Str) → List Call → Prop}
    {s t : WhatsappManager × List Call} {ks : List (Nat × Str × Str)} {calls : List Call}
    (hcalls : t.2 = s.2 ++ calls) (hkeys : keys t.1.msgproc.store = ks)
    (h : P (keys s.1.msgproc.store) ks calls) : Since P s t := ⟨calls, hcalls, hkeys.symm ▸ h⟩

theorem Since.silent {P : List (Nat × Str × Str) → List (Nat × Str × Str) → List Call → Prop}
    {s t u : WhatsappManager × List Call} (h : Since P s t) (htu : Silent t u) : Since P s u := by
  obtain ⟨calls, hcalls, hP⟩ := h
  exact since_of (htu.2.trans hcalls) htu.1 hP

theorem Since.after {P : List (Nat × Str × Str) → List (Nat × Str × Str) → List Call → Prop}
    {s t u : WhatsappManager × List Call} (hst : Silent s t) (h : Since P t u) : Since P s u := by
  obtain ⟨calls, hcalls, hP⟩ := h
  have hkeys : keys t.1.msgproc.store = keys s.1.msgproc.store := hst.1
  rw [hst.2] at hcalls
  rw [hkeys] at hP
  exact ⟨calls, hcalls, hP⟩

theorem wp_tracedAssociate (jid : Jid) (chan : Str) (requestUpdate : Bool)
    (s : WhatsappManager × List Call) :
    wp (tracedAssociate jid chan requestUpdate)
      (fun _ t => ∃ id groups, Absent groups jid chan ∧ keys t.1.msgproc.store =
        keys s.1.msgproc.store ++ [(id, Crates.displayJid jid, chan)] ∧
          t.2 = s.2 ++ [.storeGroup jid chan groups])
      (fun e t => (SameGroupKeys s.1 t.1 ∧ (t.2 = s.2 ∨ ∃ groups, Absent groups jid chan ∧
        t.2 = s.2 ++ [.storeGroup jid chan groups])) ∧ Ends e) s := by
  rw [tracedAssociate, wp_bind, wp_lift]
  refine wp_mono (wp_checkUnbridged jid s.1) ?_ fun _ _ he => ⟨⟨he.1, .inl rfl⟩, he.2⟩
  intro _ t ht
  rw [wp_bind, wp_lift]
  refine wp_mono (wp_checkUnused chan t) ?_ fun _ _ he =>
    ⟨⟨IsTrans.trans _ _ _ ht.same he.1, .inl rfl⟩, he.2⟩
  intro _ u hu
  have hsu : SameGroupKeys s.1 u := IsTrans.trans _ _ _ ht.same hu.same
  rw [wp_bind, wp_lift]
  refine wp_mono (wp_checkOnline jid u) ?_ ?_
  swap
  · rintro e _ ⟨rfl, he⟩
    exact ⟨⟨hsu, .inl rfl⟩, he⟩
  rintro _ _ rfl
  have habsent : Absent u.msgproc.store.groups.rows jid chan := by
    intro g hg
    rw [hu.1] at hg
    exact ⟨ht.2 g (ht.1 ▸ hg), hu.2 g hg⟩
  rw [wp_bind, wp_note, wp_lift]
  refine wp_mono (wp_storeAssociation jid chan requestUpdate u) ?_ ?_
  · rintro _ v ⟨id, hv⟩
    exact ⟨id, _, habsent, hv.trans (congrArg (· ++ _) hsu), rfl⟩
  · rintro e v ⟨hv, he⟩
    exact ⟨⟨IsTrans.trans _ _ _ hsu hv, .inr ⟨_, habsent, rfl⟩⟩, he⟩

theorem wp_getGroup (jid : Jid) (s : WhatsappManager × List Call) :
    wp (lift (store (getGroupByJidOpt jid)) : TraceM (Option Group))
      (fun g t => Silent s t ∧ (HasRow s.1.msgproc.store jid → g.isSome = true))
      (fun e t => Silent s t ∧ Ends e) s := by
  rw [wp_lift, wp_store, getGroupByJidOpt]
  apply wp_query_of
  · exact ⟨⟨rfl, rfl⟩, ends_db⟩
  · refine ⟨⟨rfl, rfl⟩, ?_⟩
    rintro ⟨g, hg, hjid⟩
    rw [List.find?_isSome]
    exact ⟨g, hg, decide_eq_true hjid⟩

theorem exec_tracedBridge_bridged {grp : GroupMetadata} {s : WhatsappManager × List Call}
    (h : HasRow s.1.msgproc.store grp.id) (got got' : GroupMetadata → TraceM Unit) :
    exec (tracedBridge got grp) s = exec (tracedBridge got' grp) s := by
  unfold tracedBridge
  rcases hrun : exec (lift (store (getGroupByJidOpt grp.id)) : TraceM (Option Group)) s with
    ⟨e | g, t⟩
  · rw [exec_bind_error hrun, exec_bind_error hrun]
  · rw [exec_bind_ok hrun, exec_bind_ok hrun]
    have hsome := (wp_of_ok hrun (wp_getGroup grp.id s)).2 h
    cases g with
    | none => cases hsome
    | some g => rfl

theorem exec_tracedMetadata_bridged {grp : GroupMetadata} {s : WhatsappManager × List Call}
    (h : HasRow s.1.msgproc.store grp.id) (depth : Nat) :
    exec (tracedMetadata (depth + 1) grp) s = exec (tracedMetadata 1 grp) s := by
  have hnote : exec (note fun _ => Call.gotMetadata grp : TraceM PUnit) s =
      (.ok ⟨⟩, (s.1, s.2 ++ [.gotMetadata grp])) := rfl
  have hbridge := exec_tracedBridge_bridged
    (s := (s.1, s.2 ++ [.gotMetadata grp])) h (tracedMetadata depth) (tracedMetadata 0)
  rw [tracedMetadata, tracedMetadata, exec_bind_ok hnote, exec_bind_ok hnote, exec_bind,
    exec_bind, hbridge]

theorem wp_tracedMetadata_bridged {grp : GroupMetadata} {s : WhatsappManager × List Call}
    (h : HasRow s.1.msgproc.store grp.id) (depth : Nat) :
    wp (tracedMetadata (depth + 1) grp)
      (fun _ t => SameGroupKeys s.1 t.1 ∧ t.2 = s.2 ++ [.gotMetadata grp])
      (fun e t => (SameGroupKeys s.1 t.1 ∧ t.2 = s.2 ++ [.gotMetadata grp]) ∧ Ends e) s := by
  rw [tracedMetadata, wp_bind, wp_note, wp_bind, tracedBridge, wp_bind]
  refine wp_mono (wp_getGroup grp.id _) ?_ fun _ _ he => he
  rintro g t ⟨ht, hsome⟩
  cases g with
  | none => cases hsome h
  | some g =>
      refine wp_mono ((silent_lift (calm_logRecord _ _)).after ht) ?_ fun _ _ he => he
      intro _ u hu
      exact (silent_lift (calm_updateFromMetadata grp)).after hu

theorem hasRow_of_keys {st : Store} {jid : Jid} {ks : List (Nat × Str × Str)} {id : Nat}
    {chan : Str} (h : keys st = ks ++ [(id, Crates.displayJid jid, chan)]) : HasRow st jid := by
  rw [hasRow_iff_keys, h]
  exact ⟨id, chan, List.mem_append_right _ (List.mem_singleton_self _)⟩

theorem tracedAutocreate_depth (depth : Nat) :
    tracedAutocreate (tracedMetadata (depth + 1)) = tracedAutocreate (tracedMetadata 1) := by
  funext metadata
  apply eq_of_exec
  intro s
  unfold tracedAutocreate
  rw [exec_bind, exec_bind]
  rcases exec (note fun _ => Call.autocreate metadata : TraceM PUnit) s with ⟨e | _, t⟩
  · rfl
  dsimp only
  rw [exec_bind, exec_bind]
  rcases exec (lift (autocreateChan metadata.subject) : TraceM Str) t with ⟨e | chan, u⟩
  · rfl
  dsimp only
  rw [exec_bind, exec_bind]
  rcases hrun : exec (tracedAssociate metadata.id chan false) u with ⟨e | id, v⟩
  · rfl
  dsimp only
  obtain ⟨n, _, -, hkeys, -⟩ := wp_of_ok hrun (wp_tracedAssociate metadata.id chan false u)
  rw [exec_bind, exec_bind, exec_tracedMetadata_bridged (hasRow_of_keys hkeys) depth]

theorem tracedMetadata_depth (depth : Nat) (grp : GroupMetadata) :
    tracedMetadata (depth + 2) grp = tracedMetadata metadataDepth grp := by
  show tracedMetadata (depth + 1 + 1) grp = tracedMetadata (1 + 1) grp
  rw [tracedMetadata, tracedMetadata, tracedBridge, tracedBridge, tracedAutocreate_depth]

theorem wp_tracedAutocreate (depth : Nat) (metadata : GroupMetadata)
    (s : WhatsappManager × List Call) :
    wp (tracedAutocreate (tracedMetadata (depth + 1)) metadata)
      (fun _ t => Since (Attempted metadata) s t)
      (fun e t => Since (Attempted metadata) s t ∧ Ends e) s := by
  rw [tracedAutocreate, wp_bind, wp_note, wp_bind]
  refine wp_mono (silent_lift (calm_autocreateChan metadata.subject) _) ?_ ?_
  swap
  · rintro e t ⟨⟨hkeys, hcalls⟩, he⟩
    exact ⟨since_of hcalls hkeys .early, he⟩
  rintro chan t ⟨hkeys, hcalls⟩
  rw [wp_bind]
  refine wp_mono (wp_tracedAssociate metadata.id chan false t) ?_ ?_
  · rintro id u ⟨n, groups, habsent, hu, hnoted⟩
    have hdone : ∀ v, SameGroupKeys u.1 v.1 ∧ v.2 = u.2 ++ [.gotMetadata metadata] →
        Since (Attempted metadata) s v := by
      rintro v ⟨hv, hgot⟩
      have hcall : v.2 = s.2 ++
          [.autocreate metadata, .storeGroup metadata.id chan groups, .gotMetadata metadata] := by
        rw [hgot, hnoted, hcalls]
        simp
      have hrow : keys v.1.msgproc.store =
          keys s.1.msgproc.store ++ [(n, Crates.displayJid metadata.id, chan)] :=
        Eq.trans hv (hu.trans (congrArg (· ++ _) hkeys))
      exact since_of hcall hrow (.stored habsent)
    rw [wp_bind]
    refine wp_mono (wp_tracedMetadata_bridged (hasRow_of_keys hu) depth) ?_ ?_
    · intro _ v hv
      exact hdone v hv
    · intro e v hv
      exact ⟨hdone v hv.1, hv.2⟩
  · rintro e u ⟨⟨hu, hnoted⟩, he⟩
    have hsame : SameGroupKeys s.1 u.1 := IsTrans.trans _ _ _ hkeys hu
    refine ⟨?_, he⟩
    rcases hnoted with hnoted | ⟨groups, habsent, hnoted⟩
    · exact since_of (hnoted.trans hcalls) hsame .early
    · have hcall : u.2 = s.2 ++ [.autocreate metadata, .storeGroup metadata.id chan groups] := by
        rw [hnoted, hcalls]
        simp
      exact since_of hcall hsame (.refused habsent)

theorem wp_tracedBridge (depth : Nat) (grp : GroupMetadata) (s : WhatsappManager × List Call) :
    wp (tracedBridge (tracedMetadata (depth + 1)) grp)
      (fun _ t => Silent s t ∨ Since (Attempted grp) s t)
      (fun e t => (Silent s t ∨ Since (Attempted grp) s t) ∧ Ends e) s := by
  rw [tracedBridge, wp_bind]
  refine wp_mono (wp_getGroup grp.id s) ?_ fun _ _ he => ⟨.inl he.1, he.2⟩
  rintro g t ⟨ht, -⟩
  cases g with
  | some g =>
      exact wp_mono ((silent_lift (calm_logRecord _ _)).after ht) (fun _ _ hu => .inl hu)
        fun _ _ he => ⟨.inl he.1, he.2⟩
  | none =>
      dsimp only
      rw [wp_bind]
      refine wp_mono ((silent_lift (calm_logRecord _ _)).after ht) ?_ fun _ _ he =>
        ⟨.inl he.1, he.2⟩
      intro _ u hu
      rw [wp_bind, wp_lift, wp_get, wp_when]
      split
      · have hrun := wp_tracedAutocreate depth grp u
        have hreport : ∀ r v, Since (Attempted grp) u v →
            wp (lift (reportAutocreation grp r) : TraceM Unit)
              (fun _ t => Silent s t ∨ Since (Attempted grp) s t)
              (fun e t => (Silent s t ∨ Since (Attempted grp) s t) ∧ Ends e) v := by
          intro r v hv
          have hsince : ∀ w, Silent v w → Since (Attempted grp) s w :=
            fun w hw => (hv.silent hw).after hu
          exact wp_mono (silent_lift (calm_reportAutocreation grp r) v)
            (fun _ w hw => .inr (hsince w hw)) fun _ w hw => ⟨.inr (hsince w hw.1), hw.2⟩
        rw [wp_bind]
        refine wp_attempt (wp_mono hrun ?_ ?_) (wp_mono hrun (fun _ _ _ => trivial) ?_)
        · intro r v hv
          exact hreport (.ok r) v hv
        · intro e v hv _
          exact hreport (.error e) v hv.1
        · rintro _ v ⟨hv, he⟩ site rfl
          exact ⟨.inr (hv.after hu), he⟩
      · exact .inl hu

theorem wp_tracedMetadata (depth : Nat) (grp : GroupMetadata) (s : WhatsappManager × List Call) :
    wp (tracedMetadata (depth + 2) grp) (fun _ t => Since (Handled grp) s t)
      (fun e t => Since (Handled grp) s t ∧ Ends e) s := by
  have hhandled : ∀ t, Silent (s.1, s.2 ++ [.gotMetadata grp]) t ∨
      Since (Attempted grp) (s.1, s.2 ++ [.gotMetadata grp]) t → Since (Handled grp) s t := by
    rintro t (⟨hkeys, hcalls⟩ | ⟨calls, hcalls, hattempted⟩)
    · exact since_of hcalls hkeys .known
    · refine since_of (hcalls.trans ?_) rfl (.attempted hattempted)
      rw [List.append_assoc]
      rfl
  rw [tracedMetadata, wp_bind, wp_note, wp_bind]
  refine wp_mono (wp_tracedBridge depth grp _) ?_ ?_
  · intro _ t ht
    have hsince : ∀ u, Silent t u → Since (Handled grp) s u := fun u hu =>
      (hhandled t ht).silent hu
    exact wp_mono (silent_lift (calm_updateFromMetadata grp) t) (fun _ u hu => hsince u hu)
      fun _ u hu => ⟨hsince u hu.1, hu.2⟩
  · intro e t ht
    exact ⟨hhandled t ht.1, ht.2⟩

def Call.isGotMetadata : Call → Bool
  | .gotMetadata _ => true
  | _ => false

def Call.isAutocreate : Call → Bool
  | .autocreate _ => true
  | _ => false

def Call.isStoreGroup : Call → Bool
  | .storeGroup .. => true
  | _ => false

/-- No function is called twice by another one, and a group is only stored where it is new. -/
structure Bounded (nested : List Call) : Prop where
  metadata : nested.countP Call.isGotMetadata ≤ 1
  autocreations : nested.countP Call.isAutocreate ≤ 1
  stores : nested.countP Call.isStoreGroup ≤ 1
  absent : ∀ jid chan groups, .storeGroup jid chan groups ∈ nested → Absent groups jid chan

/-- How a handling of metadata ends that has been started by a call. -/
structure Ended {α : Type} (grp : GroupMetadata) (m : WhatsappManager) (first : Call)
    (r : Except Failure α × (WhatsappManager × List Call)) : Prop where
  outcome : r.1 ≠ .error (.panic .stackOverflow)
  calls : ∃ nested, r.2.2 = first :: nested ∧ Bounded nested
  rows : keys r.2.1.msgproc.store = keys m.msgproc.store ∨
    ∃ id chan, keys r.2.1.msgproc.store =
      keys m.msgproc.store ++ [(id, Crates.displayJid grp.id, chan)]

theorem bounded_nil : Bounded [] where
  metadata := Nat.zero_le 1
  autocreations := Nat.zero_le 1
  stores := Nat.zero_le 1
  absent := nofun

theorem Attempted.nested {metadata : GroupMetadata} {ks ks' : List (Nat × Str × Str)}
    {calls : List Call} (h : Attempted metadata ks ks' calls) :
    ∃ nested, calls = .autocreate metadata :: nested ∧
      nested.countP Call.isAutocreate = 0 ∧ Bounded nested := by
  cases h with
  | early => exact ⟨[], rfl, rfl, bounded_nil⟩
  | refused habsent =>
      refine ⟨_, rfl, rfl, ⟨Nat.zero_le 1, Nat.zero_le 1, le_rfl, fun jid chan groups hmem => ?_⟩⟩
      cases List.mem_singleton.mp hmem
      exact habsent
  | stored habsent =>
      refine ⟨_, rfl, rfl, ⟨le_rfl, Nat.zero_le 1, le_rfl, fun jid chan groups hmem => ?_⟩⟩
      rcases List.mem_cons.mp hmem with heq | hmem
      · cases heq
        exact habsent
      · cases List.mem_singleton.mp hmem

theorem Attempted.rows {metadata : GroupMetadata} {ks ks' : List (Nat × Str × Str)}
    {calls : List Call} (h : Attempted metadata ks ks' calls) :
    ks' = ks ∨ ∃ id chan, ks' = ks ++ [(id, Crates.displayJid metadata.id, chan)] := by
  cases h with
  | early => exact .inl rfl
  | refused _ => exact .inl rfl
  | stored _ => exact .inr ⟨_, _, rfl⟩

theorem Handled.nested {grp : GroupMetadata} {ks ks' : List (Nat × Str × Str)}
    {calls : List Call} (h : Handled grp ks ks' calls) :
    ∃ nested, calls = .gotMetadata grp :: nested ∧ Bounded nested := by
  cases h with
  | known => exact ⟨[], rfl, bounded_nil⟩
  | attempted hattempted =>
      obtain ⟨nested, rfl, hnone, hbounded⟩ := hattempted.nested
      refine ⟨_, rfl, hbounded.metadata, ?_, hbounded.stores, fun jid chan groups hmem => ?_⟩
      · rw [List.countP_cons, hnone]
        exact Nat.le_refl 1
      · rcases List.mem_cons.mp hmem with heq | hmem
        · cases heq
        · exact hbounded.absent jid chan groups hmem

theorem Handled.rows {grp : GroupMetadata} {ks ks' : List (Nat × Str × Str)}
    {calls : List Call} (h : Handled grp ks ks' calls) :
    ks' = ks ∨ ∃ id chan, ks' = ks ++ [(id, Crates.displayJid grp.id, chan)] := by
  cases h with
  | known => exact .inl rfl
  | attempted hattempted => exact hattempted.rows

theorem ended_of_wp {α : Type} {grp : GroupMetadata} {m : WhatsappManager} {first : Call}
    {q : TraceM α} {P : List (Nat × Str × Str) → List (Nat × Str × Str) → List Call → Prop}
    (hq : wp q (fun _ t => Since P (m, []) t) (fun e t => Since P (m, []) t ∧ Ends e) (m, []))
    (hnested : ∀ ks ks' calls, P ks ks' calls → ∃ nested, calls = first :: nested ∧ Bounded nested)
    (hrows : ∀ ks ks' calls, P ks ks' calls →
      ks' = ks ∨ ∃ id chan, ks' = ks ++ [(id, Crates.displayJid grp.id, chan)]) :
    Ended grp m first (exec q (m, [])) := by
  have hsince : ∀ t, Since P (m, []) t → (∃ nested, t.2 = first :: nested ∧ Bounded nested) ∧
      (keys t.1.msgproc.store = keys m.msgproc.store ∨ ∃ id chan, keys t.1.msgproc.store =
        keys m.msgproc.store ++ [(id, Crates.displayJid grp.id, chan)]) := by
    rintro t ⟨calls, hcalls, hP⟩
    obtain ⟨nested, rfl, hbounded⟩ := hnested _ _ _ hP
    exact ⟨⟨nested, hcalls, hbounded⟩, hrows _ _ _ hP⟩
  rcases hrun : exec q (m, []) with ⟨e | a, t⟩
  · obtain ⟨ht, he⟩ := wp_of_error hrun hq
    exact ⟨fun heq => he (Except.error.inj heq), (hsince t ht).1, (hsince t ht).2⟩
  · have ht := wp_of_ok hrun hq
    exact ⟨nofun, (hsince t ht).1, (hsince t ht).2⟩

/-- Handling metadata and bridging a group automatically end, however deep they may be nested:
each calls the other once at most, and at most one group is stored, which is new. -/
theorem autocreation_ends (depth : Nat) (grp : GroupMetadata) (m : WhatsappManager) :
    (exec (onGotGroupMetadata (depth + 2) grp) m =
        ((exec (tracedMetadata metadataDepth grp) (m, [])).1,
          (exec (tracedMetadata metadataDepth grp) (m, [])).2.1) ∧
      Ended grp m (.gotMetadata grp) (exec (tracedMetadata metadataDepth grp) (m, []))) ∧
    exec (groupAutocreate (onGotGroupMetadata (depth + 1)) grp) m =
        ((exec (tracedAutocreate (tracedMetadata 1) grp) (m, [])).1,
          (exec (tracedAutocreate (tracedMetadata 1) grp) (m, [])).2.1) ∧
      Ended grp m (.autocreate grp) (exec (tracedAutocreate (tracedMetadata 1) grp) (m, [])) := by
  refine ⟨⟨?_, ?_⟩, ?_, ?_⟩
  · rw [← tracedMetadata_depth depth]
    exact erases_metadata (depth + 2) grp (m, [])
  · exact ended_of_wp (wp_tracedMetadata 0 grp (m, [])) (fun _ _ _ h => h.nested)
      fun _ _ _ h => h.rows
  · rw [← tracedAutocreate_depth depth]
    exact erases_autocreate grp (erases_metadata (depth + 1) grp) (m, [])
  · refine ended_of_wp (wp_tracedAutocreate 0 grp (m, [])) (fun _ _ _ h => ?_)
      fun _ _ _ h => h.rows
    obtain ⟨nested, hcalls, -, hbounded⟩ := h.nested
    exact ⟨nested, hcalls, hbounded⟩

end Autocreation

section Samples

attribute [local instance] Sample.crates

/-- A manager that is online and bridges groups automatically. -/
def bridging : WhatsappManager :=
  { WhatsappRuns.sampleManager with
    autocreate := some ("#wa" : Str)
    connected := true
    conn := ⟨.running, none⟩ }

example : (exec (tracedMetadata metadataDepth unbridged) (bridging, [])).2.2.map
    (fun c => (c.isGotMetadata, c.isStoreGroup)) =
      [(true, false), (false, false), (false, true), (true, false)] := by decide +kernel

end Samples

end SmsIrc.Autocreation
