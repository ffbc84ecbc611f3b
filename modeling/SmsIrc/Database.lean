import Mathlib.Data.List.Sort
import SmsIrc.Models
import SmsIrc.SerialTable

/-!
`src/store.rs`: the database. Every query may fail, before it has changed
anything; otherwise queries fail only as the schema of the migrations says.
-/

namespace SmsIrc.Database

open SmsIrc.External SmsIrc.HashMaps SmsIrc.Models SmsIrc.Program
open SmsIrc.SerialTable SmsIrc.Text SmsIrc.Util

structure Store [Crates] where
  recipients : Table Recipient Recipient.id
  messages : Table Message Message.id
  groups : Table Group Group.id
  waMsgids : List Str
  waPersistence : Option Crates.PersistentSession
  /-- What `now()` is in the database. -/
  now : NaiveDateTime
  /-- Which queries fail, by their number. -/
  dbDown : Nat → Bool
  queries : Nat

variable [Crates]

abbrev StoreM := Prog Failure Store

/-- One more query has been made. -/
def Store.tick (st : Store) : Store := { st with queries := st.queries + 1 }

@[simp] theorem Store.tick_recipients (st : Store) :
    st.tick.recipients = st.recipients := rfl

@[simp] theorem Store.tick_messages (st : Store) :
    st.tick.messages = st.messages := rfl

@[simp] theorem Store.tick_groups (st : Store) : st.tick.groups = st.groups := rfl

@[simp] theorem Store.tick_waMsgids (st : Store) :
    st.tick.waMsgids = st.waMsgids := rfl

@[simp] theorem Store.tick_now (st : Store) : st.tick.now = st.now := rfl

@[simp] theorem Store.tick_dbDown (st : Store) : st.tick.dbDown = st.dbDown := rfl

/-- A query: it fails, or reads `f` from the tables. -/
def query {α : Type} (f : Store → α) : StoreM α := do
  let st ← get
  set st.tick
  if st.dbDown st.queries then throw .db else pure (f st.tick)

/-- A statement: it fails, or changes the tables by `f`. -/
def execute (f : Store → Store) : StoreM Unit := do
  query fun _ => ()
  modify f

theorem exec_query {α : Type} (f : Store → α) (st : Store) :
    exec (query f) st =
      if st.dbDown st.queries then (.error .db, st.tick) else (.ok (f st.tick), st.tick) := by
  rw [query, exec_bind_ok (exec_get st), exec_bind_ok (exec_set st st.tick)]
  split <;> rfl

section Wp

variable {E : Failure → Store → Prop} {st : Store}

theorem wp_query {α : Type} {f : Store → α} {Q : α → Store → Prop} :
    wp (query f) Q E st ↔
      if st.dbDown st.queries then E .db st.tick else Q (f st.tick) st.tick := by
  simp only [query, wp_bind, wp_get, wp_set, wp_ite, wp_throw, wp_pure]

theorem wp_execute {f : Store → Store} {Q : Unit → Store → Prop} :
    wp (execute f) Q E st ↔
      if st.dbDown st.queries then E .db st.tick else Q () (f st.tick) := by
  simp only [execute, wp_bind, wp_query, wp_modify]

theorem wp_query_of {α : Type} {f : Store → α} {Q : α → Store → Prop}
    (hE : E .db st.tick) (hQ : Q (f st.tick) st.tick) : wp (query f) Q E st := by
  rw [wp_query]
  split
  · exact hE
  · exact hQ

theorem wp_execute_of {f : Store → Store} {Q : Unit → Store → Prop}
    (hE : E .db st.tick) (hQ : Q () (f st.tick)) : wp (execute f) Q E st := by
  rw [wp_execute]
  split
  · exact hE
  · exact hQ

/-- A database of which no query fails. -/
def Up (st : Store) : Prop := ∀ n, st.dbDown n = false

theorem Up.wp_query {α : Type} {f : Store → α} {Q : α → Store → Prop} (h : Up st) :
    wp (query f) Q E st ↔ Q (f st.tick) st.tick := by
  rw [Database.wp_query, if_neg (by simp [h st.queries])]

theorem preserves_query {α : Type} {P : Failure → Prop} (f : Store → α) :
    Preserves Up P (query f) := by
  intro st hst
  rw [hst.wp_query]
  exact hst

theorem preserves_execute {P : Failure → Prop} {f : Store → Store}
    (hf : ∀ st, (f st).dbDown = st.dbDown) : Preserves Up P (execute f) := by
  refine Preserves.bind (preserves_query _) fun _ => preserves_modify fun st hst n => ?_
  rw [hf]
  exact hst n

end Wp

def storeSmsMessage (addr : PduAddress) (pdu : List UInt8)
    (csmsData : Option Nat) : StoreM Unit :=
  execute fun st =>
    { st with
      messages := st.messages.insert (fun n =>
        { id := n, phoneNumber := normalizeAddress addr, pdu := some pdu,
          csmsData := csmsData, groupTarget := none, text := none,
          source := sourceSms, ts := st.now }) fun _ => rfl }

/-- The group that a message refers to exists, as its foreign key demands. -/
def groupExists (st : Store) : Option Nat → Bool
  | none => true
  | some g => st.groups.rows.any fun grp => grp.id = g

def storeWaMessage (addr : PduAddress) (text : Str) (groupTarget : Option Nat)
    (ts : NaiveDateTime) : StoreM Unit := do
  let valid ← query fun st => groupExists st groupTarget
  if valid then
    modify fun st =>
      { st with
        messages := st.messages.insert (fun n =>
          { id := n, phoneNumber := normalizeAddress addr, pdu := none,
            csmsData := none, groupTarget := groupTarget, text := some text,
            source := sourceWa, ts := ts }) fun _ => rfl }
  else throw .db

def storeWaPersistence (p : Crates.PersistentSession) : StoreM Unit :=
  execute fun st => { st with waPersistence := some p }

def getWaPersistenceOpt : StoreM (Option Crates.PersistentSession) :=
  query fun st => st.waPersistence

def storeGroup (jid : Jid) (channel : Str) (participants admins : List Nat)
    (topic : Str) : StoreM Group := do
  let row : Nat → Group := fun n =>
    { id := n, jid := Crates.displayJid jid, channel := channel,
      participants := participants, admins := admins, topic := topic }
  let taken ← query fun st => st.groups.rows.any fun grp =>
    grp.jid = Crates.displayJid jid || grp.channel = channel
  if taken then throw .db
  else do
    let st ← get
    set { st with groups := st.groups.insert row fun _ => rfl }
    pure (row st.groups.next)

def updateGroup (j : Jid) (parts adms : List Nat) (tpc : Str) : StoreM Group := do
  let change : Group → Group := fun grp =>
    if grp.jid = Crates.displayJid j then
      { grp with participants := parts, admins := adms, topic := tpc }
    else grp
  execute fun st =>
    { st with
      groups := st.groups.update change fun grp => by
        simp only [change]
        split <;> rfl }
  let st ← get
  match st.groups.rows.find? fun grp => grp.jid = Crates.displayJid j with
  | some grp => pure grp
  | none => throw .db

def isWaMsgidStored (id : Str) : StoreM Bool :=
  query fun st => decide (id ∈ st.waMsgids)

def storeWaMsgid (id : Str) : StoreM Unit :=
  execute fun st =>
    { st with
      waMsgids := if id ∈ st.waMsgids then st.waMsgids else st.waMsgids ++ [id] }

/-- Insert a recipient, whose number must be new. -/
def insertRecipient (addr : PduAddress) (row : Nat → Recipient)
    (hrow : ∀ n, (row n).id = n) : StoreM Recipient := do
  let taken ← query fun st => st.recipients.rows.any fun r =>
    r.phoneNumber = normalizeAddress addr
  if taken then throw .db
  else do
    let st ← get
    set { st with recipients := st.recipients.insert row hrow }
    pure (row st.recipients.next)

def storeRecipient (addr : PduAddress) (nick : Str) : StoreM Recipient :=
  insertRecipient addr (fun n =>
    { id := n, phoneNumber := normalizeAddress addr, nick := nick,
      whatsapp := false, avatarUrl := none, notify := none,
      nicksrc := nicksrcAuto }) fun _ => rfl

def storeWaRecipient (addr : PduAddress) (nick : Str) (notify : Option Str)
    (nicksrc : Int) : StoreM Recipient :=
  insertRecipient addr (fun n =>
    { id := n, phoneNumber := normalizeAddress addr, nick := nick,
      whatsapp := true, avatarUrl := none, notify := notify,
      nicksrc := nicksrc }) fun _ => rfl

theorem updatedRow_id (addr : PduAddress) (f : Recipient → Recipient)
    (hf : ∀ r, (f r).id = r.id) (r : Recipient) :
    (if r.phoneNumber = normalizeAddress addr then f r else r).id = r.id := by
  split
  · exact hf r
  · rfl

def updateRecipient (addr : PduAddress) (f : Recipient → Recipient)
    (hf : ∀ r, (f r).id = r.id) : StoreM Unit :=
  execute fun st =>
    { st with
      recipients := st.recipients.update
        (fun r => if r.phoneNumber = normalizeAddress addr then f r else r)
        (updatedRow_id addr f hf) }

def updateRecipientNotify (addr : PduAddress) (n : Option Str) : StoreM Unit :=
  updateRecipient addr (fun r => { r with notify := n }) fun _ => rfl

omit [Crates] in
theorem renamedRow_id (n : Str) (src : Int) (r : Recipient) :
    { r with nick := n, nicksrc := src }.id = r.id := rfl

def updateRecipientNick (addr : PduAddress) (n : Str) (src : Int) : StoreM Unit :=
  updateRecipient addr (fun r => { r with nick := n, nicksrc := src }) (renamedRow_id n src)

omit [Crates] in
theorem modedRow_id (wa : Bool) (r : Recipient) : { r with whatsapp := wa }.id = r.id := rfl

def updateRecipientWa (addr : PduAddress) (wa : Bool) : StoreM Unit :=
  updateRecipient addr (fun r => { r with whatsapp := wa }) (modedRow_id wa)

def getRecipientByIdOpt (i : Nat) : StoreM (Option Recipient) :=
  query fun st => st.recipients.rows.find? fun r => r.id = i

def getRecipientByNickOpt (n : Str) : StoreM (Option Recipient) :=
  query fun st => (Crates.scanOrder.run st.recipients.rows).find? fun r => r.nick = n

def getRecipientByAddrOpt (addr : PduAddress) : StoreM (Option Recipient) :=
  query fun st => st.recipients.rows.find? fun r =>
    r.phoneNumber = normalizeAddress addr

def getAllRecipients : StoreM (List Recipient) :=
  query fun st => Crates.scanOrder.run st.recipients.rows

/-- The order of `(ts.asc(), id.asc())`. -/
def sentBefore (a b : Message) : Prop :=
  a.ts < b.ts ∨ a.ts = b.ts ∧ a.id ≤ b.id

instance (a b : Message) : Decidable (sentBefore a b) :=
  inferInstanceAs (Decidable (_ ∨ _))

def getAllMessages : StoreM (List Message) :=
  query fun st => st.messages.rows.insertionSort sentBefore

def getMessagesForRecipient (addr : PduAddress) : StoreM (List Message) :=
  query fun st => (st.messages.rows.filter fun m =>
    m.phoneNumber = normalizeAddress addr).insertionSort sentBefore

def getGroupById (gid : Nat) : StoreM Group := do
  match ← query fun st => st.groups.rows.find? fun grp => grp.id = gid with
  | some grp => pure grp
  | none => throw .db

def getAllGroups : StoreM (List Group) :=
  query fun st => Crates.scanOrder.run st.groups.rows

def getGroupByJidOpt (j : Jid) : StoreM (Option Group) :=
  query fun st => st.groups.rows.find? fun grp => grp.jid = Crates.displayJid j

def getGroupByChanOpt (c : Str) : StoreM (Option Group) :=
  query fun st => st.groups.rows.find? fun grp => grp.channel = c

def getGroupsForRecipient (addr : PduAddress) : StoreM (List Group) := do
  match ← getRecipientByAddrOpt addr with
  | some r =>
      query fun st => Crates.scanOrder.run
        (st.groups.rows.filter fun grp => grp.participants.contains r.id)
  | none => throw .missingRecipient

/-- The rows of one sender that carry one concatenation reference. -/
def concatenatedRows (st : Store) (num : Str) (rf : Nat) : List Message :=
  st.messages.rows.filter fun m => m.csmsData = some rf && m.phoneNumber = num

def getAllConcatenated (num : Str) (rf : Nat) : StoreM (List Message) :=
  query fun st => Crates.scanOrder.run (concatenatedRows st num rf)

/-- Delete a group, and with it the messages that refer to it. -/
def deleteGroupWithId (i : Nat) : StoreM Unit := do
  let present ← query fun st => st.groups.rows.any fun grp => grp.id = i
  if present then
    modify fun st =>
      { st with
        groups := st.groups.keep fun grp => grp.id ≠ i
        messages := st.messages.keep fun m => m.groupTarget ≠ some i }
  else throw (.error (("no rows affected deleting gid " : Str) ++ decimal i))

def deleteRecipientWithAddr (addr : PduAddress) : StoreM Unit := do
  let present ← query fun st => st.recipients.rows.any fun r =>
    r.phoneNumber = normalizeAddress addr
  if present then
    modify fun st =>
      { st with
        recipients := st.recipients.keep fun r =>
          r.phoneNumber ≠ normalizeAddress addr }
  else
    throw (.error (("no rows affected deleting recip " : Str) ++
      Crates.displayAddress addr))

def deleteMessage (mid : Nat) : StoreM Unit := do
  let present ← query fun st => st.messages.rows.any fun m => m.id = mid
  if present then
    modify fun st => { st with messages := st.messages.keep fun m => m.id ≠ mid }
  else throw (.error (("no rows affected deleting mid #" : Str) ++ decimal mid))

section Frames

variable {S : Store → Store → Prop} [IsPreorder Store S]

omit [IsPreorder Store S] in
theorem moves_query {α : Type} (htick : ∀ st, S st st.tick) (f : Store → α) :
    Moves S (query f) := fun st => wp_query_of ⟨htick st, trivial⟩ (htick st)

theorem moves_execute (htick : ∀ st, S st st.tick) {f : Store → Store}
    (hf : ∀ st, S st (f st)) : Moves S (execute f) :=
  Steps.bind (moves_query htick _) fun _ => steps_modify hf

theorem moves_checked (htick : ∀ st, S st st.tick) {p : Store → Bool} {f : Store → Store}
    {e : Failure} (hf : ∀ st, S st (f st)) :
    Moves S (do
      let present ← query p
      if present then modify f else throw e) := by
  refine Steps.bind (moves_query htick _) fun present => ?_
  split
  · exact steps_modify hf
  · exact steps_throw trivial

theorem moves_insertRecipient (htick : ∀ st, S st st.tick) {addr : PduAddress}
    {row : Nat → Recipient} {hrow : ∀ n, (row n).id = n}
    (hins : ∀ st : Store, S st { st with recipients := st.recipients.insert row hrow }) :
    Moves S (insertRecipient addr row hrow) := by
  refine Steps.bind (moves_query htick _) fun taken => ?_
  split
  · exact steps_throw trivial
  · exact steps_get_bind fun st => hins st

theorem moves_storeGroup (htick : ∀ st, S st st.tick) {jid : Jid} {chan : Str}
    {parts adms : List Nat} {topic : Str}
    (hins : ∀ (st : Store) (row : Nat → Group) (hrow : ∀ n, (row n).id = n),
      (∀ n, (row n).participants = parts ∧ (row n).admins = adms) →
        S st { st with groups := st.groups.insert row hrow }) :
    Moves S (storeGroup jid chan parts adms topic) := by
  refine Steps.bind (moves_query htick _) fun taken => ?_
  split
  · exact steps_throw trivial
  · exact steps_get_bind fun st => hins st _ _ fun _ => ⟨rfl, rfl⟩

theorem moves_updateGroup (htick : ∀ st, S st st.tick) {jid : Jid} {parts adms : List Nat}
    {topic : Str}
    (hup : ∀ (st : Store) (change : Group → Group) (hid : ∀ grp, (change grp).id = grp.id),
      (∀ grp, change grp = grp ∨
        (change grp).participants = parts ∧ (change grp).admins = adms) →
        S st { st with groups := st.groups.update change hid }) :
    Moves S (updateGroup jid parts adms topic) := by
  refine Steps.bind (moves_execute htick fun st => hup st _ _ fun grp => ?_) fun _ => ?_
  · split
    · exact .inr ⟨rfl, rfl⟩
    · exact .inl rfl
  · refine Steps.bind steps_get fun st => ?_
    split
    · exact steps_pure _
    · exact steps_throw trivial

end Frames

end SmsIrc.Database
