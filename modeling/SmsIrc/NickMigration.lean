import SmsIrc.NickSources
import SmsIrc.SafeNames

/-!
`Store::new`: recipients that are older than the sources of nicks are given one, by what
their nicks look like.
-/

namespace SmsIrc.NickMigration

open SmsIrc.Comm SmsIrc.Database SmsIrc.External SmsIrc.HashMaps SmsIrc.LinkAgreement
open SmsIrc.LinkEffects SmsIrc.Models SmsIrc.NickSources SmsIrc.Program SmsIrc.SafeNames
open SmsIrc.SenderCommon SmsIrc.SerialTable SmsIrc.Text SmsIrc.Util SmsIrc.Whatsapp
open SmsIrc.WhatsappFrame (wp_store)
open SmsIrc.WhatsappRuns (setStore)

theorem ircNickChar_eq_I {c : Char} : ircNickChar c = 'I' ↔ c = '+' ∨ c = 'I' := by
  constructor
  · intro h
    by_cases hplus : c = '+'
    · exact .inl hplus
    · rw [ircNickChar, if_neg hplus] at h
      split at h
      · exact .inr h
      · split at h
        · exact .inr h
        · exact absurd h (by decide)
  · rintro (rfl | rfl) <;> decide

theorem isDigit_ircNickChar (c : Char) : (ircNickChar c).isDigit = c.isDigit := by
  have hkept : ∀ d : Char, d.isDigit = true → NickChar d := by
    intro d hd
    left
    simp [isAsciiAlphanumeric, hd]
  by_cases hc : NickChar c
  · rw [ircNickChar_of_nickChar hc]
  · have hno : c.isDigit = false := by
      rw [← Bool.not_eq_true]
      exact fun hd => hc (hkept c hd)
    rw [hno, ircNickChar]
    split
    · decide
    · split
      · rename_i hmem
        exact absurd (.inr hmem) hc
      · split
        · rename_i halnum
          exact absurd (.inl halnum) hc
        · decide

section Migration

variable [Crates]

def getRecipientsWithNicksrc (ns : Int) : StoreM (List Recipient) :=
  query fun st => Crates.scanOrder.run (st.recipients.rows.filter fun r => r.nicksrc = ns)

/-- `DEFAULT_RE.is_match`: somewhere in the text there is a match of `I\d+`. -/
def defaultReMatches (nick : Str) : Bool :=
  nick.tails.any fun
    | 'I' :: c :: _ => Crates.regexDigit c
    | _ => false

def newSource (nick : Str) : Int := if defaultReMatches nick then nicksrcAuto else nicksrcUser

def giveSource (r : Recipient) : StoreM Unit := do
  let addr ← r.getAddr
  updateRecipientNick addr r.nick (newSource r.nick)

/-- `Store::new`, from where the migrations of the schema have run. -/
def storeNew : StoreM Unit := do
  let sourceless ← getRecipientsWithNicksrc nicksrcMigrated
  forM sourceless giveSource

theorem defaultReMatches_iff {nick : Str} : defaultReMatches nick = true ↔
    ∃ pre c post, nick = pre ++ 'I' :: c :: post ∧ Crates.regexDigit c = true := by
  unfold defaultReMatches
  rw [List.any_eq_true]
  constructor
  · rintro ⟨tail, htail, hstarts⟩
    obtain ⟨pre, rfl⟩ := (List.mem_tails _ _).mp htail
    split at hstarts
    · rename_i c post
      exact ⟨pre, c, post, rfl, hstarts⟩
    · cases hstarts
  · rintro ⟨pre, c, post, rfl, hc⟩
    exact ⟨'I' :: c :: post, (List.mem_tails _ _).mpr ⟨pre, rfl⟩, hc⟩

/-- A row with the source that it is given. -/
def sourced (r : Recipient) : Recipient :=
  if r.nicksrc = nicksrcMigrated then { r with nicksrc := newSource r.nick } else r

theorem newSource_ne_migrated (nick : Str) : newSource nick ≠ nicksrcMigrated := by
  unfold newSource
  split <;> decide

theorem sourced_nicksrc_ne (r : Recipient) : (sourced r).nicksrc ≠ nicksrcMigrated := by
  unfold sourced
  split
  · exact newSource_ne_migrated r.nick
  · assumption

theorem sourced_phoneNumber (r : Recipient) : (sourced r).phoneNumber = r.phoneNumber := by
  unfold sourced
  split <;> rfl

/-- The rows when those of a list have been given their sources. -/
def partlySourced (done : List Recipient) (r : Recipient) : Recipient :=
  if r ∈ done then sourced r else r

theorem partlySourced_phoneNumber (done : List Recipient) (r : Recipient) :
    (partlySourced done r).phoneNumber = r.phoneNumber := by
  unfold partlySourced
  split
  · exact sourced_phoneNumber r
  · rfl

/-- What is done for one row is done to it alone, as no other has its number. -/
theorem partlySourced_snoc {st : Store} (hk : Keyed st) {q : Recipient}
    (hq : q ∈ st.recipients.rows) (hsrc : q.nicksrc = nicksrcMigrated) (done : List Recipient) :
    st.recipients.rows.map (fun r =>
        if (partlySourced done r).phoneNumber = q.phoneNumber then
          { partlySourced done r with nick := q.nick, nicksrc := newSource q.nick }
        else partlySourced done r) =
      st.recipients.rows.map (partlySourced (done ++ [q])) := by
  apply List.map_congr_left
  intro r hr
  rw [partlySourced_phoneNumber]
  by_cases hnum : r.phoneNumber = q.phoneNumber
  · obtain rfl : r = q := hk.eq_of_number hr hq hnum
    have hnow : sourced r = { r with nicksrc := newSource r.nick } := if_pos hsrc
    have hlast : partlySourced (done ++ [r]) r = sourced r :=
      if_pos (List.mem_append_right _ (List.mem_singleton.mpr rfl))
    rw [if_pos rfl, hlast]
    unfold partlySourced
    split <;> rw [hnow]
  · have hne : r ≠ q := fun heq => hnum (congrArg _ heq)
    rw [if_neg hnum]
    simp only [partlySourced, List.mem_append, List.mem_singleton, hne, or_false]

/-- The number of a row is that of an address. -/
def Readable (r : Recipient) : Prop := (unNormalizeAddress r.phoneNumber).isSome = true

instance (r : Recipient) : Decidable (Readable r) := inferInstanceAs (Decidable (_ = true))

theorem not_up {st : Store} {n : Nat} (h : st.dbDown n = true) : ¬ Up st := by
  intro hup
  rw [hup n] at h
  cases h

theorem wp_giveSource {st : Store} (hk : Keyed st) {q : Recipient} (hq : q ∈ st.recipients.rows)
    (hsrc : q.nicksrc = nicksrcMigrated) {done : List Recipient} {s : Store}
    (hs : s.recipients.rows = st.recipients.rows.map (partlySourced done))
    (hdown : s.dbDown = st.dbDown) :
    wp (giveSource q)
      (fun _ t => t.recipients.rows = st.recipients.rows.map (partlySourced (done ++ [q])) ∧
        t.dbDown = st.dbDown ∧ Readable q)
      (fun _ _ => ¬ Up st ∨ ¬ Readable q) s := by
  rw [giveSource, wp_bind]
  unfold Recipient.getAddr Models.getAddr
  cases hread : unNormalizeAddress q.phoneNumber with
  | none =>
      rw [wp_throw]
      right
      simp [Readable, hread]
  | some addr =>
      have hnum := hk.normal q hq addr hread
      rw [wp_pure, updateRecipientNick, updateRecipient, wp_execute]
      split
      · rename_i hfails
        left
        rw [hdown] at hfails
        exact not_up hfails
      · refine ⟨?_, hdown, ?_⟩
        · show (s.recipients.rows.map _) = _
          rw [hs, List.map_map, ← partlySourced_snoc hk hq hsrc done, hnum]
          rfl
        · simp [Readable, hread]

/-- All rows without a source are given one, unless the database fails or a number is none. -/
theorem wp_storeNew {st : Store} (hk : Keyed st) :
    wp storeNew
      (fun _ t => t.recipients.rows = st.recipients.rows.map sourced ∧
        ∀ r ∈ st.recipients.rows, r.nicksrc = nicksrcMigrated → Readable r)
      (fun _ _ => ¬ Up st ∨
        ∃ r ∈ st.recipients.rows, r.nicksrc = nicksrcMigrated ∧ ¬ Readable r) st := by
  rw [storeNew, wp_bind, getRecipientsWithNicksrc, wp_query]
  split
  · rename_i hfails
    left
    exact not_up hfails
  · have hmem : ∀ r, r ∈ Crates.scanOrder.run (st.tick.recipients.rows.filter fun r =>
        r.nicksrc = nicksrcMigrated) ↔ r ∈ st.recipients.rows ∧ r.nicksrc = nicksrcMigrated := by
      intro r
      rw [Shuffle.mem_run, List.mem_filter, decide_eq_true_eq, Store.tick_recipients]
    refine wp_mono ( wp_forM_prefix (fun done t =>
      t.recipients.rows = st.recipients.rows.map (partlySourced done) ∧
        t.dbDown = st.dbDown ∧ ∀ r ∈ done, Readable r)
      (fun done q rest hsplit s hs => ?_) ⟨?_, rfl, nofun⟩) ?_ fun _ _ he => he
    · obtain ⟨hq, hsrc⟩ := (hmem q).mp (hsplit ▸ by simp)
      obtain ⟨hrows, hdown, hdone⟩ := hs
      refine wp_mono (wp_giveSource hk hq hsrc hrows hdown) ?_ ?_
      · rintro _ t ⟨ht, hdown', hread⟩
        refine ⟨ht, hdown', fun r hr => ?_⟩
        rcases List.mem_append.mp hr with hr | hr
        · exact hdone r hr
        · rw [List.mem_singleton.mp hr]
          exact hread
      · rintro _ _ (hdb | hno)
        · exact .inl hdb
        · exact .inr ⟨q, hq, hsrc, hno⟩
    · have hnone : partlySourced [] = id := by
        funext r
        exact if_neg List.not_mem_nil
      rw [hnone, List.map_id]
      rfl
    · rintro _ t ⟨ht, -, hread⟩
      refine ⟨ht.trans (List.map_congr_left fun r hr => ?_), fun r hr hsrc => ?_⟩
      · unfold partlySourced
        split
        · rfl
        · rename_i hno
          exact (if_neg fun hsrc => hno ((hmem r).mpr ⟨hr, hsrc⟩)).symm
      · exact hread r ((hmem r).mpr ⟨hr, hsrc⟩)

theorem defaultReMatches_S (nick : Str) :
    defaultReMatches ('S' :: nick) = true ↔ defaultReMatches nick = true := by
  rw [defaultReMatches_iff, defaultReMatches_iff]
  constructor
  · rintro ⟨pre, c, post, heq, hc⟩
    cases pre with
    | nil => exact absurd (List.cons.inj heq).1 (by decide)
    | cons _ pre => exact ⟨pre, c, post, (List.cons.inj heq).2, hc⟩
  · rintro ⟨pre, c, post, rfl, hc⟩
    exact ⟨'S' :: pre, c, post, rfl, hc⟩

theorem keyed_sourced {st t : Store} (hk : Keyed st)
    (ht : t.recipients.rows = st.recipients.rows.map sourced) : Keyed t := by
  constructor
  · have hnum : Recipient.phoneNumber ∘ sourced = Recipient.phoneNumber := by
      funext r
      exact sourced_phoneNumber r
    rw [ht, List.map_map, hnum]
    exact hk.nodup
  · intro r hr a ha
    rw [ht] at hr
    obtain ⟨q, hq, rfl⟩ := List.mem_map.mp hr
    rw [sourced_phoneNumber] at ha ⊢
    exact hk.normal q hq a ha

/-- The nick that is made of an address looks like it where the printed address has a plus
sign, or the letter, before a digit. -/
theorem defaultReMatches_makeNick (hdigits : AsciiDigits) (addr : PduAddress) :
    defaultReMatches (makeNickForAddress addr) = true ↔
      ∃ pre c d post, Crates.unidecode (Crates.displayAddress addr) = pre ++ c :: d :: post ∧
        (c = '+' ∨ c = 'I') ∧ d.isDigit = true := by
  have hdigit : ∀ d, Crates.regexDigit (ircNickChar d) = d.isDigit := by
    intro d
    rw [hdigits _ (nickChar_ircNickChar d).isAscii, isDigit_ircNickChar]
  have hmap : ∀ text : Str, defaultReMatches (text.map ircNickChar) = true ↔
      ∃ pre c d post, text = pre ++ c :: d :: post ∧ (c = '+' ∨ c = 'I') ∧ d.isDigit = true := by
    intro text
    rw [defaultReMatches_iff]
    constructor
    · rintro ⟨pre, d, post, heq, hd⟩
      obtain ⟨pre, rest, rfl, rfl, hrest⟩ := List.map_eq_append_iff.mp heq
      obtain ⟨c, rest, rfl, hc, hrest⟩ := List.map_eq_cons_iff.mp hrest
      obtain ⟨d, post, rfl, rfl, rfl⟩ := List.map_eq_cons_iff.mp hrest
      exact ⟨pre, c, d, post, rfl, ircNickChar_eq_I.mp hc, hdigit d ▸ hd⟩
    · rintro ⟨pre, c, d, post, rfl, hc, hd⟩
      refine ⟨pre.map ircNickChar, ircNickChar d, post.map ircNickChar, ?_, (hdigit d).trans hd⟩
      rw [List.map_append, List.map_cons, List.map_cons, ircNickChar_eq_I.mpr hc]
  rw [← hmap, makeNickForAddress, stringToIrcNick]
  cases (Crates.unidecode (Crates.displayAddress addr)).map ircNickChar with
  | nil => exact defaultReMatches_S []
  | cons c rest =>
      dsimp only [List.head?_cons]
      split
      · exact Iff.rfl
      · exact defaultReMatches_S _

/-- The nick that `get_nick_for_jid` finds for a contact that is known, and its source. -/
def contactNick (ct : WaContact) (addr : PduAddress) : Str × Int :=
  match ct.name, ct.notify with
  | some name, _ => (stringToIrcNick name, nicksrcWaContact)
  | none, some name => (stringToIrcNick name, nicksrcWaNotify)
  | none, none => (makeNickForAddress addr, nicksrcAuto)

theorem exec_getNickForJid {ct : WaContact} {addr : PduAddress} {m : WhatsappManager}
    (haddr : addressOf ct.jid = .ok (some addr)) (hct : m.contacts.lookup ct.jid = some ct) :
    exec (getNickForJid ct.jid) m = (.ok (contactNick ct addr), m) := by
  have hjid : exec (jidToAddress ct.jid) m = (.ok (some addr), m) := by
    rw [exec_jidToAddress, haddr]
  rw [getNickForJid, exec_bind_ok (exec_get m), hct, contactNick]
  dsimp only [Option.bind_some]
  cases ct.name with
  | some name => rfl
  | none =>
      cases ct.notify with
      | some name => rfl
      | none =>
          dsimp only
          rw [exec_bind_ok hjid]
          rfl

/-- What a change of a contact asks for, where its recipient is known. -/
def nickAsked (m : WhatsappManager) (ct : WaContact) (addr : PduAddress) (r : Recipient) :
    List ContactFactoryCommand :=
  let new := contactNick ct addr
  if r.nick ≠ new.1 ∧ shouldUpdate r.nicksrc new.2 ∧ m.autoupdateNicks then
    [.forwardCommand addr (.changeNick new.1 new.2)]
  else []

theorem wp_getWaRecipient {jid : Jid} {addr : PduAddress} {m : WhatsappManager} {r : Recipient}
    (haddr : addressOf jid = .ok (some addr)) (hk : Keyed m.msgproc.store)
    (hr : r ∈ m.msgproc.store.recipients.rows) (hnum : r.phoneNumber = normalizeAddress addr) :
    wp (getWaRecipient jid) (fun q t => r = q ∧ t = setStore m m.msgproc.store.tick)
      (fun _ t => t = setStore m m.msgproc.store.tick ∧ ¬ Up m.msgproc.store) m := by
  have hjid : exec (jidToAddress jid) m = (.ok (some addr), m) := by
    rw [exec_jidToAddress, haddr]
  have hquery : wp (store (getRecipientByAddrOpt addr) : WaM (Option Recipient))
      (fun o t => some r = o ∧ t = setStore m m.msgproc.store.tick)
      (fun _ t => t = setStore m m.msgproc.store.tick ∧ ¬ Up m.msgproc.store) m := by
    rw [wp_store, getRecipientByAddrOpt, wp_query]
    split
    · rename_i hfails
      exact ⟨rfl, not_up hfails⟩
    · exact ⟨(hk.find_row hr hnum).symm, rfl⟩
  show wp (jidToAddress jid >>= _) _ _ m
  unfold wp
  rw [exec_bind_ok hjid]
  show wp (recipientFor jid addr) _ _ m
  rw [recipientFor, wp_bind]
  refine wp_mono hquery ?_ fun _ _ he => he
  rintro _ t ⟨rfl, ht⟩
  exact ⟨rfl, ht⟩

theorem wp_askForNick {ct : WaContact} {addr : PduAddress} {m t : WhatsappManager} {r : Recipient}
    {E : Failure → WhatsappManager → Prop} (hcf : t.cfTx = m.cfTx)
    (hauto : t.autoupdateNicks = m.autoupdateNicks) :
    wp (do
        let m ← get
        when (r.nick ≠ (contactNick ct addr).1 ∧
            shouldUpdate r.nicksrc (contactNick ct addr).2 ∧ m.autoupdateNicks)
          (cfSend (.forwardCommand addr (.changeNick (contactNick ct addr).1
            (contactNick ct addr).2))) : WaM Unit)
      (fun _ u => u.cfTx = m.cfTx ++ nickAsked m ct addr r) E t := by
  rw [wp_bind, wp_get, wp_when, hauto]
  unfold nickAsked
  split
  · rename_i hasks
    rw [cfSend, wp_modify]
    show t.cfTx ++ _ = _
    rw [hcf, if_pos hasks]
  · rename_i hno
    rw [if_neg hno, List.append_nil]
    exact hcf

/-- A change of a contact whose recipient is known asks for its nick, and for nothing else. -/
theorem wp_contactChanged {ct : WaContact} {addr : PduAddress} {m : WhatsappManager}
    {r : Recipient} (haddr : addressOf ct.jid = .ok (some addr)) (hk : Keyed m.msgproc.store)
    (hr : r ∈ m.msgproc.store.recipients.rows) (hnum : r.phoneNumber = normalizeAddress addr) :
    wp (contactChanged ct addr) (fun _ t => t.cfTx = m.cfTx ++ nickAsked m ct addr r)
      (fun _ t => t.cfTx = m.cfTx ∧ ¬ Up m.msgproc.store) m := by
  have hct : (m.contacts.insert ct.jid ct).lookup ct.jid = some ct := AList.lookup_insert _
  rw [contactChanged, wp_bind, wp_modify, wp_bind]
  refine wp_mono (wp_getWaRecipient haddr hk hr hnum) ?_ ?_
  swap
  · rintro _ _ ⟨rfl, hdown⟩
    exact ⟨rfl, hdown⟩
  rintro _ _ ⟨rfl, rfl⟩
  have hnick := exec_getNickForJid haddr
    (m := setStore { m with contacts := m.contacts.insert ct.jid ct } m.msgproc.store.tick) hct
  unfold wp
  rw [exec_bind_ok hnick]
  show wp _ _ _ _
  rw [wp_bind, wp_when]
  split
  · rw [wp_store, updateRecipientNotify, updateRecipient, wp_execute]
    split
    · rename_i hfails
      exact ⟨rfl, not_up hfails⟩
    · exact wp_askForNick rfl rfl
  · exact wp_askForNick rfl rfl

theorem wp_onContactChange {ct : WaContact} {addr : PduAddress} {m : WhatsappManager}
    {r : Recipient} (haddr : addressOf ct.jid = .ok (some addr)) (hk : Keyed m.msgproc.store)
    (hr : r ∈ m.msgproc.store.recipients.rows) (hnum : r.phoneNumber = normalizeAddress addr) :
    wp (onContactChange ct)
      (fun _ t => t.cfTx = m.cfTx ++ if ct.jid.id = ("status" : Str) ∨ ct.jid.isGroup then []
        else nickAsked m ct addr r)
      (fun _ t => t.cfTx = m.cfTx ∧ ¬ Up m.msgproc.store) m := by
  unfold onContactChange
  split
  · exact (List.append_nil m.cfTx).symm
  · have hjid : exec (jidToAddress ct.jid) m = (.ok (some addr), m) := by
      rw [exec_jidToAddress, haddr]
    unfold wp
    rw [exec_bind_ok hjid]
    exact wp_contactChanged haddr hk hr hnum

theorem nickAsked_user {m : WhatsappManager} {ct : WaContact} {addr : PduAddress} {r : Recipient}
    (hsrc : r.nicksrc = nicksrcUser) : nickAsked m ct addr r = [] := by
  have hno : shouldUpdate nicksrcUser (contactNick ct addr).2 = false := rfl
  apply if_neg
  rw [hsrc, hno]
  simp

theorem nickAsked_auto {m : WhatsappManager} {ct : WaContact} {addr : PduAddress} {r : Recipient}
    (hsrc : r.nicksrc = nicksrcAuto) (hauto : m.autoupdateNicks = true)
    (hnew : (contactNick ct addr).2 ≠ nicksrcAuto) (hnick : (contactNick ct addr).1 ≠ r.nick) :
    nickAsked m ct addr r =
      [.forwardCommand addr (.changeNick (contactNick ct addr).1 (contactNick ct addr).2)] := by
  have hyes : shouldUpdate nicksrcAuto (contactNick ct addr).2 = true := by
    show decide ((contactNick ct addr).2 ≠ nicksrcAuto) = true
    exact decide_eq_true hnew
  apply if_pos
  rw [hsrc]
  exact ⟨hnick.symm, hyes, hauto⟩

theorem cfTx_of_user {ct : WaContact} {addr : PduAddress} {m : WhatsappManager} {r : Recipient}
    (haddr : addressOf ct.jid = .ok (some addr)) (hk : Keyed m.msgproc.store)
    (hr : r ∈ m.msgproc.store.recipients.rows) (hnum : r.phoneNumber = normalizeAddress addr)
    (hsrc : r.nicksrc = nicksrcUser) : (exec (onContactChange ct) m).2.cfTx = m.cfTx := by
  have hwp : wp (onContactChange ct) (fun _ t => t.cfTx = m.cfTx)
      (fun _ t => t.cfTx = m.cfTx) m := by
    refine wp_mono (wp_onContactChange haddr hk hr hnum) ?_ fun _ _ he => he.1
    intro _ t ht
    rw [ht, nickAsked_user hsrc, ite_self, List.append_nil]
  exact wp_exec_snd (P := fun t : WhatsappManager => t.cfTx = m.cfTx) hwp

theorem cfTx_of_auto {ct : WaContact} {addr : PduAddress} {m : WhatsappManager} {r : Recipient}
    (haddr : addressOf ct.jid = .ok (some addr)) (hk : Keyed m.msgproc.store)
    (hr : r ∈ m.msgproc.store.recipients.rows) (hnum : r.phoneNumber = normalizeAddress addr)
    (hsrc : r.nicksrc = nicksrcAuto) (hup : Up m.msgproc.store) (hauto : m.autoupdateNicks = true)
    (hperson : ct.jid.id ≠ ("status" : Str) ∧ ct.jid.isGroup = false)
    (hnew : (contactNick ct addr).2 ≠ nicksrcAuto) (hnick : (contactNick ct addr).1 ≠ r.nick) :
    (exec (onContactChange ct) m).2.cfTx = m.cfTx ++
      [.forwardCommand addr (.changeNick (contactNick ct addr).1 (contactNick ct addr).2)] := by
  rcases hrun : exec (onContactChange ct) m with ⟨e | ⟨⟩, t⟩
  · exact absurd hup (wp_of_error hrun (wp_onContactChange haddr hk hr hnum)).2
  · have ht := wp_of_ok hrun (wp_onContactChange haddr hk hr hnum)
    have hasks : ¬ (ct.jid.id = ("status" : Str) ∨ ct.jid.isGroup = true) := by
      rintro (hstatus | hgroup)
      · exact hperson.1 hstatus
      · rw [hperson.2] at hgroup
        cases hgroup
    rw [if_neg hasks, nickAsked_auto hsrc hauto hnew hnick] at ht
    exact ht

theorem newSource_eq_auto {nick : Str} : newSource nick = nicksrcAuto ↔
    ∃ pre c post, nick = pre ++ 'I' :: c :: post ∧ Crates.regexDigit c = true := by
  rw [← defaultReMatches_iff, newSource]
  split <;> simp_all [nicksrcAuto, nicksrcUser]

/-- The rows without a source get one by the look of their nicks, and nothing else changes; a
change of a contact then leaves the nicks of users alone, and improves those that look made. -/
theorem migration_sources (hdigits : AsciiDigits) :
    (∀ st t : Store, Keyed st → exec storeNew st = (.ok (), t) →
      t.recipients.rows = st.recipients.rows.map sourced ∧
        ∀ r ∈ t.recipients.rows, r.nicksrc ≠ nicksrcMigrated) ∧
    (∀ st : Store, Keyed st → Up st → ((exec storeNew st).1 = .ok () ↔
      ∀ r ∈ st.recipients.rows, r.nicksrc = nicksrcMigrated → Readable r)) ∧
    (∀ nick : Str, (newSource nick = nicksrcAuto ∨ newSource nick = nicksrcUser) ∧
      (newSource nick = nicksrcAuto ↔
        ∃ pre c post, nick = pre ++ 'I' :: c :: post ∧ Crates.regexDigit c = true)) ∧
    (∀ addr : PduAddress, newSource (makeNickForAddress addr) = nicksrcAuto ↔
      ∃ pre c d post, Crates.unidecode (Crates.displayAddress addr) = pre ++ c :: d :: post ∧
        (c = '+' ∨ c = 'I') ∧ d.isDigit = true) ∧
    ∀ (m : WhatsappManager) (ct : WaContact) (addr : PduAddress) (r : Recipient),
      Keyed m.msgproc.store → addressOf ct.jid = .ok (some addr) →
      r ∈ m.msgproc.store.recipients.rows → r.phoneNumber = normalizeAddress addr →
        (r.nicksrc = nicksrcUser → (exec (onContactChange ct) m).2.cfTx = m.cfTx) ∧
        (r.nicksrc = nicksrcAuto → Up m.msgproc.store → m.autoupdateNicks = true →
          ct.jid.id ≠ ("status" : Str) → ct.jid.isGroup = false →
          (contactNick ct addr).2 ≠ nicksrcAuto → (contactNick ct addr).1 ≠ r.nick →
            (exec (onContactChange ct) m).2.cfTx = m.cfTx ++
              [.forwardCommand addr
                (.changeNick (contactNick ct addr).1 (contactNick ct addr).2)]) := by
  refine ⟨fun st t hk hrun => ?_, fun st hk hup => ?_, fun nick => ⟨?_, newSource_eq_auto⟩,
    fun addr => ?_, fun m ct addr r hk haddr hr hnum => ⟨fun hsrc => ?_, ?_⟩⟩
  · have hrows := (wp_of_ok hrun (wp_storeNew hk)).1
    refine ⟨hrows, fun r hr => ?_⟩
    rw [hrows] at hr
    obtain ⟨q, -, rfl⟩ := List.mem_map.mp hr
    exact sourced_nicksrc_ne q
  · have hwp := wp_storeNew hk
    constructor
    · intro hok
      exact (wp_of_ok (Prod.ext hok rfl) hwp).2
    · intro hread
      rcases hrun : exec storeNew st with ⟨e | ⟨⟩, t⟩
      · rcases wp_of_error hrun hwp with hdown | ⟨r, hr, hsrc, hno⟩
        · exact absurd hup hdown
        · exact absurd (hread r hr hsrc) hno
      · rfl
  · unfold newSource
    split
    · exact .inl rfl
    · exact .inr rfl
  · rw [newSource_eq_auto, ← defaultReMatches_iff]
    exact defaultReMatches_makeNick hdigits addr
  · exact cfTx_of_user haddr hk hr hnum hsrc
  · intro hsrc hup hauto hstatus hgroup hnew hnick
    exact cfTx_of_auto haddr hk hr hnum hsrc hup hauto ⟨hstatus, hgroup⟩ hnew hnick

end Migration

section Samples

attribute [local instance] Sample.crates

/-- A row that has no source yet. -/
def migratedRow (num nick : Str) (id : Nat) : Recipient where
  id := id
  phoneNumber := num
  nick := nick
  whatsapp := false
  avatarUrl := none
  notify := none
  nicksrc := nicksrcMigrated

/-- The number 4412, of no known type. -/
def bob : PduAddress := ⟨Sample.unknown, [4, 4, 1, 2]⟩

/-- A database of two rows. -/
def migrating (num nick num' nick' : Str) : Store :=
  { Sample.store with
    recipients := (Table.empty.insert (migratedRow num nick) fun _ => rfl).insert
      (migratedRow num' nick') fun _ => rfl }

/-- The sources that the rows have in the end. -/
def sourcesAfter (st : Store) : List Int :=
  (exec storeNew st).2.recipients.rows.map Recipient.nicksrc

/-- The same for the numbers of two people. -/
def people (nick nick' : Str) : Store :=
  migrating (normalizeAddress Sample.alice) nick (normalizeAddress bob) nick'

def managerAfter (nick : Str) : WhatsappManager :=
  setStore WhatsappRuns.sampleManager (exec storeNew (people nick ("Bob" : Str))).2

def named : WaContact := ⟨⟨("44123" : Str), false⟩, some ("Alice" : Str), none⟩

theorem asciiDigits : AsciiDigits := fun _ _ => rfl

theorem keyed_people (nick nick' : Str) : Keyed (people nick nick') := by
  have hwritten : Written (people nick nick') := by
    constructor
    · show [normalizeAddress Sample.alice, normalizeAddress bob].Nodup
      decide
    · intro r hr
      rcases List.mem_cons.mp hr with rfl | hr
      · exact ⟨Sample.alice, rfl⟩
      · rw [List.mem_singleton.mp hr]
        exact ⟨bob, rfl⟩
  exact hwritten.keyed codesRead.keysRead

theorem readable_people (nick nick' : Str) :
    ∀ r ∈ (people nick nick').recipients.rows, r.nicksrc = nicksrcMigrated → Readable r := by
  intro r hr _
  rcases List.mem_cons.mp hr with rfl | hr
  · show (unNormalizeAddress (normalizeAddress Sample.alice)).isSome = true
    decide
  · rw [List.mem_singleton.mp hr]
    show (unNormalizeAddress (normalizeAddress bob)).isSome = true
    decide

/-- The nick made of a number is found and improved, and a name that the user gave is kept. -/
theorem migration_sources_sample :
    (sourcesAfter (people ("I44123" : Str) ("Bob" : Str)) = [nicksrcAuto, nicksrcUser] ∧
      nicksrcMigrated ∉ sourcesAfter (people ("I44123" : Str) ("Bob" : Str))) ∧
    (exec (onContactChange named) (managerAfter ("I44123" : Str))).2.cfTx =
      [.forwardCommand Sample.alice (.changeNick ("Alice" : Str) nicksrcWaContact)] ∧
    (exec (onContactChange named) (managerAfter ("Ann" : Str))).2.cfTx = [] := by
  obtain ⟨hrows, hok, -, -, hchange⟩ := migration_sources asciiDigits
  have hran : ∀ nick, exec storeNew (people nick ("Bob" : Str)) =
      (.ok (), (exec storeNew (people nick ("Bob" : Str))).2) := fun nick =>
    Prod.ext ((hok _ (keyed_people nick _) fun _ => rfl).mpr (readable_people nick _)) rfl
  have hafter := fun nick => hrows _ _ (keyed_people nick _) (hran nick)
  have hkeyed : ∀ nick, Keyed (managerAfter nick).msgproc.store := fun nick =>
    keyed_sourced (keyed_people nick _) (hafter nick).1
  have hfirst : ∀ nick, sourced (migratedRow (normalizeAddress Sample.alice) nick 1) ∈
      (managerAfter nick).msgproc.store.recipients.rows := by
    intro nick
    have hmem : migratedRow (normalizeAddress Sample.alice) nick 1 ∈
        (people nick ("Bob" : Str)).recipients.rows := List.mem_cons_self
    show _ ∈ (exec storeNew (people nick ("Bob" : Str))).2.recipients.rows
    rw [(hafter nick).1]
    exact List.mem_map_of_mem hmem
  refine ⟨⟨by decide +kernel, fun hno => ?_⟩, ?_, ?_⟩
  · obtain ⟨r, hr, hsrc⟩ := List.mem_map.mp hno
    exact (hafter _).2 r hr hsrc
  · exact (hchange _ named Sample.alice _ (hkeyed _) rfl (hfirst _) rfl).2 (by decide)
      (fun _ => rfl) rfl (by decide) rfl (by decide) (by decide)
  · exact (hchange _ named Sample.alice _ (hkeyed _) rfl (hfirst _) rfl).1 (by decide)

/-- A nick of the user's is taken for a made one, a made one for the user's, and a row keeps
no source if its number is not written as the bridge writes it. -/
theorem heuristic_differs :
    (("BobI5" : Str) ≠ makeNickForAddress Sample.alice ∧
      makeNickForAddress bob = ("S4412" : Str) ∧
      sourcesAfter (people ("BobI5" : Str) ("S4412" : Str)) = [nicksrcAuto, nicksrcUser]) ∧
    unNormalizeAddress ("910a" : Str) = some ⟨Sample.international, [10]⟩ ∧
      sourcesAfter (migrating ("910a" : Str) ("Ann" : Str) (normalizeAddress bob)
        ("Bob" : Str)) = [nicksrcMigrated, nicksrcUser] := by
  decide +kernel

end Samples

end SmsIrc.NickMigration
