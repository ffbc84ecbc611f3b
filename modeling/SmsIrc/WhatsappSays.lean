import SmsIrc.Formatting
import SmsIrc.WhatsappFrame

/-!
What a WhatsApp message says in IRC: the lines that tell of its content, and of what it
quotes.
-/

namespace SmsIrc.WhatsappSays

open SmsIrc.Comm SmsIrc.Database SmsIrc.External SmsIrc.Formatting SmsIrc.Models SmsIrc.Program
open SmsIrc.Replacement SmsIrc.SenderCommon SmsIrc.SerialTable SmsIrc.Text SmsIrc.Util
open SmsIrc.WhatsappFrame SmsIrc.WhatsappMsg

section Says

variable [Crates]

def StartsDigit (text : Str) : Prop := ∃ d rest, text = d :: rest ∧ Crates.regexDigit d = true

/-- A text in which everybody who is mentioned by the digits of a number is named. -/
inductive Mentions (named : Str → Str → Prop) : Str → Str → Prop
  | nil : Mentions named [] []
  | plain {c : Char} {text out : Str} (hno : c = '@' → ¬ StartsDigit text)
      (h : Mentions named text out) : Mentions named (c :: text) (c :: out)
  | mention {digits text name out : Str} (hne : digits ≠ [])
      (hdigits : ∀ d ∈ digits, Crates.regexDigit d = true) (hend : ¬ StartsDigit text)
      (hname : named digits name) (h : Mentions named text out) :
      Mentions named ('@' :: (digits ++ text)) (name ++ out)

/-- A recipient has a row under an address. -/
def KnownAs (st : Store) (addr : PduAddress) (r : Recipient) : Prop :=
  r ∈ st.recipients.rows ∧ r.phoneNumber = normalizeAddress addr

/-- The name of a number, if the database has gone from `s` to `t` in the meantime. -/
inductive Named (s t : Store) (digits : Str) : Str → Prop
  | known {addr : PduAddress} {r : Recipient}
      (haddr : Crates.parseAddress ('+' :: digits) = some addr) (hr : KnownAs t addr r) :
      Named s t digits r.nick
  | unknown {addr : PduAddress} (haddr : Crates.parseAddress ('+' :: digits) = some addr)
      (hno : ∀ r, ¬ KnownAs s addr r) : Named s t digits (("<+" : Str) ++ digits ++ ['>'])
  | unread (hdown : ∃ n, s.dbDown n = true) : Named s t digits ('@' :: digits)

/-- A text of at most 128 bytes, or the first 128 characters of a longer one. -/
inductive Shortened : Str → Str → Prop
  | short {text : Str} (hlen : byteLen text ≤ 128) : Shortened text text
  | long {text : Str} {kept rest : List Str} (hlen : 128 < byteLen text)
      (hparts : Crates.graphemes text = kept ++ rest)
      (hkept : kept.length = 128 ∨ kept.length < 128 ∧ rest = []) :
      Shortened text (kept.flatten ++ ['…'])

/-- The text that tells of some content. -/
inductive Says (s t : Store) : ChatMessageContent → Str → Prop
  | text {msg bold italic out : Str} (hbold : Replaced (Delimited '*' '\x02') msg bold)
      (hitalic : Replaced (Delimited '_' '\x1d') bold italic)
      (hnames : Mentions (Named s t) italic out) : Says s t (.text msg) out
  | unimplemented {det short : Str} (hdet : ∃ c ∈ det, isWhitespace c = false)
      (hshort : Shortened det short) :
      Says s t (.unimplemented det) (("[\x02\x0304unimplemented\x0f] " : Str) ++ short)
  | travelling (lat long speed : Str) :
      Says s t (.liveLocation lat long (some speed))
        (("\x01ACTION is travelling at " : Str) ++ speed ++
          (" m/s - https://google.com/maps?q=" : Str) ++ lat ++ [','] ++ long ++ ['\x01'])
  | broadcasting (lat long : Str) :
      Says s t (.liveLocation lat long none)
        (("\x01ACTION is broadcasting live location - https://google.com/maps?q=" : Str) ++ lat ++
          [','] ++ long ++ ['\x01'])
  | at (lat long name : Str) :
      Says s t (.location lat long (some name))
        (("\x01ACTION is at '" : Str) ++ name ++ ("' - https://google.com/maps?q=" : Str) ++ lat ++
          [','] ++ long ++ ['\x01'])
  | somewhere (lat long : Str) :
      Says s t (.location lat long none)
        (("\x01ACTION is somewhere - https://google.com/maps?q=" : Str) ++ lat ++ [','] ++ long ++
          ['\x01'])
  | redaction (mid : Str) :
      Says s t (.redaction mid)
        (("\x01ACTION redacted message ID \x11" : Str) ++ mid ++ ("\x11\x01" : Str))
  | card (name vcard : Str) {link : Str} (hlink : (".vcf" : Str) <:+ link) :
      Says s t (.contact name vcard)
        (("\x01ACTION uploaded a contact for '" : Str) ++ name ++ ("' - " : Str) ++ link ++
          ['\x01'])
  | noCard (name vcard : Str) :
      Says s t (.contact name vcard)
        (("\x01ACTION uploaded a contact for '" : Str) ++ name ++
          ("' (couldn't download)\x01" : Str))
  | caption {content : ChatMessageContent} {text : Str} (hmedia : isMedia content = true)
      (htext : Crates.takeCaption content = some text) : Says s t content text

/-- Who has written a message that is quoted. -/
inductive Writes (s t : Store) (jid : Jid) : Str → Prop
  | known {pn : Str} {addr : PduAddress} {r : Recipient} (hpn : Crates.phonenumber jid = some pn)
      (haddr : Crates.parseAddress pn = some addr) (hr : KnownAs t addr r) :
      Writes s t jid r.nick
  | unknown (hno : ∀ pn addr r, Crates.phonenumber jid = some pn →
      Crates.parseAddress pn = some addr → ¬ KnownAs s addr r) :
      Writes s t jid (Crates.displayJid jid)

/-- The line that quotes a message, to a group or to nobody else. -/
inductive Quotes (s t : Store) (qm : QuotedChatMessage) : Option Nat → Str → Prop
  | direct {short : Str} (hshort : Shortened (Crates.quotedDescription qm.content) short) :
      Quotes s t qm none (("\x0315> \x1d" : Str) ++ short)
  | group {id : Nat} {who short : Str} (hwho : Writes s t qm.participant who)
      (hshort : Shortened (Crates.quotedDescription qm.content) short) :
      Quotes s t qm (some id) (("\x0315> \x1d<" : Str) ++ who ++ ("> " : Str) ++ short)

/-- The lines that tell of a message. -/
inductive Lines (s t : Store) (content : ChatMessageContent) (group : Option Nat) :
    Option QuotedChatMessage → List Str → Prop
  | alone {text : Str} (hsay : Says s t content text) : Lines s t content group none [text]
  | quoting {qm : QuotedChatMessage} {quote text : Str} (hquote : Quotes s t qm group quote)
      (hsay : Says s t content text) : Lines s t content group (some qm) [quote, text]

/-- The line for media: a link, or that they could not be fetched. -/
inductive Fetched : Except Str Str → Str → Prop
  | link (text : Str) : Fetched (.ok text) text
  | failed (e : Str) :
      Fetched (.error e) ("\x01ACTION uploaded media (couldn't download)\x01" : Str)

/-- No recipient and no group is lost, and the same queries fail. -/
structure Adds (s t : Store) : Prop where
  dbDown : t.dbDown = s.dbDown
  recipients : ∀ r ∈ s.recipients.rows, r ∈ t.recipients.rows
  groups : ∀ g ∈ s.groups.rows, g ∈ t.groups.rows

instance : IsPreorder Store Adds where
  refl _ := ⟨rfl, fun _ h => h, fun _ h => h⟩
  trans _ _ _ h h' := ⟨h'.dbDown.trans h.dbDown, fun r hr => h'.recipients r (h.recipients r hr),
    fun g hg => h'.groups g (h.groups g hg)⟩

theorem adds_of_eq {s t : Store} (hdown : t.dbDown = s.dbDown)
    (hrecips : t.recipients = s.recipients) (hgroups : t.groups = s.groups) : Adds s t :=
  ⟨hdown, fun _ h => hrecips ▸ h, fun _ h => hgroups ▸ h⟩

section Mono

variable {s t s' t' : Store}

theorem KnownAs.adds {addr : PduAddress} {r : Recipient} (h : KnownAs s addr r) (hs : Adds s t) :
    KnownAs t addr r := ⟨hs.recipients r h.1, h.2⟩

theorem Named.mono {digits name : Str} (h : Named s t digits name) (hs : Adds s' s)
    (ht : Adds t t') : Named s' t' digits name := by
  cases h with
  | known haddr hr => exact .known haddr (hr.adds ht)
  | unknown haddr hno => exact .unknown haddr fun r hr => hno r (hr.adds hs)
  | unread hdown => exact .unread (by rwa [← hs.dbDown])

theorem Mentions.mono {named named' : Str → Str → Prop} (hmono : ∀ d n, named d n → named' d n)
    {text out : Str} (h : Mentions named text out) : Mentions named' text out := by
  induction h with
  | nil => exact .nil
  | plain hno h ih => exact .plain hno ih
  | mention hne hdigits hend hname h ih => exact .mention hne hdigits hend (hmono _ _ hname) ih

theorem Says.mono {content : ChatMessageContent} {text : Str} (h : Says s t content text)
    (hs : Adds s' s) (ht : Adds t t') : Says s' t' content text := by
  cases h with
  | text hbold hitalic hnames =>
      exact .text hbold hitalic (hnames.mono fun _ _ h => h.mono hs ht)
  | unimplemented hdet hshort => exact .unimplemented hdet hshort
  | travelling => exact .travelling _ _ _
  | broadcasting => exact .broadcasting _ _
  | «at» => exact .at _ _ _
  | somewhere => exact .somewhere _ _
  | redaction => exact .redaction _
  | card _ _ hlink => exact .card _ _ hlink
  | noCard => exact .noCard _ _
  | caption hmedia htext => exact .caption hmedia htext

theorem Writes.mono {jid : Jid} {who : Str} (h : Writes s t jid who) (hs : Adds s' s)
    (ht : Adds t t') : Writes s' t' jid who := by
  cases h with
  | known hpn haddr hr => exact .known hpn haddr (hr.adds ht)
  | unknown hno => exact .unknown fun pn addr r hpn haddr hr => hno pn addr r hpn haddr (hr.adds hs)

theorem Lines.mono {content : ChatMessageContent} {group : Option Nat}
    {quoted : Option QuotedChatMessage} {texts : List Str}
    (h : Lines s t content group quoted texts) (hs : Adds s' s) (ht : Adds t t') :
    Lines s' t' content group quoted texts := by
  cases h with
  | alone hsay => exact .alone (hsay.mono hs ht)
  | quoting hquote hsay =>
      refine .quoting ?_ (hsay.mono hs ht)
      cases hquote with
      | direct hshort => exact .direct hshort
      | group hwho hshort => exact .group (hwho.mono hs ht) hshort

end Mono

theorem shortened_cutText (text : Str) : Shortened text (cutText text) := by
  unfold cutText
  split
  · rename_i hlen
    refine .long hlen (List.take_append_drop 128 _).symm ?_
    rcases Nat.lt_or_ge (Crates.graphemes text).length 128 with h | h
    · exact .inr ⟨by rw [List.length_take]; omega, List.drop_eq_nil_of_le h.le⟩
    · exact .inl (by rw [List.length_take]; omega)
  · rename_i hlen
    exact .short (Nat.le_of_not_lt hlen)

/-- What has become of a piece of a text. -/
inductive PieceSays (named : Str → Str → Prop) : Piece → Str → Prop
  | plain (c : Char) : PieceSays named (.plain c) [c]
  | mention {digits name : Str} (hname : named digits name) :
      PieceSays named (.mention digits) name

theorem not_startsDigit_cons {c : Char} {text : Str} (h : ¬ Crates.regexDigit c = true) :
    ¬ StartsDigit (c :: text) := by
  rintro ⟨d, rest, heq, hd⟩
  obtain ⟨rfl, -⟩ := List.cons.inj heq
  exact h hd

theorem mentions_ended {named : Str → Str → Prop} {digits text : Str} {pieces : List Piece}
    {outs : List Str} (hdigits : ∀ d ∈ digits, Crates.regexDigit d = true)
    (hend : ¬ StartsDigit text)
    (hrest : ∀ outs, List.Forall₂ (PieceSays named) pieces outs →
      Mentions named text outs.flatten)
    (h : List.Forall₂ (PieceSays named)
      ((if digits = [] then .plain '@' else .mention digits) :: pieces) outs) :
    Mentions named ('@' :: (digits ++ text)) outs.flatten := by
  obtain _ | ⟨hpiece, h⟩ := h
  split at hpiece
  · rename_i hempty
    cases hpiece
    rw [hempty]
    exact .plain (fun _ => hend) (hrest _ h)
  · rename_i hne
    cases hpiece with
    | mention hname => exact .mention hne hdigits hend hname (hrest _ h)

/-- Induction on what is left of the text, outside a mention and within one. -/
theorem mentions_of_pieces {named : Str → Str → Prop} (text : Str) :
    (∀ outs, List.Forall₂ (PieceSays named) (mentionPieces none text) outs →
      Mentions named text outs.flatten) ∧
    (∀ digits outs, (∀ d ∈ digits, Crates.regexDigit d = true) →
      List.Forall₂ (PieceSays named) (mentionPieces (some digits) text) outs →
      Mentions named ('@' :: (digits ++ text)) outs.flatten) := by
  induction text with
  | nil =>
      have hnil : ∀ outs, List.Forall₂ (PieceSays named) [] outs →
          Mentions named [] outs.flatten := by
        rintro _ ⟨⟩
        exact .nil
      refine ⟨hnil, fun digits outs hdigits h => ?_⟩
      have hend : ¬ StartsDigit [] := by
        rintro ⟨d, rest, heq, -⟩
        cases heq
      have hpieces : mentionPieces (some digits) [] =
          [if digits = [] then .plain '@' else .mention digits] := by
        rw [mentionPieces]
        split <;> rfl
      rw [hpieces] at h
      exact mentions_ended hdigits hend hnil h
  | cons c text ih =>
      obtain ⟨hnone, hsome⟩ := ih
      -- what follows a place that is not within a mention
      have hstart : ∀ outs, List.Forall₂ (PieceSays named)
          (if c = '@' then mentionPieces (some []) text
            else .plain c :: mentionPieces none text) outs →
          Mentions named (c :: text) outs.flatten := by
        intro outs h
        split at h
        · rename_i hc
          rw [hc]
          exact hsome [] outs (fun _ hd => by cases hd) h
        · rename_i hc
          obtain _ | ⟨⟨⟩, h⟩ := h
          exact .plain (fun heq => absurd heq hc) (hnone _ h)
      constructor
      · intro outs h
        rw [mentionPieces] at h
        exact hstart outs h
      · intro digits outs hdigits h
        rw [mentionPieces] at h
        split at h
        · rename_i hc
          have := hsome (digits ++ [c]) outs (fun d hd => ?_) h
          · rwa [List.append_assoc] at this
          · rcases List.mem_append.mp hd with hd | hd
            · exact hdigits d hd
            · exact List.mem_singleton.mp hd ▸ hc
        · rename_i hc
          exact mentions_ended hdigits (not_startsDigit_cons hc) hstart h

/-- The tables that names are looked up in are as they were. -/
structure SameNames (p q : WaMessageProcessor) : Prop where
  dbDown : q.store.dbDown = p.store.dbDown
  recipients : q.store.recipients = p.store.recipients

instance : IsPreorder WaMessageProcessor SameNames where
  refl _ := ⟨rfl, rfl⟩
  trans _ _ _ h h' := ⟨h'.dbDown.trans h.dbDown, h'.recipients.trans h.recipients⟩

theorem processing_sameNames : Processing SameNames where
  query _ _ := (wp_zoom _).mpr (wp_query_of ⟨⟨rfl, rfl⟩, trivial⟩ ⟨rfl, rfl⟩)
  contactFiles _ _ := ⟨rfl, rfl⟩
  downloads _ _ := ⟨rfl, rfl⟩

section Processed

variable {p q : WaMessageProcessor}

theorem SameNames.knownAs_iff (h : SameNames p q) {addr : PduAddress} {r : Recipient} :
    KnownAs q.store addr r ↔ KnownAs p.store addr r := by
  rw [KnownAs, KnownAs, h.recipients]

theorem wp_lookedUp (h : SameNames p q) (addr : PduAddress) :
    wp (store (getRecipientByAddrOpt addr) : MsgM (Option Recipient))
      (fun found u => SameNames p u ∧
        (∀ r, found = some r → KnownAs p.store addr r) ∧
        (found = none → ∀ r, ¬ KnownAs p.store addr r))
      (fun _ u => SameNames p u ∧ ∃ n, p.store.dbDown n = true) q := by
  apply (wp_zoom _).mpr
  rw [getRecipientByAddrOpt, wp_query]
  split
  · rename_i hdown
    exact ⟨⟨h.dbDown, h.recipients⟩, _, h.dbDown ▸ hdown⟩
  · refine ⟨⟨h.dbDown, h.recipients⟩, fun r hr => h.knownAs_iff.mp ?_, fun hnone r hr => ?_⟩
    · exact ⟨List.mem_of_find?_eq_some hr, by simpa using List.find?_some hr⟩
    · obtain ⟨hmem, hkey⟩ := h.knownAs_iff.mpr hr
      exact List.find?_eq_none.mp hnone r hmem (by simpa using hkey)

theorem wp_replacePiece (h : SameNames p q) (piece : Piece) :
    wp (replacePiece piece)
      (fun out u => SameNames p u ∧ PieceSays (Named p.store p.store) piece out)
      (fun _ _ => True) q := by
  cases piece with
  | plain c => exact ⟨h, .plain c⟩
  | mention digits =>
      cases haddr : Crates.parseAddress ('+' :: digits) with
      | none =>
          rw [replacePiece, haddr, wp_bind, wp_unwrap_none]
          trivial
      | some addr =>
          rw [replacePiece, haddr, wp_bind, wp_unwrap_some, wp_bind]
          have hlookup := wp_lookedUp h addr
          refine wp_attempt (wp_mono hlookup ?_ ?_) (wp_mono hlookup (fun _ _ _ => trivial) ?_)
          · rintro (_ | r) u ⟨hu, hsome, hnone⟩
            · exact ⟨hu, .mention (.unknown haddr (hnone rfl))⟩
            · exact ⟨hu, .mention (.known haddr (hsome r rfl))⟩
          · rintro e u ⟨hu, hdown⟩ -
            exact ⟨hu, .mention (.unread hdown)⟩
          · intros
            trivial

theorem wp_processWaTextMessage (h : SameNames p q) (msg : Str) :
    wp (processWaTextMessage msg) (fun out _ => Says p.store p.store (.text msg) out)
      (fun _ _ => True) q := by
  rw [processWaTextMessage, wp_bind]
  refine wp_mono ( wp_mapM_prefix (fun done outs u => SameNames p u ∧
    List.Forall₂ (PieceSays (Named p.store p.store)) done outs) ?_ ⟨h, .nil⟩) ?_
    fun _ _ h => h
  · rintro done piece rest - outs u ⟨hu, houts⟩
    refine wp_mono (wp_replacePiece hu piece) ?_ fun _ _ h => h
    rintro out v ⟨hv, hout⟩
    exact ⟨hv, List.rel_append houts (.cons hout .nil)⟩
  · rintro outs u ⟨-, houts⟩
    exact .text (replaced_from _ _ _).1 (replaced_from _ _ _).1 ((mentions_of_pieces _).1 _ houts)

theorem says_liveLocation {s t : Store} (lat long : Str) (speed : Option Str) :
    Says s t (.liveLocation lat long speed) (action (("is " : Str) ++ match speed with
      | some s => ("travelling at " : Str) ++ s ++ (" m/s - " : Str) ++ mapLink lat long
      | none => ("broadcasting live location - " : Str) ++ mapLink lat long)) := by
  cases speed with
  | none =>
      have hlit : ("\x01ACTION is broadcasting live location - https://google.com/maps?q=" : Str) =
          ("\x01ACTION " : Str) ++ (("is " : Str) ++ (("broadcasting live location - " : Str) ++
            ("https://google.com/maps?q=" : Str))) := by decide +kernel
      have hsay := Says.broadcasting (s := s) (t := t) lat long
      rw [hlit] at hsay
      unfold action mapLink
      simpa only [List.append_assoc] using hsay
  | some speed =>
      have hstart : ("\x01ACTION is travelling at " : Str) =
          ("\x01ACTION " : Str) ++ (("is " : Str) ++ ("travelling at " : Str)) := by decide +kernel
      have hend : (" m/s - https://google.com/maps?q=" : Str) =
          (" m/s - " : Str) ++ ("https://google.com/maps?q=" : Str) := by decide +kernel
      have hsay := Says.travelling (s := s) (t := t) lat long speed
      rw [hstart, hend] at hsay
      unfold action mapLink
      simpa only [List.append_assoc] using hsay

theorem says_location {s t : Store} (lat long : Str) (name : Option Str) :
    Says s t (.location lat long name) (action (("is " : Str) ++ (match name with
      | some n => ("at '" : Str) ++ n ++ ("'" : Str)
      | none => ("somewhere" : Str)) ++ (" - " : Str) ++ mapLink lat long)) := by
  cases name with
  | none =>
      have hlit : ("\x01ACTION is somewhere - https://google.com/maps?q=" : Str) =
          ("\x01ACTION " : Str) ++ (("is " : Str) ++ (("somewhere" : Str) ++ ((" - " : Str) ++
            ("https://google.com/maps?q=" : Str)))) := by decide +kernel
      have hsay := Says.somewhere (s := s) (t := t) lat long
      rw [hlit] at hsay
      unfold action mapLink
      simpa only [List.append_assoc] using hsay
  | some name =>
      have hstart : ("\x01ACTION is at '" : Str) =
          ("\x01ACTION " : Str) ++ (("is " : Str) ++ ("at '" : Str)) := by decide +kernel
      have hend : ("' - https://google.com/maps?q=" : Str) =
          ("'" : Str) ++ ((" - " : Str) ++ ("https://google.com/maps?q=" : Str)) := by decide +kernel
      have hsay := Says.at (s := s) (t := t) lat long name
      rw [hstart, hend] at hsay
      unfold action mapLink
      simpa only [List.append_assoc] using hsay

theorem says_redaction {s t : Store} (mid : Str) :
    Says s t (.redaction mid)
      (action (("redacted message ID \x11" : Str) ++ mid ++ ['\x11'])) := by
  have hstart : ("\x01ACTION redacted message ID \x11" : Str) =
      ("\x01ACTION " : Str) ++ ("redacted message ID \x11" : Str) := by decide +kernel
  have hend : ("\x11\x01" : Str) = ['\x11'] ++ ['\x01'] := by decide +kernel
  have hsay := Says.redaction (s := s) (t := t) mid
  rw [hstart, hend] at hsay
  unfold action
  simpa only [List.append_assoc] using hsay

theorem says_card {s t : Store} (name vcard : Str) {link : Str} (hlink : (".vcf" : Str) <:+ link) :
    Says s t (.contact name vcard) (action (("uploaded a contact for '" : Str) ++ name ++
      ("' - " : Str) ++ link)) := by
  have hstart : ("\x01ACTION uploaded a contact for '" : Str) =
      ("\x01ACTION " : Str) ++ ("uploaded a contact for '" : Str) := by decide +kernel
  have hsay := Says.card (s := s) (t := t) name vcard hlink
  rw [hstart] at hsay
  unfold action
  simpa only [List.append_assoc] using hsay

theorem says_noCard {s t : Store} (name vcard : Str) :
    Says s t (.contact name vcard) (action (("uploaded a contact for '" : Str) ++ name ++
      ("' (couldn't download)" : Str))) := by
  have hstart : ("\x01ACTION uploaded a contact for '" : Str) =
      ("\x01ACTION " : Str) ++ ("uploaded a contact for '" : Str) := by decide +kernel
  have hend : ("' (couldn't download)\x01" : Str) =
      ("' (couldn't download)" : Str) ++ ['\x01'] := by decide +kernel
  have hsay := Says.noCard (s := s) (t := t) name vcard
  rw [hstart, hend] at hsay
  unfold action
  simpa only [List.append_assoc] using hsay

theorem wp_storeContact (p : WaMessageProcessor) :
    wp storeContact (fun r _ => ∀ link, r = .ok link → (".vcf" : Str) <:+ link)
      (fun _ _ => True) p := by
  rw [storeContact, wp_bind, wp_get, wp_bind, wp_set, wp_pure]
  intro link hlink
  cases hfile : p.contactFile p.contactFiles with
  | error e =>
      rw [hfile] at hlink
      cases hlink
  | ok uu =>
      rw [hfile] at hlink
      cases hlink
      exact List.suffix_append _ _

theorem wp_contentText (inc : IncomingMessage) :
    wp (contentText inc)
      (fun text _ => ∀ out, text = some out → Says p.store p.store inc.content out)
      (fun _ _ => True) p := by
  have hmedia : isMedia inc.content = true → wp (contentText.mediaText inc)
      (fun text _ => ∀ out, text = some out → Says p.store p.store inc.content out)
      (fun _ _ => True) p := fun h out hout => .caption h hout
  unfold contentText
  split
  · rename_i s hs
    rw [wp_map, hs]
    refine wp_mono (wp_processWaTextMessage (Std.Refl.refl (r := SameNames) p) s) ?_ fun _ _ h => h
    rintro out _ hsay _ ⟨⟩
    exact hsay
  · rename_i det hdet
    rw [hdet]
    intro out hout
    split at hout
    · cases hout
    · rename_i hblank
      cases hout
      refine .unimplemented ?_ (shortened_cutText det)
      simpa [isBlank] using hblank
  · rename_i lat long speed hcontent
    rw [hcontent]
    rintro _ ⟨⟩
    exact says_liveLocation lat long speed
  · rename_i lat long name hcontent
    rw [hcontent]
    rintro _ ⟨⟩
    exact says_location lat long name
  · rename_i mid hcontent
    rw [hcontent]
    rintro _ ⟨⟩
    exact says_redaction mid
  · rename_i name vcard hcontent
    rw [hcontent, wp_bind]
    refine wp_mono (wp_storeContact p) ?_ fun _ _ h => h
    rintro (e | link) _ hlink _ ⟨⟩
    · exact says_noCard name vcard
    · exact says_card name vcard (hlink link rfl)
  · rename_i hcontent
    exact hmedia (by rw [hcontent]; rfl)
  · rename_i hcontent
    exact hmedia (by rw [hcontent]; rfl)
  · rename_i hcontent
    exact hmedia (by rw [hcontent]; rfl)
  · rename_i hcontent
    exact hmedia (by rw [hcontent]; rfl)

theorem wp_jidToNick (h : SameNames p q) (jid : Jid) :
    wp (jidToNick jid)
      (fun nick _ => Writes p.store p.store jid (nick.getD (Crates.displayJid jid)))
      (fun _ _ => True) q := by
  have hno : (∀ pn addr, Crates.phonenumber jid = some pn → Crates.parseAddress pn ≠ some addr) →
      Writes p.store p.store jid (Crates.displayJid jid) :=
    fun hno => .unknown fun pn addr _ hpn haddr => absurd haddr (hno pn addr hpn)
  unfold jidToNick
  split
  · rename_i pn hpn
    split
    · rename_i addr haddr
      rw [wp_bind]
      refine wp_mono (wp_lookedUp h addr) ?_ fun _ _ _ => trivial
      rintro (_ | r) u ⟨-, hsome, hnone⟩
      · refine .unknown fun pn' addr' r' hpn' haddr' => ?_
        obtain rfl : pn = pn' := Option.some.inj (hpn.symm.trans hpn')
        obtain rfl : addr = addr' := Option.some.inj (haddr.symm.trans haddr')
        exact hnone rfl r'
      · exact .known hpn haddr (hsome r rfl)
    · rename_i haddr
      refine hno fun pn' addr hpn' haddr' => ?_
      obtain rfl : pn = pn' := Option.some.inj (hpn.symm.trans hpn')
      rw [haddr] at haddr'
      cases haddr'
  · rename_i hpn
    exact hno fun pn _ hpn' => absurd hpn' (by simp [hpn])

theorem wp_quoteLine (h : SameNames p q) (inc : IncomingMessage) (qm : QuotedChatMessage) :
    wp (quoteLine inc qm)
      (fun line _ => line.fromJid = inc.fromJid ∧ line.group = inc.group ∧ line.ts = inc.ts ∧
        Quotes p.store p.store qm inc.group line.text)
      (fun _ _ => True) q := by
  rw [quoteLine, wp_bind]
  have hshort := shortened_cutText (Crates.quotedDescription qm.content)
  unfold quotedNick
  cases hgroup : inc.group with
  | none =>
      refine ⟨rfl, rfl, rfl, ?_⟩
      rw [List.append_nil]
      exact .direct hshort
  | some id =>
      rw [Option.isSome_some, if_pos rfl, wp_bind]
      refine wp_mono (wp_jidToNick h qm.participant) ?_ fun _ _ h => h
      intro nick _ hwho
      refine ⟨rfl, rfl, rfl, ?_⟩
      have hstart : ("\x0315> \x1d<" : Str) = ("\x0315> \x1d" : Str) ++ ['<'] := by decide +kernel
      have hquotes : Quotes p.store p.store qm (some id) _ := .group hwho hshort
      rw [hstart] at hquotes
      simpa only [List.append_assoc] using hquotes

/-- What is known of the lines of a message. -/
structure TellsOf (inc : IncomingMessage) (st : Store) (lines : List ProcessedIncomingMessage) :
    Prop where
  sender : ∀ line ∈ lines, line.fromJid = inc.fromJid
  group : ∀ line ∈ lines, line.group = inc.group
  ts : ∀ line ∈ lines, line.ts = inc.ts
  texts : lines ≠ [] → Lines st st inc.content inc.group inc.quoted
    (lines.map ProcessedIncomingMessage.text)

theorem wp_processWaIncoming (inc : IncomingMessage) (p : WaMessageProcessor) :
    wp (processWaIncoming inc) (fun r _ => TellsOf inc p.store r.1) (fun _ _ => True) p := by
  rw [processWaIncoming, wp_bind]
  refine wp_mono (wp_and (processing_sameNames.contentText inc p) (wp_contentText inc)) ?_
    fun _ _ _ => trivial
  rintro (_ | text) q ⟨hq, hsay⟩
  · exact ⟨by simp, by simp, by simp, fun h => absurd rfl h⟩
  · have htext := hsay text rfl
    dsimp only
    cases hquoted : inc.quoted with
    | none => exact ⟨by simp, by simp, by simp, fun _ => hquoted ▸ .alone htext⟩
    | some qm =>
        dsimp only
        rw [wp_bind]
        refine wp_mono (wp_quoteLine hq inc qm) ?_ fun _ _ h => h
        rintro line _ ⟨hsender, hgroup, hts, hquote⟩
        exact ⟨by simp [hsender], by simp [hgroup], by simp [hts],
          fun _ => hquoted ▸ .quoting hquote htext⟩

end Processed

end Says

end SmsIrc.WhatsappSays
