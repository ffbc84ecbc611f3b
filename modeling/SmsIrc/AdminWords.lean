import SmsIrc.Admin
import SmsIrc.Sample

/-!
The commands of the help pages, and what the parsers make of them.
-/

namespace SmsIrc.AdminWords

open SmsIrc.Admin SmsIrc.External SmsIrc.Lowercase SmsIrc.Text SmsIrc.Util

section Pages

variable [Crates]

/-- A token is one of the words, whatever the case of its letters. -/
def Spells (token : Str) (words : List String) : Prop :=
  ∃ w ∈ words, token.map Char.toLower = w.toList

/-- All letters of the words are ASCII. -/
def ascii (words : List String) : Bool :=
  words.all fun w => w.toList.all fun d => decide (d.toNat < 128)

omit [Crates] in
theorem lt_of_ascii {words : List String} (h : ascii words = true) {w : String}
    (hw : w ∈ words) : ∀ d ∈ w.toList, d.toNat < 128 := by
  have hall : ∀ w ∈ words, ∀ d ∈ w.toList, d.toNat < 128 := by simpa [ascii] using h
  exact hall w hw

theorem Spells.isWord {token : Str} {words : List String} (h : Spells token words)
    (hascii : ascii words = true) : ∃ w ∈ words, isWord token w = true := by
  obtain ⟨w, hw, htoken⟩ := h
  exact ⟨w, hw, decide_eq_true (toLowercase_of_map (lt_of_ascii hascii hw) htoken)⟩

theorem Spells.isWord_single {token : Str} {word : String} (h : Spells token [word])
    (hascii : ascii [word] = true) : Admin.isWord token word = true := by
  obtain ⟨w, hw, htoken⟩ := h.isWord hascii
  rwa [List.mem_singleton.mp hw] at htoken

theorem spells_iff {token : Str} {word : String} (hascii : ascii [word] = true)
    (hk : word.toList.contains 'k' = false) :
    Spells token [word] ↔ isWord token word = true := by
  have hletters : ∀ d ∈ word.toList, d.toNat < 128 ∧ d ≠ 'k' := by
    intro d hd
    refine ⟨lt_of_ascii hascii (List.mem_singleton_self word) d hd, ?_⟩
    rintro rfl
    simp [hd] at hk
  rw [isWord, decide_eq_true_iff, toLowercase_eq_iff hletters]
  simp [Spells]

theorem isWord_insp {token : Str} : isWord token "insp" = true ↔ Spells token ["insp"] :=
  (spells_iff (by decide +kernel) (by decide +kernel)).symm

theorem isWord_raw {token : Str} : isWord token "raw" = true ↔ Spells token ["raw"] :=
  (spells_iff (by decide +kernel) (by decide +kernel)).symm

theorem isWord_eq {token : Str} {word : String} (h : isWord token word = true) (other : String) :
    isWord token other = decide (word = other) := by
  unfold isWord at h ⊢
  rw [decide_eq_true_iff] at h
  rw [h]
  exact decide_eq_decide.mpr String.toList_inj

/-- The subcommands of `GHOST`. -/
inductive GhostPage : List Str → GhostCommand → Prop
  | rename {cmd nick : Str} (h : Spells cmd ["rename"]) : GhostPage [cmd, nick] (.changeNick nick)
  | whatsapp {cmd : Str} (h : Spells cmd ["whatsapp"]) (value : Bool) :
      GhostPage [cmd, if value then ("true" : Str) else ("false" : Str)] (.setWhatsapp value)
  | remove {cmd : Str} (h : Spells cmd ["remove", "kill", "die"]) : GhostPage [cmd] .remove
  | presub {cmd : Str} (h : Spells cmd ["presub"]) : GhostPage [cmd] .presenceSubscribe

omit [Crates] in
theorem GhostPage.cons {ts : List Str} {gc : GhostCommand} (h : GhostPage ts gc) :
    ∃ cmd args, ts = cmd :: args := by
  cases h
  all_goals exact ⟨_, _, rfl⟩

/-- The subcommands of `MODEM`. -/
inductive ModemPage : List Str → ModemCommand → Prop
  | signal {cmd : Str} (h : Spells cmd ["signal", "csq"]) : ModemPage [cmd] .getCsq
  | registration {cmd : Str} (h : Spells cmd ["registration", "reg"]) : ModemPage [cmd] .getReg
  | restart {cmd : Str} (h : Spells cmd ["restart"]) : ModemPage [cmd] .reinit
  | path {cmd path : Str} (h : Spells cmd ["path"]) : ModemPage [cmd, path] (.tempPath (some path))
  | noPath {cmd : Str} (h : Spells cmd ["path"]) : ModemPage [cmd] (.tempPath none)

/-- The subcommands of `CONTACT`. -/
inductive ContactPage : List Str → ContactCommand → Prop
  | whatsapp {cmd num : Str} {addr : PduAddress} (h : Spells cmd ["whatsapp"])
      (hnum : Crates.parseAddress num = some addr) : ContactPage [cmd, num] (.newWhatsapp addr)
  | sms {cmd num : Str} {addr : PduAddress} (h : Spells cmd ["sms"])
      (hnum : Crates.parseAddress num = some addr) : ContactPage [cmd, num] (.newSms addr)

/-- The subcommands of `WHATSAPP`. -/
inductive WhatsappPage : List Str → WhatsappCommand → Prop
  | setup {cmd : Str} (h : Spells cmd ["setup"]) : WhatsappPage [cmd] .setup
  | logon {cmd : Str} (h : Spells cmd ["logon"]) : WhatsappPage [cmd] .logon
  | chats {cmd : Str} (h : Spells cmd ["chats"]) : WhatsappPage [cmd] .chatList
  | receipts {cmd : Str} (h : Spells cmd ["receipts", "acks"]) : WhatsappPage [cmd] .printAcks
  | rebuild {cmd : Str} (h : Spells cmd ["rebuild"]) : WhatsappPage [cmd] .updateAll

/-- The subcommands of `GROUP`; a channel starts with a `#`. -/
inductive GroupPage : List Str → GroupCommand → Prop
  | bridge {cmd jid chan : Str} {j : Jid} (h : Spells cmd ["bridge"])
      (hjid : Crates.parseJid jid = some j) (hchan : startsWith chan ['#'] = true) :
      GroupPage [cmd, jid, chan] (.bridgeWhatsapp j chan)
  | unbridge {cmd chan : Str} (h : Spells cmd ["unbridge"])
      (hchan : startsWith chan ['#'] = true) : GroupPage [cmd, chan] (.unbridge chan)

/-- The subcommands of `INSP`. -/
inductive InspPage : List Str → InspCommand → Prop
  | raw {cmd : Str} {tokens : List Str} (h : Spells cmd ["raw"]) (hsome : tokens ≠ []) :
      InspPage (cmd :: tokens) (.raw (join (" " : Str) tokens))
  | uuquery {cmd uuid : Str} (h : Spells cmd ["uuquery"]) : InspPage [cmd, uuid] (.queryUuid uuid)
  | nickquery {cmd nick : Str} (h : Spells cmd ["nickquery"]) :
      InspPage [cmd, nick] (.queryNickUuid nick)

/-- The commands of the help pages. -/
inductive HelpPages : List Str → AdminCommand → Prop
  | ghost {cmd nick : Str} {ts : List Str} {gc : GhostCommand} (h : Spells cmd ["ghost"])
      (hts : GhostPage ts gc) : HelpPages (cmd :: nick :: ts) (.ghost nick gc)
  | contact {cmd : Str} {ts : List Str} {cc : ContactCommand} (h : Spells cmd ["contact"])
      (hts : ContactPage ts cc) : HelpPages (cmd :: ts) (.contact cc)
  | whatsapp {cmd : Str} {ts : List Str} {wac : WhatsappCommand} (h : Spells cmd ["whatsapp"])
      (hts : WhatsappPage ts wac) : HelpPages (cmd :: ts) (.whatsapp wac)
  | modem {cmd : Str} {ts : List Str} {mc : ModemCommand} (h : Spells cmd ["modem"])
      (hts : ModemPage ts mc) : HelpPages (cmd :: ts) (.modem mc)
  | group {cmd : Str} {ts : List Str} {gc : GroupCommand} (h : Spells cmd ["group"])
      (hts : GroupPage ts gc) : HelpPages (cmd :: ts) (.group gc)
  | insp {cmd : Str} {ts : List Str} {ic : InspCommand} (h : Spells cmd ["insp"])
      (hts : InspPage ts ic) : HelpPages (cmd :: ts) (.insp ic)
  | help {cmd : Str} (h : Spells cmd ["help"]) : HelpPages [cmd] (.help none)
  | helpOn {cmd page : Str} (h : Spells cmd ["help"]) : HelpPages [cmd, page] (.help (some page))

theorem parse_ghost {ts : List Str} {gc : GhostCommand} (h : GhostPage ts gc) :
    GhostCommand.parse ts = some gc := by
  cases h with
  | rename h =>
      have hcmd := h.isWord_single (by decide +kernel)
      simp [GhostCommand.parse, hcmd]
  | whatsapp h value =>
      have hcmd := h.isWord_single (by decide +kernel)
      cases value with
      | true => simp [GhostCommand.parse, isWord_eq hcmd, parseBool]
      | false => simp [GhostCommand.parse, isWord_eq hcmd, parseBool]
  | remove h =>
      obtain ⟨w, hw, hcmd⟩ := h.isWord (by decide +kernel)
      simp only [List.mem_cons, List.not_mem_nil, or_false] at hw
      rcases hw with rfl | rfl | rfl
      all_goals simp [GhostCommand.parse, ghostWord, isWord_eq hcmd]
  | presub h =>
      have hcmd := h.isWord_single (by decide +kernel)
      simp [GhostCommand.parse, ghostWord, hcmd]

theorem parse_modem {ts : List Str} {mc : ModemCommand} (h : ModemPage ts mc) :
    ModemCommand.parse ts = some mc := by
  cases h with
  | signal h =>
      obtain ⟨w, hw, hcmd⟩ := h.isWord (by decide +kernel)
      simp only [List.mem_cons, List.not_mem_nil, or_false] at hw
      rcases hw with rfl | rfl
      all_goals simp [ModemCommand.parse, hcmd]
  | registration h =>
      obtain ⟨w, hw, hcmd⟩ := h.isWord (by decide +kernel)
      simp only [List.mem_cons, List.not_mem_nil, or_false] at hw
      rcases hw with rfl | rfl
      all_goals simp [ModemCommand.parse, isWord_eq hcmd]
  | restart h =>
      have hcmd := h.isWord_single (by decide +kernel)
      simp [ModemCommand.parse, isWord_eq hcmd]
  | path h =>
      have hcmd := h.isWord_single (by decide +kernel)
      simp [ModemCommand.parse, isWord_eq hcmd]
  | noPath h =>
      have hcmd := h.isWord_single (by decide +kernel)
      simp [ModemCommand.parse, isWord_eq hcmd]

theorem parse_contact {ts : List Str} {cc : ContactCommand} (h : ContactPage ts cc) :
    ContactCommand.parse ts = some cc := by
  cases h with
  | whatsapp h hnum =>
      have hcmd := h.isWord_single (by decide +kernel)
      simp [ContactCommand.parse, hcmd, hnum]
  | sms h hnum =>
      have hcmd := h.isWord_single (by decide +kernel)
      simp [ContactCommand.parse, isWord_eq hcmd, hnum]

theorem parse_whatsapp {ts : List Str} {wac : WhatsappCommand} (h : WhatsappPage ts wac) :
    WhatsappCommand.parse ts = some wac := by
  cases h with
  | receipts h =>
      obtain ⟨w, hw, hcmd⟩ := h.isWord (by decide +kernel)
      simp only [List.mem_cons, List.not_mem_nil, or_false] at hw
      rcases hw with rfl | rfl
      all_goals simp [WhatsappCommand.parse, isWord_eq hcmd]
  | _ h =>
      have hcmd := h.isWord_single (by decide +kernel)
      simp [WhatsappCommand.parse, isWord_eq hcmd]

theorem parse_group {ts : List Str} {gc : GroupCommand} (h : GroupPage ts gc) :
    GroupCommand.parse ts = some gc := by
  cases h with
  | bridge h hjid hchan =>
      have hcmd := h.isWord_single (by decide +kernel)
      simp [GroupCommand.parse, hcmd, hjid, hchan]
  | unbridge h hchan =>
      have hcmd := h.isWord_single (by decide +kernel)
      simp [GroupCommand.parse, hcmd, hchan]

/-- `INSP RAW` with anything but a single empty token. -/
def CutRaw (ts : List Str) : Prop :=
  ∃ insp raw args, ts = insp :: raw :: args ∧ Spells insp ["insp"] ∧ Spells raw ["raw"] ∧
    args ≠ [[]]

theorem parse_raw {cmd : Str} (h : isWord cmd "raw" = true) (first : Str) (args : List Str) :
    InspCommand.parse (cmd :: first :: args) = .ok (some (.raw (join (" " : Str) args))) := by
  simp [InspCommand.parse, h]

theorem parse_raw_nil {cmd : Str} (h : isWord cmd "raw" = true) :
    InspCommand.parse [cmd] = .error (.panic .inspRawArgs) := by
  simp [InspCommand.parse, h]

theorem parse_insp {ts : List Str} {ic : InspCommand} (h : InspPage ts ic)
    (hraw : ∀ cmd args, ts = cmd :: args → isWord cmd "raw" = true → args = [[]]) :
    InspCommand.parse ts = .ok (some ic) := by
  cases h with
  | @raw cmd tokens h hsome =>
      have hcmd := h.isWord_single (by decide +kernel)
      obtain rfl := hraw cmd tokens rfl hcmd
      exact parse_raw hcmd [] []
  | uuquery h =>
      have hcmd := h.isWord_single (by decide +kernel)
      simp [InspCommand.parse, isWord_eq hcmd]
  | nickquery h =>
      have hcmd := h.isWord_single (by decide +kernel)
      simp [InspCommand.parse, isWord_eq hcmd]

omit [Crates] in
theorem join_ne_tail {first : Str} {args : List Str} (h : first :: args ≠ [[]]) :
    join (" " : Str) (first :: args) ≠ join (" " : Str) args := by
  intro heq
  cases args with
  | nil =>
      have hfirst : first = [] := heq
      exact h (by rw [hfirst])
  | cons second args =>
      have hlen := congrArg List.length heq
      have hjoin : join (" " : Str) (first :: second :: args) =
          first ++ (" " : Str) ++ join (" " : Str) (second :: args) := rfl
      have hsep : (" " : Str).length = 1 := rfl
      rw [hjoin, List.length_append, List.length_append, hsep] at hlen
      omega

/-- The parser does not panic, and reads the commands of the help pages as they are meant. -/
structure AsDocumented (ts : List Str) : Prop where
  returns : ∃ ac, AdminCommand.parse ts = .ok ac
  reads : ∀ ac, HelpPages ts ac → AdminCommand.parse ts = .ok (some ac)

theorem parse_insp_returns {ts : List Str} (h : ∀ cmd, ts = [cmd] → isWord cmd "raw" = false) :
    ∃ ic, InspCommand.parse ts = .ok ic := by
  cases ts with
  | nil => exact ⟨_, rfl⟩
  | cons cmd rest =>
      cases rest with
      | nil =>
          rw [InspCommand.parse, h cmd rfl]
          exact ⟨_, rfl⟩
      | cons first args =>
          by_cases hraw : isWord cmd "raw" = true
          · exact ⟨_, parse_raw hraw first args⟩
          · simp only [InspCommand.parse, hraw, if_false, Bool.false_eq_true]
            repeat' split
            all_goals exact ⟨_, rfl⟩

theorem parse_returns {ts : List Str} (h : ¬ CutRaw ts) : ∃ ac, AdminCommand.parse ts = .ok ac := by
  cases ts with
  | nil => exact ⟨_, rfl⟩
  | cons cmd rest =>
      by_cases hinsp : isWord cmd "insp" = true
      · have hnot : ∀ raw, rest = [raw] → isWord raw "raw" = false := by
          rintro raw rfl
          refine Bool.eq_false_of_not_eq_true fun hraw => ?_
          exact h ⟨cmd, raw, [], rfl, isWord_insp.mp hinsp, isWord_raw.mp hraw, by simp⟩
        obtain ⟨ic, hic⟩ := parse_insp_returns hnot
        exact ⟨ic.map .insp, by simp [AdminCommand.parse, isWord_eq hinsp, hic]⟩
      · simp only [AdminCommand.parse, hinsp, if_false, Bool.false_eq_true]
        repeat' split
        all_goals exact ⟨_, rfl⟩

theorem parse_reads {ts : List Str} (hraw : ¬ CutRaw ts) {ac : AdminCommand}
    (h : HelpPages ts ac) : AdminCommand.parse ts = .ok (some ac) := by
  cases h with
  | ghost h hts =>
      have hcmd := h.isWord_single (by decide +kernel)
      obtain ⟨gc, args, rfl⟩ := hts.cons
      simp [AdminCommand.parse, isWord_eq hcmd, parse_ghost hts]
  | contact h hts =>
      have hcmd := h.isWord_single (by decide +kernel)
      simp [AdminCommand.parse, hcmd, parse_contact hts]
  | whatsapp h hts =>
      have hcmd := h.isWord_single (by decide +kernel)
      simp [AdminCommand.parse, isWord_eq hcmd, parse_whatsapp hts]
  | modem h hts =>
      have hcmd := h.isWord_single (by decide +kernel)
      simp [AdminCommand.parse, isWord_eq hcmd, parse_modem hts]
  | group h hts =>
      have hcmd := h.isWord_single (by decide +kernel)
      simp [AdminCommand.parse, isWord_eq hcmd, parse_group hts]
  | @insp cmd ts ic h hts =>
      have hcmd := h.isWord_single (by decide +kernel)
      have hparse := parse_insp hts fun raw args hts' hword => by
        by_contra hargs
        exact hraw ⟨cmd, raw, args, by rw [hts'], h, isWord_raw.mp hword, hargs⟩
      simp [AdminCommand.parse, isWord_eq hcmd, hparse]
  | help h =>
      have hcmd := h.isWord_single (by decide +kernel)
      simp [AdminCommand.parse, isWord_eq hcmd]
  | helpOn h =>
      have hcmd := h.isWord_single (by decide +kernel)
      simp [AdminCommand.parse, isWord_eq hcmd]

theorem not_asDocumented {ts : List Str} (hcut : CutRaw ts) : ¬ AsDocumented ts := by
  obtain ⟨insp, raw, args, rfl, hinsp, hraw, hargs⟩ := hcut
  have hcmd := isWord_insp.mpr hinsp
  have hword := isWord_raw.mpr hraw
  intro h
  cases args with
  | nil =>
      obtain ⟨ac, hac⟩ := h.returns
      simp [AdminCommand.parse, isWord_eq hcmd, parse_raw_nil hword] at hac
  | cons first args =>
      have hread := h.reads _ (.insp hinsp (.raw hraw (List.cons_ne_nil first args)))
      simp [AdminCommand.parse, isWord_eq hcmd, parse_raw hword] at hread
      exact join_ne_tail hargs hread.symm

/-- Commands are read as they are documented, unless a raw line is asked for. -/
theorem asDocumented_iff (ts : List Str) : AsDocumented ts ↔ ¬ CutRaw ts := by
  constructor
  · intro h hcut
    exact not_asDocumented hcut h
  · intro h
    exact ⟨parse_returns h, fun ac hac => parse_reads h hac⟩

end Pages

section Samples

attribute [local instance] Sample.crates

/-- `INSP RAW` on its own crashes the bridge, and of a raw line the first token is missing. -/
theorem raw_undocumented :
    ¬ AsDocumented [("INSP" : Str), ("RAW" : Str)] ∧
      ¬ AsDocumented [("INSP" : Str), ("RAW" : Str), ("PING" : Str), ['x']] := by
  constructor
  · exact not_asDocumented ⟨_, _, _, rfl, ⟨_, List.mem_singleton_self _, rfl⟩,
      ⟨_, List.mem_singleton_self _, rfl⟩, by decide⟩
  · exact not_asDocumented ⟨_, _, _, rfl, ⟨_, List.mem_singleton_self _, rfl⟩,
      ⟨_, List.mem_singleton_self _, rfl⟩, by decide⟩

end Samples

end SmsIrc.AdminWords
