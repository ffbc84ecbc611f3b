import SmsIrc.LinkRuns

/-!
The lines that introduce users, and the users that are read from them.
-/

namespace SmsIrc.UidLines

open SmsIrc.External SmsIrc.InspUsers SmsIrc.Link SmsIrc.Program SmsIrc.Text SmsIrc.Transition
open SmsIrc.Util

theorem le_ofDigitChars (s : Str) (n : Nat) : n ≤ Nat.ofDigitChars 10 s n := by
  induction s generalizing n with
  | nil => rw [Nat.ofDigitChars_nil]
  | cons c s ih =>
      rw [Nat.ofDigitChars_cons]
      have := ih (10 * n + (c.toNat - '0'.toNat))
      omega

theorem parseDigits_eq {limit : Nat} {overflow s : Str} (h : ∀ c ∈ s, c.isDigit = true) {n : Nat}
    (hle : Nat.ofDigitChars 10 s n ≤ limit) :
    parseDigits limit overflow n s = .ok (Nat.ofDigitChars 10 s n) := by
  induction s generalizing n with
  | nil => rw [parseDigits, Nat.ofDigitChars_nil]
  | cons c s ih =>
      rw [Nat.ofDigitChars_cons] at hle
      have hin : 10 * n + (c.toNat - 48) ≤ limit := Nat.le_trans (le_ofDigitChars s _) hle
      rw [parseDigits, if_pos (h c List.mem_cons_self), Nat.ofDigitChars_cons]
      dsimp only
      rw [if_pos hin]
      exact ih (fun d hd => h d (List.mem_cons_of_mem c hd)) hle

theorem isDigit_decimal (n : Nat) : ∀ c ∈ decimal n, c.isDigit = true :=
  fun _ hc => Nat.isDigit_of_mem_toDigits (by decide) (by decide) hc

theorem parseDigits_decimal {n limit : Nat} {overflow : Str} (h : n ≤ limit) :
    parseDigits limit overflow 0 (decimal n) = .ok n := by
  have hvalue : Nat.ofDigitChars 10 (decimal n) 0 = n := Nat.ofDigitChars_ten_toDigits
  rw [parseDigits_eq (isDigit_decimal n) (by rwa [hvalue]), hvalue]

theorem decimal_ne_nil (n : Nat) : decimal n ≠ [] := by
  intro h
  have hlen := Nat.length_toDigits_pos (b := 10) (n := n)
  have hnil : (Nat.toDigits 10 n).length = 0 := congrArg List.length h
  omega

/-- The values of an `i64`. -/
def IsI64 (n : Int) : Prop := -2 ^ 63 ≤ n ∧ n < 2 ^ 63

instance (n : Int) : Decidable (IsI64 n) := inferInstanceAs (Decidable (_ ∧ _))

theorem parseI64_unsigned {s : Str} {n : Nat} (hne : s ≠ [])
    (hsign : ∀ c rest, s = c :: rest → c ≠ '-' ∧ c ≠ '+')
    (hn : ∀ overflow, parseDigits (2 ^ 63 - 1) overflow 0 s = .ok n) : parseI64 s = .ok n := by
  unfold parseI64
  split
  rename_i negative digits hmatch
  split at hmatch
  · exact absurd rfl (hsign _ _ rfl).1
  · exact absurd rfl (hsign _ _ rfl).2
  · rw [Prod.mk.injEq] at hmatch
    obtain ⟨rfl, rfl⟩ := hmatch
    rw [if_neg hne, if_neg hne, if_neg Bool.false_ne_true, hn]

theorem parseI64_minus {s : Str} {n : Nat} (hne : s ≠ [])
    (hn : ∀ overflow, parseDigits (2 ^ 63) overflow 0 s = .ok n) :
    parseI64 ('-' :: s) = .ok (-n) := by
  unfold parseI64
  simp only [reduceCtorEq, hne, hn, if_true, if_false]

theorem parseI64_decimalInt {n : Int} (h : IsI64 n) : parseI64 (decimalInt n) = .ok n := by
  obtain ⟨hlow, hhigh⟩ := h
  cases n with
  | ofNat n =>
      rw [Int.ofNat_eq_natCast] at hhigh
      refine parseI64_unsigned (decimal_ne_nil n) (fun c rest heq => ?_)
        fun overflow => parseDigits_decimal (by omega)
      have hmem : c ∈ decimal n := by
        change decimal n = c :: rest at heq
        rw [heq]
        exact List.mem_cons_self
      have hdigit := isDigit_decimal n c hmem
      constructor
      · rintro rfl
        exact absurd hdigit (by decide)
      · rintro rfl
        exact absurd hdigit (by decide)
  | negSucc n =>
      exact parseI64_minus (decimal_ne_nil _) fun overflow => parseDigits_decimal (by omega)

theorem join_cons (sep piece : Str) {pieces : List Str} (h : pieces ≠ []) :
    join sep (piece :: pieces) = piece ++ sep ++ join sep pieces := by
  cases pieces with
  | nil => exact absurd rfl h
  | cons next pieces => rfl

theorem splitOn_ne_nil (sep : Char) (s : Str) : splitOn sep s ≠ [] := by
  cases s with
  | nil => exact List.cons_ne_nil _ _
  | cons c s =>
      rw [splitOn]
      split
      · exact List.cons_ne_nil _ _
      · split <;> exact List.cons_ne_nil _ _

theorem join_splitOn (sep : Char) (s : Str) : join [sep] (splitOn sep s) = s := by
  induction s with
  | nil => rfl
  | cons c s ih =>
      rw [splitOn]
      split
      · rename_i hc
        rw [join_cons _ _ (splitOn_ne_nil sep s), ih, hc]
        rfl
      · cases hpieces : splitOn sep s with
        | nil => exact absurd hpieces (splitOn_ne_nil sep s)
        | cons piece pieces =>
            rw [hpieces] at ih
            cases pieces with
            | nil => exact congrArg (c :: ·) ih
            | cons next pieces =>
                rw [join_cons _ _ (List.cons_ne_nil _ _)] at ih ⊢
                exact congrArg (c :: ·) ih

theorem splitOn_of_notMem {sep : Char} {s : Str} (h : sep ∉ s) : splitOn sep s = [s] := by
  induction s with
  | nil => rfl
  | cons c s ih =>
      have hc : c ≠ sep := fun heq => h (heq ▸ List.mem_cons_self)
      rw [splitOn, if_neg hc, ih (List.not_mem_of_not_mem_cons h)]

theorem notMem_decimalInt {c : Char} (hdigit : c.isDigit = false) (hminus : c ≠ '-') (n : Int) :
    c ∉ decimalInt n := by
  have hdecimal : ∀ k, c ∉ decimal k := by
    intro k hc
    rw [isDigit_decimal k c hc] at hdigit
    cases hdigit
  cases n with
  | ofNat n => exact hdecimal n
  | negSucc n =>
      intro hc
      rcases List.mem_cons.mp hc with hc | hc
      · exact hminus hc
      · exact hdecimal _ hc

section Lines

variable [Crates]

theorem newFromUidLine_fields (uid : Str) {u : InspUser} (hts : IsI64 u.ts)
    (hsign : IsI64 u.signonTime) {modes : List Str} (hmodes : modes ≠ [])
    (hjoin : join (" " : Str) modes = u.modes) :
    newFromUidLine ([uid, decimalInt u.ts, u.nick, u.hostname, u.displayedHostname, u.ident, u.ip,
      decimalInt u.signonTime] ++ modes) (some u.gecos) = .ok (uid, { u with ours := false }) := by
  cases modes with
  | nil => exact absurd rfl hmodes
  | cons mode modes =>
      dsimp only [List.cons_append, List.nil_append, newFromUidLine]
      rw [parseI64_decimalInt hts, parseI64_decimalInt hsign, hjoin]

/-- The arguments of the line of a user. -/
def uidArgs (uid : Str) (u : InspUser) : List Str :=
  [uid, decimalInt u.ts, u.nick, u.hostname, u.displayedHostname, u.ident, u.ip,
    decimalInt u.signonTime, u.modes]

/-- No field but the modes and the real name has a space. -/
structure Spaceless (uid : Str) (u : InspUser) : Prop where
  uid : ' ' ∉ uid
  nick : ' ' ∉ u.nick
  hostname : ' ' ∉ u.hostname
  displayedHostname : ' ' ∉ u.displayedHostname
  ident : ' ' ∉ u.ident
  ip : ' ' ∉ u.ip

omit [Crates] in
theorem flatMap_splitOn_uidArgs {uid : Str} {u : InspUser} (h : Spaceless uid u) :
    (uidArgs uid u).flatMap (splitOn ' ') = (uidArgs uid u).dropLast ++ splitOn ' ' u.modes := by
  have hspace : ∀ n, ' ' ∉ decimalInt n := notMem_decimalInt (by decide) (by decide)
  simp only [uidArgs, List.flatMap_cons, List.flatMap_nil, splitOn_of_notMem h.uid,
    splitOn_of_notMem h.nick, splitOn_of_notMem h.hostname, splitOn_of_notMem h.displayedHostname,
    splitOn_of_notMem h.ident, splitOn_of_notMem h.ip, splitOn_of_notMem (hspace _)]
  simp

/-- What introduces a user is read as that user, of another server, whether the modes have
been kept together or not. -/
theorem uidLine_roundTrip (l : InspLink) (uid : Str) (u : InspUser)
    (hu : l.users.lookup uid = some u) (hts : IsI64 u.ts) (hsign : IsI64 u.signonTime) :
    ∃ args gecos,
      exec (makeUidLine uid) l =
        (.ok (.new (some l.cfg.sid) ("UID" : Str) args (some gecos)), l) ∧
      newFromUidLine args (some gecos) = .ok (uid, { u with ours := false }) ∧
      newFromUidLine (args.dropLast ++ splitOn ' ' u.modes) (some gecos) =
        .ok (uid, { u with ours := false }) ∧
      (Spaceless uid u → newFromUidLine (args.flatMap (splitOn ' ')) (some gecos) =
        .ok (uid, { u with ours := false })) := by
  have hbuilt : newFromUidLine (uidArgs uid u) (some u.gecos) =
      .ok (uid, { u with ours := false }) :=
    newFromUidLine_fields uid hts hsign (List.cons_ne_nil u.modes []) rfl
  have hsplit : newFromUidLine ((uidArgs uid u).dropLast ++ splitOn ' ' u.modes) (some u.gecos) =
      .ok (uid, { u with ours := false }) :=
    newFromUidLine_fields uid hts hsign (splitOn_ne_nil ' ' u.modes) (join_splitOn ' ' u.modes)
  refine ⟨uidArgs uid u, u.gecos, ?_, hbuilt, hsplit, fun h => ?_⟩
  · rw [makeUidLine, exec_bind_ok (exec_get l), hu]
    rfl
  · rw [flatMap_splitOn_uidArgs h]
    exact hsplit

end Lines

section Samples

attribute [local instance] Sample.crates

def sampleUser : InspUser where
  ts := 1500000000
  nick := "alice"
  hostname := "host"
  displayedHostname := "cloak"
  ident := "ident"
  ip := "0.0.0.0"
  signonTime := -1
  modes := "+is abc"
  gecos := "Alice B."
  ours := true

def sampleLink : InspLink :=
  { LinkRuns.sampleStart.link with users := AList.insert ("00BAAAAAA" : Str) sampleUser ∅ }

/-- The line of a user with modes that have an argument. -/
theorem roundTrip_alice : ∃ args gecos,
    exec (makeUidLine ("00BAAAAAA" : Str)) sampleLink =
      (.ok (.new (some ("00A" : Str)) ("UID" : Str) args (some gecos)), sampleLink) ∧
    newFromUidLine (args.dropLast ++ [("+is" : Str), ("abc" : Str)]) (some gecos) =
      .ok (("00BAAAAAA" : Str), { sampleUser with ours := false }) := by
  obtain ⟨args, gecos, hline, -, hsplit, -⟩ := uidLine_roundTrip sampleLink ("00BAAAAAA" : Str)
    sampleUser (AList.lookup_insert ∅) (by decide) (by decide)
  exact ⟨args, gecos, hline, hsplit⟩

end Samples

end SmsIrc.UidLines
