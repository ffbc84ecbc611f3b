import SmsIrc.Sample

/-!
The keys that the database has for addresses, and the addresses that they are keys of.
-/

namespace SmsIrc.Addresses

open SmsIrc.Database SmsIrc.External SmsIrc.HashMaps SmsIrc.Models SmsIrc.Program SmsIrc.Text
open SmsIrc.SerialTable SmsIrc.Util

theorem byteLen_hexByte (b : UInt8) : byteLen (hexByte b) = 2 := by
  have hdigit : ∀ d : Fin 16, (Nat.digitChar d).toUpper.utf8Size = 1 := by decide
  have hlt : b.toNat < 256 := b.toNat_lt
  have hhigh := hdigit ⟨b.toNat / 16, by omega⟩
  have hlow := hdigit ⟨b.toNat % 16, by omega⟩
  dsimp only at hhigh hlow
  rw [hexByte, List.map_cons, List.map_singleton, byteLen_cons, byteLen_cons, byteLen_nil,
    hhigh, hlow]

section Keys

variable [Crates]

/-- The codecs of the modem crate: types of address and octets are read back from what they
are turned into, and octets are displayed as two digits each. -/
structure Codecs : Prop where
  types : ∀ toa, Crates.toaTryFrom (Crates.toaToU8 toa) = some toa
  octets : ∀ bytes, Crates.hexDecode (Crates.hexDisplay bytes) = some bytes
  digits : ∀ bytes, Crates.hexDisplay bytes = bytes.flatMap hexByte

/-- The key of an address is the display of its type and its number as one text. -/
theorem Codecs.normalizeAddress (h : Codecs) (a : PduAddress) :
    normalizeAddress a = Crates.hexDisplay (Crates.toaToU8 a.typeAddr :: a.number) := by
  rw [Util.normalizeAddress, h.digits, h.digits, List.flatMap_cons]

theorem Codecs.byteLen_normalizeAddress (h : Codecs) (a : PduAddress) :
    byteLen (Util.normalizeAddress a) = 2 + 2 * a.number.length := by
  have hnumber : ∀ bytes : List UInt8, byteLen (bytes.flatMap hexByte) = 2 * bytes.length := by
    intro bytes
    induction bytes with
    | nil => rfl
    | cons b bytes ih =>
        rw [List.flatMap_cons, byteLen_append, byteLen_hexByte, ih, List.length_cons]
        omega
  rw [Util.normalizeAddress, h.digits, byteLen_append, byteLen_hexByte, hnumber]

theorem Codecs.unNormalizeAddress (h : Codecs) (a : PduAddress) :
    unNormalizeAddress (Util.normalizeAddress a) = if a.number = [] then none else some a := by
  have hlen := h.byteLen_normalizeAddress a
  rw [Util.unNormalizeAddress, hlen]
  by_cases hempty : a.number = []
  · rw [if_pos hempty, hempty, if_pos (by decide)]
  · have hpos := List.length_pos_of_ne_nil hempty
    rw [if_neg (by omega), if_neg hempty, h.normalizeAddress, h.octets]
    dsimp only
    rw [h.types]
    rfl

/-- A key is that of a non-empty address exactly if the address is read back from it. -/
theorem Codecs.key_iff (h : Codecs) {a : PduAddress} (ha : a.number ≠ []) (b : PduAddress) :
    Util.normalizeAddress b = Util.normalizeAddress a ↔
      Util.unNormalizeAddress (Util.normalizeAddress b) = some a := by
  constructor
  · intro heq
    rw [heq, h.unNormalizeAddress, if_neg ha]
  · intro hread
    rw [h.unNormalizeAddress] at hread
    split at hread
    · cases hread
    · rw [Option.some.inj hread]

/-- The numbers in the database were made of addresses. -/
def MadeOfAddresses (st : Store) : Prop :=
  (∀ r ∈ st.recipients.rows, ∃ b, r.phoneNumber = normalizeAddress b) ∧
    ∀ m ∈ st.messages.rows, ∃ b, m.phoneNumber = normalizeAddress b

theorem find?_by_address (h : Codecs) {st : Store} (hst : MadeOfAddresses st) {a : PduAddress}
    (ha : a.number ≠ []) :
    st.recipients.rows.find? (fun r => r.phoneNumber = normalizeAddress a) =
      st.recipients.rows.find? fun r => unNormalizeAddress r.phoneNumber = some a := by
  rw [← List.head?_filter, ← List.head?_filter]
  refine congrArg List.head? (List.filter_congr fun r hr => ?_)
  obtain ⟨b, hb⟩ := hst.1 r hr
  rw [hb]
  exact decide_eq_decide.mpr (h.key_iff ha b)

theorem filter_by_address (h : Codecs) {st : Store} (hst : MadeOfAddresses st) {a : PduAddress}
    (ha : a.number ≠ []) :
    st.messages.rows.filter (fun m => m.phoneNumber = normalizeAddress a) =
      st.messages.rows.filter fun m => unNormalizeAddress m.phoneNumber = some a := by
  refine List.filter_congr fun m hm => ?_
  obtain ⟨b, hb⟩ := hst.2 m hm
  rw [hb]
  exact decide_eq_decide.mpr (h.key_iff ha b)

/-- What is looked up for the address of a row or of a message. -/
def lookUp {σ κ : Type} (contacts : HashMap PduAddress κ) (getAddr : Prog Failure σ PduAddress) :
    Prog Failure σ (Option κ) := do
  let addr ← getAddr
  pure (contacts.lookup addr)

theorem exec_lookUp (h : Codecs) {a : PduAddress} (ha : a.number ≠ []) {phone : Str}
    (hphone : phone = normalizeAddress a) {σ κ : Type} (contacts : HashMap PduAddress κ) (s : σ) :
    exec (lookUp contacts (Models.getAddr phone)) s = (.ok (contacts.lookup a), s) := by
  rw [lookUp, Models.getAddr, hphone, h.unNormalizeAddress, if_neg ha]
  rfl

/-- Keys stand for addresses: non-empty ones are read back, and differ from each other, so that
the rows of an address are those of its key, and the contact of a row is that of the address. -/
theorem keys_faithful (h : Codecs) :
    (∀ a : PduAddress, a.number ≠ [] → unNormalizeAddress (normalizeAddress a) = some a) ∧
    (∀ a b : PduAddress, a.number ≠ [] → b.number ≠ [] →
      (normalizeAddress a = normalizeAddress b ↔ a = b)) ∧
    ∀ st, MadeOfAddresses st → ∀ a : PduAddress, a.number ≠ [] →
      exec (getRecipientByAddrOpt a) st = exec (query fun st =>
        st.recipients.rows.find? fun r => unNormalizeAddress r.phoneNumber = some a) st ∧
      exec (getMessagesForRecipient a) st = exec (query fun st =>
        (st.messages.rows.filter fun m =>
          unNormalizeAddress m.phoneNumber = some a).insertionSort sentBefore) st ∧
      ∀ (σ κ : Type) (contacts : HashMap PduAddress κ) (s : σ),
        (∀ r t, exec (getRecipientByAddrOpt a) st = (.ok (some r), t) →
          exec (lookUp contacts r.getAddr) s = (.ok (contacts.lookup a), s)) ∧
        ∀ ms t, exec (getMessagesForRecipient a) st = (.ok ms, t) → ∀ m ∈ ms,
          exec (lookUp contacts m.getAddr) s = (.ok (contacts.lookup a), s) := by
  have hread : ∀ a : PduAddress, a.number ≠ [] →
      unNormalizeAddress (normalizeAddress a) = some a := by
    intro a ha
    rw [h.unNormalizeAddress, if_neg ha]
  refine ⟨hread, fun a b ha hb => ?_, fun st hst a ha => ⟨?_, ?_, fun σ κ contacts s => ⟨?_, ?_⟩⟩⟩
  · rw [h.key_iff hb, hread a ha, Option.some.injEq]
  · have htick : MadeOfAddresses st.tick := hst
    rw [getRecipientByAddrOpt, exec_query, exec_query, find?_by_address h htick ha]
  · have htick : MadeOfAddresses st.tick := hst
    rw [getMessagesForRecipient, exec_query, exec_query, filter_by_address h htick ha]
  · intro r t hexec
    have hfound : wp (getRecipientByAddrOpt a)
        (fun o _ => ∀ r ∈ o, r.phoneNumber = normalizeAddress a) (fun _ _ => True) st := by
      refine wp_query_of trivial fun r hr => ?_
      simpa using List.find?_some hr
    exact exec_lookUp h ha (wp_of_ok hexec hfound r rfl) contacts s
  · intro ms t hexec m hm
    have hfound : wp (getMessagesForRecipient a)
        (fun ms _ => ∀ m ∈ ms, m.phoneNumber = normalizeAddress a) (fun _ _ => True) st := by
      refine wp_query_of trivial fun m hm => ?_
      rw [List.mem_insertionSort, List.mem_filter, decide_eq_true_eq] at hm
      exact hm.2
    exact exec_lookUp h ha (wp_of_ok hexec hfound m hm) contacts s

end Keys

section Samples

/-- The two types of address of the sample, as a type of their own. -/
abbrev SampleType : Type := {toa : UInt8 // toa = Sample.international ∨ toa = Sample.unknown}

def sampleType (toa : UInt8) : Option SampleType :=
  if h : toa = Sample.international ∨ toa = Sample.unknown then some ⟨toa, h⟩ else none

def typed (a : PduAddressOf UInt8) : Option (PduAddressOf SampleType) :=
  (sampleType a.typeAddr).map fun toa => ⟨toa, a.number⟩

def typedPdu (pdu : DeliverPduOf UInt8) : Except Str (DeliverPduOf SampleType) :=
  match typed pdu.originatingAddress with
  | some a => .ok ⟨a, pdu.decodeMessage⟩
  | none => .error ("unsupported PDU" : Str)

@[reducible] def typedCrates : Crates :=
  { Sample.crates with
    AddressType := SampleType
    decEqAddressType := inferInstance
    toaToU8 := Subtype.val
    toaTryFrom := sampleType
    displayAddress := fun a => Sample.displayAddress ⟨a.typeAddr.val, a.number⟩
    parseAddress := fun s => (Sample.parseAddress s).bind typed
    deliverPduTryFrom := fun pdu => (Sample.deliverPduTryFrom pdu).bind typedPdu }

attribute [local instance] typedCrates

theorem codecs_typed : Codecs where
  types toa := dif_pos toa.property
  octets := Sample.hexDecode_bytes
  digits _ := rfl

/-- The number +44123. -/
def dave : PduAddress := ⟨⟨Sample.international, .inl rfl⟩, [4, 4, 1, 2, 3]⟩

def daveRow (id : Nat) : Recipient where
  id := id
  phoneNumber := normalizeAddress dave
  nick := ['d']
  whatsapp := false
  avatarUrl := none
  notify := none
  nicksrc := nicksrcAuto

def daveStore : Store where
  recipients := Table.empty.insert daveRow fun _ => rfl
  messages := .empty
  groups := .empty
  waMsgids := []
  waPersistence := none
  now := 0
  dbDown _ := false
  queries := 0

/-- The row that is found by the key, and the contact of that row. -/
theorem found_dave : unNormalizeAddress (normalizeAddress dave) = some dave ∧
    exec (getRecipientByAddrOpt dave) daveStore = (.ok (some (daveRow 1)), daveStore.tick) ∧
    exec (lookUp (AList.insert dave true ∅) (daveRow 1).getAddr) () = (.ok (some true), ()) := by
  obtain ⟨hread, -, hstore⟩ := keys_faithful codecs_typed
  have hmade : MadeOfAddresses daveStore := by
    refine ⟨fun r hr => ?_, fun m hm => by cases hm⟩
    cases List.mem_singleton.mp hr
    exact ⟨dave, rfl⟩
  have hfound : exec (getRecipientByAddrOpt dave) daveStore =
      (.ok (some (daveRow 1)), daveStore.tick) := by
    rw [getRecipientByAddrOpt, exec_query]
    rfl
  obtain ⟨-, -, hlookup⟩ := hstore daveStore hmade dave (by decide)
  refine ⟨hread dave (by decide), hfound, ?_⟩
  rw [(hlookup Unit Bool (AList.insert dave true ∅) ()).1 _ _ hfound, AList.lookup_insert]

end Samples

end SmsIrc.Addresses
