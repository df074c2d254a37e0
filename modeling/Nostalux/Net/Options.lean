import Nostalux.Net.Locality
import Nostalux.Net.Names

/-!
# The options of a DHCP message

The option area of a message is a sequence of pads and options with a code, a length and a value,
and it ends with a marker.

* `parseDhcpOptions_iff`: `parse_dhcp_options` accepts exactly the areas with a message type before
  the marker, and every field is the first option of its code with an admissible length;
* `parseDhcpOptions_appended`: what `dhcp_append_option` has written is read back.
-/

open Memory

namespace Nostalux.Net

open BigEndian DhcpOptions List

/-- An item of the option area. -/
inductive DhcpItem
  | pad
  | option (code : UInt8) (value : List UInt8)

namespace DhcpItem

/-- The bytes of an item. -/
def bytes : DhcpItem → List UInt8
  | pad => [0]
  | option code value => code :: UInt8.ofNat value.length :: value

/-- The code is neither that of a pad nor that of the end, and the length fits a byte. -/
def Valid : DhcpItem → Prop
  | pad => True
  | option code value => code ≠ 0 ∧ code ≠ 255 ∧ value.length ≤ 255

/-- What an option of the code with an admissible length has to say. -/
def read {α : Type} (code : UInt8) (admissible : ℕ → Bool) (value : Memory → α) :
    DhcpItem → Option α
  | pad => none
  | option code' bytes =>
    if code' = code ∧ admissible bytes.length then some (value (byteAt bytes)) else none

end DhcpItem

/-- The first option of the code with an admissible length. -/
def firstOption {α : Type} (items : List DhcpItem) (code : UInt8) (admissible : ℕ → Bool)
    (value : Memory → α) : Option α :=
  items.findSome? (DhcpItem.read code admissible value)

/-- The options of a list of items. -/
def optionsOf (items : List DhcpItem) : DhcpOptions where
  messageType := firstOption items 53 (· == 1) (· 0)
  subnetMask := firstOption items 1 (· == 4) (u32At · 0)
  router := firstOption items 3 (· ≥ 4) (u32At · 0)
  dns := firstOption items 6 (· ≥ 4) (u32At · 0)
  serverIdentifier := firstOption items 54 (· == 4) (u32At · 0)
  leaseTime := firstOption items 51 (· == 4) (u32At · 0)
  renewalTime := firstOption items 58 (· == 4) (u32At · 0)
  rebindTime := firstOption items 59 (· == 4) (u32At · 0)

/-! ### The fields -/

/-- The `switch` of `parse_dhcp_options` on an item. -/
def DhcpOptions.noteItem (options : DhcpOptions) : DhcpItem → DhcpOptions
  | .pad => options
  | .option code value => options.note code value.length (byteAt value)

theorem keepFirst_eq_or {α : Type} (old : Option α) (admissible : Bool) (value : α) :
    keepFirst old admissible value = old.or (if admissible then some value else none) := by
  cases old <;> cases admissible <;> rfl

/-- A field that every item leaves alone or sets first is the first value among the items. -/
theorem foldl_noteItem {α : Type} {field : DhcpOptions → Option α} {value : DhcpItem → Option α}
    (h : ∀ options item, field (options.noteItem item) = (field options).or (value item))
    (options : DhcpOptions) (items : List DhcpItem) :
    field (items.foldl noteItem options) = (field options).or (items.findSome? value) := by
  induction items generalizing options with
  | nil => simp
  | cons item items ih =>
    rw [foldl_cons, ih, h, Option.or_assoc, findSome?_cons]
    cases value item <;> rfl

/-- The fields of all options come from the first options of their codes. -/
theorem noteItem_field (options : DhcpOptions) (item : DhcpItem) :
    (options.noteItem item).messageType =
        options.messageType.or (item.read 53 (· == 1) (· 0)) ∧
    (options.noteItem item).subnetMask =
        options.subnetMask.or (item.read 1 (· == 4) (u32At · 0)) ∧
    (options.noteItem item).router = options.router.or (item.read 3 (· ≥ 4) (u32At · 0)) ∧
    (options.noteItem item).dns = options.dns.or (item.read 6 (· ≥ 4) (u32At · 0)) ∧
    (options.noteItem item).serverIdentifier =
        options.serverIdentifier.or (item.read 54 (· == 4) (u32At · 0)) ∧
    (options.noteItem item).leaseTime =
        options.leaseTime.or (item.read 51 (· == 4) (u32At · 0)) ∧
    (options.noteItem item).renewalTime =
        options.renewalTime.or (item.read 58 (· == 4) (u32At · 0)) ∧
    (options.noteItem item).rebindTime =
        options.rebindTime.or (item.read 59 (· == 4) (u32At · 0)) := by
  cases item with
  | pad => simp [noteItem, DhcpItem.read]
  | option code value =>
    simp only [noteItem, DhcpItem.read, note]
    split <;> simp_all [keepFirst_eq_or]

theorem foldl_noteItem_default (items : List DhcpItem) :
    items.foldl noteItem default = optionsOf items := by
  have hfield {α : Type} (field : DhcpOptions → Option α) (value : DhcpItem → Option α)
      (h : ∀ options item, field (options.noteItem item) = (field options).or (value item))
      (hnone : field default = none) :
      field (items.foldl noteItem default) = items.findSome? value := by
    rw [foldl_noteItem h, hnone, Option.none_or]
  generalize hall : items.foldl noteItem default = all at hfield
  cases all
  simp only [optionsOf, mk.injEq]
  exact ⟨hfield messageType _ (fun options item => (noteItem_field options item).1) rfl,
    hfield subnetMask _ (fun options item => (noteItem_field options item).2.1) rfl,
    hfield router _ (fun options item => (noteItem_field options item).2.2.1) rfl,
    hfield dns _ (fun options item => (noteItem_field options item).2.2.2.1) rfl,
    hfield serverIdentifier _
      (fun options item => (noteItem_field options item).2.2.2.2.1) rfl,
    hfield leaseTime _
      (fun options item => (noteItem_field options item).2.2.2.2.2.1) rfl,
    hfield renewalTime _
      (fun options item => (noteItem_field options item).2.2.2.2.2.2.1) rfl,
    hfield rebindTime _
      (fun options item => (noteItem_field options item).2.2.2.2.2.2.2) rfl⟩

/-! ### The area -/

/-- The result of `parse_dhcp_options` at the end marker. -/
def withMessageType (options : DhcpOptions) : Option DhcpOptions :=
  if options.messageType.isSome then some options else none

section

variable {packet : Memory} {packetSize offset : ℕ}

theorem parseDhcpOptionsFrom_pad (h : HoldsAt packet packetSize offset [0])
    (options : DhcpOptions) :
    parseDhcpOptionsFrom packet packetSize options offset =
      parseDhcpOptionsFrom packet packetSize options (offset + 1) := by
  obtain ⟨hoffset, hbyte⟩ := h.byte
  rw [parseDhcpOptionsFrom.eq_def packet packetSize options offset, if_pos hoffset]
  simp only [hbyte, if_true]

theorem parseDhcpOptionsFrom_end (h : HoldsAt packet packetSize offset [255])
    (options : DhcpOptions) :
    parseDhcpOptionsFrom packet packetSize options offset = withMessageType options := by
  obtain ⟨hoffset, hbyte⟩ := h.byte
  rw [parseDhcpOptionsFrom.eq_def, if_pos hoffset]
  simp only [hbyte, withMessageType]
  rfl

theorem parseDhcpOptionsFrom_option {code : UInt8} {value : List UInt8}
    (hvalid : (DhcpItem.option code value).Valid)
    (h : HoldsAt packet packetSize offset (DhcpItem.option code value).bytes)
    (options : DhcpOptions) :
    parseDhcpOptionsFrom packet packetSize options offset =
      parseDhcpOptionsFrom packet packetSize (options.note code value.length (byteAt value))
        (offset + (DhcpItem.option code value).bytes.length) := by
  obtain ⟨hzero, hend, hlength⟩ := hvalid
  have hsplit : (DhcpItem.option code value).bytes =
      [code] ++ ([UInt8.ofNat value.length] ++ value) := rfl
  rw [hsplit] at h
  obtain ⟨hcode, hrest⟩ := h.append
  obtain ⟨hoffset, hbyte⟩ := hcode.byte
  obtain ⟨hlengthByte, hinside, hvalue⟩ := hrest.append
  obtain ⟨hoffset', hbyte'⟩ := hlengthByte.byte
  simp only [length_singleton] at hoffset' hbyte' hinside hvalue
  have hcount : (packet (offset + 1)).toNat = value.length := by
    rw [hbyte', UInt8.toNat_ofNat']
    exact Nat.mod_eq_of_lt (by omega)
  have hagree : Agree value.length (packet.shift (offset + 2)) (byteAt value) := by
    intro i hi
    have hget := congrArg (fun l : List UInt8 => l.getD i 0) hvalue
    rw [Nat.add_assoc] at hget
    simpa [bytes, hi, byteAt] using hget
  rw [parseDhcpOptionsFrom.eq_def packet packetSize options offset, if_pos hoffset, hbyte]
  simp only [if_neg hzero, if_neg hend, hcount]
  rw [if_neg (by omega), if_neg (by omega), note_eq hagree]
  simp only [DhcpItem.bytes, length_cons]
  rw [show offset + 2 + value.length = offset + (value.length + 1 + 1) by omega]

theorem parseDhcpOptionsFrom_items {items : List DhcpItem} (hvalid : ∀ item ∈ items, item.Valid)
    (h : HoldsAt packet packetSize offset (items.flatMap DhcpItem.bytes ++ [255]))
    (options : DhcpOptions) :
    parseDhcpOptionsFrom packet packetSize options offset =
      withMessageType (items.foldl noteItem options) := by
  induction items generalizing offset options with
  | nil => exact parseDhcpOptionsFrom_end h options
  | cons item items ih =>
    rw [flatMap_cons, append_assoc] at h
    obtain ⟨hitem, hrest⟩ := h.append
    have htail := ih (fun other hmem => hvalid other (mem_cons_of_mem _ hmem)) hrest
    cases item with
    | pad => rw [parseDhcpOptionsFrom_pad hitem]; exact htail options
    | option code value =>
      rw [parseDhcpOptionsFrom_option (hvalid _ mem_cons_self) hitem, htail]
      rfl

theorem HoldsAt.cons {byte : UInt8} {bytes : List UInt8}
    (hbyte : packet offset = byte) (h : HoldsAt packet packetSize (offset + 1) bytes) :
    HoldsAt packet packetSize offset (byte :: bytes) := by
  obtain ⟨hsize, hbytes⟩ := h
  refine ⟨by rw [length_cons]; omega, ?_⟩
  rw [length_cons, Nat.add_comm, bytes_add, shift_shift, hbytes]
  simp [Memory.bytes, hbyte]

theorem holdsAt_append {front back : List UInt8} (h : HoldsAt packet packetSize offset front)
    (h' : HoldsAt packet packetSize (offset + front.length) back) :
    HoldsAt packet packetSize offset (front ++ back) := by
  obtain ⟨hsize, hfront⟩ := h
  obtain ⟨hsize', hback⟩ := h'
  refine ⟨by rw [length_append]; omega, ?_⟩
  rw [length_append, bytes_add, shift_shift, hfront, hback]

/-- Whatever the loop accepts is a sequence of items up to an end marker. -/
theorem exists_items_of_parse {options result : DhcpOptions}
    (h : parseDhcpOptionsFrom packet packetSize options offset = some result) :
    ∃ items : List DhcpItem, (∀ item ∈ items, item.Valid) ∧
      HoldsAt packet packetSize offset (items.flatMap DhcpItem.bytes ++ [255]) := by
  induction hrest : packetSize - offset using Nat.strong_induction_on
    generalizing options offset with
  | _ rest ih =>
    rw [parseDhcpOptionsFrom.eq_def] at h
    by_cases hoffset : offset < packetSize
    · rw [if_pos hoffset] at h
      dsimp only at h
      split at h
      · rename_i hpad
        obtain ⟨items, hvalid, hholds⟩ := ih (packetSize - (offset + 1)) (by omega) h rfl
        exact ⟨.pad :: items, by simpa [DhcpItem.Valid] using hvalid, .cons hpad hholds⟩
      rename_i hpad
      split at h
      · rename_i hend
        exact ⟨[], by simp, .cons hend ⟨by simpa using hoffset, by simp [bytes]⟩⟩
      rename_i hend
      split at h
      · cases h
      split at h
      · cases h
      obtain ⟨items, hvalid, hholds⟩ :=
        ih (packetSize - (offset + 2 + (packet (offset + 1)).toNat)) (by omega) h rfl
      have hlength : (packet (offset + 1)).toNat < 256 := (packet (offset + 1)).toNat_lt
      have hvalueLength : ((packet.shift (offset + 2)).bytes (packet (offset + 1)).toNat).length =
          (packet (offset + 1)).toNat := length_bytes _ _
      refine ⟨.option (packet offset) ((packet.shift (offset + 2)).bytes
        (packet (offset + 1)).toNat) :: items, ?_, ?_⟩
      · intro item hmem
        rcases mem_cons.1 hmem with rfl | hmem
        · exact ⟨hpad, hend, by rw [hvalueLength]; omega⟩
        · exact hvalid item hmem
      · rw [flatMap_cons, DhcpItem.bytes, append_assoc, hvalueLength]
        refine .cons rfl (.cons (by simp) ?_)
        refine holdsAt_append ⟨by rw [hvalueLength]; omega, by rw [hvalueLength]⟩ ?_
        rw [hvalueLength]
        exact hholds
    · rw [if_neg hoffset] at h
      cases h

end

theorem withMessageType_eq_some_iff {options result : DhcpOptions} :
    withMessageType options = some result ↔
      options.messageType.isSome = true ∧ options = result := by
  unfold withMessageType
  split <;> simp_all

/-- A message type is present if an option of that code has a single byte. -/
theorem isSome_messageType_iff (items : List DhcpItem) :
    (optionsOf items).messageType.isSome = true ↔ ∃ type, .option 53 [type] ∈ items := by
  rw [optionsOf, firstOption, isSome_findSome?, any_eq_true]
  constructor
  · rintro ⟨item, hmem, hread⟩
    cases item with
    | pad => cases hread
    | option code value =>
      rw [DhcpItem.read] at hread
      split at hread
      · rename_i hadmissible
        obtain ⟨rfl, hlength⟩ := hadmissible
        obtain ⟨type, rfl⟩ := length_eq_one_iff.1 (by simpa using hlength)
        exact ⟨type, hmem⟩
      · cases hread
  · rintro ⟨type, hmem⟩
    exact ⟨_, hmem, rfl⟩

/-- The option area of a message: items with a message type among them, up to an end marker. -/
structure OptionArea (packet : Memory) (packetSize : ℕ) (items : List DhcpItem) : Prop where
  size : dhcpFixedSize ≤ packetSize
  cookie : u32At packet 236 = dhcpMagicCookie
  valid : ∀ item ∈ items, item.Valid
  holds : HoldsAt packet packetSize dhcpFixedSize (items.flatMap DhcpItem.bytes ++ [255])
  typed : ∃ type, .option 53 [type] ∈ items

/-- `parse_dhcp_options` accepts exactly the option areas, and it takes the first admissible option
of every code. -/
theorem parseDhcpOptions_iff (packet : Memory) (packetSize : ℕ) (options : DhcpOptions) :
    parseDhcpOptions packet packetSize = some options ↔
      ∃ items, OptionArea packet packetSize items ∧ options = optionsOf items := by
  rw [parseDhcpOptions]
  by_cases hfixed : packetSize < dhcpFixedSize ∨ u32At packet 236 ≠ dhcpMagicCookie
  · rw [if_pos hfixed]
    refine ⟨fun h => (by cases h), ?_⟩
    rintro ⟨items, harea, -⟩
    rcases hfixed with h | h
    · exact absurd harea.size (by omega)
    · exact absurd harea.cookie h
  rw [if_neg hfixed]
  push Not at hfixed
  constructor
  · intro h
    obtain ⟨items, hvalid, hholds⟩ := exists_items_of_parse h
    rw [parseDhcpOptionsFrom_items hvalid hholds, foldl_noteItem_default,
      withMessageType_eq_some_iff, isSome_messageType_iff] at h
    exact ⟨items, ⟨hfixed.1, hfixed.2, hvalid, hholds, h.1⟩, h.2.symm⟩
  · rintro ⟨items, harea, rfl⟩
    rw [parseDhcpOptionsFrom_items harea.valid harea.holds, foldl_noteItem_default,
      withMessageType_eq_some_iff, isSome_messageType_iff]
    exact ⟨harea.typed, rfl⟩

/-! ### Written options -/

/-- Options written one after the other with `dhcp_append_option`. -/
def dhcpAppendOptions (packet : List UInt8) (capacity : ℕ) :
    List (UInt8 × List UInt8) → Option (List UInt8)
  | [] => some packet
  | (code, value) :: options => do
    let packet ← dhcpAppendOption packet capacity code value
    dhcpAppendOptions packet capacity options

/-- The items that `dhcp_append_option` has written. -/
def writtenItems (options : List (UInt8 × List UInt8)) : List DhcpItem :=
  options.map fun option => .option option.1 option.2

theorem dhcpAppendOptions_bytes {packet written : List UInt8} {capacity : ℕ}
    {options : List (UInt8 × List UInt8)}
    (h : dhcpAppendOptions packet capacity options = some written) :
    written = packet ++ (writtenItems options).flatMap DhcpItem.bytes := by
  induction options generalizing packet with
  | nil => simpa [dhcpAppendOptions, writtenItems, eq_comm] using h
  | cons option options ih =>
    rw [dhcpAppendOptions, Option.bind_eq_bind, Option.bind_eq_some_iff] at h
    obtain ⟨packet', hpacket', h⟩ := h
    rw [dhcpAppendOption] at hpacket'
    split at hpacket'
    · cases hpacket'
    · cases hpacket'
      rw [ih h]
      simp [writtenItems, DhcpItem.bytes]

/-- The options are ones of `dhcp_append_option`: no code of a pad or the end, and a length of a
byte. -/
def OptionsFit (options : List (UInt8 × List UInt8)) : Prop :=
  ∀ option ∈ options, option.1 ≠ 0 ∧ option.1 ≠ 255 ∧ option.2.length ≤ 255

instance (options : List (UInt8 × List UInt8)) : Decidable (OptionsFit options) :=
  inferInstanceAs (Decidable (∀ option ∈ options, _))

/-- Options behind a fixed part and before an end marker are read back. -/
theorem parseDhcpOptions_appended {fixed written : List UInt8} {capacity packetSize : ℕ}
    {options : List (UInt8 × List UInt8)} {packet : Memory}
    (hlength : fixed.length = dhcpFixedSize)
    (hcookie : u32At (byteAt fixed) 236 = dhcpMagicCookie) (hfit : OptionsFit options)
    (htyped : ∃ type, (53, [type]) ∈ options)
    (hwritten : dhcpAppendOptions fixed capacity options = some written)
    (hholds : HoldsAt packet packetSize 0 (written ++ [255])) :
    OptionArea packet packetSize (writtenItems options) := by
  rw [dhcpAppendOptions_bytes hwritten, append_assoc] at hholds
  obtain ⟨⟨hsize, hfixed⟩, hrest⟩ := hholds.append
  rw [hlength] at hsize hrest
  have hagree : Agree fixed.length packet (byteAt fixed) := by
    intro i hi
    have hget := congrArg (fun l : List UInt8 => l.getD i 0) hfixed
    simpa [bytes, hi, byteAt] using hget
  refine ⟨hsize, ?_, ?_, hrest, ?_⟩
  · rw [hagree.u32At_eq 236 (by rw [hlength]), hcookie]
  · intro item hmem
    obtain ⟨option, hoption, rfl⟩ := mem_map.1 hmem
    exact hfit option hoption
  · obtain ⟨type, hmem⟩ := htyped
    exact ⟨type, mem_map.2 ⟨_, hmem, rfl⟩⟩

/-- Options parse as they are specified: acceptance and the fields of any message, and the way back
from what `dhcp_append_option` has written. -/
theorem dhcp_options_specified :
    (∀ packet packetSize options, parseDhcpOptions packet packetSize = some options ↔
      ∃ items, OptionArea packet packetSize items ∧ options = optionsOf items) ∧
    ∀ fixed capacity options written packet packetSize, fixed.length = dhcpFixedSize →
      u32At (byteAt fixed) 236 = dhcpMagicCookie → OptionsFit options →
      (∃ type, (53, [type]) ∈ options) → dhcpAppendOptions fixed capacity options = some written →
      HoldsAt packet packetSize 0 (written ++ [255]) →
      parseDhcpOptions packet packetSize = some (optionsOf (writtenItems options)) := by
  refine ⟨parseDhcpOptions_iff, ?_⟩
  intro fixed capacity options written packet packetSize hlength hcookie hfit htyped hwritten hholds
  rw [parseDhcpOptions_iff]
  exact ⟨_, parseDhcpOptions_appended hlength hcookie hfit htyped hwritten hholds, rfl⟩

/-- A fixed part of zeros up to the cookie. -/
def blankFixedPart : List UInt8 := List.replicate 236 0 ++ writeU32 dhcpMagicCookie

/-- An acknowledgement with a lease of an hour is read back. -/
theorem dhcp_options_specified_ack :
    parseDhcpOptions (byteAt (blankFixedPart ++ [53, 1, 5, 51, 4, 0, 0, 14, 16] ++ [255])) 250 =
      some (optionsOf (writtenItems [(53, [5]), (51, [0, 0, 14, 16])])) :=
  dhcp_options_specified.2 blankFixedPart 300 [(53, [5]), (51, [0, 0, 14, 16])]
    (blankFixedPart ++ [53, 1, 5, 51, 4, 0, 0, 14, 16]) _ _ (by decide +kernel) (by decide +kernel)
    (by decide) ⟨5, by decide⟩ (by decide +kernel) ⟨by decide +kernel, by decide +kernel⟩

/-- A lone lease time is written, and the message is refused for its missing type. -/
theorem untyped_options_are_refused :
    dhcpAppendOptions blankFixedPart 300 [(51, [0, 0, 14, 16])] =
        some (blankFixedPart ++ [51, 4, 0, 0, 14, 16]) ∧
      parseDhcpOptions (byteAt (blankFixedPart ++ [51, 4, 0, 0, 14, 16] ++ [255])) 247 = none := by
  refine ⟨by decide +kernel, ?_⟩
  have hcookie : u32At (byteAt (blankFixedPart ++ [51, 4, 0, 0, 14, 16] ++ [255])) 236 =
      dhcpMagicCookie := by decide +kernel
  have hvalid : ∀ item ∈ [DhcpItem.option 51 [0, 0, 14, 16]], item.Valid := by
    simp [DhcpItem.Valid]
  rw [parseDhcpOptions, if_neg (by rw [hcookie]; decide),
    parseDhcpOptionsFrom_items hvalid ⟨by decide +kernel, by decide +kernel⟩]
  rfl

end Nostalux.Net
