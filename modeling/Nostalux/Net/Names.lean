import Nostalux.Net.Dns

/-!
# The names of the DNS resolver on the wire

A name is a sequence of labels.  It is stored with dots between the labels, and it travels with a
length byte before each label and a zero byte at the end.

* `exists_labels`: what `dns_validate_and_copy_name` accepts is such a sequence, in at most `253`
  characters;
* `dnsEncodeName_dotted`, `dnsExpandName_wire`: `dns_encode_name` writes the sequence and
  `dns_expand_name` reads it, at any place of a message;
* `dns_name_round_trip`: the two together, for every accepted name.
-/

open Memory

namespace Nostalux.Net

open BigEndian List Nat

/-- The labels that a name is made of. -/
structure DnsLabel (label : List UInt8) : Prop where
  nonempty : label ≠ []
  short : label.length ≤ 63
  printable : ∀ character ∈ label, 0x20 < character ∧ character < 0x7F
  undotted : 0x2E ∉ label

/-- The stored form of a name: dots between the labels. -/
def dottedName (first : List UInt8) (others : List (List UInt8)) : List UInt8 :=
  first ++ others.flatMap (0x2E :: ·)

/-- A label on the wire. -/
def wireLabel (label : List UInt8) : List UInt8 := UInt8.ofNat label.length :: label

/-- The labels of a name on the wire, without the byte that ends them. -/
def wireLabels (labels : List (List UInt8)) : List UInt8 := labels.flatMap wireLabel

theorem dottedName_cons (first label : List UInt8) (others : List (List UInt8)) :
    dottedName first (label :: others) = first ++ 0x2E :: dottedName label others := by
  simp [dottedName]

theorem length_wireLabels (first : List UInt8) (others : List (List UInt8)) :
    (wireLabels (first :: others)).length = (dottedName first others).length + 1 := by
  induction others generalizing first with
  | nil => simp [wireLabels, wireLabel, dottedName]
  | cons label others ih =>
    have hlabel := ih label
    rw [dottedName_cons]
    simp only [wireLabels, wireLabel, flatMap_cons, length_append, length_cons]
      at hlabel ⊢
    omega

variable {first : List UInt8} {others : List (List UInt8)}

/-- Every label takes a character at least, and so does every dot. -/
theorem length_le_dottedName
    (hfirst : DnsLabel first) (hothers : ∀ label ∈ others, DnsLabel label) :
    2 * others.length + 1 ≤ (dottedName first others).length := by
  induction others generalizing first with
  | nil =>
    have := length_pos_iff.2 hfirst.nonempty
    simpa [dottedName] using succ_le_of_lt this
  | cons label others ih =>
    have := ih (hothers label mem_cons_self)
      fun other h => hothers other (mem_cons_of_mem _ h)
    have := length_pos_iff.2 hfirst.nonempty
    rw [dottedName_cons]
    simp only [length_append, length_cons]
    omega

/-! ### Names that are accepted -/

/-- What the loop of `dns_validate_and_copy_name` copies, when the current label begins with
`start`. -/
theorem exists_labels_of_dnsValidateLoop {text copied start : List UInt8} {length : ℕ}
    (h : dnsValidateLoop text length start.length = some copied) (hlength : length ≤ netDnsNameMax)
    (hprintable : ∀ character ∈ start, 0x20 < character ∧ character < 0x7F)
    (hundotted : 0x2E ∉ start) :
    ∃ label others, copied = dottedName label others ∧ DnsLabel (start ++ label) ∧
      (∀ other ∈ others, DnsLabel other) ∧ length + copied.length ≤ netDnsNameMax ∧
      (text = copied ∨ text = copied ++ [0x2E]) := by
  induction text generalizing copied start length with
  | nil =>
    rw [dnsValidateLoop] at h
    split at h
    · cases h
    · rename_i hsize
      cases h
      have hstart : DnsLabel start :=
        ⟨fun h0 => hsize (by simp [h0]), by omega, hprintable, hundotted⟩
      exact ⟨[], [], rfl, by simpa using hstart, by simp, by simpa using hlength, .inl rfl⟩
  | cons character rest ih =>
    rw [dnsValidateLoop] at h
    split at h
    · cases h
    split at h
    · rename_i hdot
      subst hdot
      split at h
      · cases h
      rename_i hsize
      have hstart : DnsLabel start :=
        ⟨fun h0 => hsize (by simp [h0]), by omega, hprintable, hundotted⟩
      split at h
      · rename_i hlast
        cases h
        exact ⟨[], [], rfl, by simpa using hstart, by simp, by simpa using hlength,
          .inr (by simp [hlast])⟩
      · -- the next label starts behind the dot
        obtain ⟨copied', hcopied, rfl⟩ := Option.map_eq_some_iff.1 h
        obtain ⟨label, others, htext, hlabel, hothers, hsum, hrest⟩ :=
          ih (show dnsValidateLoop rest (length + 1) ([] : List UInt8).length = _ from hcopied)
            (by omega) (by simp) (by simp)
        refine ⟨[], label :: others, ?_, by simpa using hstart, ?_, ?_, ?_⟩
        · rw [dottedName_cons, htext, nil_append]
        · simpa using ⟨hlabel, hothers⟩
        · simp only [length_cons]
          omega
        · rcases hrest with hrest | hrest <;> simp [hrest]
    · rename_i hdot
      split at h
      · cases h
      rename_i hchar
      split at h
      · cases h
      obtain ⟨copied', hcopied, rfl⟩ := Option.map_eq_some_iff.1 h
      simp only [ge_iff_le, not_or, UInt8.not_le] at hchar
      have hnext : (start ++ [character]).length = start.length + 1 := by simp
      rw [← hnext] at hcopied
      obtain ⟨label, others, htext, hlabel, hothers, hsum, hrest⟩ :=
        ih hcopied (by omega)
          (by
            intro c hc
            rcases mem_append.1 hc with hc | hc
            · exact hprintable c hc
            · rw [mem_singleton.1 hc]
              exact hchar)
          (by simpa using ⟨hundotted, fun h0 => hdot h0.symm⟩)
      refine ⟨character :: label, others, ?_, by simpa using hlabel, hothers, ?_, ?_⟩
      · rw [htext, dottedName, dottedName, cons_append]
      · simp only [length_cons]
        omega
      · rcases hrest with hrest | hrest <;> simp [hrest]

/-- An accepted name is stored as a sequence of labels, without the dot at its end. -/
theorem exists_labels {name stored : CString}
    (h : dnsValidateAndCopyName (some name) = some stored) :
    ∃ first others, stored.bytes = dottedName first others ∧ DnsLabel first ∧
      (∀ label ∈ others, DnsLabel label) ∧ stored.length ≤ netDnsNameMax ∧
      (name.bytes = stored.bytes ∨ name.bytes = stored.bytes ++ [0x2E]) := by
  simp only [dnsValidateAndCopyName] at h
  split at h
  · cases h
  obtain ⟨copied, hcopied, rfl⟩ := Option.map_eq_some_iff.1 h
  obtain ⟨first, others, htext, hfirst, hothers, hsum, hname⟩ :=
    exists_labels_of_dnsValidateLoop (show dnsValidateLoop name.bytes 0 ([] : List UInt8).length = _
      from hcopied) (zero_le _) (by simp) (by simp)
  have hnul : 0 ∉ copied := by
    intro h0
    apply name.noNul
    rcases hname with hname | hname <;> simp [hname, h0]
  have hbytes : (CString.ofBytes copied).bytes = copied := CString.bytes_ofBytes hnul
  refine ⟨first, others, by rw [hbytes, htext], hfirst, hothers, ?_, by rwa [hbytes]⟩
  rw [CString.length, hbytes]
  omega

/-! ### Writing a name -/

variable {capacity : ℕ}

theorem dnsAppendLabel_eq {output label : List UInt8} (hlabel : DnsLabel label)
    (hroom : output.length + 1 + label.length < capacity) :
    dnsAppendLabel capacity output label = some (output ++ wireLabel label) := by
  have hsize := length_pos_iff.2 hlabel.nonempty
  have hshort := hlabel.short
  rw [dnsAppendLabel, if_neg (by omega), wireLabel]

/-- The loop of `dns_encode_name` collects the characters up to a dot. -/
theorem dnsEncodeLoop_append (capacity : ℕ) {label : List UInt8} (hlabel : 0x2E ∉ label)
    (rest output start : List UInt8) :
    dnsEncodeLoop capacity (label ++ rest) output start =
      dnsEncodeLoop capacity rest output (start ++ label) := by
  induction label generalizing start with
  | nil => simp
  | cons character label ih =>
    have hcharacter : character ≠ 0x2E := fun h0 => hlabel (by simp [h0])
    rw [cons_append, dnsEncodeLoop, if_neg hcharacter, ih fun h0 => hlabel (mem_cons_of_mem _ h0)]
    simp

theorem dnsEncodeLoop_dotted {first output : List UInt8} (hfirst : DnsLabel first)
    (hothers : ∀ label ∈ others, DnsLabel label)
    (hroom : output.length + (wireLabels (first :: others)).length < capacity) :
    dnsEncodeLoop capacity (dottedName first others) output [] =
      some (output ++ wireLabels (first :: others)) := by
  induction others generalizing first output with
  | nil =>
    have hsize : output.length + 1 + first.length < capacity := by
      simp only [wireLabels, wireLabel, flatMap_cons, flatMap_nil, length_append,
        length_cons, length_nil] at hroom
      omega
    rw [dottedName, dnsEncodeLoop_append _ hfirst.undotted]
    simp [dnsEncodeLoop, dnsAppendLabel_eq hfirst hsize, wireLabels]
  | cons label others ih =>
    have hsplit : wireLabels (first :: label :: others) =
        wireLabel first ++ wireLabels (label :: others) := rfl
    rw [hsplit, length_append] at hroom
    have hsize : output.length + 1 + first.length < capacity := by
      simp only [wireLabel, length_cons] at hroom
      omega
    rw [dottedName_cons, dnsEncodeLoop_append _ hfirst.undotted, dnsEncodeLoop, if_pos rfl,
      nil_append, dnsAppendLabel_eq hfirst hsize]
    dsimp only
    rw [ih (hothers label mem_cons_self) (fun other h => hothers other (mem_cons_of_mem _ h))
      (by rw [length_append]; omega), hsplit, append_assoc]

/-- `dns_encode_name` writes the labels and the byte that ends them. -/
theorem dnsEncodeName_dotted {name : CString} (hname : name.bytes = dottedName first others)
    (hfirst : DnsLabel first) (hothers : ∀ label ∈ others, DnsLabel label)
    (hroom : name.length + 1 < capacity) :
    dnsEncodeName capacity name = some (wireLabels (first :: others) ++ [0]) := by
  have hlength := length_wireLabels first others
  rw [← hname] at hlength
  have hroom' : (wireLabels (first :: others)).length < capacity := by
    rw [hlength]
    exact hroom
  rw [dnsEncodeName, hname, dnsEncodeLoop_dotted hfirst hothers (by simpa using hroom')]
  dsimp only
  rw [nil_append, if_neg (by omega)]

/-! ### Reading a name -/

/-- The length byte of a label is neither a pointer nor an end. -/
theorem lengthByte (n : ℕ) (h : n < 64) :
    UInt8.ofNat n &&& 0xC0 ≠ 0xC0 ∧ ¬(UInt8.ofNat n &&& 0xC0 ≠ 0 ∨ UInt8.ofNat n > 63) ∧
      (UInt8.ofNat n).toNat = n := by
  revert n
  decide

/-- The text of a name with one more label. -/
def withLabel (output label : List UInt8) : List UInt8 :=
  (if output = [] then [] else output ++ [0x2E]) ++ label

/-- The message holds these bytes at the offset. -/
def HoldsAt (message : Memory) (messageSize offset : ℕ) (bytes : List UInt8) : Prop :=
  offset + bytes.length ≤ messageSize ∧ (message.shift offset).bytes bytes.length = bytes

variable {message : Memory} {messageSize offset : ℕ}

theorem HoldsAt.append {front back : List UInt8}
    (h : HoldsAt message messageSize offset (front ++ back)) :
    HoldsAt message messageSize offset front ∧
      HoldsAt message messageSize (offset + front.length) back := by
  obtain ⟨hsize, hbytes⟩ := h
  rw [length_append, bytes_add, shift_shift] at hbytes
  obtain ⟨hfront, hback⟩ := append_inj hbytes (by simp)
  rw [length_append] at hsize
  exact ⟨⟨by omega, hfront⟩, by omega, hback⟩

theorem HoldsAt.byte {byte : UInt8} (h : HoldsAt message messageSize offset [byte]) :
    offset < messageSize ∧ message offset = byte := by
  obtain ⟨hsize, hbytes⟩ := h
  exact ⟨hsize, by simpa [bytes] using hbytes⟩

/-- One turn of `dns_expand_name` reads one label. -/
theorem dnsExpandLoop_label {messageSize cursor : ℕ} {label output : List UInt8}
    (hlabel : DnsLabel label) (hholds : HoldsAt message messageSize cursor (wireLabel label))
    (hroom : (withLabel output label).length ≤ netDnsNameMax) (turns : ℕ) (resume : Option ℕ) :
    dnsExpandLoop message messageSize (turns + 1) cursor output resume =
      dnsExpandLoop message messageSize turns (cursor + (wireLabel label).length)
        (withLabel output label) resume := by
  have hshort := hlabel.short
  have hpositive := length_pos_iff.2 hlabel.nonempty
  obtain ⟨hpointer, hplain, hcount⟩ := lengthByte label.length (by omega)
  have hsplit : wireLabel label = [UInt8.ofNat label.length] ++ label := rfl
  obtain ⟨hhead, hinside, htext⟩ := (hsplit ▸ hholds).append
  obtain ⟨hcursor, hbyte⟩ := hhead.byte
  simp only [length_singleton] at hinside htext
  have hnonzero : UInt8.ofNat label.length ≠ 0 := by
    intro h0
    rw [h0] at hcount
    exact absurd hcount (by simpa using hpositive.ne)
  have hread : dnsLabel message (cursor + 1) label.length = some label := by
    have hall : ¬ (label.any fun character =>
        decide (character ≤ 0x20 ∨ character ≥ 0x7F)) = true := by
      simp only [any_eq_true, decide_eq_true_eq, not_exists, not_and, not_or, ge_iff_le,
        UInt8.not_le]
      exact hlabel.printable
    rw [dnsLabel, htext]
    exact if_neg hall
  -- the two checks of the size follow from the size of the longer text
  have hdot : ¬(output ≠ [] ∧ output.length ≥ netDnsNameMax) := by
    rintro ⟨hne, hge⟩
    simp only [withLabel, hne, if_false, length_append, length_singleton] at hroom
    omega
  rw [dnsExpandLoop, if_neg (by omega)]
  rw [hbyte, if_neg hpointer, if_neg hplain, if_neg hnonzero, hcount, if_neg (by omega),
    if_neg hdot]
  rw [withLabel, length_append] at hroom
  rw [if_neg (by omega), hread]
  simp only [withLabel, wireLabel, length_cons]
  rw [add_right_comm, add_assoc]

theorem dnsExpandLoop_end {messageSize cursor : ℕ}
    (hholds : HoldsAt message messageSize cursor [0]) (turns : ℕ) (output : List UInt8) :
    dnsExpandLoop message messageSize (turns + 1) cursor output none =
      some (output, cursor + 1) := by
  obtain ⟨hcursor, hbyte⟩ := hholds.byte
  rw [dnsExpandLoop, if_neg (by omega)]
  simp [hbyte]

/-- The labels behind a first one, and the end of the name. -/
theorem dnsExpandLoop_labels {messageSize cursor turns : ℕ} {output : List UInt8}
    (hothers : ∀ label ∈ others, DnsLabel label) (houtput : output ≠ [])
    (hholds : HoldsAt message messageSize cursor (wireLabels others ++ [0]))
    (hroom : (dottedName output others).length ≤ netDnsNameMax) (hturns : others.length < turns) :
    dnsExpandLoop message messageSize turns cursor output none =
      some (dottedName output others, cursor + (wireLabels others ++ [0]).length) := by
  obtain ⟨turns, rfl⟩ : ∃ k, turns = k + 1 := ⟨turns - 1, by omega⟩
  induction others generalizing cursor turns output with
  | nil =>
    rw [dnsExpandLoop_end (by simpa [wireLabels] using hholds)]
    simp [wireLabels, dottedName]
  | cons label others ih =>
    have hsplit : wireLabels (label :: others) ++ [0] =
        wireLabel label ++ (wireLabels others ++ [0]) := by
      simp [wireLabels]
    have hnext : withLabel output label = output ++ 0x2E :: label := by
      simp [withLabel, houtput]
    have hdotted : dottedName output (label :: others) =
        dottedName (withLabel output label) others := by
      simp [dottedName, hnext]
    rw [hsplit] at hholds
    obtain ⟨hlabel, hrest⟩ := hholds.append
    rw [hdotted] at hroom ⊢
    obtain ⟨turns, rfl⟩ : ∃ k, turns = k + 1 :=
      ⟨turns - 1, by rw [length_cons] at hturns; omega⟩
    rw [dnsExpandLoop_label (hothers label mem_cons_self) hlabel
      (by rw [dottedName, length_append] at hroom; omega)]
    have hlength : (wireLabels (label :: others) ++ [0]).length =
        (wireLabel label).length + (wireLabels others ++ [0]).length := by
      rw [hsplit, length_append]
    rw [ih (fun other h => hothers other (mem_cons_of_mem _ h)) (by simp [hnext]) hrest hroom _
      (by rw [length_cons] at hturns; omega), hlength, add_assoc]

/-- `dns_expand_name` reads the labels of a name, wherever they stand in a message. -/
theorem dnsExpandName_wire {name : CString} (hname : name.bytes = dottedName first others)
    (hfirst : DnsLabel first) (hothers : ∀ label ∈ others, DnsLabel label)
    (hlength : name.length ≤ netDnsNameMax)
    (hholds : HoldsAt message messageSize offset (wireLabels (first :: others) ++ [0])) :
    dnsExpandName message messageSize offset =
      some (name, offset + (wireLabels (first :: others) ++ [0]).length) := by
  have hsplit : wireLabels (first :: others) ++ [0] =
      wireLabel first ++ (wireLabels others ++ [0]) := by
    simp [wireLabels]
  have hnext : withLabel [] first = first := by simp [withLabel]
  have hroom : (dottedName first others).length ≤ netDnsNameMax := hname ▸ hlength
  -- `253` characters hold at most `127` labels
  have hmany := length_le_dottedName hfirst hothers
  rw [hsplit] at hholds ⊢
  obtain ⟨hlabel, hrest⟩ := hholds.append
  have hturns : others.length < 128 := by
    simp only [netDnsNameMax] at hroom
    omega
  have hsize : (withLabel [] first).length ≤ netDnsNameMax := by
    rw [dottedName, length_append] at hroom
    rw [hnext]
    omega
  have hexpand : dnsExpandLoop message messageSize dnsExpandTurns offset [] none =
      some (name.bytes, offset + (wireLabel first ++ (wireLabels others ++ [0])).length) := by
    have htotal : (wireLabel first ++ (wireLabels others ++ [0])).length =
        (wireLabel first).length + (wireLabels others ++ [0]).length := length_append
    rw [dnsExpandLoop_label hfirst hlabel hsize, hnext,
      dnsExpandLoop_labels hothers hfirst.nonempty hrest hroom hturns, hname, htotal, add_assoc]
  rw [dnsExpandName, hexpand]
  simp [CString.ofBytes_bytes]

/-- A name that is accepted is stored without the dot at its end.  Its encoding fits a query, with
the header before it and the type and class behind it, and wherever a message holds that encoding
the stored name is read back, together with the offset behind the encoding. -/
theorem dns_name_round_trip (name stored : CString)
    (h : dnsValidateAndCopyName (some name) = some stored) :
    (name.bytes = stored.bytes ∨ name.bytes = stored.bytes ++ [0x2E]) ∧
      ∃ encoding, dnsEncodeName (dnsQueryCapacity - dnsHeaderSize) stored = some encoding ∧
        dnsHeaderSize + encoding.length + 4 ≤ dnsQueryCapacity ∧
        ∀ (message : Memory) (messageSize offset : ℕ),
          HoldsAt message messageSize offset encoding →
            dnsExpandName message messageSize offset = some (stored, offset + encoding.length) := by
  obtain ⟨first, others, hbytes, hfirst, hothers, hlength, htext⟩ := exists_labels h
  have hsize := length_wireLabels first others
  rw [← hbytes] at hsize
  have hshort : stored.length ≤ 253 := hlength
  refine ⟨htext, wireLabels (first :: others) ++ [0],
    dnsEncodeName_dotted hbytes hfirst hothers
      (by simp only [dnsQueryCapacity, dnsHeaderSize]; omega),
    ?_, fun message messageSize offset hholds =>
      dnsExpandName_wire hbytes hfirst hothers hlength hholds⟩
  simp only [length_append, length_singleton, dnsQueryCapacity, dnsHeaderSize]
  rw [CString.length] at hshort
  omega

/-- The name `a.io` with a dot at its end. -/
theorem dns_name_round_trip_dotted :
    dnsValidateAndCopyName (some (CString.ofString "a.io.")) = some (CString.ofString "a.io") ∧
      ∃ encoding, dnsEncodeName (dnsQueryCapacity - dnsHeaderSize) (CString.ofString "a.io") =
          some encoding ∧
        HoldsAt (byteAt encoding) encoding.length 0 encoding ∧
        dnsExpandName (byteAt encoding) encoding.length 0 =
          some (CString.ofString "a.io", encoding.length) := by
  have h : dnsValidateAndCopyName (some (CString.ofString "a.io.")) =
      some (CString.ofString "a.io") := by decide +kernel
  obtain ⟨-, encoding, hencode, -, hexpand⟩ := dns_name_round_trip _ _ h
  have hholds : HoldsAt (byteAt encoding) encoding.length 0 encoding :=
    ⟨by omega, by rw [shift_zero]; exact map_range_byteAt encoding⟩
  exact ⟨h, encoding, hencode, hholds, by simpa using hexpand _ _ _ hholds⟩

end Nostalux.Net
