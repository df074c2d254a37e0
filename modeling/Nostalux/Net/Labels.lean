import Nostalux.Net.Names

/-!
# Which name an expanded text stands for

`dns_expand_name` writes the labels of a name with dots between them, and it lets a dot pass inside
of a label.  `NameAt` is the sequence of labels at an offset of a message, through any compression
pointers.

* `exists_nameAt`: where `dns_expand_name` succeeds there is such a sequence;
* `dnsEncodeName_nameText_iff`: `dns_encode_name` gives the sequence back if and only if no label
  has a dot inside;
* `expanded_text_identifies_iff`: so texts identify names exactly for labels without dots.
-/

namespace Nostalux.Net

open BigEndian List CString

/-- The labels of the name at an offset of a message. -/
inductive NameAt (message : Memory) (messageSize : ℕ) : ℕ → List (List UInt8) → Prop
  | root {cursor : ℕ} (inside : cursor < messageSize) (zero : message cursor = 0) :
      NameAt message messageSize cursor []
  | pointer {cursor : ℕ} {labels : List (List UInt8)} (inside : cursor + 1 < messageSize)
      (tag : message cursor &&& 0xC0 = 0xC0)
      (target : NameAt message messageSize
        ((message cursor &&& 0x3F).toNat * 256 + (message (cursor + 1)).toNat) labels) :
      NameAt message messageSize cursor labels
  | label {cursor : ℕ} {labels : List (List UInt8)}
      (inside : cursor + 1 + (message cursor).toNat ≤ messageSize)
      (tag : message cursor &&& 0xC0 = 0) (nonzero : message cursor ≠ 0)
      (rest : NameAt message messageSize (cursor + 1 + (message cursor).toNat) labels) :
      NameAt message messageSize cursor
        ((message.shift (cursor + 1)).bytes (message cursor).toNat :: labels)

/-- What `dns_expand_name` demands of a label. -/
structure ReadLabel (label : List UInt8) : Prop where
  nonempty : label ≠ []
  short : label.length ≤ 63
  printable : ∀ character ∈ label, 0x20 < character ∧ character < 0x7F

variable {label : List UInt8}

theorem ReadLabel.dnsLabel (h : ReadLabel label) (hdot : 0x2E ∉ label) :
    DnsLabel label := ⟨h.nonempty, h.short, h.printable, hdot⟩

/-- The text of a sequence of labels. -/
def nameText (labels : List (List UInt8)) : List UInt8 := labels.foldl withLabel []

theorem foldl_withLabel {output : List UInt8} (houtput : output ≠ []) (labels : List (List UInt8)) :
    labels.foldl withLabel output = dottedName output labels := by
  induction labels generalizing output with
  | nil => simp [dottedName]
  | cons label labels ih =>
    have hnext : withLabel output label = output ++ 0x2E :: label := by simp [withLabel, houtput]
    rw [foldl_cons, ih (by simp [hnext]), hnext]
    simp [dottedName]

theorem nameText_cons {first : List UInt8} (hfirst : first ≠ []) (others : List (List UInt8)) :
    nameText (first :: others) = dottedName first others := by
  have hnext : withLabel [] first = first := by simp [withLabel]
  rw [nameText, foldl_cons, hnext, foldl_withLabel hfirst]

variable {labels : List (List UInt8)}

theorem nameText_ne_nil (hread : ∀ label ∈ labels, ReadLabel label)
    (hne : labels ≠ []) : nameText labels ≠ [] := by
  cases labels with
  | nil => exact absurd rfl hne
  | cons first others =>
    have hfirst := (hread first mem_cons_self).nonempty
    rw [nameText_cons hfirst, dottedName]
    simp [hfirst]

theorem nameText_eq_nil_iff
    (hread : ∀ label ∈ labels, ReadLabel label) : nameText labels = [] ↔ labels = [] := by
  constructor
  · intro h
    by_contra hne
    exact nameText_ne_nil hread hne h
  · rintro rfl
    rfl

/-! ### Reading -/

variable {message : Memory}

theorem printable_of_dnsLabel {cursor length : ℕ}
    (h : dnsLabel message cursor length = some label) :
    label = (message.shift cursor).bytes length ∧
      ∀ character ∈ label, 0x20 < character ∧ character < 0x7F := by
  rw [dnsLabel] at h
  split at h
  · cases h
  · rename_i hall
    cases h
    refine ⟨rfl, fun character hmem => ?_⟩
    simp only [any_eq_true, decide_eq_true_eq, not_exists, not_and, not_or, ge_iff_le,
      UInt8.not_le] at hall
    exact hall character hmem

/-- What the loop of `dns_expand_name` reads: the labels that the message holds from the cursor on,
behind the text so far. -/
theorem exists_nameAt_of_dnsExpandLoop {messageSize turns cursor next : ℕ}
    {output text : List UInt8} {resume : Option ℕ}
    (h : dnsExpandLoop message messageSize turns cursor output resume = some (text, next))
    (hroom : output.length ≤ netDnsNameMax) :
    ∃ labels, NameAt message messageSize cursor labels ∧ (∀ label ∈ labels, ReadLabel label) ∧
      text = labels.foldl withLabel output ∧ text.length ≤ netDnsNameMax := by
  induction turns generalizing cursor output resume with
  | zero => cases h
  | succ turns ih =>
    rw [dnsExpandLoop] at h
    split at h
    · cases h
    dsimp only at h
    split at h
    · -- a pointer uses a turn and adds no label
      rename_i htag
      split at h
      · cases h
      split at h
      · cases h
      obtain ⟨labels, hname, hread, htext, hlength⟩ := ih h hroom
      exact ⟨labels, .pointer (by omega) htag hname, hread, htext, hlength⟩
    split at h
    · cases h
    rename_i htag
    push Not at htag
    split at h
    · rename_i hzero
      cases h
      exact ⟨[], .root (by omega) hzero, by simp, rfl, hroom⟩
    rename_i hnonzero
    split at h
    · cases h
    split at h
    · cases h
    rename_i hdot
    generalize hstart : (if output = [] then [] else output ++ [0x2E]) = start at h
    split at h
    · cases h
    split at h
    · cases h
    rename_i label hlabel
    have hnext : start ++ label = withLabel output label := by rw [withLabel, hstart]
    rw [hnext] at h
    obtain ⟨heq, hprintable⟩ := printable_of_dnsLabel hlabel
    have hlabelLength : label.length = (message cursor).toNat := by rw [heq, Memory.length_bytes]
    have hpositive : (message cursor).toNat ≠ 0 := fun h0 =>
      hnonzero (UInt8.toNat_inj.1 (by simpa using h0))
    have hshort : (message cursor).toNat ≤ 63 := by
      have := htag.2
      exact UInt8.le_iff_toNat_le.1 (by simpa using this)
    have hsize : (withLabel output label).length ≤ netDnsNameMax := by
      rw [← hnext, length_append, hlabelLength]
      omega
    obtain ⟨labels, hname, hread, htext, hlength⟩ := ih h hsize
    refine ⟨label :: labels, ?_, ?_, htext, hlength⟩
    · rw [heq]
      exact .label (by omega) htag.1 hnonzero hname
    · intro other hmem
      rcases mem_cons.1 hmem with rfl | hmem
      · exact ⟨fun h0 => hpositive (by rw [← hlabelLength, h0, length_nil]), by omega,
          hprintable⟩
      · exact hread other hmem

theorem zero_notMem_nameText (hread : ∀ label ∈ labels, ReadLabel label) : 0 ∉ nameText labels := by
  have hfold : ∀ (labels : List (List UInt8)) (output : List UInt8),
      (∀ label ∈ labels, ReadLabel label) → 0 ∉ output → 0 ∉ labels.foldl withLabel output := by
    intro labels
    induction labels with
    | nil => exact fun output _ houtput => houtput
    | cons label labels ih =>
      intro output hread houtput
      refine ih _ (fun other h => hread other (mem_cons_of_mem _ h)) ?_
      have hlabel : 0 ∉ label := fun h0 =>
        absurd ((hread label mem_cons_self).printable 0 h0).1 (by decide)
      rw [withLabel]
      split <;> simp [houtput, hlabel]
  exact hfold labels [] hread (by simp)

variable {text : CString}

/-- Where `dns_expand_name` succeeds, the message holds a name, and the text is that of its
labels. -/
theorem exists_nameAt {messageSize offset next : ℕ}
    (h : dnsExpandName message messageSize offset = some (text, next)) :
    ∃ labels, NameAt message messageSize offset labels ∧ (∀ label ∈ labels, ReadLabel label) ∧
      text.bytes = nameText labels ∧ text.length ≤ netDnsNameMax := by
  rw [dnsExpandName] at h
  obtain ⟨⟨bytes, next'⟩, hloop, heq⟩ := Option.map_eq_some_iff.1 h
  cases heq
  obtain ⟨labels, hname, hread, htext, hlength⟩ :=
    exists_nameAt_of_dnsExpandLoop hloop (Nat.zero_le _)
  have htext' : bytes = nameText labels := htext
  have hbytes : (ofBytes bytes).bytes = bytes :=
    bytes_ofBytes (htext' ▸ zero_notMem_nameText hread)
  exact ⟨labels, hname, hread, by rw [hbytes, htext'],
    by rw [CString.length, hbytes]; exact hlength⟩

/-! ### Writing back -/

/-- Labels on the wire are told apart by their length bytes. -/
theorem wireLabels_injective {labels labels' : List (List UInt8)}
    (hshort : ∀ label ∈ labels, label.length ≤ 63) (hshort' : ∀ label ∈ labels', label.length ≤ 63)
    (h : wireLabels labels = wireLabels labels') : labels = labels' := by
  induction labels generalizing labels' with
  | nil =>
    cases labels' with
    | nil => rfl
    | cons label' labels' => simp [wireLabels, wireLabel] at h
  | cons label labels ih =>
    cases labels' with
    | nil => simp [wireLabels, wireLabel] at h
    | cons label' labels' =>
      have hlabel := hshort label mem_cons_self
      have hlabel' := hshort' label' mem_cons_self
      simp only [wireLabels, wireLabel, flatMap_cons, cons_append, cons.injEq] at h
      have hlength : label.length = label'.length := by
        have := (lengthByte label.length (by omega)).2.2
        rw [h.1, (lengthByte label'.length (by omega)).2.2] at this
        exact this.symm
      obtain ⟨rfl, hrest⟩ := append_inj h.2 hlength
      rw [ih (fun other hmem => hshort other (mem_cons_of_mem _ hmem))
        (fun other hmem => hshort' other (mem_cons_of_mem _ hmem)) hrest]

theorem dnsAppendLabel_eq_some {capacity : ℕ} {output label encoding : List UInt8}
    (h : dnsAppendLabel capacity output label = some encoding) :
    label.length ≤ 63 ∧ encoding = output ++ wireLabel label := by
  rw [dnsAppendLabel] at h
  split at h
  · cases h
  · cases h
    exact ⟨by omega, rfl⟩

/-- Whatever `dns_encode_name` writes is a sequence of labels without dots. -/
theorem exists_labels_of_dnsEncodeLoop {capacity : ℕ} {text output start encoding : List UInt8}
    (h : dnsEncodeLoop capacity text output start = some encoding) (hstart : 0x2E ∉ start) :
    ∃ labels, (∀ label ∈ labels, 0x2E ∉ label ∧ label.length ≤ 63) ∧
      encoding = output ++ wireLabels labels := by
  induction text generalizing output start with
  | nil =>
    obtain ⟨hshort, rfl⟩ := dnsAppendLabel_eq_some h
    exact ⟨[start], by simpa using ⟨hstart, hshort⟩, by simp [wireLabels]⟩
  | cons character rest ih =>
    rw [dnsEncodeLoop] at h
    split at h
    · split at h
      · cases h
      · rename_i output' houtput
        obtain ⟨hshort, rfl⟩ := dnsAppendLabel_eq_some houtput
        obtain ⟨labels, hlabels, rfl⟩ := ih h (by simp)
        exact ⟨start :: labels, by simpa using ⟨⟨hstart, hshort⟩, hlabels⟩, by simp [wireLabels]⟩
    · rename_i hcharacter
      exact ih h (by simpa using ⟨hstart, fun h0 => hcharacter h0.symm⟩)

/-- The capacity that `dns_send_query` gives to `dns_encode_name`. -/
abbrev dnsNameCapacity : ℕ := dnsQueryCapacity - dnsHeaderSize

/-- `dns_encode_name` gives the labels of a text back exactly if none of them has a dot inside. -/
theorem dnsEncodeName_nameText_iff
    (hread : ∀ label ∈ labels, ReadLabel label) (htext : text.bytes = nameText labels)
    (hlength : text.length ≤ netDnsNameMax) (hne : labels ≠ []) :
    dnsEncodeName dnsNameCapacity text = some (wireLabels labels ++ [0]) ↔
      ∀ label ∈ labels, 0x2E ∉ label := by
  constructor
  · intro h
    rw [dnsEncodeName] at h
    split at h
    · cases h
    rename_i encoding hloop
    split at h
    · cases h
    obtain ⟨labels', hlabels', rfl⟩ := exists_labels_of_dnsEncodeLoop hloop (by simp)
    have hwire : wireLabels labels' = wireLabels labels := by simpa using h
    have heq := wireLabels_injective (fun label hmem => (hlabels' label hmem).2)
      (fun label hmem => (hread label hmem).short) hwire
    exact fun label hmem => (hlabels' label (heq ▸ hmem)).1
  · intro hdots
    cases labels with
    | nil => exact absurd rfl hne
    | cons first others =>
      have hlabel (label : List UInt8) (hmem : label ∈ first :: others) : DnsLabel label :=
        (hread label hmem).dnsLabel (hdots label hmem)
      have hfirst := hlabel first mem_cons_self
      rw [nameText_cons hfirst.nonempty] at htext
      refine dnsEncodeName_dotted htext hfirst
        (fun label hmem => hlabel label (mem_cons_of_mem _ hmem)) ?_
      have : text.length ≤ 253 := hlength
      simp only [dnsNameCapacity, dnsQueryCapacity, dnsHeaderSize]
      omega

/-! ### Comparing -/

/-- A text determines its labels if none of them has a dot inside. -/
theorem nameText_injective {labels labels' : List (List UInt8)}
    (hlabels : ∀ label ∈ labels, DnsLabel label) (hlabels' : ∀ label ∈ labels', DnsLabel label)
    (h : nameText labels = nameText labels') : labels = labels' := by
  have hread (labels : List (List UInt8)) (h : ∀ label ∈ labels, DnsLabel label) :
      ∀ label ∈ labels, ReadLabel label := fun label hmem =>
    ⟨(h label hmem).nonempty, (h label hmem).short, (h label hmem).printable⟩
  cases labels with
  | nil => exact ((nameText_eq_nil_iff (hread _ hlabels')).1 h.symm).symm
  | cons first others =>
    cases labels' with
    | nil => exact (nameText_eq_nil_iff (hread _ hlabels)).1 h
    | cons first' others' =>
      have hfirst := hlabels first mem_cons_self
      have hfirst' := hlabels' first' mem_cons_self
      rw [nameText_cons hfirst.nonempty, nameText_cons hfirst'.nonempty] at h
      -- both are what the loop of `dns_encode_name` writes for the common text
      have hloop : dnsEncodeLoop ((wireLabels (first :: others)).length + 1)
          (dottedName first others) [] [] = some ([] ++ wireLabels (first :: others)) :=
        dnsEncodeLoop_dotted hfirst (fun label hmem => hlabels label (mem_cons_of_mem _ hmem))
          (by simp)
      have hlength : (wireLabels (first' :: others')).length =
          (wireLabels (first :: others)).length := by
        rw [length_wireLabels, length_wireLabels, h]
      rw [h, dnsEncodeLoop_dotted hfirst'
        (fun label hmem => hlabels' label (mem_cons_of_mem _ hmem))
        (by rw [hlength]; simp)] at hloop
      refine wireLabels_injective (fun label hmem => (hlabels label hmem).short)
        (fun label hmem => (hlabels' label hmem).short) ?_
      simpa using (Option.some.inj hloop).symm

/-- The sequences of labels are one name: letters count without their case. -/
def SameName (labels labels' : List (List UInt8)) : Prop :=
  labels.map (List.map asciiLower) = labels'.map (List.map asciiLower)

theorem asciiLower_dot_iff (character : UInt8) :
    asciiLower character = 0x2E ↔ character = 0x2E := by
  obtain ⟨n, hn, rfl⟩ : ∃ n < 256, character = UInt8.ofNat n :=
    ⟨character.toNat, character.toNat_lt, by simp⟩
  revert n
  decide +kernel

theorem asciiLower_printable (character : UInt8) :
    0x20 < character ∧ character < 0x7F →
      0x20 < asciiLower character ∧ asciiLower character < 0x7F := by
  obtain ⟨n, hn, rfl⟩ : ∃ n < 256, character = UInt8.ofNat n :=
    ⟨character.toNat, character.toNat_lt, by simp⟩
  revert n
  decide +kernel

theorem DnsLabel.map_asciiLower (h : DnsLabel label) : DnsLabel (label.map asciiLower) where
  nonempty := by simpa using h.nonempty
  short := by simpa using h.short
  printable character hmem := by
    obtain ⟨upper, hupper, rfl⟩ := mem_map.1 hmem
    exact asciiLower_printable upper (h.printable upper hupper)
  undotted hmem := by
    obtain ⟨upper, hupper, hdot⟩ := mem_map.1 hmem
    rw [(asciiLower_dot_iff upper).1 hdot] at hupper
    exact h.undotted hupper

theorem map_nameText (labels : List (List UInt8)) :
    (nameText labels).map asciiLower = nameText (labels.map (map asciiLower)) := by
  have hstep (output label : List UInt8) : (withLabel output label).map asciiLower =
      withLabel (output.map asciiLower) (label.map asciiLower) := by
    have hdot : asciiLower 0x2E = 0x2E := by decide
    cases output with
    | nil => simp [withLabel]
    | cons a output => simp [withLabel, hdot]
  have hfold (labels : List (List UInt8)) (output : List UInt8) :
      (labels.foldl withLabel output).map asciiLower =
        (labels.map (map asciiLower)).foldl withLabel (output.map asciiLower) := by
    induction labels generalizing output with
    | nil => rfl
    | cons label labels ih => rw [foldl_cons, ih, hstep, map_cons, foldl_cons]
  exact hfold labels []

/-- The comparison of two texts is a comparison of names, if no label has a dot inside. -/
theorem dnsNamesEqual_nameText_iff {text text' : CString} {labels labels' : List (List UInt8)}
    (htext : text.bytes = nameText labels) (htext' : text'.bytes = nameText labels')
    (hlabels : ∀ label ∈ labels, DnsLabel label) (hlabels' : ∀ label ∈ labels', DnsLabel label) :
    dnsNamesEqual text text' = true ↔ SameName labels labels' := by
  have hlower (labels : List (List UInt8)) (h : ∀ label ∈ labels, DnsLabel label) :
      ∀ label ∈ labels.map (map asciiLower), DnsLabel label := by
    intro lower hlower
    obtain ⟨label, hmem, rfl⟩ := mem_map.1 hlower
    exact (h label hmem).map_asciiLower
  rw [dnsNamesEqual, dnsTextsEqual_iff, htext, htext', map_nameText, map_nameText]
  constructor
  · exact nameText_injective (hlower labels hlabels) (hlower labels' hlabels')
  · intro h
    rw [SameName] at h
    rw [h]

/-! ### Texts and names -/

/-- The text stands for the labels: it is empty for the root only and can be written back, and a
comparison with the stored name of a query is a comparison of names. -/
structure StandsFor (text : CString) (labels : List (List UInt8)) : Prop where
  encodes : text.bytes ≠ [] → dnsEncodeName dnsNameCapacity text = some (wireLabels labels ++ [0])
  compares : ∀ query, (∀ label ∈ query, DnsLabel label) →
    (dnsNamesEqual text (CString.ofBytes (nameText query)) = true ↔ SameName labels query)

theorem standsFor_iff
    (hread : ∀ label ∈ labels, ReadLabel label) (htext : text.bytes = nameText labels)
    (hlength : text.length ≤ netDnsNameMax) :
    StandsFor text labels ↔ ∀ label ∈ labels, 0x2E ∉ label := by
  constructor
  · intro h
    by_cases hne : labels = []
    · simp [hne]
    · exact (dnsEncodeName_nameText_iff hread htext hlength hne).1
        (h.encodes (by rw [htext]; exact nameText_ne_nil hread hne))
  · intro hdots
    refine ⟨fun hne => ?_, fun query hquery => ?_⟩
    · refine (dnsEncodeName_nameText_iff hread htext hlength ?_).2 hdots
      rintro rfl
      exact hne htext
    · have hzero : 0 ∉ nameText query := zero_notMem_nameText fun label hmem =>
        ⟨(hquery label hmem).nonempty, (hquery label hmem).short, (hquery label hmem).printable⟩
      exact dnsNamesEqual_nameText_iff htext (bytes_ofBytes hzero)
        (fun label hmem => (hread label hmem).dnsLabel (hdots label hmem)) hquery

/-- The texts that `dns_expand_name` finds at two offsets of a message identify the names there, can
be written back and are compared as names, exactly if no label has a dot inside. -/
theorem expanded_text_identifies_iff (message : Memory) (messageSize offset offset' : ℕ)
    (text text' : CString) (next next' : ℕ)
    (h : dnsExpandName message messageSize offset = some (text, next))
    (h' : dnsExpandName message messageSize offset' = some (text', next')) :
    ∃ labels labels', NameAt message messageSize offset labels ∧
      NameAt message messageSize offset' labels' ∧
      ((text = text' → labels = labels') ∧ StandsFor text labels ∧ StandsFor text' labels' ∧
          (dnsNamesEqual text text' = true ↔ SameName labels labels') ↔
        ∀ label ∈ labels ++ labels', 0x2E ∉ label) := by
  obtain ⟨labels, hname, hread, htext, hlength⟩ := exists_nameAt h
  obtain ⟨labels', hname', hread', htext', hlength'⟩ := exists_nameAt h'
  refine ⟨labels, labels', hname, hname', ?_⟩
  rw [standsFor_iff hread htext hlength, standsFor_iff hread' htext' hlength']
  simp only [mem_append, or_imp, forall_and]
  constructor
  · rintro ⟨-, hdots, hdots', -⟩
    exact ⟨hdots, hdots'⟩
  · rintro ⟨hdots, hdots'⟩
    have hlabels (label : List UInt8) (hmem : label ∈ labels) : DnsLabel label :=
      (hread label hmem).dnsLabel (hdots label hmem)
    have hlabels' (label : List UInt8) (hmem : label ∈ labels') : DnsLabel label :=
      (hread' label hmem).dnsLabel (hdots' label hmem)
    refine ⟨fun heq => ?_, hdots, hdots', dnsNamesEqual_nameText_iff htext htext' hlabels hlabels'⟩
    exact nameText_injective hlabels hlabels' (by rw [← htext, ← htext', heq])

/-- A message with the label `a.b` at its start, and behind it the labels `a` and `b`. -/
def dottedLabelMessage : List UInt8 := [3, 0x61, 0x2E, 0x62, 0, 1, 0x61, 1, 0x62, 0]

/-- The two names have the same text. -/
theorem dotted_label_is_ambiguous :
    dnsExpandName (byteAt dottedLabelMessage) 10 0 = some (CString.ofString "a.b", 5) ∧
    dnsExpandName (byteAt dottedLabelMessage) 10 5 = some (CString.ofString "a.b", 10) ∧
    NameAt (byteAt dottedLabelMessage) 10 0 [[0x61, 0x2E, 0x62]] ∧
    NameAt (byteAt dottedLabelMessage) 10 5 [[0x61], [0x62]] ∧
    dnsEncodeName dnsNameCapacity (CString.ofString "a.b") = some [1, 0x61, 1, 0x62, 0] := by
  refine ⟨by decide +kernel, by decide +kernel, ?_, ?_, by decide⟩
  · exact .label (by decide) (by decide) (by decide) (.root (by decide) (by decide))
  · exact .label (by decide) (by decide) (by decide)
      (.label (by decide) (by decide) (by decide) (.root (by decide) (by decide)))

/-- The labels behind the first name have no dots. -/
theorem expanded_text_identifies_iff_plain :
    ∃ labels labels', NameAt (byteAt dottedLabelMessage) 10 5 labels ∧
      NameAt (byteAt dottedLabelMessage) 10 7 labels' ∧
      (((CString.ofString "a.b" : CString) = CString.ofString "b" → labels = labels') ∧
          StandsFor (CString.ofString "a.b") labels ∧ StandsFor (CString.ofString "b") labels' ∧
          (dnsNamesEqual (CString.ofString "a.b") (CString.ofString "b") = true ↔
            SameName labels labels') ↔
        ∀ label ∈ labels ++ labels', 0x2E ∉ label) :=
  expanded_text_identifies_iff (byteAt dottedLabelMessage) 10 5 7 (ofString "a.b")
    (ofString "b") 10 10 (by decide +kernel) (by decide +kernel)

end Nostalux.Net
