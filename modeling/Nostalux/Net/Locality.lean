import Nostalux.Library.Agreement
import Nostalux.Net.Receive

/-!
# Received bytes have no influence beyond their length

A function that is given a buffer and a size looks at the first bytes of the buffer only, as many
as the size says.  Every length that the frame itself carries (header, total length, datagram,
option, label, record data, compression pointer) is checked against the enclosing size before it
is used, so that two buffers which agree on their first bytes lead every layer to the same result.

* `parseDhcpOptionsFrom_eq`: the options of a DHCP message.
* `dnsExpandLoop_eq`, `dnsFollowAliases_eq`: names, records and aliases of a DNS message.
* `receivePayload_eq`, `acceptIpv4_eq`, `receiveArp_eq`: the layers of `net_input`.
* `netInput_local`: the whole frame, and the padding behind an IPv4 packet.
-/

open Memory

namespace Nostalux.Net

open BigEndian NetStack Agree

section

variable {m m' : Memory} {n : ℕ}

theorem macAt_eq (h : Agree n m m') (off : ℕ) (hoff : off + 6 ≤ n) :
    macAt (m.shift off) = macAt (m'.shift off) :=
  Buffer.ofFn_congr fun i hi => h (off + i) (by omega)

theorem internetChecksum_eq (h : Agree n m m') : internetChecksum m n = internetChecksum m' n := by
  rw [internetChecksum, internetChecksum, checksumAdd, checksumAdd, h.bytes_eq]

theorem transportChecksum_eq (h : Agree n m m') (sourceIp destinationIp : UInt32)
    (protocol : UInt8) :
    transportChecksum sourceIp destinationIp protocol m n =
      transportChecksum sourceIp destinationIp protocol m' n := by
  simp only [transportChecksum, checksumAdd, h.bytes_eq]

theorem udpChecksumValid_eq (h : Agree n m m') (hn : 8 ≤ n) (sourceIp destinationIp : UInt32) :
    udpChecksumValid sourceIp destinationIp m n = udpChecksumValid sourceIp destinationIp m' n := by
  rw [udpChecksumValid, udpChecksumValid, h.u16At_eq 6 (by omega), transportChecksum_eq h]

/-! ### DHCP -/

theorem keepFirst_eq {α : Type} {admissible : Bool} {value value' : α} (old : Option α)
    (h : admissible = true → value = value') :
    keepFirst old admissible value = keepFirst old admissible value' := by
  cases admissible with
  | false => rfl
  | true => rw [h rfl]

/-- The value of an option is read only as far as its length says. -/
theorem note_eq (h : Agree n m m') (options : DhcpOptions) (code : UInt8) :
    options.note code n m = options.note code n m' := by
  have hbyte (old : Option UInt8) : keepFirst old (n == 1) (m 0) = keepFirst old (n == 1) (m' 0) :=
    keepFirst_eq old fun hn => h 0 (by simp at hn; omega)
  have hword (old : Option UInt32) :
      keepFirst old (n == 4) (u32At m 0) = keepFirst old (n == 4) (u32At m' 0) :=
    keepFirst_eq old fun hn => h.u32At_eq 0 (by simp at hn; omega)
  have hfirst (old : Option UInt32) :
      keepFirst old (decide (n ≥ 4)) (u32At m 0) = keepFirst old (decide (n ≥ 4)) (u32At m' 0) :=
    keepFirst_eq old fun hn => h.u32At_eq 0 (by simp at hn; omega)
  unfold DhcpOptions.note
  simp only [hbyte, hword, hfirst]

theorem parseDhcpOptionsFrom_eq (h : Agree n m m') (options : DhcpOptions) (offset : ℕ) :
    parseDhcpOptionsFrom m n options offset = parseDhcpOptionsFrom m' n options offset := by
  -- the recursion of the loop: every turn reads the code, the length and the value inside of `n`
  induction hrest : n - offset using Nat.strong_induction_on generalizing options offset with
  | _ rest ih =>
    rw [parseDhcpOptionsFrom, parseDhcpOptionsFrom.eq_def m']
    by_cases hoff : offset < n
    · rw [if_pos hoff, if_pos hoff, h offset hoff,
        ih (n - (offset + 1)) (by omega) options (offset + 1) rfl]
      by_cases hend : offset + 1 ≥ n
      · simp only [if_pos hend]
      · simp only [if_neg hend]
        rw [h (offset + 1) (by omega)]
        by_cases hlength : (m' (offset + 1)).toNat > n - (offset + 2)
        · simp only [if_pos hlength]
        · simp only [if_neg hlength]
          rw [note_eq (shift (h.mono (by omega))), ih _ (by omega) _ _ rfl]
    · rw [if_neg hoff, if_neg hoff]

theorem parseDhcpOptions_eq (h : Agree n m m') : parseDhcpOptions m n = parseDhcpOptions m' n := by
  rw [parseDhcpOptions, parseDhcpOptions, parseDhcpOptionsFrom_eq h]
  by_cases hn : n < dhcpFixedSize
  · rw [if_pos (.inl hn), if_pos (.inl hn)]
  · rw [h.u32At_eq 236 (by simp only [dhcpFixedSize] at hn; omega)]

theorem dhcpIsReply_eq (h : Agree n m m') (s : NetStack) :
    s.dhcpIsReply m n = s.dhcpIsReply m' n := by
  refine decide_eq_decide.2 (and_congr_right fun _ => and_congr_right fun hn => ?_)
  simp only [dhcpFixedSize] at hn
  rw [h 0 (by omega), h 1 (by omega), h 2 (by omega), h.u32At_eq 4 (by omega),
    macAt_eq h 28 (by omega)]

theorem dhcpFixedSize_le_of_dhcpIsReply {s : NetStack} (hreply : s.dhcpIsReply m n = true) :
    dhcpFixedSize ≤ n :=
  (of_decide_eq_true hreply).2.1

section

variable (h : Memory.Agree n m m')

include h

theorem dhcpReceive_eq (s : NetStack) (sourceIp : UInt32) :
    s.dhcpReceive sourceIp m n = s.dhcpReceive sourceIp m' n := by
  rw [dhcpReceive, dhcpReceive, dhcpIsReply_eq h, parseDhcpOptions_eq h]
  cases hreply : s.dhcpIsReply m' n with
  | false => simp only [Bool.not_false, if_true]
  | true =>
    have hn := dhcpFixedSize_le_of_dhcpIsReply hreply
    rw [h.u32At_eq 16 (by simp only [dhcpFixedSize] at hn; omega)]

/-! ### DNS -/

theorem dnsLabel_eq {cursor length : ℕ} (hlabel : cursor + length ≤ n) :
    dnsLabel m cursor length = dnsLabel m' cursor length := by
  rw [dnsLabel, dnsLabel, (shift (h.mono hlabel)).bytes_eq]

/-- Compression pointers may form any graph: the number of turns bounds the loop. -/
theorem dnsExpandLoop_eq (turns cursor : ℕ) (output : List UInt8) (resume : Option ℕ) :
    dnsExpandLoop m n turns cursor output resume =
      dnsExpandLoop m' n turns cursor output resume := by
  induction turns generalizing cursor output resume with
  | zero => rfl
  | succ turns ih =>
    rw [dnsExpandLoop, dnsExpandLoop]
    by_cases hcursor : cursor ≥ n
    · rw [if_pos hcursor, if_pos hcursor]
    · rw [if_neg hcursor, if_neg hcursor, h cursor (by omega)]
      simp only [ih]
      refine if_congr Iff.rfl ?_ (if_congr Iff.rfl rfl (if_congr Iff.rfl rfl ?_))
      · by_cases hnext : cursor + 1 ≥ n
        · rw [if_pos hnext, if_pos hnext]
        · rw [if_neg hnext, if_neg hnext, h (cursor + 1) (by omega)]
      · by_cases hlength : (m' cursor).toNat > n - (cursor + 1)
        · rw [if_pos hlength, if_pos hlength]
        · rw [if_neg hlength, if_neg hlength, dnsLabel_eq h (by omega)]

theorem dnsExpandName_eq (offset : ℕ) : dnsExpandName m n offset = dnsExpandName m' n offset := by
  rw [dnsExpandName, dnsExpandName, dnsExpandLoop_eq h]

theorem dnsReadRecord_eq (offset : ℕ) : dnsReadRecord m n offset = dnsReadRecord m' n offset := by
  rw [dnsReadRecord, dnsReadRecord, dnsSkipName, dnsSkipName, dnsExpandName_eq h]
  refine if_congr Iff.rfl rfl ?_
  cases (dnsExpandName m' n offset).map (·.2) with
  | none => rfl
  | some cursor =>
    dsimp only
    by_cases hcursor : cursor > n ∨ n - cursor < 10
    · rw [if_pos hcursor, if_pos hcursor]
    · rw [if_neg hcursor, if_neg hcursor, h.u16At_eq cursor (by omega),
        h.u16At_eq (cursor + 2) (by omega), h.u32At_eq (cursor + 4) (by omega),
        h.u16At_eq (cursor + 8) (by omega)]

end

variable {record : DnsRecordView}

/-- The data of a record lies inside of the message. -/
theorem dnsReadRecord_bounds {offset : ℕ} (hread : dnsReadRecord m n offset = some record) :
    record.dataOffset + record.dataSize = record.nextOffset ∧ record.nextOffset ≤ n := by
  rw [dnsReadRecord] at hread
  split at hread
  · cases hread
  · split at hread
    · cases hread
    · split at hread
      · cases hread
      · dsimp only at hread
        split at hread
        · cases hread
        · cases hread
          dsimp only
          omega

section

variable (h : Memory.Agree n m m')

include h

theorem dnsSkipRecords_eq (count offset : ℕ) :
    dnsSkipRecords m n count offset = dnsSkipRecords m' n count offset := by
  induction count generalizing offset with
  | zero => rfl
  | succ count ih =>
    rw [dnsSkipRecords, dnsSkipRecords, dnsReadRecord_eq h]
    simp only [ih]

theorem dnsValidateRecordSections_eq (recordsOffset : ℕ)
    (answerCount authorityCount additionalCount : UInt16) :
    dnsValidateRecordSections m n recordsOffset answerCount authorityCount additionalCount =
      dnsValidateRecordSections m' n recordsOffset answerCount authorityCount additionalCount := by
  simp only [dnsValidateRecordSections, dnsSkipRecords_eq h]

theorem dnsScanRecord_eq (currentName owner : CString)
    (hdata : record.dataOffset + record.dataSize ≤ n) (scan : DnsScan) :
    dnsScanRecord m n currentName owner record scan =
      dnsScanRecord m' n currentName owner record scan := by
  rw [dnsScanRecord, dnsScanRecord, dnsExpandName_eq h]
  refine if_congr Iff.rfl rfl (if_congr Iff.rfl ?_ rfl)
  by_cases hsize : record.dataSize ≠ 4 ∨ scan.cname.isSome
  · rw [if_pos hsize, if_pos hsize]
  · rw [h.u32At_eq record.dataOffset (by omega)]

theorem dnsScanAnswers_eq (currentName : CString) (count offset : ℕ) (scan : DnsScan) :
    dnsScanAnswers m n currentName count offset scan =
      dnsScanAnswers m' n currentName count offset scan := by
  induction count generalizing offset scan with
  | zero => rfl
  | succ count ih =>
    rw [dnsScanAnswers, dnsScanAnswers, dnsReadRecord_eq h]
    cases hread : dnsReadRecord m' n offset with
    | none => rfl
    | some record =>
      have hdata := dnsReadRecord_bounds hread
      dsimp only
      rw [dnsExpandName_eq h]
      simp only [dnsScanRecord_eq h _ _ (show record.dataOffset + record.dataSize ≤ n by omega), ih]

theorem dnsFollowAliases_eq (answersOffset answerCount passes : ℕ)
    (currentName : CString) (effectiveTtl : UInt32) :
    dnsFollowAliases m n answersOffset answerCount passes currentName effectiveTtl =
      dnsFollowAliases m' n answersOffset answerCount passes currentName effectiveTtl := by
  induction passes generalizing currentName effectiveTtl with
  | zero => rfl
  | succ passes ih =>
    rw [dnsFollowAliases, dnsFollowAliases, dnsScanAnswers_eq h]
    simp only [ih]

theorem dnsSoaTtl_eq (hnext : record.nextOffset ≤ n) :
    dnsSoaTtl m n record = dnsSoaTtl m' n record := by
  rw [dnsSoaTtl, dnsSoaTtl, dnsExpandName_eq h]
  cases dnsExpandName m' n record.dataOffset with
  | none => rfl
  | some first =>
    obtain ⟨mname, cursor⟩ := first
    dsimp only
    rw [dnsExpandName_eq h]
    refine if_congr Iff.rfl rfl ?_
    cases dnsExpandName m' n cursor with
    | none => rfl
    | some second =>
      obtain ⟨rname, next⟩ := second
      dsimp only
      by_cases hshape : rname.length = 0 ∨ next > record.nextOffset ∨ record.nextOffset - next ≠ 20
      · rw [if_pos hshape, if_pos hshape]
      · rw [h.u32At_eq (next + 16) (by omega)]

theorem dnsNegativeTtlLoop_eq (terminalName : CString) (count offset : ℕ) (selected : UInt32) :
    dnsNegativeTtlLoop m n terminalName count offset selected =
      dnsNegativeTtlLoop m' n terminalName count offset selected := by
  induction count generalizing offset selected with
  | zero => rfl
  | succ count ih =>
    rw [dnsNegativeTtlLoop, dnsNegativeTtlLoop, dnsReadRecord_eq h]
    cases hread : dnsReadRecord m' n offset with
    | none => rfl
    | some record =>
      dsimp only
      rw [dnsExpandName_eq h]
      simp only [dnsSoaTtl_eq h (dnsReadRecord_bounds hread).2, ih]

variable (s : NetStack)

theorem dnsReadQuestion_eq : s.dnsReadQuestion m n = s.dnsReadQuestion m' n := by
  rw [dnsReadQuestion, dnsReadQuestion, dnsExpandName_eq h]
  cases dnsExpandName m' n dnsHeaderSize with
  | none => rfl
  | some question =>
    obtain ⟨questionName, next⟩ := question
    dsimp only
    by_cases hnext : next > n ∨ n - next < 4
    · rw [if_pos (by tauto), if_pos (by tauto)]
    · rw [h.u16At_eq next (by omega), h.u16At_eq (next + 2) (by omega)]

theorem dnsReceiveValid_eq (answersOffset : ℕ)
    (answerCount : UInt16) (authorityOffset : ℕ) (authorityCount : UInt16) :
    s.dnsReceiveValid m n answersOffset answerCount authorityOffset authorityCount =
      s.dnsReceiveValid m' n answersOffset answerCount authorityOffset authorityCount := by
  simp only [dnsReceiveValid, dnsFindAddressAnswer, dnsFollowAliases_eq h, dnsFindNegativeTtl,
    dnsNegativeTtlLoop_eq h]

theorem dnsReceiveRecords_eq (hn : dnsHeaderSize ≤ n) (s : NetStack) :
    s.dnsReceiveRecords m n = s.dnsReceiveRecords m' n := by
  simp only [dnsHeaderSize] at hn
  simp only [dnsReceiveRecords, h.u16At_eq 4 (by omega), h.u16At_eq 6 (by omega),
    h.u16At_eq 8 (by omega), h.u16At_eq 10 (by omega), dnsReadQuestion_eq h,
    dnsValidateRecordSections_eq h, dnsReceiveValid_eq h]

theorem dnsReceive_eq (sourceIp : UInt32) (sourcePort destinationPort : UInt16) :
    s.dnsReceive sourceIp sourcePort destinationPort m n =
      s.dnsReceive sourceIp sourcePort destinationPort m' n := by
  by_cases hn : dnsHeaderSize ≤ n
  · have hwords : 12 ≤ n := hn
    simp only [dnsReceive, dnsIsResponse, h.u16At_eq 0 (by omega), h.u16At_eq 2 (by omega),
      dnsReceiveRecords_eq h hn]
  · have hreject (packet : Memory) :
        s.dnsIsResponse sourceIp sourcePort destinationPort packet n = false := by
      simp [dnsIsResponse, hn]
    simp only [dnsReceive, hreject, Bool.not_false, if_true]

/-! ### ICMP and UDP -/

theorem copy_eq (off : ℕ) :
    s.copy off (.external m) n = s.copy off (.external m') n := by
  rw [copy, copy, Pointer.read, Pointer.read, h.blit_eq]

theorem icmpEchoReply_eq (sourceIp : UInt32) :
    s.icmpEchoReply sourceIp m n = s.icmpEchoReply sourceIp m' n := by
  rw [icmpEchoReply, icmpEchoReply, buildEchoReply, buildEchoReply, copy_eq h]

theorem receiveIcmp_eq (sourceIp destinationIp : UInt32) :
    s.receiveIcmp sourceIp destinationIp m n = s.receiveIcmp sourceIp destinationIp m' n := by
  by_cases hn : n < 8
  · rw [receiveIcmp, receiveIcmp, if_pos (.inl hn), if_pos (.inl hn)]
  · simp only [receiveIcmp, isEchoRequest, internetChecksum_eq h, icmpEchoReply_eq h,
      h 0 (by omega), h 1 (by omega), h.u16At_eq 4 (by omega), h.u16At_eq 6 (by omega)]

theorem receiveUdp_eq (sourceIp destinationIp : UInt32) :
    s.receiveUdp sourceIp destinationIp m n = s.receiveUdp sourceIp destinationIp m' n := by
  rw [receiveUdp, receiveUdp]
  by_cases hn : n < 8
  · rw [if_pos hn, if_pos hn]
  · rw [if_neg hn, if_neg hn, h.u16At_eq 0 (by omega), h.u16At_eq 2 (by omega),
      h.u16At_eq 4 (by omega)]
    dsimp only
    by_cases hsize : (u16At m' 4).toNat = n
    · have hdata : Agree (n - 8) (m.shift 8) (m'.shift 8) := shift (h.mono (by omega))
      rw [hsize, udpChecksumValid_eq h (by omega), dhcpReceive_eq hdata, dnsReceive_eq hdata,
        hdata.bytes_eq]
    · rw [if_pos (by tauto), if_pos (by tauto)]

theorem receivePayload_eq (protocol : UInt8) (sourceIp destinationIp : UInt32) :
    s.receivePayload protocol sourceIp destinationIp m n =
      s.receivePayload protocol sourceIp destinationIp m' n := by
  rw [receivePayload, receivePayload, receiveIcmp_eq h, receiveUdp_eq h, h.bytes_eq]

end

/-! ### IPv4 and ARP -/

variable {packet : Memory}

theorem ipv4HeaderIsValid_iff {size : ℕ} : ipv4HeaderIsValid packet size = true ↔
      netIpv4HeaderMinSize ≤ size ∧ (packet 0).toNat / 16 = 4 ∧
      netIpv4HeaderMinSize ≤ ipv4HeaderSize packet ∧ ipv4HeaderSize packet ≤ size ∧
      ipv4HeaderSize packet ≤ (u16At packet 2).toNat ∧ (u16At packet 2).toNat ≤ size ∧
      packet 8 ≠ 0 ∧ internetChecksum packet (ipv4HeaderSize packet) = 0 ∧
      u16At packet 6 &&& 0x8000 = 0 ∧ u16At packet 6 &&& 0x3FFF = 0 :=
  decide_eq_true_iff

/-- A packet that claims to end inside of its own header, or behind the frame, is not valid. -/
theorem ipv4HeaderIsValid_eq_false {size : ℕ}
    (h : (u16At packet 2).toNat < netIpv4HeaderMinSize ∨ size < netIpv4HeaderMinSize ∨
      size < (u16At packet 2).toNat ∨ (u16At packet 2).toNat < ipv4HeaderSize packet) :
    ipv4HeaderIsValid packet size = false := by
  rw [← Bool.not_eq_true, ipv4HeaderIsValid_iff]
  omega

theorem receiveIpv4_of_not_valid {size : ℕ}
    (h : ipv4HeaderIsValid packet size = false) (s : NetStack) (sourceMac : Mac) :
    s.receiveIpv4 sourceMac packet size = (false, s) := by
  simp only [receiveIpv4, h, Bool.not_false, if_true]

section

variable {p p' : Memory} {total : ℕ}

section

variable (h : Agree total p p')
include h

theorem ipv4HeaderSize_eq (hheader : netIpv4HeaderMinSize ≤ total) :
    ipv4HeaderSize p = ipv4HeaderSize p' := by
  rw [ipv4HeaderSize, ipv4HeaderSize, h 0 (Nat.lt_of_lt_of_le (by decide) hheader)]

theorem ipv4HeaderIsValid_eq (htotal : (u16At p 2).toNat = total)
    (htotal' : (u16At p' 2).toNat = total) (hheader : netIpv4HeaderMinSize ≤ total) (size : ℕ) :
    ipv4HeaderIsValid p size = ipv4HeaderIsValid p' size := by
  have hsize := ipv4HeaderSize_eq h hheader
  simp only [netIpv4HeaderMinSize] at hheader
  by_cases hfits : ipv4HeaderSize p' ≤ total
  · rw [Bool.eq_iff_iff, ipv4HeaderIsValid_iff, ipv4HeaderIsValid_iff, hsize, htotal, htotal',
      internetChecksum_eq (h.mono hfits), h 0 (by omega), h 8 (by omega), h.u16At_eq 6 (by omega)]
  · rw [ipv4HeaderIsValid_eq_false (by omega), ipv4HeaderIsValid_eq_false (by omega)]

theorem ipv4IsForStack_eq (hheader : netIpv4HeaderMinSize ≤ total) (s : NetStack) (headerSize : ℕ) :
    s.ipv4IsForStack p headerSize total = s.ipv4IsForStack p' headerSize total := by
  simp only [netIpv4HeaderMinSize] at hheader
  rw [ipv4IsForStack, ipv4IsForStack, h.u32At_eq 16 (by omega), h 9 (by omega)]
  by_cases hport : total ≥ headerSize + 8
  · rw [h.u16At_eq (headerSize + 2) (by omega)]
  · simp only [hport, and_false, if_false]

section

variable (htotal : (u16At p 2).toNat = total) (htotal' : (u16At p' 2).toNat = total)
include htotal htotal'

theorem acceptIpv4_eq (hheader : netIpv4HeaderMinSize ≤ total)
    (hfits : ipv4HeaderSize p' ≤ total) (s : NetStack) (sourceMac : Mac) :
    s.acceptIpv4 sourceMac p = s.acceptIpv4 sourceMac p' := by
  have hsize := ipv4HeaderSize_eq h hheader
  simp only [netIpv4HeaderMinSize] at hheader
  have hpayload : Agree (total - ipv4HeaderSize p') (p.shift (ipv4HeaderSize p'))
      (p'.shift (ipv4HeaderSize p')) := shift (h.mono (by omega))
  simp only [acceptIpv4, htotal, htotal', hsize, h 9 (by omega), h.u32At_eq 12 (by omega),
    h.u32At_eq 16 (by omega), receivePayload_eq hpayload]

/-- What lies behind the total length of a packet has no influence. -/
theorem receiveIpv4_eq (s : NetStack) (sourceMac : Mac) (size : ℕ) :
    s.receiveIpv4 sourceMac p size = s.receiveIpv4 sourceMac p' size := by
  by_cases hheader : netIpv4HeaderMinSize ≤ total
  · have hvalids := ipv4HeaderIsValid_eq h htotal htotal' hheader size
    cases hvalid : ipv4HeaderIsValid p' size with
    | false =>
      rw [receiveIpv4_of_not_valid (hvalids.trans hvalid), receiveIpv4_of_not_valid hvalid]
    | true =>
      obtain ⟨-, -, -, -, hfits, -⟩ := ipv4HeaderIsValid_iff.1 hvalid
      rw [receiveIpv4, receiveIpv4, hvalids, ipv4HeaderSize_eq h hheader, htotal, htotal',
        ipv4IsForStack_eq h hheader, acceptIpv4_eq h htotal htotal' hheader (htotal' ▸ hfits)]
  · rw [receiveIpv4_of_not_valid (ipv4HeaderIsValid_eq_false (by omega)),
      receiveIpv4_of_not_valid (ipv4HeaderIsValid_eq_false (by omega))]

end

end

end

/-- A packet inside of a frame: the total length is read in the frame and checked against it. -/
theorem receiveIpv4_eq_of_agree (h : Agree n m m') (s : NetStack) (sourceMac : Mac) :
    s.receiveIpv4 sourceMac m n = s.receiveIpv4 sourceMac m' n := by
  by_cases hn : netIpv4HeaderMinSize ≤ n
  · have htotal : u16At m 2 = u16At m' 2 :=
      h.u16At_eq 2 (by simp only [netIpv4HeaderMinSize] at hn; omega)
    by_cases hfits : (u16At m' 2).toNat ≤ n
    · exact receiveIpv4_eq (h.mono hfits) (by rw [htotal]) rfl s sourceMac n
    · rw [receiveIpv4_of_not_valid (ipv4HeaderIsValid_eq_false (by rw [htotal]; omega)),
        receiveIpv4_of_not_valid (ipv4HeaderIsValid_eq_false (by omega))]
  · rw [receiveIpv4_of_not_valid (ipv4HeaderIsValid_eq_false (by omega)),
      receiveIpv4_of_not_valid (ipv4HeaderIsValid_eq_false (by omega))]

theorem arpIsValid_eq (h : Agree n m m') (ethernetSource : Mac) :
    arpIsValid ethernetSource m n = arpIsValid ethernetSource m' n := by
  refine decide_eq_decide.2 (and_congr_right fun hn => ?_)
  rw [h.u16At_eq 0 (by omega), h.u16At_eq 2 (by omega), h 4 (by omega), h 5 (by omega),
    macAt_eq h 8 (by omega), h.u32At_eq 14 (by omega)]

theorem receiveArp_eq (h : Agree n m m') (s : NetStack) (ethernetSource : Mac) :
    s.receiveArp ethernetSource m n = s.receiveArp ethernetSource m' n := by
  rw [receiveArp, receiveArp, arpIsValid_eq h]
  cases hvalid : arpIsValid ethernetSource m' n with
  | false => simp only [Bool.not_false, if_true]
  | true =>
    have hn : 28 ≤ n := (of_decide_eq_true hvalid).1
    rw [h.u16At_eq 6 (by omega), macAt_eq h 8 (by omega), h.u32At_eq 14 (by omega),
      h.u32At_eq 24 (by omega), macAt_eq h 18 (by omega)]

/-! ### Frames -/

theorem receiveFrame_eq (h : Agree n m m') (hn : netEthernetHeaderSize ≤ n) (s : NetStack) :
    s.receiveFrame m n = s.receiveFrame m' n := by
  simp only [netEthernetHeaderSize] at hn
  have hpacket : Agree (n - 14) (m.shift 14) (m'.shift 14) := shift (h.mono (by omega))
  rw [receiveFrame, receiveFrame, h.u16At_eq 12 (by omega), macAt_eq h 6 (by omega),
    receiveArp_eq hpacket, receiveIpv4_eq_of_agree hpacket]

/-- `net_input` looks at the addresses of a frame, and then leaves it to `receiveFrame`. -/
theorem netInput_eq (h : Agree netEthernetHeaderSize m m') (s : NetStack)
    (hframe : netEthernetHeaderSize ≤ n →
      ∀ s : NetStack, s.receiveFrame m n = s.receiveFrame m' n) :
    s.netInput m n = s.netInput m' n := by
  have hdestination : macAt m = macAt m' := Buffer.ofFn_congr fun i hi =>
    h i (by simp only [netEthernetHeaderSize]; omega)
  have hsource : macAt (m.shift 6) = macAt (m'.shift 6) := macAt_eq h 6 (by decide)
  rw [netInput, netInput, hdestination, hsource]
  by_cases hn : netEthernetHeaderSize ≤ n
  · rw [hframe hn]
  · rw [if_pos (.inl (by omega)), if_pos (.inl (by omega))]

/-- A frame has no influence on the stack, on what it transmits and on what it delivers beyond its
length; an IPv4 frame has none beyond the total length of its packet. -/
theorem netInput_local (s : NetStack) (frame frame' : Memory) (frameSize : ℕ) :
    ((∀ i < frameSize, frame i = frame' i) →
      s.netInput frame frameSize = s.netInput frame' frameSize) ∧
    (u16At frame 12 = ethertypeIpv4 → u16At frame 16 = u16At frame' 16 →
      (∀ i < netEthernetHeaderSize + (u16At frame 16).toNat, frame i = frame' i) →
      s.netInput frame frameSize = s.netInput frame' frameSize) := by
  constructor
  · intro h
    by_cases hn : netEthernetHeaderSize ≤ frameSize
    · exact netInput_eq (mono h hn) s fun hn s => receiveFrame_eq h hn s
    · rw [netInput, netInput, if_pos (.inl (by omega)), if_pos (.inl (by omega))]
  · intro htype htotal h
    have hheader : Agree netEthernetHeaderSize frame frame' := mono h (Nat.le_add_right _ _)
    refine netInput_eq hheader s fun _ s => ?_
    have htype' : u16At frame' 12 = ethertypeIpv4 := by
      rw [← hheader.u16At_eq 12 (by decide), htype]
    rw [receiveFrame, receiveFrame, htype, htype', macAt_eq hheader 6 (by decide),
      if_neg (by decide), if_pos rfl, if_neg (by decide), if_pos rfl]
    exact receiveIpv4_eq (shift h) rfl (congrArg UInt16.toNat htotal.symm) s _ _

end

end Nostalux.Net
