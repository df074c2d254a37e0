import Nostalux.Net.Send
import Nostalux.Tcp.Client

/-!
# Two programs for one checksum

`net.c` sums in 32 bits and walks a pointer through the bytes; `tcp_client.c` sums in 64 bits and
counts an index.  Both loops are modelled here with their widths, so that an overflow would show.

* `transportChecksumLoop_eq`, `tcpClientChecksumLoop_eq`: no sum of at most `65535` bytes overflows;
* `checksum_laws`: the two programs agree, a message with its checksum verifies, and a message that
  verifies does not when a bit of it is changed.
-/

open Memory

namespace Nostalux.Net

open BigEndian OnesComplement Nostalux.Tcp List Nat

/-! ### The loops -/

/-- The loop of `checksum_add`, with a sum of `width` bits. -/
def checksumAddLoop (width : ℕ) : ℕ → Memory → ℕ → ℕ
  | sum, _, 0 => sum
  | sum, m, 1 => (sum + (m 0).toNat * 256) % 2 ^ width
  | sum, m, size + 2 =>
    checksumAddLoop width ((sum + (u16At m 0).toNat) % 2 ^ width) (m.shift 2) size

/-- `internet_checksum`, with the sum of the program. -/
def internetChecksumLoop (m : Memory) (size : ℕ) : UInt16 :=
  checksumFinish (checksumAddLoop 32 0 m size)

/-- `transport_checksum`, with the sum of the program. -/
def transportChecksumLoop (sourceIp destinationIp : UInt32) (protocol : UInt8) (m : Memory)
    (size : ℕ) : UInt16 :=
  checksumFinish (checksumAddLoop 32
    (checksumAddLoop 32 0 (byteAt (pseudoHeader sourceIp destinationIp protocol size)) 12) m size)

/-- The loop of `tcp_client_checksum` and the odd byte behind it, with a sum of `width` bits. -/
def tcpSumLoop (width : ℕ) (m : Memory) (length i sum : ℕ) : ℕ :=
  if i + 1 < length then tcpSumLoop width m length (i + 2) ((sum + (u16At m i).toNat) % 2 ^ width)
  else if length % 2 ≠ 0 then (sum + (m (length - 1)).toNat * 256) % 2 ^ width
  else sum
termination_by length - i

/-- `tcp_client_checksum`, with the sum of the program. -/
def tcpClientChecksumLoop (srcIp dstIp : UInt32) (segment : Memory) (length : ℕ) : UInt16 :=
  if length > 65535 then 0
  else checksumFinish (tcpSumLoop 64 segment length 0 (pseudoHeaderSum srcIp dstIp length))

/-! ### No sum overflows -/

theorem toNat_u16At (m : Memory) (i : ℕ) :
    (u16At m i).toNat = (m i).toNat * 256 + (m (i + 1)).toNat := by
  have h0 := (m i).toNat_lt
  have h1 := (m (i + 1)).toNat_lt
  rw [u16At, UInt16.toNat_ofNat']
  omega

theorem bytes_one (m : Memory) : m.bytes 1 = [m 0] := rfl

theorem bytes_add_two (m : Memory) (size : ℕ) :
    m.bytes (size + 2) = m 0 :: m 1 :: (m.shift 2).bytes size := by
  rw [add_comm, bytes_add]
  rfl

variable {m : Memory}

theorem checksumAddLoop_eq {width size : ℕ} {sum : ℕ}
    (h : sum + 65535 * ((size + 1) / 2) < 2 ^ width) :
    checksumAddLoop width sum m size = checksumAdd sum m size := by
  induction size using Nat.twoStepInduction generalizing sum m with
  | zero => rfl
  | one =>
    have hbyte := (m 0).toNat_lt
    rw [checksumAddLoop, checksumAdd, bytes_one, wordSum, mod_eq_of_lt (by omega)]
  | more size ih _ =>
    have hword := (u16At m 0).toNat_lt
    have hmod : (sum + (u16At m 0).toNat) % 2 ^ width = sum + (u16At m 0).toNat :=
      mod_eq_of_lt (by omega)
    rw [checksumAddLoop, hmod, ih (by omega), checksumAdd, checksumAdd, bytes_add_two, wordSum,
      toNat_u16At, zero_add]
    omega

theorem tcpSumLoop_eq {width length i sum : ℕ} (hi : i ≤ length) (heven : i % 2 = 0)
    (h : sum + 65535 * ((length - i + 1) / 2) < 2 ^ width) :
    tcpSumLoop width m length i sum = sum + wordSum ((m.shift i).bytes (length - i)) := by
  rw [tcpSumLoop]
  by_cases hround : i + 1 < length
  · have hword := (u16At m i).toNat_lt
    have hmod : (sum + (u16At m i).toNat) % 2 ^ width = sum + (u16At m i).toNat :=
      mod_eq_of_lt (by omega)
    rw [if_pos hround, hmod, tcpSumLoop_eq (by omega) (by omega) (by omega),
      show length - i = length - (i + 2) + 2 by omega, bytes_add_two, wordSum, toNat_u16At,
      shift_shift]
    simp only [shift_apply, add_zero]
    omega
  · rw [if_neg hround]
    by_cases hodd : length % 2 = 0
    · obtain rfl : i = length := by omega
      rw [if_neg (not_not.2 hodd), Nat.sub_self]
      rfl
    · have hbyte := (m (length - 1)).toNat_lt
      obtain rfl : i = length - 1 := by omega
      rw [if_pos hodd, mod_eq_of_lt (by omega), show length - (length - 1) = 1 by omega, bytes_one,
        wordSum, shift_apply, add_zero]
termination_by length - i

variable {size : ℕ}

theorem internetChecksumLoop_eq (h : size ≤ 65535) :
    internetChecksumLoop m size = internetChecksum m size := by
  rw [internetChecksumLoop, internetChecksum, checksumAddLoop_eq]
  omega

theorem transportChecksumLoop_eq (sourceIp destinationIp : UInt32) (protocol : UInt8)
    (h : size ≤ 65535) :
    transportChecksumLoop sourceIp destinationIp protocol m size =
      transportChecksum sourceIp destinationIp protocol m size := by
  have hpseudo : checksumAdd 0 (byteAt (pseudoHeader sourceIp destinationIp protocol size)) 12 ≤
      65535 * 6 := by
    rw [checksumAdd, zero_add]
    exact (wordSum_le _).trans (by rw [length_bytes])
  have hinner : checksumAddLoop 32 0 (byteAt (pseudoHeader sourceIp destinationIp protocol
    size)) 12 =
      checksumAdd 0 (byteAt (pseudoHeader sourceIp destinationIp protocol size)) 12 :=
    checksumAddLoop_eq (by norm_num)
  rw [transportChecksumLoop, transportChecksum, hinner, checksumAddLoop_eq]
  omega

theorem pseudoHeaderSum_le (srcIp dstIp : UInt32) (length : ℕ) :
    pseudoHeaderSum srcIp dstIp length ≤ 4 * 65535 + 6 + length := by
  have hsrc := srcIp.toNat_lt
  have hdst := dstIp.toNat_lt
  simp only [pseudoHeaderSum, tcpClientIpv4Protocol]
  omega

theorem tcpClientChecksumLoop_eq (srcIp dstIp : UInt32) (segment : Memory) (length : ℕ) :
    tcpClientChecksumLoop srcIp dstIp segment length =
      tcpClientChecksum srcIp dstIp (segment.bytes length) := by
  rw [tcpClientChecksumLoop, tcpClientChecksum, length_bytes]
  split
  · rfl
  have hpseudo := pseudoHeaderSum_le srcIp dstIp length
  rw [tcpSumLoop_eq (Nat.zero_le _) rfl (by omega), shift_zero, Nat.sub_zero]
  rfl

/-! ### The sums of headers -/

theorem wordSum_writeU16 (value : UInt16) : wordSum (writeU16 value) = value.toNat := by
  have hlt := value.toNat_lt
  simp only [writeU16, wordSum, UInt8.toNat_ofNat']
  omega

theorem wordSum_writeU32 (value : UInt32) :
    wordSum (writeU32 value) = value.toNat / 65536 + value.toNat % 65536 := by
  have hlt := value.toNat_lt
  simp only [writeU32, wordSum, UInt8.toNat_ofNat']
  omega

/-- The sum of the pseudo header. -/
theorem checksumAdd_pseudoHeader (sourceIp destinationIp : UInt32) (protocol : UInt8)
    (h : size ≤ 65535) :
    checksumAdd 0 (byteAt (pseudoHeader sourceIp destinationIp protocol size)) 12 =
      sourceIp.toNat / 65536 + sourceIp.toNat % 65536 +
        (destinationIp.toNat / 65536 + destinationIp.toNat % 65536) + protocol.toNat + size := by
  have hsize : (UInt16.ofNat size).toNat = size := by
    rw [UInt16.toNat_ofNat']
    omega
  have hprotocol : wordSum [0, protocol] = protocol.toNat := by simp [wordSum]
  have hbytes : bytes (byteAt (pseudoHeader sourceIp destinationIp protocol size)) 12 =
      pseudoHeader sourceIp destinationIp protocol size := bytes_byteAt _
  rw [checksumAdd, hbytes, pseudoHeader, wordSum_append (by simp), wordSum_append (by simp),
    wordSum_append (by simp), wordSum_writeU32, wordSum_writeU32, wordSum_writeU16,
    hprotocol, hsize]
  omega

variable {bytes : List UInt8}

/-- The checksums of a message, from the sum that they start with. -/
theorem internetChecksumLoop_byteAt (h : bytes.length ≤ 65535) :
    internetChecksumLoop (byteAt bytes) bytes.length = complement (0 + wordSum bytes) := by
  rw [internetChecksumLoop_eq h, internetChecksum, checksumAdd, bytes_byteAt]
  rfl

theorem transportChecksumLoop_byteAt (sourceIp destinationIp : UInt32) (protocol : UInt8)
    (h : bytes.length ≤ 65535) :
    transportChecksumLoop sourceIp destinationIp protocol (byteAt bytes) bytes.length =
      complement (checksumAdd 0 (byteAt (pseudoHeader sourceIp destinationIp protocol
        bytes.length)) 12 +
        wordSum bytes) := by
  rw [transportChecksumLoop_eq _ _ _ h, transportChecksum, checksumAdd, bytes_byteAt]
  rfl

theorem tcpClientChecksumLoop_byteAt (srcIp dstIp : UInt32) (h : bytes.length ≤ 65535) :
    tcpClientChecksumLoop srcIp dstIp (byteAt bytes) bytes.length =
      complement (pseudoHeaderSum srcIp dstIp bytes.length + wordSum bytes) := by
  rw [tcpClientChecksumLoop_eq, bytes_byteAt, tcpClientChecksum, if_neg (by omega)]

/-! ### The checksum field -/

/-- The message with a value in its checksum field. -/
def fillField (offset : ℕ) (value : UInt16) (bytes : List UInt8) : List UInt8 :=
  bytes.take offset ++ (writeU16 value ++ bytes.drop (offset + 2))

section Field

variable {offset : ℕ} {bytes : List UInt8}

theorem length_fillField (h : offset + 2 ≤ bytes.length) (value : UInt16) :
    (fillField offset value bytes).length = bytes.length := by
  simp only [fillField, length_append, length_take, length_drop, length_writeU16]
  omega

section

variable (heven : offset % 2 = 0) (h : offset + 2 ≤ bytes.length)
include heven h

theorem wordSum_fillField (value : UInt16) :
    wordSum (fillField offset value bytes) = wordSum (fillField offset 0 bytes) + value.toNat := by
  have hfront : (bytes.take offset).length % 2 = 0 := by
    rw [length_take]
    omega
  have hzero : (0 : UInt16).toNat = 0 := rfl
  rw [fillField, fillField, wordSum_append hfront, wordSum_append hfront,
    wordSum_append (by simp), wordSum_append (by simp), wordSum_writeU16, wordSum_writeU16, hzero]
  omega

/-- A message with its checksum verifies. -/
theorem complement_fillField (start : ℕ) : complement (start + wordSum (fillField offset
      (complement (start + wordSum (fillField offset 0 bytes))) bytes)) = 0 := by
  rw [wordSum_fillField heven h, ← add_assoc]
  exact complement_add_complement _

theorem complement_fillField_nonzero (start : ℕ) : complement (start + wordSum (fillField offset
      (if complement (start + wordSum (fillField offset 0 bytes)) = 0 then 0xFFFF
        else complement (start + wordSum (fillField offset 0 bytes))) bytes)) = 0 := by
  rw [wordSum_fillField heven h, ← add_assoc]
  exact complement_add_nonzero _

end

end Field

/-! ### The laws -/

/-- The checksum of `internet_checksum` over a message. -/
def internetSum (bytes : List UInt8) : UInt16 := internetChecksumLoop (byteAt bytes) bytes.length

/-- The checksum of `transport_checksum` over a message. -/
def transportSum (sourceIp destinationIp : UInt32) (protocol : UInt8) (bytes : List UInt8) :
    UInt16 :=
  transportChecksumLoop sourceIp destinationIp protocol (byteAt bytes) bytes.length

/-- The checksum of `tcp_client_checksum` over a message. -/
def tcpSum (sourceIp destinationIp : UInt32) (bytes : List UInt8) : UInt16 :=
  tcpClientChecksumLoop sourceIp destinationIp (byteAt bytes) bytes.length

/-- The offsets of the checksum in an IPv4 header, and in ICMP, UDP and TCP. -/
abbrev ipv4ChecksumOffset : ℕ := 10

abbrev icmpChecksumOffset : ℕ := 2

abbrev udpChecksumOffset : ℕ := 6

abbrev tcpChecksumOffset : ℕ := 16

/-- What `net_udp_send` stores for a checksum. -/
def udpStored (checksum : UInt16) : UInt16 := if checksum = 0 then 0xFFFF else checksum

/-- The laws of the checksums, for one message. -/
structure ChecksumLaws (sourceIp destinationIp : UInt32) (protocol : UInt8) (bytes : List UInt8) :
    Prop where
  /-- The two programs agree. -/
  agree : transportSum sourceIp destinationIp 6 bytes = tcpSum sourceIp destinationIp bytes
  /-- A message with its checksum verifies. -/
  ipv4_filled : ipv4ChecksumOffset + 2 ≤ bytes.length →
    internetSum (fillField ipv4ChecksumOffset (internetSum (fillField ipv4ChecksumOffset 0 bytes))
      bytes) = 0
  icmp_filled : icmpChecksumOffset + 2 ≤ bytes.length →
    internetSum (fillField icmpChecksumOffset (internetSum (fillField icmpChecksumOffset 0 bytes))
      bytes) = 0
  udp_filled : udpChecksumOffset + 2 ≤ bytes.length →
    transportSum sourceIp destinationIp protocol (fillField udpChecksumOffset
      (udpStored (transportSum sourceIp destinationIp protocol
        (fillField udpChecksumOffset 0 bytes)))
      bytes) = 0
  tcp_filled : tcpChecksumOffset + 2 ≤ bytes.length →
    tcpSum sourceIp destinationIp (fillField tcpChecksumOffset
      (tcpSum sourceIp destinationIp (fillField tcpChecksumOffset 0 bytes)) bytes) = 0
  /-- A message that verifies does not when one of its bits is changed. -/
  internet_flipped : internetSum bytes = 0 →
    ∀ k < 8 * bytes.length, internetSum (flipBit bytes k) ≠ 0
  tcp_flipped : tcpSum sourceIp destinationIp bytes = 0 →
    ∀ k < 8 * bytes.length, tcpSum sourceIp destinationIp (flipBit bytes k) ≠ 0

/-- **The laws of the checksums**, for every message of at most `65535` bytes. -/
theorem checksum_laws (sourceIp destinationIp : UInt32) (protocol : UInt8) (bytes : List UInt8)
    (h : bytes.length ≤ 65535) : ChecksumLaws sourceIp destinationIp protocol bytes := by
  have hinternet {l : List UInt8} (hl : l.length = bytes.length) :
      internetSum l = complement (0 + wordSum l) := internetChecksumLoop_byteAt (hl ▸ h)
  have htransport {l : List UInt8} (hl : l.length = bytes.length) :
      transportSum sourceIp destinationIp protocol l = complement (checksumAdd 0
        (byteAt (pseudoHeader sourceIp destinationIp protocol bytes.length)) 12 + wordSum l) := by
    rw [transportSum, transportChecksumLoop_byteAt _ _ _ (hl ▸ h), hl]
  have htcp {l : List UInt8} (hl : l.length = bytes.length) :
      tcpSum sourceIp destinationIp l =
        complement (pseudoHeaderSum sourceIp destinationIp bytes.length + wordSum l) := by
    rw [tcpSum, tcpClientChecksumLoop_byteAt _ _ (hl ▸ h), hl]
  constructor
  case agree =>
    have hprotocol : (6 : UInt8).toNat = 6 := rfl
    rw [transportSum, transportChecksumLoop_byteAt _ _ _ h, checksumAdd_pseudoHeader _ _ _ h,
      htcp rfl, pseudoHeaderSum, hprotocol]
  case ipv4_filled =>
    intro hfield
    rw [hinternet (length_fillField hfield _), hinternet (length_fillField hfield _)]
    exact complement_fillField rfl hfield 0
  case icmp_filled =>
    intro hfield
    rw [hinternet (length_fillField hfield _), hinternet (length_fillField hfield _)]
    exact complement_fillField rfl hfield 0
  case udp_filled =>
    intro hfield
    rw [htransport (length_fillField hfield _), htransport (length_fillField hfield _)]
    exact complement_fillField_nonzero rfl hfield _
  case tcp_filled =>
    intro hfield
    rw [htcp (length_fillField hfield _), htcp (length_fillField hfield _)]
    exact complement_fillField rfl hfield _
  case internet_flipped =>
    intro hverifies k hk
    rw [hinternet rfl] at hverifies
    rw [hinternet (length_flipBit bytes k)]
    exact complement_flipBit_ne_zero hverifies hk
  case tcp_flipped =>
    intro hverifies k hk
    rw [htcp rfl] at hverifies
    rw [htcp (length_flipBit bytes k)]
    exact complement_flipBit_ne_zero hverifies hk

/-- The header of a packet and one byte of its payload, with no checksum yet. -/
def sampleHeader : List UInt8 :=
  [0x45, 0, 0, 21, 0x12, 0x34, 0, 0, 64, 17, 0, 0, 10, 0, 0, 2, 10, 0, 0, 1, 7]

theorem checksum_laws_sampleHeader :
    internetSum sampleHeader = 0x4DA2 ∧
      internetSum (fillField ipv4ChecksumOffset 0x4DA2 sampleHeader) = 0 := by
  have hsum : internetSum sampleHeader = 0x4DA2 := by decide +kernel
  have hzero : fillField ipv4ChecksumOffset 0 sampleHeader = sampleHeader := by decide
  have hfilled := (checksum_laws 0 0 0 sampleHeader (by decide)).ipv4_filled (by decide)
  rw [hzero, hsum] at hfilled
  exact ⟨hsum, hfilled⟩

end Nostalux.Net
